import Amlnf.Dev.Layout

set_option relaxedAutoImplicit false
set_option autoImplicit false

/-!
# How the devices tile the chips

Behind the reserved area `amlnand_phydev_init` lays the data devices end to end. A device that
is not the last gets whole stripes of superblocks, as few as hold the superblocks it needs that
are not factory bad; the last device gets the rest of the chips. The start of the search for the
end of a device is kept in 32 bits, so the size comes out right only for a device that starts
below 4 GiB.

## Main definitions

* `SuperGood` — a superblock of a device is not reported factory bad.
* `LeastSize` — the least whole stripes that hold the superblocks a device needs.
* `Tiled` — devices end to end, each of its least size, the last up to the end of the chips.
* `Fair` — in the layout of least sizes, the devices before the last start below 4 GiB and fit
  on the chips.

## Main results

* `devExtent_size` — the size the search comes to, against the least size.
* `tiled_iff_fair` — the devices tile the chips exactly when the configuration is fair.
-/

namespace Amlnf

open Act

/-! ## The layout of least sizes -/

/-- Superblock `j` of a device is not reported factory bad. -/
def SuperGood (fl : Flash) (tbl : BlkStatus) (dev : Phydev) (j : ℕ) : Prop :=
  isbadVal fl tbl (dev.para (j * dev.erasesize)) ≠ 2

instance (fl : Flash) (tbl : BlkStatus) (dev : Phydev) : DecidablePred (SuperGood fl tbl dev) :=
  fun _ => inferInstanceAs (Decidable (_ ≠ _))

/-- Bytes a device that is not the last asks for. -/
def DevPara.want (para : DevPara) : ℕ :=
  if para.partitions = [] then para.size else para.partitions.sum

/-- Superblocks of `e` bytes a device that asks for `want` bytes is to have: the size asked for,
a tenth and four more. -/
def required (want e : ℕ) : ℕ := want / e + (want / e + 9) / 10 + 4

/-- `size` is the least number of bytes in whole stripes of superblocks, from the offset of the
device on, that holds the superblocks required for `want` bytes. -/
def LeastSize (fl : Flash) (tbl : BlkStatus) (dev : Phydev) (want size : ℕ) : Prop :=
  IsLeast {x | ∃ k, x = k * stripe fl * dev.erasesize ∧
    required want dev.erasesize ≤ Nat.count (SuperGood fl tbl dev) (k * stripe fl)} size

/-- The devices lie end to end, each but the last has its least size, and the last one ends with
the chips. -/
def Tiled (fl : Flash) (tbl : BlkStatus) : List DevPara → List Phydev → Prop
  | [_], [dev] => dev.offset + dev.size = chipBytes fl
  | para :: rest, dev :: dev' :: devs =>
    LeastSize fl tbl dev para.want dev.size ∧ dev'.offset = dev.offset + dev.size ∧
      Tiled fl tbl rest (dev' :: devs)
  | _, _ => False

/-- A device in the modes of `para` that starts at byte `x`. -/
def devAt (fl : Flash) (para : DevPara) (x : ℕ) : Phydev := { setModes fl para with offset := x }

/-- Laid out by least sizes from byte `x` on, every device but the last starts below 4 GiB, ends
on the chips and does not share its superblocks between three chips. -/
def Fair (fl : Flash) (tbl : BlkStatus) : ℕ → List DevPara → Prop
  | x, para :: para' :: rest =>
    x < 2 ^ 32 ∧ ¬(para.multiChip ∧ fl.chipNum = 3) ∧ ∃ size,
      LeastSize fl tbl (devAt fl para x) para.want size ∧ x + size ≤ chipBytes fl ∧
        Fair fl tbl (x + size) (para' :: rest)
  | _, _ => True

/-! ## The size of one device -/

section Extent

variable {fl : Flash} {para : DevPara}

lemma stripe_pos (fl : Flash) : 0 < stripe fl :=
  Nat.mul_pos fl.chipNum_pos (by split <;> omega)

/-- A stripe has at most eight blocks. -/
lemma stripe_le (fl : Flash) : stripe fl ≤ 8 := by
  have hplanes : (if fl.multiPlane then 2 else 1) ≤ 2 := by split <;> omega
  exact Nat.mul_le_mul fl.chipNum_le hplanes

/-- Unless three chips share them, superblocks are as large as their shift says. -/
lemma erasesize_eq_pow (h : ¬(para.multiChip ∧ fl.chipNum = 3)) :
    (setModes fl para).erasesize = 2 ^ (setModes fl para).erasesizeShift := by
  have hchips : (if para.multiChip ∧ 1 < fl.chipNum then fl.chipNum else 1) =
      2 ^ (if para.multiChip ∧ 1 < fl.chipNum then chipShift fl else 0) := by
    by_cases hm : para.multiChip ∧ 1 < fl.chipNum
    · have h3 : fl.chipNum ≠ 3 := fun h3 => h ⟨hm.1, h3⟩
      rw [if_pos hm, if_pos hm, two_pow_chipShift, chipFactor, if_neg h3]
    · rw [if_neg hm, if_neg hm, pow_zero]
  have hplanes : (if para.multiPlane ∧ fl.multiPlane then 2 else 1) =
      2 ^ (if para.multiPlane ∧ fl.multiPlane then 1 else 0) := by
    split <;> rfl
  simp only [setModes, hchips, hplanes, Flash.blocksize]
  rw [← pow_add, ← pow_add]
  rfl

/-- A superblock holds a block at least. -/
lemma blocksize_le_erasesize (fl : Flash) (para : DevPara) :
    fl.blocksize ≤ (setModes fl para).erasesize := by
  refine Nat.le_mul_of_pos_right _ (Nat.mul_pos ?_ (by split <;> omega))
  have := fl.chipNum_pos
  split <;> omega

/-- A superblock holds eight blocks at most. -/
lemma erasesize_le_blocks (fl : Flash) (para : DevPara) :
    (setModes fl para).erasesize ≤ 8 * fl.blocksize := by
  have h2 : fl.chipNum ≤ 4 := fl.chipNum_le
  rw [mul_comm 8]
  exact Nat.mul_le_mul_left _ (Nat.mul_le_mul (show _ ≤ 4 by split <;> omega)
    (show _ ≤ 2 by split <;> omega))

/-- The chips hold at most 2^17 superblocks. -/
lemma superblocks_le (fl : Flash) (para : DevPara) {n : ℕ}
    (h : n * (setModes fl para).erasesize ≤ chipBytes fl) : n ≤ 2 ^ 17 := by
  have hpos : 0 < fl.blocksize := Nat.two_pow_pos _
  have h1 : n * fl.blocksize ≤ 2 ^ 17 * fl.blocksize :=
    calc n * fl.blocksize ≤ n * (setModes fl para).erasesize :=
          Nat.mul_le_mul_left _ (blocksize_le_erasesize fl para)
      _ ≤ chipBytes fl := h
      _ ≤ 2 ^ 17 * fl.blocksize := chipBytes_le fl
  exact Nat.le_of_mul_le_mul_right h1 hpos

/-- What can be required of the chips is not too much to ask for in 64 bits. -/
lemma want_lt {want : ℕ} (h : required want (setModes fl para).erasesize ≤ 2 ^ 17) :
    want < 2 ^ 64 := by
  have he : (setModes fl para).erasesize ≤ 2 ^ 31 := erasesize_le para
  have hpos : 0 < (setModes fl para).erasesize :=
    lt_of_lt_of_le (Nat.two_pow_pos _) (blocksize_le_erasesize fl para)
  have hq : want / (setModes fl para).erasesize ≤ 2 ^ 17 := by
    refine le_trans ?_ h
    rw [required, add_assoc]
    exact Nat.le_add_right _ _
  have h1 := Nat.div_add_mod want (setModes fl para).erasesize
  have h2 := Nat.mod_lt want hpos
  have h4 := Nat.mul_le_mul he hq
  omega

/-- What a device needs is computed without loss when it fits on the chips. -/
lemma adjustedBlocks_eq (h3 : ¬(para.multiChip ∧ fl.chipNum = 3)) {want : ℕ}
    (h : required want (setModes fl para).erasesize ≤ 2 ^ 17) :
    adjustedBlocks want (setModes fl para).erasesizeShift =
      required want (setModes fl para).erasesize := by
  rw [adjustedBlocks, Nat.shiftRight_eq_div_pow, ← erasesize_eq_pow h3]
  rw [required] at h ⊢
  generalize want / (setModes fl para).erasesize = q at *
  rw [Nat.mod_eq_of_lt (show q < 2 ^ 32 by omega), show q + 10 - 1 = q + 9 by omega,
    Nat.mod_eq_of_lt (show q + 9 < 2 ^ 32 by omega), Nat.mod_eq_of_lt (by omega)]

/-- A device that is not the last gets the size it asks for. -/
lemma devSize_eq {pre : Phydev} (h : para.want < 2 ^ 64) :
    devSize fl para false pre = para.want := by
  rw [DevPara.want] at h ⊢
  rw [devSize]
  by_cases hp : para.partitions = []
  · rw [if_pos hp, if_pos hp]
  · rw [if_neg hp] at h
    rw [if_neg hp, if_neg hp, if_neg (by decide), Nat.mod_eq_of_lt h]

/-- Rounding to stripes in 32 bits loses nothing on numbers of this size. -/
lemma roundStripe_eq {n : ℕ} (hn : 0 < n) (hlt : n ≤ 2 ^ 20) :
    roundStripe fl n = roundUp (stripe fl) n := by
  have h1 := roundUp_lt (s := stripe fl) hn
  have h2 := stripe_le fl
  rw [roundStripe, show (n + 2 ^ 32 - 1) % 2 ^ 32 = n - 1 by omega]
  exact Nat.mod_eq_of_lt (lt_of_lt_of_le h1 (by omega))

/-- The loop variables and the state of the search for the end of a device after `k` rounds. -/
def ExtentAt (fl : Flash) (s : St) (dev : Phydev) (k : ℕ) (v : ℕ × ℕ) (u : St) : Prop :=
  v = ((dev.offset + k * dev.erasesize) % 2 ^ 64, Nat.count (SuperGood fl s.blkStatus dev) k) ∧
    ∃ p, u = { s with opsPara := { pageAddr := p, option := dev.option } }

/-- A round of the search looks one superblock up and moves nothing but `ops_para`. -/
lemma extentRound_apply {s u : St} {dev : Phydev} {total k : ℕ} {v : ℕ × ℕ}
    (h : ExtentAt fl s dev k v u) :
    extentRound fl dev total v u =
      (some (if Nat.count (SuperGood fl s.blkStatus dev) (k + 1) < total then
          Sum.inl ((dev.offset + (k + 1) * dev.erasesize) % 2 ^ 64,
            Nat.count (SuperGood fl s.blkStatus dev) (k + 1))
        else Sum.inr ((dev.offset + (k + 1) * dev.erasesize) % 2 ^ 64)),
      { s with opsPara := dev.para (k * dev.erasesize) }) := by
  obtain ⟨rfl, p, rfl⟩ := h
  have hnext : ((dev.offset + k * dev.erasesize) % 2 ^ 64 + dev.erasesize) % 2 ^ 64 =
      (dev.offset + (k + 1) * dev.erasesize) % 2 ^ 64 := by
    rw [Nat.mod_add_mod, Nat.succ_mul, add_assoc]
  have hcount : (if isbadVal fl s.blkStatus (dev.para (k * dev.erasesize)) = 2 then
      Nat.count (SuperGood fl s.blkStatus dev) k
      else Nat.count (SuperGood fl s.blkStatus dev) k + 1) =
      Nat.count (SuperGood fl s.blkStatus dev) (k + 1) := by
    rw [Nat.count_succ]
    by_cases hb : isbadVal fl s.blkStatus (dev.para (k * dev.erasesize)) = 2
    · rw [if_pos hb, if_neg (show ¬SuperGood _ _ _ k from not_not.mpr hb), add_zero]
    · rw [if_neg hb, if_pos (show SuperGood _ _ _ k from hb)]
  rw [extentRound, modify_bind, blockIsbad]
  change (if (if isbadVal fl s.blkStatus (dev.para (k * dev.erasesize)) = 2 then
    Nat.count (SuperGood fl s.blkStatus dev) k
    else Nat.count (SuperGood fl s.blkStatus dev) k + 1) < total then
    pure (Sum.inl (_, if isbadVal fl s.blkStatus (dev.para (k * dev.erasesize)) = 2 then
      Nat.count (SuperGood fl s.blkStatus dev) k
      else Nat.count (SuperGood fl s.blkStatus dev) k + 1))
    else pure (Sum.inr _) : Act St _) _ = _
  simp only [hcount, hnext]
  split <;> rfl

/-- A round of the search for the end that goes on. -/
lemma extentRound_go {s u : St} {dev : Phydev} {total k : ℕ} {v : ℕ × ℕ}
    (h : ExtentAt fl s dev k v u)
    (hlt : Nat.count (SuperGood fl s.blkStatus dev) (k + 1) < total) :
    ∃ v' t, extentRound fl dev total v u = (some (Sum.inl v'), t) ∧
      ExtentAt fl s dev (k + 1) v' t := by
  rw [extentRound_apply h, if_pos hlt]
  exact ⟨_, _, rfl, rfl, _, rfl⟩

/-- The round that finds the last superblock needed. -/
lemma extentRound_stop {s u : St} {dev : Phydev} {total k : ℕ} {v : ℕ × ℕ}
    (h : ExtentAt fl s dev k v u)
    (hlt : ¬Nat.count (SuperGood fl s.blkStatus dev) (k + 1) < total) :
    ∃ stop t, extentRound fl dev total v u = (some (Sum.inr stop), t) ∧
      stop = (dev.offset + (k + 1) * dev.erasesize) % 2 ^ 64 ∧ ∃ p, t = { s with opsPara := p } := by
  rw [extentRound_apply h, if_neg hlt]
  exact ⟨_, _, rfl, rfl, _, rfl⟩

/-- The size that comes of a search that stops after `n` superblocks. -/
def extentSize (fl : Flash) (dev : Phydev) (n : ℕ) : ℕ :=
  roundStripe fl (((((dev.offset + n * dev.erasesize) % 2 ^ 64 + 2 ^ 64 - dev.offset % 2 ^ 32)
    % 2 ^ 64) >>> dev.erasesizeShift) % 2 ^ 32) * dev.erasesize

/-- **When the search returns, it has passed the superblocks the device is to have.** -/
lemma devExtent_spec {s t : St} {dev : Phydev} {want size : ℕ} (hoff : dev.offset < 2 ^ 64)
    (hpos : 0 < adjustedBlocks want dev.erasesizeShift)
    (h : devExtent fl dev dev.offset want s = (some size, t)) :
    (∃ n, CountsTo (SuperGood fl s.blkStatus dev) (adjustedBlocks want dev.erasesizeShift) n ∧
      size = extentSize fl dev n) ∧ ∃ p, t = { s with opsPara := p } := by
  rw [devExtent, modify_bind] at h
  obtain ⟨stop, u, hstop, h⟩ := bind_eq_some h
  have hloop := spec_countLoop (J := ExtentAt fl s dev)
    (A := fun n stop t => stop = (dev.offset + n * dev.erasesize) % 2 ^ 64 ∧
      ∃ p, t = { s with opsPara := p })
    (fun _ _ _ h => extentRound_go h) (fun _ _ _ h => extentRound_stop h) hpos (2 ^ 32)
    (dev.offset, 0)
  obtain ⟨n, hn, rfl, p, rfl⟩ := hloop.returned
    (s := { s with opsPara := { option := dev.option } })
    ⟨by rw [zero_mul, add_zero, Nat.mod_eq_of_lt hoff, Nat.count_zero], 0, rfl⟩ hstop
  simp only [pure_apply, Prod.mk.injEq, Option.some.injEq] at h
  exact ⟨⟨n, hn, h.1.symm⟩, p, h.2.symm⟩

/-- The search returns when it can stop. -/
lemma devExtent_returns {s : St} (dev : Phydev) {want n : ℕ} (hoff : dev.offset < 2 ^ 64)
    (hn : CountsTo (SuperGood fl s.blkStatus dev) (adjustedBlocks want dev.erasesizeShift) n)
    (hle : n ≤ 2 ^ 32) :
    ∃ p, devExtent fl dev dev.offset want s =
      (some (extentSize fl dev n), { s with opsPara := p }) := by
  obtain ⟨stop, t, ht, rfl, p, rfl⟩ := countLoop_returns (J := ExtentAt fl s dev)
    (A := fun n stop t => stop = (dev.offset + n * dev.erasesize) % 2 ^ 64 ∧
      ∃ p, t = { s with opsPara := p })
    (fun _ _ _ h => extentRound_go h) (fun _ _ _ h => extentRound_stop h) hn hle
    (b := (dev.offset, 0)) (s := { s with opsPara := { option := dev.option } })
    ⟨by rw [zero_mul, add_zero, Nat.mod_eq_of_lt hoff, Nat.count_zero], 0, rfl⟩
  refine ⟨p, ?_⟩
  rw [devExtent, modify_bind, bind_some ht]
  rfl

/-- The size of a device that starts at `x`: the part of `x` above 32 bits is counted into it. -/
lemma extentSize_eq (h3 : ¬(para.multiChip ∧ fl.chipNum = 3)) {x n : ℕ} (hx : x ≤ chipBytes fl)
    (hn : 0 < n) (hle : n ≤ 2 ^ 17) :
    extentSize fl (devAt fl para x) n =
      roundUp (stripe fl) (n + (x - x % 2 ^ 32) / (setModes fl para).erasesize) *
        (setModes fl para).erasesize := by
  have hchip := chipBytes_lt fl
  have he : (setModes fl para).erasesize ≤ 2 ^ 31 := erasesize_le para
  set e := (setModes fl para).erasesize with he'
  have hpos : 0 < e := lt_of_lt_of_le (Nat.two_pow_pos _) (blocksize_le_erasesize fl para)
  have hne : n * e ≤ 2 ^ 17 * 2 ^ 31 := Nat.mul_le_mul hle he
  have hmod : x % 2 ^ 32 ≤ x := Nat.mod_le _ _
  have hq : (x - x % 2 ^ 32) / e ≤ 2 ^ 17 := by
    refine superblocks_le fl para (le_trans ?_ hx)
    exact (Nat.div_mul_le_self _ _).trans (Nat.sub_le _ _)
  have hstop : ((x + n * e) % 2 ^ 64 + 2 ^ 64 - x % 2 ^ 32) % 2 ^ 64
      = n * e + (x - x % 2 ^ 32) := by omega
  have hblocks : (n * e + (x - x % 2 ^ 32)) / e = n + (x - x % 2 ^ 32) / e := by
    rw [add_comm, Nat.add_mul_div_right _ _ hpos, add_comm]
  change roundStripe fl (((((x + n * e) % 2 ^ 64 + 2 ^ 64 - x % 2 ^ 32) % 2 ^ 64)
    >>> (setModes fl para).erasesizeShift) % 2 ^ 32) * e = _
  rw [hstop, Nat.shiftRight_eq_div_pow, ← erasesize_eq_pow h3, ← he', hblocks]
  clear hblocks hstop
  generalize (x - x % 2 ^ 32) / e = q at hq ⊢
  rw [Nat.mod_eq_of_lt (show n + q < 2 ^ 32 by omega), roundStripe_eq (by omega) (by omega)]

lemma required_pos (want e : ℕ) : 0 < required want e := Nat.succ_pos _

/-- What a least size says: the search for the superblocks required stops inside it. -/
lemma LeastSize.countsTo {tbl : BlkStatus} {dev : Phydev} {want size : ℕ}
    (h : LeastSize fl tbl dev want size) :
    ∃ n, CountsTo (SuperGood fl tbl dev) (required want dev.erasesize) n ∧
      size = roundUp (stripe fl) n * dev.erasesize := by
  obtain ⟨⟨k, -, hk⟩, -⟩ := id h
  obtain ⟨n, -, hn⟩ := exists_countsTo (required_pos _ _) hk
  exact ⟨n, hn, h.unique (hn.isLeast_roundUp (stripe_pos fl))⟩

/-- **The size of a device that is not the last.** When its least size fits on the chips, it gets
its least size with the part of the offset above 32 bits counted in. -/
lemma devExtent_size (h3 : ¬(para.multiChip ∧ fl.chipNum = 3)) {x size size' : ℕ} {s t : St}
    {pre : Phydev} (hleast : LeastSize fl s.blkStatus (devAt fl para x) para.want size)
    (hfit : x + size ≤ chipBytes fl)
    (hrun : devExtent fl (devAt fl para x) x (devSize fl para false pre) s = (some size', t)) :
    ∃ n, 0 < n ∧ size = roundUp (stripe fl) n * (setModes fl para).erasesize ∧
      size' = roundUp (stripe fl) (n + (x - x % 2 ^ 32) / (setModes fl para).erasesize) *
        (setModes fl para).erasesize := by
  obtain ⟨n, hn, hsize⟩ := hleast.countsTo
  have hsize' : size = roundUp (stripe fl) n * (setModes fl para).erasesize := hsize
  have hround : n ≤ 2 ^ 17 := by
    refine (le_roundUp (stripe_pos fl)).trans (superblocks_le fl para ?_)
    rw [← hsize']
    omega
  have hreq : required para.want (setModes fl para).erasesize ≤ 2 ^ 17 := hn.le.trans hround
  have hadj := adjustedBlocks_eq h3 hreq
  have hchip := chipBytes_lt fl
  rw [devSize_eq (want_lt hreq)] at hrun
  have hoff : (devAt fl para x).offset < 2 ^ 64 := by
    change x < 2 ^ 64
    omega
  have hpos : 0 < adjustedBlocks para.want (devAt fl para x).erasesizeShift := by
    change 0 < adjustedBlocks para.want (setModes fl para).erasesizeShift
    rw [hadj]
    exact required_pos _ _
  obtain ⟨⟨m, hm, hm'⟩, -⟩ := devExtent_spec hoff hpos hrun
  have hmn : m = n := by
    refine CountsTo.unique (p := SuperGood fl s.blkStatus (devAt fl para x)) ?_ hn
    rw [show required para.want (devAt fl para x).erasesize =
      adjustedBlocks para.want (devAt fl para x).erasesizeShift from hadj.symm]
    exact hm
  rw [hmn, extentSize_eq h3 (by omega) hn.1 hround] at hm'
  exact ⟨n, hn.1, hsize', hm'⟩

/-- Below 4 GiB the size is the least size. -/
lemma devExtent_least (h3 : ¬(para.multiChip ∧ fl.chipNum = 3)) {x size size' : ℕ} {s t : St}
    {pre : Phydev} (hleast : LeastSize fl s.blkStatus (devAt fl para x) para.want size)
    (hfit : x + size ≤ chipBytes fl) (hx : x < 2 ^ 32)
    (hrun : devExtent fl (devAt fl para x) x (devSize fl para false pre) s = (some size', t)) :
    size' = size := by
  obtain ⟨n, -, h1, h2⟩ := devExtent_size h3 hleast hfit hrun
  rw [h1, h2, Nat.mod_eq_of_lt hx, Nat.sub_self, Nat.zero_div, add_zero]

/-- From 4 GiB on it is not, as a stripe of superblocks is no larger. -/
lemma lt_of_devExtent_least (h3 : ¬(para.multiChip ∧ fl.chipNum = 3))
    (hgeo : 64 * fl.blocksize ≤ 2 ^ 32) {x size : ℕ} {s t : St} {pre : Phydev}
    (hleast : LeastSize fl s.blkStatus (devAt fl para x) para.want size)
    (hfit : x + size ≤ chipBytes fl)
    (hrun : devExtent fl (devAt fl para x) x (devSize fl para false pre) s = (some size, t)) :
    x < 2 ^ 32 := by
  obtain ⟨n, hn, h1, h2⟩ := devExtent_size h3 hleast hfit hrun
  have hpos : 0 < (setModes fl para).erasesize :=
    lt_of_lt_of_le (Nat.two_pow_pos _) (blocksize_le_erasesize fl para)
  have heq := Nat.eq_of_mul_eq_mul_right hpos (h1.symm.trans h2)
  by_contra hge
  have hstripe : stripe fl ≤ (x - x % 2 ^ 32) / (setModes fl para).erasesize := by
    rw [Nat.le_div_iff_mul_le hpos]
    calc stripe fl * (setModes fl para).erasesize
        ≤ 8 * (8 * fl.blocksize) := Nat.mul_le_mul (stripe_le fl) (erasesize_le_blocks fl para)
      _ = 64 * fl.blocksize := by ring
      _ ≤ 2 ^ 32 := hgeo
      _ ≤ x - x % 2 ^ 32 := by omega
  have hlt := roundUp_lt (s := stripe fl) hn
  have hle := le_roundUp (n := n + (x - x % 2 ^ 32) / (setModes fl para).erasesize) (stripe_pos fl)
  omega

end Extent

/-! ## The devices of a configuration -/

section Devices

variable {fl : Flash}

/-- The locals before a data device that will start at byte `x`: the offset comes out as `x`, and
the device before does not end behind it. -/
structure StartsAt (fl : Flash) (l : InitLocals) (s : St) (x : ℕ) : Prop where
  offset : ∃ p, devOffset fl l s = (some x, { s with opsPara := p })
  index : l.bootFlag = true → 1 ≤ l.index
  pre_le : ∀ pre, l.pre = some pre →
    pre.offset + pre.size ≤ x ∧ pre.offset + pre.size ≤ chipBytes fl
  lt : x < 2 ^ 47

/-- The bad-block table is as it was. -/
def SameTable (s t : St) : Prop := t.blkStatus = s.blkStatus

instance : Std.Refl SameTable := ⟨fun _ => rfl⟩

instance : IsTrans St SameTable := ⟨fun _ _ _ h h' => h'.trans h⟩

/-- Sizing a device leaves the table alone. -/
lemma sameTable_devBytes (fl : Flash) (dev : Phydev) (isLast : Bool) (want : ℕ) :
    Moves SameTable (devBytes fl dev isLast want) := by
  refine .ite (fun _ => .pure _) fun _ => ?_
  refine .bind (.modify fun _ => rfl) fun _ => .bind (.loopUntil (fun v => ?_) _ _) fun _ => .pure _
  refine .bind (.modify fun _ => rfl) fun _ => .bind ?_ fun ret => .ite (fun _ => .pure _) fun _ => .pure _
  exact .bind .get fun _ => .pure _

/-- What setting up one data device comes to. -/
lemma initData_eq {l : InitLocals} {para : DevPara} {isLast : Bool} {s t : St} {x : ℕ}
    {dev : Phydev} (hx : StartsAt fl l s x) (hp : isLast = true → para.partitions ≠ [])
    (h : initData fl l para isLast s = (some (some dev), t)) :
    dev = { devAt fl para x with size := dev.size } ∧
      (x + dev.size) % 2 ^ 64 ≤ chipBytes fl ∧ (isLast = true → l.pre.isSome) ∧
      ∃ u, u.blkStatus = s.blkStatus ∧ t.blkStatus = s.blkStatus ∧
        devBytes fl (devAt fl para x) isLast (devSize fl para isLast (l.pre.getD (bootDev fl))) u =
          (some dev.size, t) := by
  obtain ⟨p, hoff⟩ := hx.offset
  rw [initData] at h
  by_cases hnull : l.pre.isNone = true ∧ isLast = true ∧ para.partitions ≠ []
  · rw [if_pos hnull] at h
    simp at h
  · rw [if_neg hnull, bind_some hoff] at h
    obtain ⟨size, v, hsz, h⟩ := bind_eq_some h
    replace hsz : devBytes fl (devAt fl para x) isLast
        (devSize fl para isLast (l.pre.getD (bootDev fl))) { s with opsPara := p } =
        (some size, v) := hsz
    have htbl : SameTable { s with opsPara := p } v := by
      have := sameTable_devBytes fl (devAt fl para x) isLast
        (devSize fl para isLast (l.pre.getD (bootDev fl))) { s with opsPara := p }
      rwa [hsz] at this
    simp only at h
    by_cases hcmp : chipBytes fl < (x + size) % 2 ^ 64
    · rw [if_pos hcmp] at h
      simp at h
    · rw [if_neg hcmp] at h
      simp only [pure_apply, Prod.mk.injEq, Option.some.injEq] at h
      obtain ⟨rfl, rfl⟩ := h
      refine ⟨rfl, not_lt.mp hcmp, fun hl => ?_, { s with opsPara := p }, rfl, htbl, hsz⟩
      rw [← Option.not_isNone, Bool.not_eq_true', Bool.eq_false_iff]
      exact fun hn => hnull ⟨hn, hl, hp hl⟩

/-- The last device takes the rest of the chips. -/
lemma initData_rest {l : InitLocals} {para : DevPara} {s t : St} {x : ℕ} {dev : Phydev}
    (hx : StartsAt fl l s x) (hp : para.partitions ≠ [])
    (h : initData fl l para true s = (some (some dev), t)) :
    dev.offset = x ∧ dev.boot = false ∧ dev.offset + dev.size = chipBytes fl := by
  obtain ⟨hdev, hend, hsome, u, -, -, hsz⟩ := initData_eq hx (fun _ => hp) h
  obtain ⟨pre, hpre⟩ := Option.isSome_iff_exists.mp (hsome rfl)
  obtain ⟨h1, h2⟩ := hx.pre_le pre hpre
  have h3 := chipBytes_lt fl
  have h4 := hx.lt
  have hoff : dev.offset = x := by rw [hdev]; rfl
  simp only [devBytes, if_true, pure_apply, Prod.mk.injEq, Option.some.injEq, hpre,
    Option.getD_some, devSize, if_neg hp] at hsz
  refine ⟨hoff, by rw [hdev]; rfl, ?_⟩
  omega

/-- Any other device ends on the chips, and its size is the one the search comes to. -/
lemma initData_mid {l : InitLocals} {para : DevPara} {s t : St} {x : ℕ} {dev : Phydev}
    (hx : StartsAt fl l s x) (h : initData fl l para false s = (some (some dev), t)) :
    dev = { devAt fl para x with size := dev.size } ∧ x + dev.size ≤ chipBytes fl ∧
      ∃ u pre, u.blkStatus = s.blkStatus ∧ t.blkStatus = s.blkStatus ∧
        devExtent fl (devAt fl para x) x (devSize fl para false pre) u = (some dev.size, t) := by
  obtain ⟨hdev, hend, -, u, hu, ht, hsz⟩ := initData_eq hx (by simp) h
  have hrun : devExtent fl (devAt fl para x) x
      (devSize fl para false (l.pre.getD (bootDev fl))) u = (some dev.size, t) := hsz
  have hle := devExtent_le hrun (erasesize_le para)
  have hlt := hx.lt
  rw [Nat.mod_eq_of_lt (by omega)] at hend
  exact ⟨hdev, hend, u, _, hu, ht, hrun⟩

/-- Behind a device that is set up, the next one starts where it ends. -/
lemma StartsAt.next {l : InitLocals} {s : St} {x : ℕ} (hx : StartsAt fl l s x) (dev : Phydev)
    (hoff : dev.offset = x) (hend : x + dev.size ≤ chipBytes fl) (t : St) :
    StartsAt fl { l with index := l.index + 1, pre := some dev } t (x + dev.size) where
  offset := by
    have hlt := chipBytes_lt fl
    have hne : ¬(l.bootFlag = true ∧ l.index + 1 = 1) := by
      rintro ⟨hb, hi⟩
      have := hx.index hb
      omega
    refine ⟨t.opsPara, ?_⟩
    rw [devOffset]
    simp only [if_neg hne, pure_apply, hoff]
    rw [Nat.mod_eq_of_lt (by omega)]
  index := fun _ => Nat.succ_pos _
  pre_le := by
    rintro pre hpre
    obtain rfl : dev = pre := by simpa using hpre
    rw [hoff]
    exact ⟨le_refl _, hend⟩
  lt := by
    have := chipBytes_lt fl
    omega

/-- Fairness says how the first device lies. -/
lemma fair_cons {tbl : BlkStatus} {x : ℕ} {para para' : DevPara} {rest : List DevPara} :
    Fair fl tbl x (para :: para' :: rest) ↔
      x < 2 ^ 32 ∧ ¬(para.multiChip ∧ fl.chipNum = 3) ∧ ∃ size,
        LeastSize fl tbl (devAt fl para x) para.want size ∧ x + size ≤ chipBytes fl ∧
          Fair fl tbl (x + size) (para' :: rest) := Iff.rfl

/-- **The data devices of a configuration that is set up tile the chips exactly when the
configuration is fair.** The second direction is for one, two or four chips.

**Proof sketch.** By induction on the devices. The first device starts where the locals say, and
the next where it ends. Its size is the one the search comes to, which is the least size below
4 GiB; from there on it is not, so devices of least size start below 4 GiB. -/
lemma initDevs_tiled (hgeo : 64 * fl.blocksize ≤ 2 ^ 32) {ds : List DevPara} {tbl : BlkStatus}
    (hboot : ∀ d ∈ ds, d.boot = false) (hlast : ∀ d, ds.getLast? = some d → d.partitions ≠ [])
    (hne : ds ≠ []) {l : InitLocals} {s t : St} {x : ℕ} {devs : List Phydev}
    (htbl : s.blkStatus = tbl) (hx : StartsAt fl l s x)
    (h : initDevs fl l ds s = (some (0, devs), t)) :
    (∃ d tl, devs = d :: tl ∧ d.offset = x) ∧ (∀ d ∈ devs, d.boot = false) ∧
      (Fair fl tbl x ds → Tiled fl tbl ds devs) ∧
      (fl.chipNum ≠ 3 → Tiled fl tbl ds devs → Fair fl tbl x ds) := by
  induction ds generalizing l s t x devs with
  | nil => exact absurd rfl hne
  | cons para rest ih =>
    have hb : ¬para.boot = true := by simp [hboot para List.mem_cons_self]
    rw [initDevs, if_neg hb] at h
    obtain ⟨o, u, ho, h⟩ := bind_eq_some h
    cases o with
    | none =>
      simp only [pure_apply, Prod.mk.injEq, Option.some.injEq] at h
      exact absurd h.1.1 (by decide)
    | some dev =>
      obtain ⟨⟨ret', devs'⟩, v, hd, h⟩ := bind_eq_some h
      simp only [pure_apply, Prod.mk.injEq, Option.some.injEq] at h
      obtain ⟨⟨rfl, rfl⟩, -⟩ := h
      cases rest with
      | nil =>
        -- the last device
        simp only [initDevs, pure_apply, Prod.mk.injEq, Option.some.injEq] at hd
        obtain ⟨⟨-, rfl⟩, -⟩ := hd
        obtain ⟨h1, h2, h3⟩ := initData_rest hx (hlast para rfl) ho
        refine ⟨⟨dev, [], rfl, h1⟩, fun d hd => ?_, fun _ => h3, fun _ _ => trivial⟩
        rw [List.mem_singleton.mp hd]
        exact h2
      | cons para' rest =>
        obtain ⟨hdev, hend, w, pre, hw, hu, hrun⟩ := initData_mid hx ho
        have hoff : dev.offset = x := by rw [hdev]; rfl
        obtain ⟨⟨d', tl, rfl, hd'⟩, hbs, hfwd, hbwd⟩ := ih
          (fun d hd => hboot d (List.mem_cons_of_mem _ hd)) hlast (by simp)
          (hu.trans htbl) (hx.next dev hoff hend u) hd
        refine ⟨⟨dev, d' :: tl, rfl, hoff⟩, ?_, ?_, ?_⟩
        · intro d hd
          rcases List.mem_cons.mp hd with rfl | hd
          · rw [hdev]
            rfl
          · exact hbs d hd
        · rw [fair_cons]
          rintro ⟨hlt, h3, size, hleast, hfit, hfair⟩
          obtain rfl : dev.size = size := by
            rw [← htbl, ← hw] at hleast
            exact devExtent_least h3 hleast hfit hlt hrun
          refine ⟨?_, by rw [hoff]; exact hd', hfwd hfair⟩
          rw [hdev]
          exact hleast
        · rintro h3 ⟨hleast, -, htiled⟩
          have h3' : ¬(para.multiChip = true ∧ fl.chipNum = 3) := fun hc => h3 hc.2
          rw [hdev] at hleast
          replace hleast : LeastSize fl tbl (devAt fl para x) para.want dev.size := hleast
          refine fair_cons.mpr ⟨?_, h3', dev.size, hleast, hend, hbwd h3 htiled⟩
          rw [← htbl, ← hw] at hleast
          exact lt_of_devExtent_least h3' hgeo hleast hend hrun

end Devices

/-! ## Whole configurations -/

section Config

variable {fl : Flash}

/-- The data devices start at byte `x`: behind the boot device, if there is one, and the whole
stripes in which 48 blocks are not factory bad. -/
def FirstStart (fl : Flash) (tbl : BlkStatus) (boot : Bool) (x : ℕ) : Prop :=
  ∃ n, CountsTo (CountGood fl tbl (if boot then fl.startBlk else 0)) reservedBlockCnt n ∧
    x = (roundStripe fl (n % 2 ^ 32) * fl.blocksize) % 2 ^ 32 +
      if boot then 1024 * fl.pagesize else 0

/-- The first data device starts at one place. -/
lemma FirstStart.unique {tbl : BlkStatus} {boot : Bool} {x y : ℕ}
    (hx : FirstStart fl tbl boot x) (hy : FirstStart fl tbl boot y) : x = y := by
  obtain ⟨n, hn, rfl⟩ := hx
  obtain ⟨m, hm, rfl⟩ := hy
  rw [hn.unique hm]

/-- Does the configuration start with a boot device? -/
def hasBoot (config : List DevPara) : Bool := config.head?.any fun d => d.boot

/-- The devices of a configuration that are not boot devices. -/
def dataParas (config : List DevPara) : List DevPara := config.filter fun d => !d.boot

/-- The layout of least sizes behind the reserved area is fair. -/
def FairConfig (fl : Flash) (tbl : BlkStatus) (config : List DevPara) : Prop :=
  ∃ x, FirstStart fl tbl (hasBoot config) x ∧ Fair fl tbl x (dataParas config)

/-- The data devices that were set up tile the chips. -/
def TiledConfig (fl : Flash) (tbl : BlkStatus) (config : List DevPara) (devs : List Phydev) :
    Prop :=
  Tiled fl tbl (dataParas config) (devs.filter fun d => !d.boot)

/-- A configuration as the driver lays it out: a boot device stands first if anywhere, and the
last device is a data device with partitions. -/
structure LaidOut (config : List DevPara) : Prop where
  boot_first : ∀ d ∈ config.tail, d.boot = false
  last : ∃ d, config.getLast? = some d ∧ d.boot = false ∧ d.partitions ≠ []

/-- The locals with which the first data device is set up. -/
def firstLocals (fl : Flash) (boot : Bool) : InitLocals :=
  if boot then { index := 1, bootFlag := true, tmpBlk := fl.startBlk, pre := some (bootDev fl) }
  else {}

/-- The boot area has at most 256 MiB. -/
lemma pagesize_le (fl : Flash) : 1024 * fl.pagesize ≤ 2 ^ 28 := by
  have h := fl.shift_lt
  calc 1024 * fl.pagesize = 2 ^ (fl.pageShift + 10) := by rw [Flash.pagesize]; ring
    _ ≤ 2 ^ 28 := Nat.pow_le_pow_right (by omega) (by omega)

/-- A data device that is set up has an offset. -/
lemma exists_devOffset {l : InitLocals} {para : DevPara} {rest : List DevPara} {s t : St}
    {r : ℤ × List Phydev} (hb : para.boot = false)
    (h : initDevs fl l (para :: rest) s = (some r, t)) :
    ∃ x u, devOffset fl l s = (some x, u) := by
  rw [initDevs, if_neg (by simp [hb])] at h
  obtain ⟨o, v, ho, -⟩ := bind_eq_some h
  rw [initData] at ho
  split_ifs at ho
  · simp at ho
  · obtain ⟨x, u, hx, -⟩ := bind_eq_some ho
    exact ⟨x, u, hx⟩

/-- The first data device starts behind the reserved area. -/
lemma startsAt_first (hroom : 1024 * fl.pagesize ≤ chipBytes fl) (boot : Bool) {s u : St} {x : ℕ}
    (h : devOffset fl (firstLocals fl boot) s = (some x, u)) :
    FirstStart fl s.blkStatus boot x ∧ StartsAt fl (firstLocals fl boot) s x := by
  have hpage := pagesize_le fl
  have hlt : ∀ n, (roundStripe fl (n % 2 ^ 32) * fl.blocksize) % 2 ^ 32 < 2 ^ 32 :=
    fun n => Nat.mod_lt _ (by norm_num)
  cases boot with
  | true =>
    have h' := h
    simp only [firstLocals, if_true, devOffset, and_self] at h'
    obtain ⟨n, v, hn, h'⟩ := bind_eq_some h'
    obtain ⟨hcount, p, rfl⟩ := countReserved_countsTo hn
    simp only [pure_apply, Prod.mk.injEq, Option.some.injEq] at h'
    obtain ⟨rfl, rfl⟩ := h'
    refine ⟨⟨n, by rwa [if_pos rfl], by rw [if_pos rfl, bootDev]⟩, ⟨p, h⟩, fun _ => ?_, ?_, ?_⟩
    · rw [firstLocals, if_pos rfl]
    · rintro pre hpre
      obtain rfl : bootDev fl = pre := by simpa [firstLocals] using hpre
      simp only [bootDev, zero_add]
      exact ⟨Nat.le_add_left _ _, hroom⟩
    · have := hlt n
      simp only [bootDev]
      omega
  | false =>
    have h' := h
    simp only [firstLocals, Bool.false_eq_true, if_false, devOffset] at h'
    obtain ⟨n, v, hn, h'⟩ := bind_eq_some h'
    obtain ⟨hcount, p, rfl⟩ := countReserved_countsTo hn
    simp only [pure_apply, Prod.mk.injEq, Option.some.injEq] at h'
    obtain ⟨rfl, rfl⟩ := h'
    refine ⟨⟨n, by rwa [if_neg Bool.false_ne_true], by rw [if_neg Bool.false_ne_true, add_zero]⟩,
      ⟨p, h⟩, fun hb => ?_, ?_, ?_⟩
    · simp [firstLocals] at hb
    · rintro pre hpre
      simp [firstLocals] at hpre
    · have := hlt n
      omega

/-- The data devices of a configuration come of the loop that starts behind the boot device. -/
lemma exists_initDevs {config : List DevPara} (hc : LaidOut config) {s t : St}
    {devs : List Phydev} (h : amlnandPhydevInit fl config s = (some (0, devs), t)) :
    ∃ devs', initDevs fl (firstLocals fl (hasBoot config)) (dataParas config) s =
        (some (0, devs'), t) ∧
      (devs.filter fun d => !d.boot) = devs'.filter fun d => !d.boot := by
  obtain ⟨b, rest, rfl⟩ : ∃ b rest, config = b :: rest := by
    obtain ⟨d, hd, -⟩ := hc.last
    cases config with
    | nil => simp at hd
    | cons b rest => exact ⟨b, rest, rfl⟩
  have hrest : (rest.filter fun d => !d.boot) = rest := by
    rw [List.filter_eq_self]
    intro d hd
    rw [hc.boot_first d hd]
    rfl
  rw [amlnandPhydevInit, if_neg (by simp)] at h
  cases hb : b.boot with
  | true =>
    have hdata : dataParas (b :: rest) = rest := by
      rw [dataParas, List.filter_cons_of_neg (by simp [hb]), hrest]
    have hhas : hasBoot (b :: rest) = true := by simp [hasBoot, hb]
    rw [initDevs, if_pos hb] at h
    split_ifs at h
    · simp at h
    · obtain ⟨⟨ret, devs'⟩, v, hd, h⟩ := bind_eq_some h
      simp only [pure_apply, Prod.mk.injEq, Option.some.injEq] at h
      obtain ⟨⟨rfl, rfl⟩, rfl⟩ := h
      refine ⟨devs', ?_, ?_⟩
      · rw [hdata, hhas]
        exact hd
      · rw [List.filter_cons_of_neg (by simp [bootDev])]
  | false =>
    have hdata : dataParas (b :: rest) = b :: rest := by
      rw [dataParas, List.filter_cons_of_pos (by simp [hb]), hrest]
    have hhas : hasBoot (b :: rest) = false := by simp [hasBoot, hb]
    refine ⟨devs, ?_, rfl⟩
    rw [hdata, hhas]
    exact h

end Config

/-- **The data devices tile the chips exactly when the configuration is fair.** Fairness is
enough on any number of chips, and necessary on one, two or four. -/
theorem tiled_iff_fair (fl : Flash) (hgeo : 64 * fl.blocksize ≤ 2 ^ 32)
    (hroom : 1024 * fl.pagesize ≤ chipBytes fl) (config : List DevPara) (hc : LaidOut config)
    (s t : St) (devs : List Phydev)
    (h : amlnandPhydevInit fl config s = (some (0, devs), t)) :
    (FairConfig fl s.blkStatus config → TiledConfig fl s.blkStatus config devs) ∧
      (fl.chipNum ≠ 3 → TiledConfig fl s.blkStatus config devs →
        FairConfig fl s.blkStatus config) := by
  obtain ⟨devs', hd, hfilter⟩ := exists_initDevs hc h
  obtain ⟨last, hlast, hlb, hlp⟩ := hc.last
  have hmem : last ∈ dataParas config :=
    List.mem_filter.mpr ⟨List.mem_of_getLast? hlast, by simp [hlb]⟩
  have hboot : ∀ d ∈ dataParas config, d.boot = false := fun d hd => by
    simpa using (List.mem_filter.mp hd).2
  have hlast' : ∀ d, (dataParas config).getLast? = some d → d.partitions ≠ [] := by
    obtain ⟨init, rfl⟩ := List.getLast?_eq_some_iff.mp hlast
    intro d hd
    rw [dataParas, List.filter_append, List.filter_singleton, hlb] at hd
    obtain rfl : last = d := by simpa using hd
    exact hlp
  obtain ⟨para, rest, hcons⟩ := List.exists_cons_of_ne_nil (List.ne_nil_of_mem hmem)
  obtain ⟨x, u, hoff⟩ := exists_devOffset (hboot para (by rw [hcons]; exact List.mem_cons_self))
    (hcons ▸ hd)
  obtain ⟨hfirst, hstart⟩ := startsAt_first hroom _ hoff
  obtain ⟨-, hb', hfwd, hbwd⟩ := initDevs_tiled hgeo hboot hlast' (List.ne_nil_of_mem hmem) rfl
    hstart hd
  have hself : (devs'.filter fun d => !d.boot) = devs' := by
    rw [List.filter_eq_self]
    intro d hd
    rw [hb' d hd]
    rfl
  rw [TiledConfig, hfilter, hself]
  refine ⟨?_, fun h3 ht => ⟨x, hfirst, hbwd h3 ht⟩⟩
  rintro ⟨y, hy, hfair⟩
  rw [hfirst.unique hy] at hfwd
  exact hfwd hfair

/-! ## Chips without bad blocks -/

section Good

variable {fl : Flash}

/-- On chips without bad blocks every block is reported good. -/
lemma isbadVal_good (p : ChipOpsPara) : isbadVal fl (fun _ _ => blockGood) p = 0 := by
  rw [isbadVal]
  induction isbadEntries fl p with
  | nil => rfl
  | cons e es ih =>
    have he : getBlcokStatus (fun _ _ => blockGood) e.1 e.2 = 0 := rfl
    rw [firstBad, if_neg (not_not.mpr he)]
    exact ih

/-- In a table without bad blocks every superblock counts. -/
lemma superGood_good (dev : Phydev) (j : ℕ) : SuperGood fl (fun _ _ => blockGood) dev j := by
  rw [SuperGood, isbadVal_good]
  decide

/-- The size a device at byte `x` gets on chips without bad blocks. -/
def goodSize (fl : Flash) (para : DevPara) (x : ℕ) : ℕ :=
  extentSize fl (devAt fl para x)
    (adjustedBlocks (para.partitions.sum % 2 ^ 64) (setModes fl para).erasesizeShift)

/-- The device of that size. -/
def goodDev (fl : Flash) (para : DevPara) (x : ℕ) : Phydev :=
  { devAt fl para x with size := goodSize fl para x }

/-- Setting up a device that is not the last, on chips without bad blocks. -/
lemma initData_good {l : InitLocals} {para : DevPara} {s : St} {x : ℕ} (hx : StartsAt fl l s x)
    (hs : s.blkStatus = fun _ _ => blockGood) (hp : para.partitions ≠ [])
    (hpos : 0 < adjustedBlocks (para.partitions.sum % 2 ^ 64) (setModes fl para).erasesizeShift)
    (hend : x + goodSize fl para x ≤ chipBytes fl) :
    ∃ p, initData fl l para false s = (some (some (goodDev fl para x)), { s with opsPara := p }) := by
  obtain ⟨q, hoff⟩ := hx.offset
  have hlt := hx.lt
  have hchip := chipBytes_lt fl
  have hn : CountsTo (SuperGood fl ({ s with opsPara := q } : St).blkStatus (devAt fl para x))
      (adjustedBlocks (para.partitions.sum % 2 ^ 64) (devAt fl para x).erasesizeShift)
      (adjustedBlocks (para.partitions.sum % 2 ^ 64) (devAt fl para x).erasesizeShift) := by
    refine countsTo_of_forall (fun j => ?_) hpos
    simp only [hs]
    exact superGood_good _ _
  obtain ⟨p, hp'⟩ := devExtent_returns (devAt fl para x) (by change x < 2 ^ 64; omega) hn
    (Nat.mod_lt _ (by norm_num)).le
  replace hp' : devBytes fl (devAt fl para x) false
      (devSize fl para false (l.pre.getD (bootDev fl))) { s with opsPara := q } =
      (some (goodSize fl para x), { s with opsPara := p }) := by
    rw [devSize, if_neg hp, if_neg Bool.false_ne_true]
    exact hp'
  have hcmp : ¬chipBytes fl < (x + goodSize fl para x) % 2 ^ 64 := by
    rw [Nat.mod_eq_of_lt (by omega)]
    omega
  refine ⟨p, ?_⟩
  rw [initData, if_neg (by simp), bind_some hoff]
  refine (bind_some hp').trans ?_
  simp only
  rw [if_neg hcmp]
  rfl

/-- The last device of a configuration, behind a device that ends on the chips. -/
def restDev (fl : Flash) (para : DevPara) (x : ℕ) : Phydev :=
  { devAt fl para x with size := chipBytes fl - x }

/-- The last device takes what is left. -/
lemma initData_good_last {l : InitLocals} {pre : Phydev} {para : DevPara} {s : St} {x : ℕ}
    (hx : StartsAt fl l s x) (hpre : l.pre = some pre) (hend : pre.offset + pre.size = x)
    (hp : para.partitions ≠ []) :
    ∃ p, initData fl l para true s = (some (some (restDev fl para x)), { s with opsPara := p }) := by
  obtain ⟨p, hoff⟩ := hx.offset
  have hle := (hx.pre_le pre hpre).2
  have hlt := chipBytes_lt fl
  have hwant : devSize fl para true (l.pre.getD (bootDev fl)) = chipBytes fl - x := by
    rw [hpre, Option.getD_some, devSize, if_neg hp, if_pos rfl]
    omega
  exact ⟨p, initData_last (fun hnone => absurd (hpre.symm.trans hnone) (by simp)) hoff hwant
    (show x + (chipBytes fl - x) ≤ chipBytes fl by omega)⟩

/-- The devices laid out from byte `x` on, on chips without bad blocks. -/
def goodDevs (fl : Flash) : ℕ → List DevPara → List Phydev
  | _, [] => []
  | x, [para] => [restDev fl para x]
  | x, para :: para' :: rest =>
    goodDev fl para x :: goodDevs fl (x + goodSize fl para x) (para' :: rest)

/-- Every device but the last ends on the chips. -/
def GoodFit (fl : Flash) : ℕ → List DevPara → Prop
  | x, para :: para' :: rest =>
    x + goodSize fl para x ≤ chipBytes fl ∧ GoodFit fl (x + goodSize fl para x) (para' :: rest)
  | _, _ => True

/-- Data devices that end on the chips are set up on chips without bad blocks. -/
lemma initDevs_good {ds : List DevPara} (hd : ∀ d ∈ ds, d.boot = false ∧ d.partitions ≠ [] ∧
      0 < adjustedBlocks (d.partitions.sum % 2 ^ 64) (setModes fl d).erasesizeShift)
    {l : InitLocals} {s : St} {x : ℕ} (hx : StartsAt fl l s x)
    (hs : s.blkStatus = fun _ _ => blockGood)
    (hl : ds.length = 1 → ∃ pre, l.pre = some pre ∧ pre.offset + pre.size = x)
    (hfit : GoodFit fl x ds) :
    ∃ t, initDevs fl l ds s = (some (0, goodDevs fl x ds), t) := by
  induction ds generalizing l s x with
  | nil => exact ⟨s, rfl⟩
  | cons para rest ih =>
    obtain ⟨hb, hp, hpos⟩ := hd para List.mem_cons_self
    rw [initDevs, if_neg (by simp [hb])]
    cases rest with
    | nil =>
      obtain ⟨pre, hpre, hend⟩ := hl rfl
      obtain ⟨q, hq⟩ := initData_good_last hx hpre hend hp
      exact ⟨_, (bind_some hq).trans rfl⟩
    | cons para' rest =>
      obtain ⟨q, hq⟩ := initData_good hx hs hp hpos hfit.1
      obtain ⟨t, ht⟩ := ih (fun d hd' => hd d (List.mem_cons_of_mem _ hd'))
        (hx.next (goodDev fl para x) rfl hfit.1 { s with opsPara := q }) hs
        (fun _ => ⟨_, rfl, rfl⟩) hfit.2
      exact ⟨t, (bind_some hq).trans ((bind_some ht).trans rfl)⟩

/-- First byte behind the reserved area of chips without bad blocks. -/
def goodStart (fl : Flash) : ℕ :=
  (roundStripe fl reservedBlockCnt * fl.blocksize) % 2 ^ 32 + 1024 * fl.pagesize

/-- In a table without bad blocks the count ends after 48. -/
lemma countGood_good (tmp : ℕ) :
    CountsTo (CountGood fl (fun _ _ => blockGood) tmp) reservedBlockCnt reservedBlockCnt := by
  refine countsTo_of_forall (fun k => ?_) (by decide)
  rw [CountGood, isbadVal_good]
  decide

/-- A boot device and two or more data devices that end on the chips are set up on chips without
bad blocks. -/
lemma init_good (fl : Flash) (b : DevPara) (ds : List DevPara) (hb : b.boot = true) (hlen : 2 ≤ ds.length)
    (hd : ∀ d ∈ ds, d.boot = false ∧ d.partitions ≠ [] ∧
      0 < adjustedBlocks (d.partitions.sum % 2 ^ 64) (setModes fl d).erasesizeShift)
    (hroom : 1024 * fl.pagesize ≤ chipBytes fl) (hfit : GoodFit fl (goodStart fl) ds) :
    ∃ t, amlnandPhydevInit fl (b :: ds) St.blank =
      (some (0, bootDev fl :: goodDevs fl (goodStart fl) ds), t) := by
  obtain ⟨p, hp⟩ := @countReserved_returns fl St.blank _ _
    (countGood_good fl.startBlk) (by decide)
  have hoff : devOffset fl (firstLocals fl true) St.blank =
      (some (goodStart fl), { St.blank with opsPara := p }) := by
    simp only [firstLocals, if_true, devOffset, and_self]
    rw [bind_some hp, pure_apply, goodStart, bootDev,
      Nat.mod_eq_of_lt (show reservedBlockCnt < 2 ^ 32 by decide)]
  obtain ⟨t, ht⟩ := initDevs_good hd (startsAt_first hroom true hoff).2 rfl (by omega) hfit
  refine ⟨t, ?_⟩
  rw [amlnandPhydevInit, if_neg (by simp), initDevs, if_pos hb, if_neg (by
    rintro ⟨-, rfl, -⟩
    simp at hlen)]
  exact (bind_some ht).trans rfl

/-- The least size of a device on chips without bad blocks. -/
lemma leastSize_good (dev : Phydev) (want : ℕ) :
    LeastSize fl (fun _ _ => blockGood) dev want
      (roundUp (stripe fl) (required want dev.erasesize) * dev.erasesize) :=
  (countsTo_of_forall (superGood_good dev) (required_pos _ _)).isLeast_roundUp (stripe_pos fl)

end Good

/-- A data device with one partition of `mib` MiB. -/
def dataPara (mib : ℕ) : DevPara := ⟨false, 0, [mib * 2 ^ 20], false, false⟩

/-- The boot device and three data devices, the first two of the given sizes in MiB. -/
def threeData (m n : ℕ) : List DevPara :=
  [⟨true, 0, [], false, false⟩, dataPara m, dataPara n, dataPara 1]

/-- The three data devices make a configuration. -/
lemma laidOut_threeData (m n : ℕ) : LaidOut (threeData m n) where
  boot_first := by
    intro d hd
    simp only [threeData, List.tail_cons, List.mem_cons, List.not_mem_nil, or_false] at hd
    rcases hd with rfl | rfl | rfl <;> rfl
  last := ⟨dataPara 1, rfl, rfl, by simp [dataPara]⟩

/-- One chip of 4 GiB: devices of 256 and 512 MiB and the rest tile it. -/
theorem tiled_oneChip :
    ∃ devs t, amlnandPhydevInit .oneChip (threeData 256 512) St.blank = (some (0, devs), t) ∧
      TiledConfig .oneChip (fun _ _ => blockGood) (threeData 256 512) devs := by
  obtain ⟨t, ht⟩ := init_good .oneChip ⟨true, 0, [], false, false⟩
    [dataPara 256, dataPara 512, dataPara 1] rfl (by decide) (by decide) (by decide)
    ⟨by decide, by decide, trivial⟩
  refine ⟨_, t, ht, (tiled_iff_fair .oneChip (by decide) (by decide) (threeData 256 512)
    (laidOut_threeData 256 512) St.blank t _ ht).1 ?_⟩
  refine ⟨goodStart .oneChip, ⟨reservedBlockCnt, countGood_good _, by decide⟩, by decide, by decide,
    _, leastSize_good _ _, by decide, by decide, by decide, _, leastSize_good _ _, by decide,
    trivial⟩

/-- Four chips of 4 GiB: the second data device starts behind 4 GiB and gets 2088 superblocks
where 40 would hold what it needs. -/
theorem not_tiled_fourChips :
    ¬∀ (s t : St) (devs : List Phydev), s.blkStatus = (fun _ _ => blockGood) →
      amlnandPhydevInit (.h27ubg8t2a 4 (by decide) (by decide)) (threeData 4096 64) s =
        (some (0, devs), t) →
      TiledConfig (.h27ubg8t2a 4 (by decide) (by decide)) (fun _ _ => blockGood)
        (threeData 4096 64) devs := by
  intro h
  obtain ⟨t, ht⟩ := init_good (.h27ubg8t2a 4 (by decide) (by decide))
    ⟨true, 0, [], false, false⟩ [dataPara 4096, dataPara 64, dataPara 1] rfl
    (by decide) (by decide) (by decide) ⟨by decide, by decide, trivial⟩
  obtain ⟨-, -, hleast, -, -⟩ := h St.blank t _ rfl ht
  have heq := hleast.unique (leastSize_good _ _)
  revert heq
  decide

end Amlnf
