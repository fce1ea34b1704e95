import Mathlib.Tactic.IntervalCases
import Amlnf.Dev.Phydev
import Amlnf.Lib.Count
import Amlnf.Phy.Reserve

set_option relaxedAutoImplicit false
set_option autoImplicit false

/-!
# Where the data devices lie

The record store maps reserved block `b` to chip `b % chip_num` and row
`b / chip_num + tmp - tmp / chip_num`. `amlnand_phydev_init` places the first data device
behind the reserved blocks by a byte offset, and a device in multi-chip mode divides byte
offsets by the number of chips. With a boot device the two agree on a single chip; on several
chips the boot area counts once for the record store and once per chip for the data devices.
Without one, `amlnand_phydev_init` leaves no room for the boot area at all.

## Main definitions

* `Configured` — the two kinds of configurations `amlnand_get_dev_num` writes: the boot device
  first and data devices behind it, or data devices only.
* `CountEnd` — how many blocks `amlnand_phydev_init` counts for the reserved area.
* `dataStart`, `firstDataRow` — first byte of the data devices, and the lowest row a data
  device can reach.
* `Reaches` — a device addresses a block.

## Main results

* `amlnandPhydevInit_data` — every data device starts at `dataStart` or later and ends on the
  chip.
* `layout_disjoint_iff` — no data device of any configuration of a kind reaches a reserved block
  exactly when the last reserved row is below `firstDataRow`, or no room is left for data.
-/

namespace Amlnf

open Act

section Geometry

variable (fl : Flash)

/-- A byte address on the chips counted in pages fits 32 bits. -/
lemma chipBytes_le : chipBytes fl ≤ 2 ^ 17 * fl.blocksize := by
  have h1 := fl.chipsize_le
  have h2 := fl.chipNum_le
  calc chipBytes fl = fl.chipNum * (fl.chipsize * 2 ^ 20) := by unfold chipBytes; ring
    _ ≤ maxChipNum * (maxChipBlks * fl.blocksize) := Nat.mul_le_mul h2 h1
    _ = 2 ^ 17 * fl.blocksize := by unfold maxChipNum maxChipBlks; ring

/-- A block has at most 256 MiB. -/
lemma blocksize_le : fl.blocksize ≤ 2 ^ 28 := by
  have h1 := fl.shift_lt
  have h2 := fl.ppbShift_le
  exact Nat.pow_le_pow_right (by omega) (by omega)

/-- The bytes of all chips. -/
lemma chipBytes_lt : chipBytes fl < 2 ^ 46 := by
  have h1 := chipBytes_le fl
  have h2 := blocksize_le fl
  omega

/-- Chips that share one row in multi-chip mode, as the write shift counts them. -/
def chipFactor : ℕ := if fl.chipNum = 3 then 1 else fl.chipNum

/-- The extra shift of a device in multi-chip mode. -/
def chipShift : ℕ := if fl.chipNum = 2 then 1 else if fl.chipNum = 4 then 2 else 0

/-- The shift for several chips, as a factor. -/
lemma two_pow_chipShift : 2 ^ chipShift fl = chipFactor fl := by
  have h1 := fl.chipNum_pos
  have h2 : fl.chipNum ≤ 4 := fl.chipNum_le
  unfold chipShift chipFactor
  generalize fl.chipNum = c at h1 h2
  interval_cases c <;> rfl

lemma chipFactor_pos : 0 < chipFactor fl := by
  rw [← two_pow_chipShift]
  exact Nat.two_pow_pos _

/-- No more chips share a row than there are. -/
lemma chipFactor_le : chipFactor fl ≤ fl.chipNum := by
  unfold chipFactor
  split <;> omega

/-- `tmp_blk`: the blocks of the boot area when there is a boot device. -/
def bootBlks (boot : Bool) : ℕ := if boot then fl.startBlk else 0

/-- Bytes of the boot device, when there is one. -/
def bootBytes (boot : Bool) : ℕ := if boot then 1024 * fl.pagesize else 0

/-- First byte of the data devices when `n` blocks are counted for the reserved area. -/
def dataStart (boot : Bool) (n : ℕ) : ℕ :=
  (roundStripe fl (n % 2 ^ 32) * fl.blocksize) % 2 ^ 32 + bootBytes fl boot

/-- The boot area is made of whole blocks. -/
lemma startBlk_mul : fl.startBlk * fl.blocksize = 1024 * fl.pagesize := by
  have hdvd : 2 ^ fl.ppbShift ∣ 1024 := pow_dvd_pow 2 fl.ppbShift_le
  have hblk : fl.blocksize = 2 ^ fl.ppbShift * fl.pagesize := by
    rw [Flash.blocksize_eq, Flash.ppb, Nat.mul_comm]
  have hstart : fl.startBlk = 1024 * fl.pagesize / fl.blocksize := Nat.shiftRight_eq_div_pow _ _
  rw [hstart, Nat.div_mul_cancel]
  rw [hblk]
  exact Nat.mul_dvd_mul_right hdvd _

/-- The boot area has less than 512 MiB. -/
lemma bootBytes_lt (boot : Bool) : bootBytes fl boot < 2 ^ 29 := by
  have h1 : fl.pagesize ≤ 2 ^ 18 := Nat.pow_le_pow_right (by omega) (by have := fl.shift_lt; omega)
  unfold bootBytes
  split <;> omega

/-- Where data begins, in bytes. -/
lemma dataStart_lt (boot : Bool) (n : ℕ) : dataStart fl boot n < 2 ^ 33 := by
  have h1 := bootBytes_lt fl boot
  have h2 : (roundStripe fl (n % 2 ^ 32) * fl.blocksize) % 2 ^ 32 < 2 ^ 32 :=
    Nat.mod_lt _ (by norm_num)
  unfold dataStart
  omega

/-- Row of byte `x` on each chip, for a device that divides by `k` chips. -/
def rowAt (k : ℕ) (plane : Bool) (x : ℕ) : ℕ :=
  if plane then 2 * (x / fl.blocksize / k / 2) else x / fl.blocksize / k

/-- The lowest row a data device can reach: the row of `dataStart` in all the modes the chips
allow. -/
def firstDataRow (boot : Bool) (n : ℕ) : ℕ :=
  rowAt fl (chipFactor fl) fl.multiPlane (dataStart fl boot n)

/-- Later bytes, fewer chips and single planes only make the row larger. -/
lemma rowAt_mono {k k' x y : ℕ} {p q : Bool} (hk : 0 < k') (hkk : k' ≤ k) (hpq : q → p)
    (hxy : x ≤ y) : rowAt fl k p x ≤ rowAt fl k' q y := by
  have h1 : x / fl.blocksize / k ≤ y / fl.blocksize / k' :=
    (Nat.div_le_div_left hkk hk).trans' (Nat.div_le_div_right (Nat.div_le_div_right hxy))
  unfold rowAt
  cases p <;> cases q <;> simp_all <;> omega

end Geometry

/-! ## The devices set up by `amlnand_phydev_init` -/

section Init

variable {fl : Flash}

/-- The `k`-th block looked up while the reserved blocks are counted is not factory bad. Its row is
that of block `k + tmp_blk`, its chip that of block `k`. -/
def CountNotFactory (fl : Flash) (boot : Bool) (tbl : BlkStatus) (k : ℕ) : Prop :=
  tbl (k % fl.chipNum) ((k + bootBlks fl boot) / fl.chipNum + bootBlks fl boot
    - bootBlks fl boot / fl.chipNum) ≠ blockFactoryBad

instance (fl : Flash) (boot : Bool) (tbl : BlkStatus) :
    DecidablePred (CountNotFactory fl boot tbl) := fun k =>
  inferInstanceAs (Decidable (tbl (k % fl.chipNum) _ ≠ blockFactoryBad))

/-- `n` blocks are counted for the reserved area: the last of them is the 48th that is not
factory bad. -/
def CountEnd (fl : Flash) (boot : Bool) (tbl : BlkStatus) (n : ℕ) : Prop :=
  CountsTo (CountNotFactory fl boot tbl) reservedBlockCnt n

/-- The `k`-th block looked up, with `tmp` blocks of boot area, is not reported factory bad. -/
def CountGood (fl : Flash) (tbl : BlkStatus) (tmp k : ℕ) : Prop :=
  isbadVal fl tbl (countPara fl tmp k) ≠ 2

instance (fl : Flash) (tbl : BlkStatus) (tmp : ℕ) : DecidablePred (CountGood fl tbl tmp) :=
  fun _ => inferInstanceAs (Decidable (_ ≠ _))

/-- The status seen by a round of the count. -/
lemma countGood_iff (boot : Bool) (tbl : BlkStatus) (k : ℕ) :
    CountGood fl tbl (bootBlks fl boot) k ↔ CountNotFactory fl boot tbl k := by
  have hdiv : ∀ b, (b - b % fl.chipNum) / fl.chipNum = b / fl.chipNum := by
    intro b
    have hdm := Nat.div_add_mod b fl.chipNum
    rw [show b - b % fl.chipNum = fl.chipNum * (b / fl.chipNum) by omega,
      Nat.mul_div_cancel_left _ fl.chipNum_pos]
  rw [CountGood, isbadVal_single fl tbl rfl, ne_eq, getBlcokStatus_eq_two_iff, CountNotFactory]
  simp only [countPara, Nat.mul_div_cancel _ fl.ppb_pos, hdiv, ne_eq]

lemma countsTo_iff_countEnd (boot : Bool) (tbl : BlkStatus) (n : ℕ) :
    CountsTo (CountGood fl tbl (bootBlks fl boot)) reservedBlockCnt n ↔ CountEnd fl boot tbl n :=
  countsTo_congr (countGood_iff boot tbl)

/-- A round of the count moves `ops_para` and nothing else. -/
lemma countRound_apply (tmp : ℕ) (v : ℕ × ℕ) (s : St) :
    countRound fl tmp v s =
      (some (if v.2 + (if CountGood fl s.blkStatus tmp v.1 then 1 else 0) < reservedBlockCnt then
          Sum.inl (v.1 + 1, v.2 + if CountGood fl s.blkStatus tmp v.1 then 1 else 0)
        else Sum.inr (v.1 + 1)),
      { s with opsPara := countPara fl tmp v.1 }) := by
  rw [countRound, modify_bind, blockIsbad]
  change (if (if isbadVal fl s.blkStatus (countPara fl tmp v.1) = 2 then v.2 else v.2 + 1)
    < reservedBlockCnt then _ else _ : Act St _) _ = _
  by_cases h : isbadVal fl s.blkStatus (countPara fl tmp v.1) = 2
  · simp only [CountGood, h, ne_eq, not_true_eq_false, if_true, if_false, Nat.add_zero]
    split <;> rfl
  · simp only [CountGood, h, ne_eq, not_false_eq_true, if_true, if_false]
    split <;> rfl

/-- The loop variables and the state of the count after `k` rounds. -/
def CountAt (fl : Flash) (s : St) (tmp k : ℕ) (v : ℕ × ℕ) (u : St) : Prop :=
  v = (k, Nat.count (CountGood fl s.blkStatus tmp) k) ∧ ∃ p, u = { s with opsPara := p }

/-- A round of the count that goes on. -/
lemma countRound_go {s u : St} {tmp k : ℕ} {v : ℕ × ℕ} (h : CountAt fl s tmp k v u)
    (hlt : Nat.count (CountGood fl s.blkStatus tmp) (k + 1) < reservedBlockCnt) :
    ∃ v' t, countRound fl tmp v u = (some (Sum.inl v'), t) ∧ CountAt fl s tmp (k + 1) v' t := by
  obtain ⟨rfl, p, rfl⟩ := h
  rw [countRound_apply]
  simp only
  rw [← Nat.count_succ, if_pos hlt]
  exact ⟨_, _, rfl, rfl, _, rfl⟩

/-- The round that finds the last block counted. -/
lemma countRound_stop {s u : St} {tmp k : ℕ} {v : ℕ × ℕ} (h : CountAt fl s tmp k v u)
    (hlt : ¬Nat.count (CountGood fl s.blkStatus tmp) (k + 1) < reservedBlockCnt) :
    ∃ n t, countRound fl tmp v u = (some (Sum.inr n), t) ∧ n = k + 1 ∧
      ∃ p, t = { s with opsPara := p } := by
  obtain ⟨rfl, p, rfl⟩ := h
  rw [countRound_apply]
  simp only
  rw [← Nat.count_succ, if_neg hlt]
  exact ⟨_, _, rfl, rfl, _, rfl⟩

/-- When the count returns, it returns where the search for 48 good blocks stops, having moved
nothing but `ops_para`. -/
lemma countReserved_countsTo {s t : St} {tmp n : ℕ}
    (h : countReserved fl tmp s = (some n, t)) :
    CountsTo (CountGood fl s.blkStatus tmp) reservedBlockCnt n ∧ ∃ p, t = { s with opsPara := p } := by
  rw [countReserved, modify_bind] at h
  have hloop := spec_countLoop (J := CountAt fl s tmp)
    (A := fun m n t => n = m ∧ ∃ p, t = { s with opsPara := p }) (fun _ _ _ h => countRound_go h)
    (fun _ _ _ h => countRound_stop h) (by decide) scanFuel (0, 0)
  obtain ⟨m, hm, rfl, ht⟩ :=
    hloop.returned (s := { s with opsPara := {} }) ⟨by rw [Nat.count_zero], _, rfl⟩ h
  exact ⟨hm, ht⟩

/-- The count returns when the search stops inside the table. -/
lemma countReserved_returns {s : St} {tmp n : ℕ}
    (h : CountsTo (CountGood fl s.blkStatus tmp) reservedBlockCnt n) (hn : n ≤ scanFuel) :
    ∃ p, countReserved fl tmp s = (some n, { s with opsPara := p }) := by
  obtain ⟨a, t, ht, rfl, p, rfl⟩ := countLoop_returns (J := CountAt fl s tmp)
    (A := fun m n t => n = m ∧ ∃ p, t = { s with opsPara := p }) (fun _ _ _ h => countRound_go h)
    (fun _ _ _ h => countRound_stop h) h hn (b := (0, 0)) (s := { s with opsPara := {} })
    ⟨by rw [Nat.count_zero], _, rfl⟩
  exact ⟨p, by rw [countReserved, modify_bind, ht]⟩

/-- **When the count returns, it returns the end of the counted area.** -/
lemma countReserved_spec {s t : St} {boot : Bool} {n : ℕ}
    (h : countReserved fl (bootBlks fl boot) s = (some n, t)) : CountEnd fl boot s.blkStatus n :=
  (countsTo_iff_countEnd _ _ _).mp (countReserved_countsTo h).1

/-- The count returns when it ends inside the table. -/
lemma countReserved_eq {s : St} {boot : Bool} {n : ℕ} (h : CountEnd fl boot s.blkStatus n)
    (hn : n ≤ scanFuel) :
    ∃ p, countReserved fl (bootBlks fl boot) s = (some n, { s with opsPara := p }) :=
  countReserved_returns ((countsTo_iff_countEnd _ _ _).mpr h) hn

/-- A data device set up from some parameters, at or behind byte `x` and on the chips. -/
structure DataDev (fl : Flash) (x : ℕ) (dev : Phydev) : Prop where
  modes : ∃ para, dev = { setModes fl para with offset := dev.offset, size := dev.size }
  start_le : x ≤ dev.offset
  end_le : dev.offset + dev.size ≤ chipBytes fl

/-- Data devices only, none so large that adding its offset overflows. -/
def DataOnly (config : List DevPara) : Prop := ∀ d ∈ config, d.boot = false ∧ d.size < 2 ^ 63

/-- The configurations `amlnand_get_dev_num` writes: with a boot device, this one comes first and
only there; otherwise there are data devices only. -/
def Configured : Bool → List DevPara → Prop
  | true, config => ∃ b rest, config = b :: rest ∧ b.boot = true ∧ DataOnly rest
  | false, config => DataOnly config

/-- The erase size fits 32 bits. -/
lemma erasesize_le (para : DevPara) : (setModes fl para).erasesize ≤ 2 ^ 31 := by
  have h1 := blocksize_le fl
  have h2 : fl.chipNum ≤ 4 := fl.chipNum_le
  have h3 : (if para.multiChip ∧ 1 < fl.chipNum then fl.chipNum else 1) *
      (if para.multiPlane ∧ fl.multiPlane then 2 else 1) ≤ 4 * 2 :=
    Nat.mul_le_mul (by split <;> omega) (by split <;> omega)
  exact (Nat.mul_le_mul h1 h3).trans (by norm_num)

/-- The extent of a device is a number of blocks that fits 32 bits. -/
lemma devExtent_le {dev : Phydev} {start want size : ℕ} {s t : St}
    (h : devExtent fl dev start want s = (some size, t)) (he : dev.erasesize ≤ 2 ^ 31) :
    size ≤ 2 ^ 63 := by
  rw [devExtent, modify_bind] at h
  obtain ⟨stop, u, -, h⟩ := bind_eq_some h
  simp only [pure_apply, Prod.mk.injEq, Option.some.injEq] at h
  rw [← h.1]
  have h1 : ∀ n, roundStripe fl n ≤ 2 ^ 32 := fun n => (Nat.mod_lt _ (by norm_num)).le
  exact (Nat.mul_le_mul (h1 _) he).trans (by norm_num)

/-- The locals before the first data device: the boot device, if there is one, came before it. -/
structure AtFirst (fl : Flash) (boot : Bool) (l : InitLocals) : Prop where
  pre : l.pre = if boot then some (bootDev fl) else none
  index : boot = true → l.index = 1

/-- The locals before another data device: the device before is a data device. -/
def AtNext (fl : Flash) (boot : Bool) (x : ℕ) (l : InitLocals) : Prop :=
  ∃ pre, l.pre = some pre ∧ (boot = true → 1 < l.index) ∧ DataDev fl x pre

/-- The locals before a data device of a configuration. -/
structure InitReady (fl : Flash) (boot : Bool) (x : ℕ) (l : InitLocals) : Prop where
  bootFlag : l.bootFlag = boot
  tmpBlk : l.tmpBlk = bootBlks fl boot
  place : AtFirst fl boot l ∨ AtNext fl boot x l

/-- A device behind another is not the first. -/
lemma AtNext.not_first {boot : Bool} {x : ℕ} {l : InitLocals} (h : AtNext fl boot x l) :
    ¬AtFirst fl boot l := by
  obtain ⟨pre, hpre, hidx, -⟩ := h
  rintro ⟨hnone, hone⟩
  cases boot with
  | true =>
    have h1 := hidx rfl
    have h2 := hone rfl
    omega
  | false =>
    rw [hpre] at hnone
    cases hnone

/-- Offset of a data device. -/
lemma devOffset_spec {boot : Bool} {l : InitLocals} {s t : St} {n off : ℕ}
    (hn : AtFirst fl boot l → CountEnd fl boot s.blkStatus n)
    (hl : InitReady fl boot (dataStart fl boot n) l) (h : devOffset fl l s = (some off, t)) :
    (AtFirst fl boot l ∧ off = dataStart fl boot n) ∨
      ∃ pre, l.pre = some pre ∧ DataDev fl (dataStart fl boot n) pre ∧
        off = pre.offset + pre.size := by
  obtain ⟨hflag, htmp, hfirst | hnext⟩ := hl
  · refine .inl ⟨hfirst, ?_⟩
    have hend := hn hfirst
    obtain ⟨hpre, hidx⟩ := hfirst
    cases boot with
    | true =>
      rw [if_pos rfl] at hpre
      rw [devOffset, hpre] at h
      simp only [hflag, hidx rfl, and_self, if_true, htmp] at h
      obtain ⟨m, u, hm, h⟩ := bind_eq_some h
      obtain rfl := (countReserved_spec hm).unique hend
      simp only [pure_apply, Prod.mk.injEq, Option.some.injEq] at h
      rw [← h.1, dataStart, bootBytes, if_pos rfl, bootDev]
    | false =>
      rw [if_neg (by decide)] at hpre
      rw [devOffset, hpre] at h
      simp only [htmp] at h
      obtain ⟨m, u, hm, h⟩ := bind_eq_some h
      obtain rfl := (countReserved_spec hm).unique hend
      simp only [pure_apply, Prod.mk.injEq, Option.some.injEq] at h
      rw [← h.1, dataStart, bootBytes, if_neg (by decide), Nat.add_zero]
  · obtain ⟨pre, hpre, hidx, hdev⟩ := hnext
    have hne : ¬(l.bootFlag = true ∧ l.index = 1) := by
      rintro ⟨h1, h2⟩
      have := hidx (hflag ▸ h1)
      omega
    rw [devOffset, hpre] at h
    simp only [if_neg hne, pure_apply, Prod.mk.injEq, Option.some.injEq] at h
    have hend := hdev.end_le
    have hlt := chipBytes_lt fl
    refine .inr ⟨pre, hpre, hdev, ?_⟩
    rw [← h.1, Nat.mod_eq_of_lt (by omega)]

/-- The rest of the chips behind the device before. -/
lemma devSize_rest {boot : Bool} {l : InitLocals} {para : DevPara} {pre : Phydev} {x : ℕ}
    (hboot : bootBytes fl boot ≤ chipBytes fl) (hl : InitReady fl boot x l)
    (hpre : l.pre = some pre) (hparts : para.partitions ≠ []) :
    devSize fl para true pre ≤ chipBytes fl := by
  have hlt := chipBytes_lt fl
  have hend : pre.offset + pre.size ≤ chipBytes fl := by
    obtain ⟨-, -, ⟨hfirst, -⟩ | ⟨q, hq, -, hdev⟩⟩ := hl
    · cases boot with
      | true =>
        rw [hpre, if_pos rfl] at hfirst
        cases hfirst
        simpa [bootDev, bootBytes] using hboot
      | false =>
        rw [hpre, if_neg (by decide)] at hfirst
        cases hfirst
    · rw [hpre] at hq
      cases hq
      exact hdev.end_le
  rw [devSize, if_neg hparts, if_pos rfl]
  omega

/-- What a data device that has been set up satisfies.

**Proof sketch.** Offsets are at most the end of the device before. The size is bounded in each
of its three forms, so that the comparison with the size of the chips does not overflow. -/
lemma initData_spec {boot : Bool} {l : InitLocals} {para : DevPara} {isLast : Bool} {s t : St}
    {n : ℕ} {dev : Phydev} (hn : AtFirst fl boot l → CountEnd fl boot s.blkStatus n)
    (hboot : bootBytes fl boot ≤ chipBytes fl) (hl : InitReady fl boot (dataStart fl boot n) l)
    (hsize : para.size < 2 ^ 63) (h : initData fl l para isLast s = (some (some dev), t)) :
    DataDev fl (dataStart fl boot n) dev := by
  have hlt := chipBytes_lt fl
  rw [initData] at h
  by_cases hnull : l.pre.isNone = true ∧ isLast = true ∧ para.partitions ≠ []
  · rw [if_pos hnull] at h
    cases h
  rw [if_neg hnull] at h
  obtain ⟨off, u, hoff, h⟩ := bind_eq_some h
  obtain ⟨size, v, hsz, h⟩ := bind_eq_some h
  have hstart : dataStart fl boot n ≤ off ∧ off < 2 ^ 46 := by
    rcases devOffset_spec hn hl hoff with ⟨-, rfl⟩ | ⟨q, -, hq, rfl⟩
    · exact ⟨le_rfl, (dataStart_lt fl boot n).trans (by norm_num)⟩
    · have := hq.end_le
      exact ⟨hq.start_le.trans (Nat.le_add_right _ _), by omega⟩
  have hbound : off + size < 2 ^ 64 := by
    cases isLast with
    | false =>
      have := devExtent_le hsz (erasesize_le para)
      omega
    | true =>
      simp only [devBytes, if_true, pure_apply, Prod.mk.injEq, Option.some.injEq] at hsz
      rw [← hsz.1]
      by_cases hparts : para.partitions = []
      · rw [devSize, if_pos hparts]
        omega
      · obtain ⟨pre, hpre⟩ : ∃ pre, l.pre = some pre := by
          rw [← Option.isSome_iff_exists, Option.isSome_iff_ne_none]
          simpa [hparts] using hnull
        have := devSize_rest hboot hl hpre hparts
        rw [hpre, Option.getD_some]
        omega
  simp only at h
  by_cases hcmp : chipBytes fl < (off + size) % 2 ^ 64
  · rw [if_pos hcmp] at h
    simp at h
  · rw [if_neg hcmp] at h
    simp only [pure_apply, Prod.mk.injEq, Option.some.injEq] at h
    rw [Nat.mod_eq_of_lt hbound] at hcmp
    rw [← h.1]
    exact ⟨⟨para, rfl⟩, hstart.1, by simp only; omega⟩

/-- **Every data device lies behind `dataStart` and on the chips.** -/
lemma initDevs_data {boot : Bool} {rest : List DevPara} {l : InitLocals} {s t : St} {n : ℕ}
    {devs : List Phydev} {ret : ℤ} (hn : AtFirst fl boot l → CountEnd fl boot s.blkStatus n)
    (hboot : bootBytes fl boot ≤ chipBytes fl) (hl : InitReady fl boot (dataStart fl boot n) l)
    (hrest : DataOnly rest) (h : initDevs fl l rest s = (some (ret, devs), t)) :
    ∀ d ∈ devs, DataDev fl (dataStart fl boot n) d := by
  induction rest generalizing l s t devs ret with
  | nil =>
    simp only [initDevs, pure_apply, Prod.mk.injEq, Option.some.injEq] at h
    obtain ⟨⟨-, rfl⟩, -⟩ := h
    exact fun d hd => absurd hd List.not_mem_nil
  | cons para rest ih =>
    have hpara := hrest para List.mem_cons_self
    rw [initDevs, if_neg (by simp [hpara.1])] at h
    obtain ⟨o, u, ho, h⟩ := bind_eq_some h
    cases o with
    | none =>
      simp only [pure_apply, Prod.mk.injEq, Option.some.injEq] at h
      obtain ⟨⟨-, rfl⟩, -⟩ := h
      exact fun d hd => absurd hd List.not_mem_nil
    | some dev =>
      have hdev := initData_spec hn hboot hl hpara.2 ho
      obtain ⟨⟨ret', devs'⟩, v, hd, h⟩ := bind_eq_some h
      simp only [pure_apply, Prod.mk.injEq, Option.some.injEq] at h
      obtain ⟨⟨-, rfl⟩, -⟩ := h
      have hidx : boot = true → 1 ≤ l.index := by
        intro hb
        rcases hl.place with hfirst | ⟨-, -, hidx, -⟩
        · exact (hfirst.index hb).ge
        · exact (hidx hb).le
      have hnext : AtNext fl boot (dataStart fl boot n)
          { l with index := l.index + 1, pre := some dev } :=
        ⟨dev, rfl, fun hb => Nat.lt_succ_of_le (hidx hb), hdev⟩
      intro d hmem
      rcases List.mem_cons.1 hmem with rfl | hmem
      · exact hdev
      · refine ih (l := { l with index := l.index + 1, pre := some dev }) (s := u)
          (fun h1 => absurd h1 hnext.not_first) ⟨hl.bootFlag, hl.tmpBlk, .inr hnext⟩
          (fun d hd => hrest d (List.mem_cons_of_mem _ hd)) hd d hmem

/-- **The devices of a configuration**: every data device lies behind `dataStart` and on the
chips. -/
lemma amlnandPhydevInit_data {boot : Bool} {config : List DevPara} {s t : St} {n : ℕ}
    {devs : List Phydev} {ret : ℤ} (hn : CountEnd fl boot s.blkStatus n)
    (hboot : bootBytes fl boot ≤ chipBytes fl) (hc : Configured boot config)
    (h : amlnandPhydevInit fl config s = (some (ret, devs), t)) :
    ∀ d ∈ devs, d.boot = false → DataDev fl (dataStart fl boot n) d := by
  rw [amlnandPhydevInit] at h
  by_cases hnil : config = []
  · rw [if_pos hnil, pure_apply] at h
    cases h
    exact fun d hd => absurd hd List.not_mem_nil
  rw [if_neg hnil] at h
  cases boot with
  | true =>
    obtain ⟨b, rest, rfl, hb, hrest⟩ := hc
    rw [initDevs, if_pos hb] at h
    by_cases hnull : (none : Option Phydev).isNone = true ∧ rest = [] ∧ b.partitions ≠ []
    · rw [if_pos hnull] at h
      simp at h
    · rw [if_neg hnull] at h
      obtain ⟨⟨ret', devs'⟩, v, hd, h⟩ := bind_eq_some h
      simp only [pure_apply, Prod.mk.injEq, Option.some.injEq] at h
      obtain ⟨⟨-, rfl⟩, -⟩ := h
      intro d hmem hdata
      rcases List.mem_cons.1 hmem with rfl | hmem
      · cases hdata
      · exact initDevs_data (fun _ => hn) hboot ⟨rfl, rfl, .inl ⟨rfl, fun _ => rfl⟩⟩ hrest hd d
          hmem
  | false =>
    intro d hmem _
    exact initDevs_data (fun _ => hn) hboot
      ⟨rfl, rfl, .inl ⟨rfl, fun hb => absurd hb (by decide)⟩⟩ hc h d hmem

end Init

/-! ## Rows a device reaches -/

section Rows

variable {fl : Flash}

/-- `ops_para` of an operation on byte `a` of a device. -/
def Phydev.para (dev : Phydev) (a : ℕ) : ChipOpsPara :=
  { pageAddr := dev.pageAddr ((dev.offset + a) % 2 ^ 64), option := dev.option }

/-- A read, write or erase at some address inside the device touches the chip and block `e`. -/
def Reaches (fl : Flash) (dev : Phydev) (e : ℕ × ℕ) : Prop :=
  ∃ a < dev.size, e ∈ opBlocks fl (dev.para a)

/-- Chips a device shares each row between. -/
def devFactor (fl : Flash) (para : DevPara) : ℕ :=
  if para.multiChip ∧ 1 < fl.chipNum then chipFactor fl else 1

/-- Is a device in multi-plane mode? -/
def devPlane (fl : Flash) (para : DevPara) : Bool := para.multiPlane && fl.multiPlane

/-- The shift of the write size, over the chips and planes it covers. -/
lemma setModes_shift (para : DevPara) : 2 ^ (setModes fl para).writesizeShift =
    fl.pagesize * (devFactor fl para * if devPlane fl para then 2 else 1) := by
  have hc : (if para.multiChip ∧ 1 < fl.chipNum then chipShift fl else 0) =
      if para.multiChip ∧ 1 < fl.chipNum then
        (if fl.chipNum = 2 then 1 else if fl.chipNum = 4 then 2 else 0) else 0 := rfl
  simp only [setModes, ← hc]
  rw [pow_add, pow_add, Flash.pagesize]
  congr 2
  · unfold devFactor
    split
    · exact two_pow_chipShift fl
    · rfl
  · unfold devPlane
    cases para.multiPlane <;> cases fl.multiPlane <;> rfl

/-- The row of byte `x` for a device set up from `para`. -/
lemma pageAddr_div (para : DevPara) {x : ℕ} (hx : x < chipBytes fl) :
    (setModes fl para).pageAddr x / fl.ppb =
      x / fl.blocksize / devFactor fl para / if devPlane fl para then 2 else 1 := by
  have hlt : x >>> (setModes fl para).writesizeShift < 2 ^ 32 := by
    have hpages : x < 2 ^ 27 * fl.pagesize := by
      calc x < chipBytes fl := hx
        _ ≤ 2 ^ 17 * (fl.pagesize * fl.ppb) := by rw [← Flash.blocksize_eq]; exact chipBytes_le fl
        _ ≤ 2 ^ 17 * (fl.pagesize * 1024) := by gcongr; exact fl.ppb_le
        _ = 2 ^ 27 * fl.pagesize := by ring
    rw [Nat.shiftRight_eq_div_pow, setModes_shift, ← Nat.div_div_eq_div_mul]
    calc x / fl.pagesize / _ ≤ x / fl.pagesize := Nat.div_le_self _ _
      _ < 2 ^ 27 := Nat.div_lt_of_lt_mul (by rw [Nat.mul_comm]; exact hpages)
      _ ≤ 2 ^ 32 := by norm_num
  rw [Phydev.pageAddr, Nat.mod_eq_of_lt hlt, Nat.shiftRight_eq_div_pow, setModes_shift,
    Nat.div_div_eq_div_mul, Nat.div_div_eq_div_mul, Nat.div_div_eq_div_mul, Flash.blocksize_eq]
  congr 1
  ring

lemma devFactor_pos (para : DevPara) : 0 < devFactor fl para := by
  unfold devFactor
  split
  · exact chipFactor_pos fl
  · exact Nat.one_pos

/-- A device covers no more chips than there are. -/
lemma devFactor_le (para : DevPara) : devFactor fl para ≤ chipFactor fl := by
  have := chipFactor_pos fl
  unfold devFactor
  split <;> omega

/-- The rows of byte `x` of the chips for a device set up from `para`: one row, or two. -/
lemma mem_opRows_iff (para : DevPara) {p : ChipOpsPara} {x r : ℕ} (hx : x < chipBytes fl)
    (hp : p.pageAddr = (setModes fl para).pageAddr x)
    (ho : p.option = (setModes fl para).option) :
    r ∈ opRows fl p ↔ r = rowAt fl (devFactor fl para) (devPlane fl para) x ∨
      (devPlane fl para = true ∧ r = rowAt fl (devFactor fl para) (devPlane fl para) x + 1) := by
  have hplane : p.option.multiPlane = devPlane fl para := by
    rw [ho]
    simp [setModes, devPlane]
  rw [opRows, hplane, hp, pageAddr_div para hx, rowAt]
  cases devPlane fl para <;> simp

/-- A data device reaches no row below the first data row. -/
lemma DataDev.row_ge {boot : Bool} {n : ℕ} {dev : Phydev}
    (hd : DataDev fl (dataStart fl boot n) dev) {e : ℕ × ℕ} (he : Reaches fl dev e) :
    firstDataRow fl boot n ≤ e.2 := by
  obtain ⟨a, ha, he⟩ := he
  obtain ⟨para, hpara⟩ := hd.modes
  have hlt := chipBytes_lt fl
  have hend := hd.end_le
  have hx : (dev.offset + a) % 2 ^ 64 = dev.offset + a := Nat.mod_eq_of_lt (by omega)
  have hrow := ((mem_opBlocks_iff fl _ e).1 he).2
  rw [mem_opRows_iff para (x := dev.offset + a) (by omega)
    (by rw [Phydev.para, hx, hpara]; rfl) (by rw [Phydev.para, hpara])] at hrow
  have hmono : firstDataRow fl boot n ≤
      rowAt fl (devFactor fl para) (devPlane fl para) (dev.offset + a) :=
    rowAt_mono fl (devFactor_pos para) (devFactor_le para) (by simp [devPlane])
      (hd.start_le.trans (Nat.le_add_right _ _))
  omega

end Rows

/-! ## Reserved blocks against data devices -/

section Share

variable {fl : Flash}

/-- A data device that asks for every mode and for the chips up to their end. -/
def fullPara (fl : Flash) (boot : Bool) (n : ℕ) : DevPara where
  boot := false
  size := chipBytes fl - dataStart fl boot n
  partitions := []
  multiChip := true
  multiPlane := true

/-- One data device in every mode, behind the boot device if there is one. -/
def fullConfig (fl : Flash) (boot : Bool) (n : ℕ) : List DevPara :=
  if boot then [⟨true, 0, [], false, false⟩, fullPara fl boot n] else [fullPara fl boot n]

/-- The data device of `fullConfig`. -/
def fullDev (fl : Flash) (boot : Bool) (n : ℕ) : Phydev :=
  { setModes fl (fullPara fl boot n) with
    offset := dataStart fl boot n, size := chipBytes fl - dataStart fl boot n }

/-- `fullConfig` is a configuration of its kind. -/
lemma configured_fullConfig (boot : Bool) (n : ℕ) : Configured boot (fullConfig fl boot n) := by
  have hlt := chipBytes_lt fl
  have hdata : DataOnly [fullPara fl boot n] := by
    intro d hd
    obtain rfl := List.mem_singleton.1 hd
    exact ⟨rfl, by simp only [fullPara]; omega⟩
  cases boot with
  | true => exact ⟨_, _, rfl, rfl, hdata⟩
  | false => exact hdata

/-- The data device of `fullConfig` takes all that is left. -/
lemma devSize_fullPara (boot : Bool) (n : ℕ) (pre : Phydev) :
    devSize fl (fullPara fl boot n) true pre = chipBytes fl - dataStart fl boot n := by
  rw [devSize, if_pos (by rw [fullPara]), fullPara]

/-- The last device is set up when it ends on the chips. -/
lemma initData_last {l : InitLocals} {para : DevPara} {s u : St} {off want : ℕ}
    (hparts : l.pre = none → para.partitions = []) (hoff : devOffset fl l s = (some off, u))
    (hwant : devSize fl para true (l.pre.getD (bootDev fl)) = want)
    (hend : off + want ≤ chipBytes fl) :
    initData fl l para true s =
      (some (some { setModes fl para with offset := off, size := want }), u) := by
  have hlt := chipBytes_lt fl
  have hcmp : ¬chipBytes fl < (off + want) % 2 ^ 64 := by
    rw [Nat.mod_eq_of_lt (by omega)]
    omega
  have hnull : ¬(l.pre.isNone = true ∧ true = true ∧ para.partitions ≠ []) := by
    rintro ⟨hnone, -, hne⟩
    exact hne (hparts (Option.isNone_iff_eq_none.mp hnone))
  rw [initData, if_neg hnull, bind_some hoff, hwant]
  simp only [devBytes, if_true, pure_bind, if_neg hcmp, pure_apply]

/-- `fullConfig` is set up. -/
lemma fullConfig_init {s : St} {boot : Bool} {n : ℕ} (hn : CountEnd fl boot s.blkStatus n)
    (hfuel : n ≤ scanFuel) (hroom : dataStart fl boot n < chipBytes fl) :
    ∃ t devs, amlnandPhydevInit fl (fullConfig fl boot n) s = (some (0, devs), t) ∧
      fullDev fl boot n ∈ devs := by
  obtain ⟨p, hp⟩ := countReserved_eq hn hfuel
  -- the data device, wherever it stands in the configuration
  have hdata : ∀ l : InitLocals, devOffset fl l s =
      (some (dataStart fl boot n), { s with opsPara := p }) →
      initDevs fl l [fullPara fl boot n] s =
        (some (0, [fullDev fl boot n]), { s with opsPara := p }) := by
    intro l hoff
    have hlast := initData_last (fun _ => by rw [fullPara]) hoff (devSize_fullPara boot n _)
      (by omega)
    rw [initDevs, if_neg (by simp [fullPara])]
    simp only [List.isEmpty_nil]
    rw [bind_some hlast]
    simp only [initDevs, pure_bind, pure_apply, fullDev]
  cases boot with
  | true =>
    refine ⟨{ s with opsPara := p }, [bootDev fl, fullDev fl true n], ?_,
      List.mem_cons_of_mem _ List.mem_cons_self⟩
    have hoff : devOffset fl ⟨1, true, fl.startBlk, some (bootDev fl)⟩ s =
        (some (dataStart fl true n), { s with opsPara := p }) := by
      simp only [devOffset, and_self, if_true]
      rw [bind_some (show countReserved fl fl.startBlk s = _ from hp), pure_apply, dataStart,
        bootBytes, if_pos rfl, bootDev]
    rw [amlnandPhydevInit, fullConfig, if_pos rfl, if_neg (by simp), initDevs, if_pos rfl,
      if_neg (by simp)]
    simp only [Nat.zero_add]
    rw [bind_some (hdata _ hoff), pure_apply]
  | false =>
    refine ⟨{ s with opsPara := p }, [fullDev fl false n], ?_, List.mem_cons_self⟩
    have hoff : devOffset fl {} s = (some (dataStart fl false n), { s with opsPara := p }) := by
      simp only [devOffset]
      rw [bind_some (show countReserved fl 0 s = _ from hp), pure_apply, dataStart, bootBytes,
        if_neg (by decide), Nat.add_zero]
    rw [amlnandPhydevInit, fullConfig, if_neg Bool.false_ne_true, if_neg (by simp), hdata _ hoff]

/-- The data device of `fullConfig` covers all chips. -/
lemma devFactor_fullPara (boot : Bool) (n : ℕ) :
    devFactor fl (fullPara fl boot n) = chipFactor fl := by
  have h := fl.chipNum_pos
  unfold devFactor
  by_cases h1 : 1 < fl.chipNum
  · rw [if_pos ⟨rfl, h1⟩]
  · rw [if_neg fun hm => h1 hm.2, chipFactor, if_neg (by omega)]
    omega

/-- From the first data row on, every row is the row of some byte behind `dataStart`. -/
lemma exists_rowAt {boot : Bool} {n r : ℕ} (hr : firstDataRow fl boot n ≤ r) :
    ∃ x, dataStart fl boot n ≤ x ∧
      x ≤ max (dataStart fl boot n) (r * (chipFactor fl * fl.blocksize)) ∧
      (r = rowAt fl (chipFactor fl) fl.multiPlane x ∨
        (fl.multiPlane = true ∧ r = rowAt fl (chipFactor fl) fl.multiPlane x + 1)) := by
  generalize hx : dataStart fl boot n = x₀ at hr ⊢
  rw [firstDataRow, hx] at hr
  -- the first block of row `k` when rows are taken in pairs or one by one
  let k := if fl.multiPlane then 2 * (r / 2) else r
  have hkr : k ≤ r := by
    simp only [k]
    split <;> omega
  have hpos : 0 < chipFactor fl * fl.blocksize :=
    Nat.mul_pos (chipFactor_pos fl) (Nat.two_pow_pos _)
  have hblk : k * (chipFactor fl * fl.blocksize) / fl.blocksize / chipFactor fl = k := by
    rw [Nat.div_div_eq_div_mul, Nat.mul_comm fl.blocksize, Nat.mul_div_cancel _ hpos]
  refine ⟨max (x₀) (k * (chipFactor fl * fl.blocksize)), le_max_left _ _,
    max_le_max_left _ (Nat.mul_le_mul_right _ hkr), ?_⟩
  unfold rowAt at hr
  unfold rowAt
  rcases le_total (x₀) (k * (chipFactor fl * fl.blocksize)) with hle | hle
  · rw [max_eq_right hle, hblk]
    simp only [k]
    cases fl.multiPlane
    · simp
    · simp
      omega
  · rw [max_eq_left hle]
    have hz : k ≤ x₀ / fl.blocksize / chipFactor fl := by
      rw [← hblk]
      exact Nat.div_le_div_right (Nat.div_le_div_right hle)
    revert hr hz
    generalize x₀ / fl.blocksize / chipFactor fl = z
    simp only [k]
    cases fl.multiPlane
    · simp
      omega
    · simp
      omega

/-- The first data row lies no further than the first byte of the data devices. -/
lemma firstDataRow_mul_le (boot : Bool) (n : ℕ) :
    firstDataRow fl boot n * (chipFactor fl * fl.blocksize) ≤ dataStart fl boot n := by
  have hle : firstDataRow fl boot n ≤ dataStart fl boot n / fl.blocksize / chipFactor fl := by
    unfold firstDataRow rowAt
    split <;> omega
  calc firstDataRow fl boot n * (chipFactor fl * fl.blocksize)
      ≤ dataStart fl boot n / fl.blocksize / chipFactor fl * (chipFactor fl * fl.blocksize) :=
        Nat.mul_le_mul_right _ hle
    _ = dataStart fl boot n / fl.blocksize / chipFactor fl * chipFactor fl * fl.blocksize := by
        ring
    _ ≤ dataStart fl boot n / fl.blocksize * fl.blocksize :=
        Nat.mul_le_mul_right _ (Nat.div_mul_le_self _ _)
    _ ≤ dataStart fl boot n := Nat.div_mul_le_self _ _

/-- The data device of `fullConfig` reaches every block of every row that starts on the chips, from
the first data row on. -/
lemma reaches_fullDev {boot : Bool} {n c r : ℕ} (hroom : dataStart fl boot n < chipBytes fl)
    (hc : c < fl.chipNum) (hr : firstDataRow fl boot n ≤ r)
    (hrow : r * (chipFactor fl * fl.blocksize) < chipBytes fl) :
    Reaches fl (fullDev fl boot n) (c, r) := by
  obtain ⟨x, hx1, hx2, hx3⟩ := exists_rowAt hr
  have hend : x < chipBytes fl := lt_of_le_of_lt hx2 (max_lt hroom hrow)
  have hlt := chipBytes_lt fl
  have hoff : (fullDev fl boot n).offset = dataStart fl boot n := by rw [fullDev]
  refine ⟨x - dataStart fl boot n, by simp only [fullDev]; omega, ?_⟩
  have hmod : ((fullDev fl boot n).offset + (x - dataStart fl boot n)) % 2 ^ 64 = x := by
    rw [hoff, Nat.mod_eq_of_lt (by omega)]
    omega
  rw [mem_opBlocks_iff]
  constructor
  · have hmc : ((fullDev fl boot n).para (x - dataStart fl boot n)).option.multiChip =
        decide (1 < fl.chipNum) := by
      simp [Phydev.para, fullDev, setModes, fullPara]
    rw [opChips, hmc]
    by_cases h1 : 1 < fl.chipNum
    · rw [if_pos (by simp [h1])]
      exact List.mem_range.2 hc
    · rw [if_neg (by simp [h1])]
      exact List.mem_singleton.2 (show c = 0 by omega)
  · have hplane : devPlane fl (fullPara fl boot n) = fl.multiPlane := by simp [devPlane, fullPara]
    rw [mem_opRows_iff (fullPara fl boot n) hend (by rw [Phydev.para, hmod, fullDev]; rfl)
      (by rw [Phydev.para, fullDev]), devFactor_fullPara, hplane]
    exact hx3

/-- Every row from the first reserved block to the last holds a reserved block. -/
lemma exists_resRow {m r : ℕ} (hm : fl.startBlk < m) (hlow : fl.startBlk ≤ r)
    (hhigh : r ≤ fl.resRow (m - 1)) : ∃ b, fl.startBlk ≤ b ∧ b < m ∧ fl.resRow b = r := by
  rcases hhigh.lt_or_eq with hlt | heq
  · -- the first block of the row, or the first reserved block
    have hpos := fl.chipNum_pos
    have hdm := Nat.div_add_mod fl.startBlk fl.chipNum
    have hml := Nat.mod_lt fl.startBlk hpos
    let b := max fl.startBlk (fl.chipNum * (fl.startBlk / fl.chipNum + (r - fl.startBlk)))
    have hdiv : b / fl.chipNum = fl.startBlk / fl.chipNum + (r - fl.startBlk) := by
      rcases le_total fl.startBlk
        (fl.chipNum * (fl.startBlk / fl.chipNum + (r - fl.startBlk))) with hle | hle
      · simp only [b, max_eq_right hle, Nat.mul_div_cancel_left _ hpos]
      · simp only [b, max_eq_left hle]
        rcases Nat.eq_zero_or_pos (r - fl.startBlk) with hz | hr
        · rw [hz, Nat.add_zero]
        · have hmul : fl.chipNum * 1 ≤ fl.chipNum * (r - fl.startBlk) :=
            Nat.mul_le_mul_left _ hr
          rw [Nat.mul_add] at hle
          omega
    have hrow : fl.resRow b = r := by
      have hle : fl.startBlk / fl.chipNum ≤ fl.startBlk := Nat.div_le_self _ _
      rw [Flash.resRow_eq, hdiv]
      omega
    refine ⟨b, le_max_left _ _, ?_, hrow⟩
    by_contra hge
    have hmono : (m - 1) / fl.chipNum ≤ b / fl.chipNum := Nat.div_le_div_right (by omega)
    rw [Flash.resRow_eq] at hlt hrow
    omega
  · exact ⟨m - 1, by omega, by omega, heq.symm⟩

/-- **No data device reaches a reserved block**, whatever the configuration of a kind, **if and only
if** the last row of the reserved area is below the first data row, or no room is left for data. -/
theorem layout_disjoint_iff {tbl : BlkStatus} {boot : Bool} {m n : ℕ} (hm : ReserveEnd fl tbl m)
    (hn : CountEnd fl boot tbl n) (hfuel : n ≤ scanFuel)
    (hchip : fl.startBlk * fl.blocksize < fl.chipsize * 2 ^ 20) :
    (∀ (s t : St) (config : List DevPara) (devs : List Phydev), s.blkStatus = tbl →
      Configured boot config → amlnandPhydevInit fl config s = (some (0, devs), t) →
      ∀ d ∈ devs, d.boot = false → ∀ b, fl.startBlk ≤ b → b < m →
        ¬Reaches fl d (fl.resChip b, fl.resRow b)) ↔
    fl.resRow (m - 1) < firstDataRow fl boot n ∨ chipBytes fl ≤ dataStart fl boot n := by
  have hpos := hm.le
  have hcnt : (0 : ℕ) < reservedBlockCnt := by decide
  have hbytes : fl.startBlk * (fl.chipNum * fl.blocksize) < chipBytes fl := by
    calc fl.startBlk * (fl.chipNum * fl.blocksize)
        = fl.chipNum * (fl.startBlk * fl.blocksize) := by ring
      _ < fl.chipNum * (fl.chipsize * 2 ^ 20) := Nat.mul_lt_mul_of_pos_left hchip fl.chipNum_pos
      _ = chipBytes fl := by unfold chipBytes; ring
  constructor
  · intro h
    by_contra hnot
    obtain ⟨hge, hroom⟩ : firstDataRow fl boot n ≤ fl.resRow (m - 1) ∧
        dataStart fl boot n < chipBytes fl := by
      rw [not_or] at hnot
      exact ⟨not_lt.mp hnot.1, not_le.mp hnot.2⟩
    let s : St := { St.blank with blkStatus := tbl }
    obtain ⟨t, devs, ht, hmem⟩ := fullConfig_init (s := s) hn hfuel hroom
    -- the lowest row that is reserved and a data row
    have hlast : fl.startBlk ≤ fl.resRow (m - 1) := by
      have hmono : fl.startBlk / fl.chipNum ≤ (m - 1) / fl.chipNum :=
        Nat.div_le_div_right (by omega)
      rw [Flash.resRow_eq]
      omega
    have hsome : fl.startBlk < m := by omega
    obtain ⟨b, hb, hbm, hrow⟩ := exists_resRow hsome (le_max_right _ _)
      (max_le hge hlast)
    refine h s t _ _ rfl (configured_fullConfig boot n) ht (fullDev fl boot n) hmem rfl b hb hbm ?_
    rw [hrow]
    refine reaches_fullDev hroom (fl.resChip_lt _) (le_max_left _ _) ?_
    rcases max_choice (firstDataRow fl boot n) fl.startBlk with heq | heq
    · rw [heq]
      exact (firstDataRow_mul_le boot n).trans_lt hroom
    · rw [heq]
      refine lt_of_le_of_lt ?_ hbytes
      exact Nat.mul_le_mul_left _ (Nat.mul_le_mul_right _ (chipFactor_le fl))
  · rintro hcond s t config devs rfl hc hrun d hd hdata b hb hbm hreach
    have hboot : bootBytes fl boot ≤ chipBytes fl := by
      have hstart := startBlk_mul fl
      have hone : fl.startBlk * fl.blocksize ≤ fl.startBlk * (fl.chipNum * fl.blocksize) :=
        Nat.mul_le_mul_left _ (Nat.le_mul_of_pos_left _ fl.chipNum_pos)
      unfold bootBytes
      split <;> omega
    have hdev := amlnandPhydevInit_data hn hboot hc hrun d hd hdata
    rcases hcond with hlt | hfull
    · have hge := hdev.row_ge hreach
      have hle : fl.resRow b ≤ fl.resRow (m - 1) := by
        rw [Flash.resRow_eq, Flash.resRow_eq]
        have : b / fl.chipNum ≤ (m - 1) / fl.chipNum := Nat.div_le_div_right (by omega)
        omega
      simp only at hge
      omega
    · -- without room a data device has no bytes
      obtain ⟨a, ha, -⟩ := hreach
      have h1 := hdev.start_le
      have h2 := hdev.end_le
      omega

/-- With no factory-bad block the count ends after 48 blocks. -/
lemma countEnd_of_good {tbl : BlkStatus} {boot : Bool} (h : ∀ c b, tbl c b ≠ blockFactoryBad) :
    CountEnd fl boot tbl reservedBlockCnt :=
  countsTo_of_forall (fun _ => h _ _) (by decide)

/-- One chip without bad blocks: behind the boot device the devices stay clear of the reserved
area. -/
theorem layout_disjoint_oneChip :
    (ReserveEnd (.h27ubg8t2a 1 (by decide) (by decide)) (fun _ _ => blockGood) 52 ∧
      CountEnd (.h27ubg8t2a 1 (by decide) (by decide)) true (fun _ _ => blockGood) 48) ∧
    ∀ (s t : St) (config : List DevPara) (devs : List Phydev),
      s.blkStatus = (fun _ _ => blockGood) → Configured true config →
      amlnandPhydevInit (.h27ubg8t2a 1 (by decide) (by decide)) config s = (some (0, devs), t) →
      ∀ d ∈ devs, d.boot = false → ∀ b, 4 ≤ b → b < 52 →
        ¬Reaches (.h27ubg8t2a 1 (by decide) (by decide)) d
          (Flash.resChip (.h27ubg8t2a 1 (by decide) (by decide)) b,
            Flash.resRow (.h27ubg8t2a 1 (by decide) (by decide)) b) := by
  have hgood : blockGood ≠ blockFactoryBad := by decide
  have hend : ReserveEnd (.h27ubg8t2a 1 (by decide) (by decide)) (fun _ _ => blockGood) 52 :=
    reserveEnd_of_notFactory fun _ => hgood
  have hcount : CountEnd (.h27ubg8t2a 1 (by decide) (by decide)) true (fun _ _ => blockGood) 48 :=
    countEnd_of_good fun _ _ => hgood
  exact ⟨⟨hend, hcount⟩, (layout_disjoint_iff hend hcount (by decide) (by decide)).2
    (.inl (by decide))⟩

/-- Two chips without bad blocks: the data device of `fullConfig` reaches the last reserved
block. -/
theorem layout_overlap_twoChips :
    ¬∀ (s t : St) (config : List DevPara) (devs : List Phydev),
      s.blkStatus = (fun _ _ => blockGood) → Configured true config →
      amlnandPhydevInit (.h27ubg8t2a 2 (by decide) (by decide)) config s = (some (0, devs), t) →
      ∀ d ∈ devs, d.boot = false → ∀ b, 4 ≤ b → b < 52 →
        ¬Reaches (.h27ubg8t2a 2 (by decide) (by decide)) d
          (Flash.resChip (.h27ubg8t2a 2 (by decide) (by decide)) b,
            Flash.resRow (.h27ubg8t2a 2 (by decide) (by decide)) b) := by
  intro h
  have hgood : blockGood ≠ blockFactoryBad := by decide
  let fl : Flash := .h27ubg8t2a 2 (by decide) (by decide)
  let s : St := { St.blank with blkStatus := fun _ _ => blockGood }
  have hend : CountEnd fl true s.blkStatus 48 := countEnd_of_good fun _ _ => hgood
  obtain ⟨t, devs, ht, hmem⟩ := fullConfig_init hend (by decide) (by decide)
  exact h s t _ _ rfl (configured_fullConfig true 48) ht (fullDev fl true 48) hmem rfl 51
    (by decide) (by decide) (reaches_fullDev (by decide) (by decide) (by decide) (by decide))

end Share

end Amlnf
