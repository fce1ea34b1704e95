import Amlnf.Dev.Tiling

set_option relaxedAutoImplicit false
set_option autoImplicit false

/-!
# Lookups in the bad-block table at bring-up

The end of the reserved area, the start and the size of the devices and the number of bad blocks
of a device come of searches that look blocks up in the bad-block table until they have counted
enough of them. What is enough comes from the configuration on the flash, and a device that is
too large is refused only after its blocks have been looked up.

## Main definitions

* `countUsedBad`, `allocatePartition` — the scans over a device that has been set up.
* `bringUpLookups` — the entries of the table that are looked up, in order.
* `Flash.blocks` — the blocks of a chip, for which the table has entries.
* `SearchesHeld` — the searches find what they count before they leave the table.

## Main results

* `lookups_inside_iff` — all lookups are inside the table exactly when the searches find what
  they count there.

## Design

A lookup leaves no trace in the state of the driver. We take the rounds that the loops of the
driver run, and from each round the parameters it leaves in `ops_para`, with which it has called
`block_isbad`; the operations of a device note these parameters in `handed`. The allocation of the
partition record in `allocate_partition` is taken to succeed.
-/

namespace Amlnf

open Act

/-! ## The scans over a device -/

/-- One block of the count of used-bad blocks at the end of `amlnand_phydev_init`: the loop
variables are `relative_offset` and `bad_blk_cnt`. -/
def badCntRound (fl : Flash) (dev : Phydev) (v : ℕ × ℕ) : Act St ((ℕ × ℕ) ⊕ ℕ) := do
  let ret ← nandBlockIsbad fl dev { addr := v.1, len := dev.erasesize }
  let cnt := if ret = 1 ∧ v.2 < 128 then v.2 + 1 else v.2
  let next := (v.1 + dev.erasesize) % 2 ^ 64
  if next < dev.size then pure (Sum.inl (next, cnt)) else pure (Sum.inr cnt)

/-- The count of the used-bad blocks of a device. -/
def countUsedBad (fl : Flash) (dev : Phydev) : Act St ℕ :=
  loopUntil (badCntRound fl dev) (2 ^ 64) (0, 0)

/-- `part_block_isbad`. -/
def partBlockIsbad (fl : Flash) (dev : Phydev) (block : ℕ) : Act St ℤ :=
  nandBlockIsbad fl dev { addr := (block <<< dev.erasesizeShift) % 2 ^ 64, len := dev.erasesize }

/-- One block of `allocate_partition`: the loop variables are `block`, `block_num` and
`badblocks`. The number of blocks is counted down before it is compared with zero. -/
def allocateRound (fl : Flash) (dev : Phydev) (v : ℕ × ℕ × ℕ) :
    Act St ((ℕ × ℕ × ℕ) ⊕ ℕ) := do
  let ret ← partBlockIsbad fl dev v.1
  let bad := if ret ≠ 0 then v.2.2 + 1 else v.2.2
  let num := (v.2.1 + 2 ^ 32 - 1) % 2 ^ 32
  if num ≠ 0 then pure (Sum.inl ((v.1 + 1) % 2 ^ 32, num, bad)) else pure (Sum.inr bad)

/-- `allocate_partition`: the bad blocks of the new partition. -/
def allocatePartition (fl : Flash) (dev : Phydev) : Act St ℕ :=
  loopUntil (allocateRound fl dev) (2 ^ 32) (0, (dev.size >>> dev.erasesizeShift) % 2 ^ 32, 0)

/-- Run a scan over each of some devices. -/
def scanDevs (scan : Phydev → Act St ℕ) : List Phydev → Act St Unit
  | [] => pure ()
  | dev :: devs => do
    let _ ← scan dev
    scanDevs scan devs

/-! ## What is looked up -/

/-- The entries looked up along a list of entries: up to the first that is not good. -/
def lookedAt (tbl : BlkStatus) : List (ℕ × ℕ) → List (ℕ × ℕ)
  | [] => []
  | e :: es => e :: if getBlcokStatus tbl e.1 e.2 = 0 then lookedAt tbl es else []

/-- The parameters of the calls of `block_isbad` in the rounds of a search: each round leaves
them in `ops_para`. -/
def searchCalls {α β : Type} (body : β → Act St (β ⊕ α)) (rs : List (β × St)) :
    List ChipOpsPara :=
  rs.map fun r => (body r.1 r.2).2.opsPara

/-- The parameters of the calls in the rounds of a scan over a device: what each round adds to
`handed`. -/
def scanCalls {α β : Type} (body : β → Act St (β ⊕ α)) (rs : List (β × St)) : List ChipOpsPara :=
  rs.flatMap fun r => (body r.1 r.2).2.handed.drop r.2.handed.length

/-- The calls of `get_last_reserve_block`. The round that finds the count complete makes none. -/
def reserveCalls (fl : Flash) (s : St) : List ChipOpsPara :=
  searchCalls (lastReserveRound fl)
    ((rounds (lastReserveRound fl) scanFuel (fl.startBlk, 0) { s with opsPara := {} }).filter
      fun r => r.1.2 < reservedBlockCnt)

/-- The calls of `countReserved`. -/
def countCalls (fl : Flash) (tmpBlk : ℕ) (s : St) : List ChipOpsPara :=
  searchCalls (countRound fl tmpBlk)
    (rounds (countRound fl tmpBlk) scanFuel (0, 0) { s with opsPara := {} })

/-- The calls of `devExtent`. -/
def extentCalls (fl : Flash) (dev : Phydev) (want : ℕ) (s : St) : List ChipOpsPara :=
  let body := extentRound fl dev (adjustedBlocks want dev.erasesizeShift)
  searchCalls body
    (rounds body (2 ^ 32) (dev.offset, 0) { s with opsPara := { option := dev.option } })

/-- Is the offset of the next data device found by counting reserved blocks? -/
def InitLocals.counts (l : InitLocals) : Bool := l.pre.isNone || (l.bootFlag && l.index == 1)

/-- The calls while one data device is set up. -/
def dataCalls (fl : Flash) (l : InitLocals) (para : DevPara) (isLast : Bool) (s : St) :
    List ChipOpsPara :=
  (if l.counts then countCalls fl l.tmpBlk s else []) ++
    match devOffset fl l s with
    | (some x, t) =>
      if isLast then [] else
        extentCalls fl (devAt fl para x) (devSize fl para false (l.pre.getD (bootDev fl))) t
    | (none, _) => []

/-- Does setting a device up read through a null pointer? -/
def nullDevice (l : InitLocals) (para : DevPara) (rest : List DevPara) : Prop :=
  l.pre.isNone ∧ rest = [] ∧ para.partitions ≠ []

instance (l : InitLocals) (para : DevPara) (rest : List DevPara) :
    Decidable (nullDevice l para rest) :=
  inferInstanceAs (Decidable (_ ∧ _ ∧ _))

/-- The locals behind the boot device. -/
def InitLocals.afterBoot (fl : Flash) (l : InitLocals) : InitLocals :=
  { index := l.index + 1, bootFlag := true, tmpBlk := fl.startBlk, pre := some (bootDev fl) }

/-- The locals behind a data device. -/
def InitLocals.after (l : InitLocals) (dev : Phydev) : InitLocals :=
  { l with index := l.index + 1, pre := some dev }

/-- The calls of the loop of `amlnand_phydev_init` over the devices of the configuration. -/
def initCalls (fl : Flash) : InitLocals → List DevPara → St → List ChipOpsPara
  | _, [], _ => []
  | l, para :: rest, s =>
    if nullDevice l para rest then []
    else if para.boot then initCalls fl (l.afterBoot fl) rest s
    else
      dataCalls fl l para rest.isEmpty s ++
        match initData fl l para rest.isEmpty s with
        | (some (some dev), t) => initCalls fl (l.after dev) rest t
        | _ => []

/-- The calls of a scan over each of some devices. -/
def scanDevsCalls (scan : Phydev → Act St ℕ) (calls : Phydev → St → List ChipOpsPara) :
    List Phydev → St → List ChipOpsPara
  | [], _ => []
  | dev :: devs, s =>
    calls dev s ++
      match scan dev s with
      | (some _, t) => scanDevsCalls scan calls devs t
      | (none, _) => []

/-- The calls of `countUsedBad`. -/
def usedBadCalls (fl : Flash) (dev : Phydev) (s : St) : List ChipOpsPara :=
  scanCalls (badCntRound fl dev) (rounds (badCntRound fl dev) (2 ^ 64) (0, 0) s)

/-- The calls of `allocatePartition`. -/
def allocateCalls (fl : Flash) (dev : Phydev) (s : St) : List ChipOpsPara :=
  scanCalls (allocateRound fl dev)
    (rounds (allocateRound fl dev) (2 ^ 32)
      (0, (dev.size >>> dev.erasesizeShift) % 2 ^ 32, 0) s)

/-- The calls behind the loop: the used-bad blocks of all devices are counted, then a partition
is allocated for each data device. -/
def attachCalls (fl : Flash) (devs : List Phydev) (s : St) : List ChipOpsPara :=
  scanDevsCalls (countUsedBad fl) (usedBadCalls fl) devs s ++
    match scanDevs (countUsedBad fl) devs s with
    | (some _, t) =>
      scanDevsCalls (allocatePartition fl) (allocateCalls fl) (devs.filter fun d => !d.boot) t
    | (none, _) => []

/-- All calls of `block_isbad` by `get_last_reserve_block`, by `amlnand_phydev_init` and by
`allocate_partition`. The devices are scanned when the first has succeeded. -/
def bringUpCalls (fl : Flash) (config : List DevPara) (s : St) : List ChipOpsPara :=
  reserveCalls fl s ++ initCalls fl {} config s ++
    match amlnandPhydevInit fl config s with
    | (some (0, devs), t) => attachCalls fl devs t
    | _ => []

/-- The entries of the bad-block table looked up at bring-up. -/
def bringUpLookups (fl : Flash) (config : List DevPara) (s : St) : List (ℕ × ℕ) :=
  (bringUpCalls fl config s).flatMap fun p => lookedAt s.blkStatus (isbadEntries fl p)

/-! ## Where the table ends -/

/-- The blocks of a chip. -/
def Flash.blocks (fl : Flash) : ℕ := fl.chipsize * 2 ^ 20 / fl.blocksize

/-- An entry of the bad-block table for a block of the chips. -/
def InTable (fl : Flash) (e : ℕ × ℕ) : Prop := e.1 < fl.chipNum ∧ e.2 < fl.blocks

/-- A call of `block_isbad` looks up entries of the table only. -/
def CallInside (fl : Flash) (tbl : BlkStatus) (p : ChipOpsPara) : Prop :=
  ∀ e ∈ lookedAt tbl (isbadEntries fl p), InTable fl e

/-- Every lookup at bring-up with the bad-block table `tbl` is inside the table. -/
def LookupsInside (fl : Flash) (tbl : BlkStatus) (config : List DevPara) : Prop :=
  ∀ s : St, s.blkStatus = tbl → ∀ e ∈ bringUpLookups fl config s, InTable fl e

/-- The places inside the table for a search that counts reserved blocks behind `tmp` blocks of
boot area. -/
def reservePlaces (fl : Flash) (tmp : ℕ) : ℕ :=
  fl.chipNum * (fl.blocks - (tmp - tmp / fl.chipNum)) - tmp

/-- The first byte of the chips whose block is behind the table, as a device addresses bytes: a
device that is not in multi-chip mode does not get behind its first chip. -/
def Phydev.reach (fl : Flash) (dev : Phydev) : ℕ :=
  fl.blocks / (if dev.option.multiPlane then 2 else 1) * 2 ^ dev.erasesizeShift

/-- The places of `e` bytes from byte `x` on that start below byte `stop`. -/
def placesBelow (stop x e : ℕ) : ℕ := (stop - x + e - 1) / e

/-- A search stops after `n` places: it looks at one place at least. -/
def StopsAt (p : ℕ → Prop) [DecidablePred p] (m n : ℕ) : Prop :=
  0 < n ∧ m ≤ Nat.count p n ∧ ∀ k < n, 0 < k → Nat.count p k < m

/-- The next data device starts at byte `x`. -/
def OffsetAt (fl : Flash) (tbl : BlkStatus) (l : InitLocals) (x : ℕ) : Prop :=
  if l.counts then
    ∃ n, CountsTo (CountGood fl tbl l.tmpBlk) reservedBlockCnt n ∧
      x = (roundStripe fl (n % 2 ^ 32) * fl.blocksize) % 2 ^ 32 + l.pre.elim 0 fun d => d.size
  else x = (l.pre.elim 0 fun d => d.offset + d.size) % 2 ^ 64

/-- A device that asks for `want` bytes gets `size` bytes. -/
def SizeAt (fl : Flash) (tbl : BlkStatus) (dev : Phydev) (isLast : Bool) (want size : ℕ) : Prop :=
  if isLast then size = want
  else ∃ n, StopsAt (SuperGood fl tbl dev) (adjustedBlocks want dev.erasesizeShift) n ∧
    size = extentSize fl dev n

/-- The last superblock of a device starts inside the table. -/
def ListHeld (fl : Flash) (dev : Phydev) : Prop :=
  dev.offset + (dev.size - 1) / dev.erasesize * dev.erasesize < dev.reach fl

/-- The last block of a device, counted by the shift of the erase size, starts inside the table.
The two differ when three chips share the superblocks. -/
def AllocHeld (fl : Flash) (dev : Phydev) : Prop :=
  dev.offset + (dev.size / 2 ^ dev.erasesizeShift - 1) * 2 ^ dev.erasesizeShift < dev.reach fl

/-- The blocks of a device are blocks of the table. -/
def DevHeld (fl : Flash) (dev : Phydev) : Prop :=
  ListHeld fl dev ∧ (dev.boot = false → AllocHeld fl dev)

instance (fl : Flash) (dev : Phydev) : Decidable (ListHeld fl dev) :=
  inferInstanceAs (Decidable (_ < _))

instance (fl : Flash) (dev : Phydev) : Decidable (AllocHeld fl dev) :=
  inferInstanceAs (Decidable (_ < _))

instance (fl : Flash) (dev : Phydev) : Decidable (DevHeld fl dev) :=
  inferInstanceAs (Decidable (_ ∧ _))

/-- The searches of `amlnand_phydev_init` find what they count before they leave the table, up to
a device that is refused; when none is, all devices lie on blocks of the table. `devs` are the
devices set up before. -/
def SearchesHeld (fl : Flash) (tbl : BlkStatus) : InitLocals → List Phydev → List DevPara → Prop
  | _, devs, [] => ∀ d ∈ devs, DevHeld fl d
  | l, devs, para :: rest =>
    nullDevice l para rest ∨
    if para.boot then SearchesHeld fl tbl (l.afterBoot fl) (devs ++ [bootDev fl]) rest
    else
      (l.counts = true →
        StopsWithin (CountGood fl tbl l.tmpBlk) reservedBlockCnt (reservePlaces fl l.tmpBlk)) ∧
      ∀ x, OffsetAt fl tbl l x →
        let dev := devAt fl para x
        let want := devSize fl para rest.isEmpty (l.pre.getD (bootDev fl))
        (rest ≠ [] → StopsWithin (SuperGood fl tbl dev) (adjustedBlocks want dev.erasesizeShift)
          (placesBelow (dev.reach fl) x dev.erasesize)) ∧
        ∀ size, SizeAt fl tbl dev rest.isEmpty want size → (x + size) % 2 ^ 64 ≤ chipBytes fl →
          SearchesHeld fl tbl (l.after { dev with size := size })
            (devs ++ [{ dev with size := size }]) rest

/-- All searches find what they count before they leave the table. -/
def ConfigHeld (fl : Flash) (tbl : BlkStatus) (config : List DevPara) : Prop :=
  StopsWithin (NotFactory fl tbl) reservedBlockCnt (reservePlaces fl fl.startBlk) ∧
    SearchesHeld fl tbl {} [] config

/-! ## One call -/

section Call

variable {fl : Flash} {tbl : BlkStatus} {p : ChipOpsPara}

lemma mem_of_mem_lookedAt {es : List (ℕ × ℕ)} {e : ℕ × ℕ} (h : e ∈ lookedAt tbl es) : e ∈ es := by
  induction es with
  | nil => exact h
  | cons a es ih =>
    rw [lookedAt, List.mem_cons] at h
    rcases h with rfl | h
    · exact List.mem_cons_self
    · split at h
      · exact List.mem_cons_of_mem _ (ih h)
      · exact absurd h List.not_mem_nil

/-- The block of a call, doubled for two planes. -/
def firstRow (fl : Flash) (p : ChipOpsPara) : ℕ :=
  p.pageAddr / fl.ppb * if p.option.multiPlane then 2 else 1

/-- The first lookup of a call. -/
lemma exists_mem_lookedAt (fl : Flash) (tbl : BlkStatus) (p : ChipOpsPara) :
    ∃ c, (c, firstRow fl p) ∈ lookedAt tbl (isbadEntries fl p) := by
  have hhead : ∃ c es, isbadEntries fl p = (c, firstRow fl p) :: es := by
    obtain ⟨n, hn⟩ : ∃ n, fl.chipNum = n + 1 := ⟨fl.chipNum - 1, by have := fl.chipNum_pos; omega⟩
    unfold isbadEntries firstRow
    simp only [pageAddr_shift, shiftLeft_one, mul_comm 2, hn, List.range_succ_eq_map]
    cases p.option.multiPlane <;> cases p.option.multiChip <;> simp
  obtain ⟨c, es, h⟩ := hhead
  refine ⟨c, ?_⟩
  rw [h, lookedAt]
  exact List.mem_cons_self

/-- **A call looks up entries of the table only, exactly when its block is one of the chip.** -/
lemma callInside_iff (heven : fl.multiPlane = true → 2 ∣ fl.blocks) (hc : p.chipnr < fl.chipNum)
    (hp : p.option.multiPlane = true → fl.multiPlane = true) :
    CallInside fl tbl p ↔
      p.pageAddr / fl.ppb < fl.blocks / if p.option.multiPlane then 2 else 1 := by
  constructor
  · intro h
    obtain ⟨c, hmem⟩ := exists_mem_lookedAt fl tbl p
    have hrow := (h _ hmem).2
    simp only [firstRow] at hrow
    split
    · rename_i hplane
      obtain ⟨k, hk⟩ := heven (hp hplane)
      rw [if_pos hplane] at hrow
      omega
    · rename_i hplane
      rw [if_neg hplane] at hrow
      simpa using hrow
  · intro h e he
    have hmem := (mem_isbadEntries_iff fl p hc e).1 (mem_of_mem_lookedAt he)
    rw [mem_opBlocks_iff] at hmem
    obtain ⟨hchip, hrow⟩ := hmem
    constructor
    · unfold opChips at hchip
      split at hchip
      · exact List.mem_range.1 hchip
      · rw [List.mem_singleton.1 hchip]
        exact hc
    · unfold opRows at hrow
      split at hrow
      · rename_i hplane
        rw [if_pos hplane] at h
        simp only [List.mem_cons, List.not_mem_nil, or_false] at hrow
        omega
      · rename_i hplane
        rw [if_neg hplane, Nat.div_one] at h
        rw [List.mem_singleton.1 hrow]
        exact h

end Call

/-! ## Searches -/

/-- **A search stays inside the table exactly when it stops there.** The search calls
`block_isbad` with `P k` in its `k`-th round, and the first `M` of these are inside. -/
lemma searchCalls_inside_iff {α β : Type} {fl : Flash} {tbl : BlkStatus}
    {body : β → Act St (β ⊕ α)} {J : ℕ → β → St → Prop} {p : ℕ → Prop} [DecidablePred p]
    {m M N : ℕ} {P : ℕ → ChipOpsPara}
    (hgo : ∀ k b s, J k b s → Nat.count p (k + 1) < m →
      ∃ b' t, body b s = (some (Sum.inl b'), t) ∧ J (k + 1) b' t)
    (hstop : ∀ k b s, J k b s → ¬Nat.count p (k + 1) < m → ∃ a t, body b s = (some (Sum.inr a), t))
    (hcall : ∀ k b s, J k b s → (body b s).2.opsPara = P k) (hM : M < N)
    (hplaces : ∀ k ≤ M, CallInside fl tbl (P k) ↔ k < M) {b : β} {s : St} (hs : J 0 b s) :
    (∀ q ∈ searchCalls body (rounds body N b s), CallInside fl tbl q) ↔ StopsWithin p m M := by
  rw [← stopsWithin_iff hM hplaces]
  simp only [searchCalls, List.forall_mem_map]
  constructor
  · intro h j hj hbefore
    obtain ⟨r, hr, hJ⟩ := exists_mem_rounds (C := fun k => Nat.count p (k + 1) < m) hgo hs hj
      (fun i hi => by rw [zero_add]; exact hbefore i hi)
    rw [zero_add] at hJ
    exact hcall j r.1 r.2 hJ ▸ h r hr
  · intro h r hr
    have hstep : ∀ k b s b' t, J k b s → body b s = (some (Sum.inl b'), t) →
        Nat.count p (k + 1) < m ∧ J (k + 1) b' t := by
      intro k b s b' t hJ hrun
      by_cases hlt : Nat.count p (k + 1) < m
      · obtain ⟨b'', t'', hb, hJ'⟩ := hgo k b s hJ hlt
        rw [hrun] at hb
        cases hb
        exact ⟨hlt, hJ'⟩
      · obtain ⟨a, t'', ha⟩ := hstop k b s hJ hlt
        rw [hrun] at ha
        cases ha
    obtain ⟨j, hj, hbefore, hJ⟩ := spec_of_mem_rounds hstep hs hr
    rw [zero_add] at hJ
    rw [hcall j r.1 r.2 hJ]
    exact h j hj fun i hi => by simpa only [zero_add] using hbefore i hi

/-! ## The reserved blocks -/

section Reserved

variable {fl : Flash}

/-- No chip of the identification tables has more blocks. -/
lemma blocks_le (fl : Flash) : fl.blocks ≤ maxChipBlks :=
  Nat.div_le_of_le_mul (by rw [mul_comm fl.blocksize]; exact fl.chipsize_le)

/-- The row of place `k` of a count behind `tmp` blocks of boot area. -/
lemma row_lt_iff (fl : Flash) (tmp k : ℕ) :
    (k + tmp) / fl.chipNum + (tmp - tmp / fl.chipNum) < fl.blocks ↔ k < reservePlaces fl tmp := by
  have h1 : (k + tmp) / fl.chipNum < fl.blocks - (tmp - tmp / fl.chipNum) ↔
      k + tmp < fl.chipNum * (fl.blocks - (tmp - tmp / fl.chipNum)) := by
    rw [Nat.div_lt_iff_lt_mul fl.chipNum_pos, mul_comm]
  rw [← Nat.lt_sub_iff_add_lt, h1, reservePlaces, Nat.lt_sub_iff_add_lt]

/-- The search for the end of the reserved area has fuel for every place. -/
lemma reservePlaces_lt (fl : Flash) (tmp : ℕ) : reservePlaces fl tmp < scanFuel := by
  have h1 := Nat.mul_le_mul fl.chipNum_le
    ((Nat.sub_le fl.blocks (tmp - tmp / fl.chipNum)).trans (blocks_le fl))
  unfold reservePlaces scanFuel
  omega

/-- Place `k` of the count of reserved blocks is inside the table up to the last row. -/
lemma callInside_countPara (heven : fl.multiPlane = true → 2 ∣ fl.blocks) (tbl : BlkStatus)
    (tmp k : ℕ) : CallInside fl tbl (countPara fl tmp k) ↔ k < reservePlaces fl tmp := by
  have hchip : (countPara fl tmp k).chipnr < fl.chipNum := Nat.mod_lt _ fl.chipNum_pos
  have hrow : (countPara fl tmp k).pageAddr / fl.ppb =
      (k + tmp) / fl.chipNum + (tmp - tmp / fl.chipNum) := by
    have hdiv : (k + tmp - (k + tmp) % fl.chipNum) / fl.chipNum = (k + tmp) / fl.chipNum := by
      rw [← Nat.div_mul_self_eq_mod_sub_self, Nat.mul_div_cancel _ fl.chipNum_pos]
    rw [countPara, Nat.mul_div_cancel _ fl.ppb_pos, hdiv, Nat.add_sub_assoc (Nat.div_le_self _ _)]
  rw [callInside_iff heven hchip (fun h => absurd h Bool.false_ne_true), hrow, ← row_lt_iff]
  simp [countPara]

/-- Place `k` of `get_last_reserve_block`. -/
lemma callInside_blockPara (heven : fl.multiPlane = true → 2 ∣ fl.blocks) (tbl : BlkStatus)
    (k : ℕ) :
    CallInside fl tbl (blockPara fl (fl.startBlk + k)) ↔ k < reservePlaces fl fl.startBlk := by
  rw [callInside_iff heven (fl.resChip_lt _) (fun h => absurd h Bool.false_ne_true), blockPara,
    resPage_div, Flash.resRow_eq, ← row_lt_iff, add_comm k]
  simp

/-- **The count of reserved blocks stays inside the table exactly when 48 blocks of the chips
are not factory bad.** -/
lemma countCalls_inside_iff (heven : fl.multiPlane = true → 2 ∣ fl.blocks) (tmp : ℕ) (s : St) :
    (∀ p ∈ countCalls fl tmp s, CallInside fl s.blkStatus p) ↔
      StopsWithin (CountGood fl s.blkStatus tmp) reservedBlockCnt (reservePlaces fl tmp) := by
  refine searchCalls_inside_iff (J := CountAt fl s tmp) (fun _ _ _ h => countRound_go h)
    (fun k v u h hlt => ?_) (fun k v u h => ?_) (reservePlaces_lt fl tmp)
    (fun k _ => callInside_countPara heven s.blkStatus tmp k) ⟨by rw [Nat.count_zero], _, rfl⟩
  · obtain ⟨n, t, hn, -⟩ := countRound_stop h hlt
    exact ⟨n, t, hn⟩
  · obtain ⟨rfl, q, rfl⟩ := h
    rw [countRound_apply]

/-- The loop variables and the state of `get_last_reserve_block` after `k` rounds. -/
def ReserveAt (fl : Flash) (s : St) (k : ℕ) (v : ℕ × ℕ) (u : St) : Prop :=
  v = (fl.startBlk + k, Nat.count (NotFactory fl s.blkStatus) k) ∧ ∃ p, u = { s with opsPara := p }

/-- A round that finds the count not complete. -/
lemma reserveAt_apply {s u : St} {k : ℕ} {v : ℕ × ℕ} (h : ReserveAt fl s k v u)
    (hlt : Nat.count (NotFactory fl s.blkStatus) k < reservedBlockCnt) :
    lastReserveRound fl v u =
      (some (Sum.inl (fl.startBlk + (k + 1), Nat.count (NotFactory fl s.blkStatus) (k + 1))),
      { s with opsPara := blockPara fl (fl.startBlk + k) }) := by
  obtain ⟨rfl, q, rfl⟩ := h
  rw [lastReserveRound_apply fl hlt, Nat.count_succ]
  rfl

/-- **`get_last_reserve_block` stays inside the table exactly when 48 blocks behind the boot area
are not factory bad.** -/
lemma reserveCalls_inside_iff (heven : fl.multiPlane = true → 2 ∣ fl.blocks) (s : St) :
    (∀ p ∈ reserveCalls fl s, CallInside fl s.blkStatus p) ↔
      StopsWithin (NotFactory fl s.blkStatus) reservedBlockCnt (reservePlaces fl fl.startBlk) := by
  have hinit : ReserveAt fl s 0 (fl.startBlk, 0) { s with opsPara := {} } :=
    ⟨by rw [Nat.count_zero, add_zero], _, rfl⟩
  rw [← stopsWithin_iff (reservePlaces_lt fl fl.startBlk)
    (fun k _ => callInside_blockPara heven s.blkStatus k)]
  simp only [reserveCalls, searchCalls, List.forall_mem_map, List.mem_filter, decide_eq_true_eq]
  constructor
  · intro h j hj hbefore
    -- place `j` is looked at when the count is not complete there either
    have hcount : ∀ i ≤ j, Nat.count (NotFactory fl s.blkStatus) i < reservedBlockCnt := by
      intro i hi
      cases i with
      | zero => rw [Nat.count_zero]; decide
      | succ i => exact hbefore i hi
    obtain ⟨r, hr, hJ⟩ := exists_mem_rounds (J := ReserveAt fl s)
      (C := fun k => Nat.count (NotFactory fl s.blkStatus) k < reservedBlockCnt)
      (fun k v u hJ hC => ⟨_, _, reserveAt_apply hJ hC, rfl, _, rfl⟩) hinit hj
      (fun i hi => by rw [zero_add]; exact hcount i hi.le)
    rw [zero_add] at hJ
    have hin := h r ⟨hr, by rw [hJ.1]; exact hcount j (le_refl j)⟩
    rwa [reserveAt_apply hJ (hcount j (le_refl j))] at hin
  · rintro h r ⟨hr, hlt⟩
    obtain ⟨j, hj, hbefore, hJ⟩ := spec_of_mem_rounds (J := ReserveAt fl s)
      (C := fun k => Nat.count (NotFactory fl s.blkStatus) k < reservedBlockCnt)
      (fun k v u v' t hJ hrun => by
        have hC : Nat.count (NotFactory fl s.blkStatus) k < reservedBlockCnt := by
          by_contra hge
          rw [lastReserveRound, if_neg (by rw [hJ.1]; exact hge)] at hrun
          simp at hrun
        rw [reserveAt_apply hJ hC] at hrun
        cases hrun
        exact ⟨hC, rfl, _, rfl⟩) hinit hr
    rw [zero_add] at hJ
    have hcount : Nat.count (NotFactory fl s.blkStatus) j < reservedBlockCnt := by
      rw [hJ.1] at hlt
      exact hlt
    rw [reserveAt_apply hJ hcount]
    refine h j hj fun i hi => ?_
    exact lt_of_le_of_lt (Nat.count_monotone _ hi) hcount

end Reserved

/-! ## The blocks of a device -/

/-- What the devices of every configuration have in common, as far as lookups go. -/
structure DevOk (fl : Flash) (dev : Phydev) : Prop where
  shift : dev.erasesizeShift = dev.writesizeShift + fl.ppbShift
  shift_le : dev.erasesizeShift ≤ 31
  plane : dev.option.multiPlane = true → fl.multiPlane = true
  pow_le : 2 ^ dev.erasesizeShift ≤ dev.erasesize
  blocksize_le : fl.blocksize ≤ 2 ^ dev.erasesizeShift
  erasesize_le : dev.erasesize ≤ 8 * fl.blocksize
  offset_le : dev.offset ≤ 2 ^ 18 * fl.blocksize
  awake : dev.shutDown = false

section Device

variable {fl : Flash} {dev : Phydev}

lemma DevOk.pow_pos (_ : DevOk fl dev) : 0 < 2 ^ dev.erasesizeShift := Nat.two_pow_pos _

lemma DevOk.erasesize_pos (h : DevOk fl dev) : 0 < dev.erasesize := h.pow_pos.trans_le h.pow_le

/-- The blocks a device can address. -/
lemma DevOk.reach_le (_ : DevOk fl dev) : dev.reach fl ≤ 2 ^ 15 * 2 ^ dev.erasesizeShift :=
  Nat.mul_le_mul_right _ ((Nat.div_le_self _ _).trans (blocks_le fl))

/-- The call for byte `a` of a device is inside the table up to the reach of the device. -/
lemma DevOk.callInside_iff (h : DevOk fl dev) (heven : fl.multiPlane = true → 2 ∣ fl.blocks)
    (tbl : BlkStatus) {a : ℕ} (ha : dev.offset + a ≤ 2 ^ 19 * 2 ^ dev.erasesizeShift) :
    CallInside fl tbl (dev.para a) ↔ dev.offset + a < dev.reach fl := by
  have hpow : 2 ^ dev.erasesizeShift = 2 ^ dev.writesizeShift * fl.ppb := by
    rw [h.shift, pow_add, Flash.ppb]
  have hsmall : dev.offset + a < 2 ^ 64 := by
    have := Nat.pow_le_pow_right (show 0 < 2 by omega) h.shift_le
    omega
  have hpage : (dev.offset + a) / 2 ^ dev.writesizeShift < 2 ^ 32 := by
    have hle : dev.offset + a ≤ 2 ^ 19 * 1024 * 2 ^ dev.writesizeShift :=
      calc dev.offset + a ≤ 2 ^ 19 * (2 ^ dev.writesizeShift * fl.ppb) := hpow ▸ ha
        _ ≤ 2 ^ 19 * (2 ^ dev.writesizeShift * 1024) := by gcongr; exact fl.ppb_le
        _ = 2 ^ 19 * 1024 * 2 ^ dev.writesizeShift := by ring
    rw [Nat.div_lt_iff_lt_mul (Nat.two_pow_pos _)]
    have := Nat.two_pow_pos dev.writesizeShift
    omega
  have hblk : (dev.para a).pageAddr / fl.ppb = (dev.offset + a) / 2 ^ dev.erasesizeShift := by
    rw [Phydev.para, Phydev.pageAddr, Nat.mod_eq_of_lt hsmall, Nat.shiftRight_eq_div_pow,
      Nat.mod_eq_of_lt hpage, Nat.div_div_eq_div_mul, hpow]
  rw [Amlnf.callInside_iff heven fl.chipNum_pos h.plane, hblk,
    Nat.div_lt_iff_lt_mul h.pow_pos]
  rfl

/-- A place lies below the end exactly when its address does. -/
lemma lt_placesBelow_iff {stop x e : ℕ} (he : 0 < e) (k : ℕ) :
    k < placesBelow stop x e ↔ x + k * e < stop := by
  rw [placesBelow, ← Nat.succ_le_iff, Nat.le_div_iff_mul_le he, Nat.succ_mul]
  omega

/-- Up to the end of its places a device is addressed without overflow. -/
lemma DevOk.place_le (h : DevOk fl dev) {k e : ℕ} (he : e ≤ dev.erasesize)
    (hk : k ≤ placesBelow (dev.reach fl) dev.offset e) :
    dev.offset + k * e ≤ 2 ^ 19 * 2 ^ dev.erasesizeShift := by
  have h1 : k * e ≤ dev.reach fl - dev.offset + e - 1 :=
    (Nat.mul_le_mul_right e hk).trans (Nat.div_mul_le_self _ _)
  have h2 := h.reach_le
  have h3 := h.blocksize_le
  have h4 := h.erasesize_le
  have h5 := h.offset_le
  omega

/-- A device has few places inside the table. -/
lemma DevOk.placesBelow_le (h : DevOk fl dev) {e : ℕ} (he : 2 ^ dev.erasesizeShift ≤ e) :
    placesBelow (dev.reach fl) dev.offset e ≤ 2 ^ 15 + 1 := by
  have hpos := h.pow_pos
  rw [placesBelow, ← Nat.lt_succ_iff, Nat.div_lt_iff_lt_mul (by omega)]
  have h2 := h.reach_le
  have h3 : 2 ^ 15 * 2 ^ dev.erasesizeShift ≤ 2 ^ 15 * e := Nat.mul_le_mul_left _ he
  omega

/-- **The search for the end of a device stays inside the table exactly when it finds the
superblocks the device is to have there.** -/
lemma extentCalls_inside_iff (heven : fl.multiPlane = true → 2 ∣ fl.blocks) (h : DevOk fl dev)
    (want : ℕ) (s : St) :
    (∀ p ∈ extentCalls fl dev want s, CallInside fl s.blkStatus p) ↔
      StopsWithin (SuperGood fl s.blkStatus dev) (adjustedBlocks want dev.erasesizeShift)
        (placesBelow (dev.reach fl) dev.offset dev.erasesize) := by
  have hoff : dev.offset < 2 ^ 64 := by
    have h1 := h.offset_le
    have h2 := Amlnf.blocksize_le fl
    omega
  have hM := h.placesBelow_le h.pow_le
  refine searchCalls_inside_iff (J := ExtentAt fl s dev)
    (P := fun k => dev.para (k * dev.erasesize)) (fun _ _ _ h => extentRound_go h)
    (fun k v u h hlt => ?_) (fun k v u h => ?_)
    (by omega) (fun k hk => ?_)
    ⟨by rw [zero_mul, add_zero, Nat.mod_eq_of_lt hoff, Nat.count_zero], 0, rfl⟩
  · obtain ⟨n, t, hn, -⟩ := extentRound_stop h hlt
    exact ⟨n, t, hn⟩
  · rw [extentRound_apply h]
  · rw [h.callInside_iff heven _ (h.place_le (le_refl _) hk), lt_placesBelow_iff h.erasesize_pos]

end Device

/-! ## Scans over a device -/

/-- The lock is free and the pins can be selected. -/
structure St.Idle (s : St) : Prop where
  ready : s.state = .ready
  free : s.mutex = false
  pin : ∀ k, (s.plan k).pin = true

/-- No operation of a device has been noted and the table is as it was. -/
def Unnoted (s t : St) : Prop := t.handed = s.handed ∧ t.blkStatus = s.blkStatus

instance : Std.Refl Unnoted := ⟨fun _ => ⟨rfl, rfl⟩⟩

instance : IsTrans St Unnoted := ⟨fun _ _ _ h h' => ⟨h'.1.trans h.1, h'.2.trans h.2⟩⟩

section DeviceScan

variable {fl : Flash} {dev : Phydev}

/-- Taking the device notes no lookup. -/
lemma unnoted_getDevice (st : ChipState) : Moves Unnoted (amlnandGetDevice st) :=
  .bind .get fun _ => .ite
    (fun _ => .bind (.modify fun _ => ⟨rfl, rfl⟩) fun _ =>
      moves_getChip fun _ _ _ _ _ => ⟨rfl, rfl⟩)
    fun _ => .hang

/-- Giving the device back notes no lookup. -/
lemma unnoted_releaseDevice : Moves Unnoted amlnandReleaseDevice :=
  .bind (.modify fun _ => ⟨rfl, rfl⟩) fun _ => moves_releaseChip fun _ _ _ _ _ => ⟨rfl, rfl⟩

/-- The lookup under the bracket of `nand_block_isbad`. -/
lemma isbad_apply (fl : Flash) (dev : Phydev) (r : DevOps) (s : St) :
    (do setPara dev false; seekAddr dev (dev.start r); hand (blockIsbad fl) : Act St ℤ) s =
      (some (isbadVal fl s.blkStatus (dev.para r.addr)),
        { s with opsPara := dev.para r.addr, handed := s.handed ++ [dev.para r.addr] }) := by
  have hoption : ({ dev.option with eccSoft := dev.option.eccSoft || false } : OpsOption) =
      dev.option := by
    rw [Bool.or_false]
  rw [setPara, hoption]
  rfl

/-- **What `nand_block_isbad` notes**: nothing, or the parameters of the address, which is then
not behind the end of the device. -/
lemma nandBlockIsbad_noted (fl : Flash) (dev : Phydev) (r : DevOps) (s : St) :
    (nandBlockIsbad fl dev r s).2.blkStatus = s.blkStatus ∧
      ∃ ps, (nandBlockIsbad fl dev r s).2.handed = s.handed ++ ps ∧
        ∀ p ∈ ps, r.addr ≤ dev.size ∧ p = dev.para r.addr := by
  have hnone : ∀ t, Unnoted s t → t.blkStatus = s.blkStatus ∧ ∃ ps, t.handed = s.handed ++ ps ∧
      ∀ p ∈ ps, r.addr ≤ dev.size ∧ p = dev.para r.addr := fun t ht =>
    ⟨ht.2, [], by rw [ht.1, List.append_nil], fun p hp => absurd hp List.not_mem_nil⟩
  rw [nandBlockIsbad, blockOp]
  by_cases hsize : dev.size < r.addr
  · rw [if_pos hsize]
    exact hnone s (refl_of Unnoted s)
  rw [if_neg hsize]
  by_cases hshut : true = true ∧ dev.shutDown = true
  · rw [if_pos hshut]
    exact hnone s (refl_of Unnoted s)
  rw [if_neg hshut, withDevice]
  have hget := unnoted_getDevice .reading s
  rcases hrun : amlnandGetDevice .reading s with ⟨o, u⟩
  rw [hrun] at hget
  cases o with
  | none =>
    rw [bind_none hrun]
    exact hnone u hget
  | some a =>
    rw [bind_some hrun, bind_some (isbad_apply fl dev r u)]
    have hrel := unnoted_releaseDevice
      { u with opsPara := dev.para r.addr, handed := u.handed ++ [dev.para r.addr] }
    have hnoted : ∀ t, Unnoted
        { u with opsPara := dev.para r.addr, handed := u.handed ++ [dev.para r.addr] } t →
        t.blkStatus = s.blkStatus ∧ ∃ ps, t.handed = s.handed ++ ps ∧
          ∀ p ∈ ps, r.addr ≤ dev.size ∧ p = dev.para r.addr := fun t ht =>
      ⟨ht.2.trans hget.2, [dev.para r.addr], by rw [ht.1, hget.1], fun p hp =>
        ⟨not_lt.mp hsize, List.mem_singleton.mp hp⟩⟩
    rcases hrun' : amlnandReleaseDevice
      { u with opsPara := dev.para r.addr, handed := u.handed ++ [dev.para r.addr] } with ⟨o, t⟩
    rw [hrun'] at hrel
    cases o with
    | none =>
      rw [bind_none hrun']
      exact hnoted t hrel
    | some _ =>
      rw [bind_some hrun']
      exact hnoted t hrel

/-- An idle driver answers `nand_block_isbad` and is idle again. -/
lemma nandBlockIsbad_idle (fl : Flash) (hdev : dev.shutDown = false) (r : DevOps) {s : St}
    (hs : s.Idle) :
    ∃ ret t, nandBlockIsbad fl dev r s = (some ret, t) ∧ t.Idle ∧ t.blkStatus = s.blkStatus ∧
      (r.addr ≤ dev.size → t.handed = s.handed ++ [dev.para r.addr]) := by
  rw [nandBlockIsbad, blockOp]
  by_cases hsize : dev.size < r.addr
  · rw [if_pos hsize]
    exact ⟨_, s, rfl, hs, rfl, fun h => absurd hsize (not_lt.mpr h)⟩
  have hget : amlnandGetDevice .reading s = (some (),
      { s with state := .reading, mutex := true, idleflag := true, tick := s.tick + 1 }) :=
    amlnandGetDevice_free .reading hs.ready hs.free (hs.pin s.tick)
  rw [if_neg hsize, if_neg (by simp [hdev]), withDevice, bind_some hget,
    bind_some (isbad_apply fl dev r _)]
  exact ⟨_, _, rfl, ⟨rfl, rfl, hs.pin⟩, rfl, fun _ => rfl⟩

variable {α β : Type} {r : β → DevOps} {f : β → ℤ → β ⊕ α} {V : ℕ → β → Prop} {A : ℕ → ℕ}
  {C : ℕ → Prop}

/-- A scan over a device: each round looks the block at one address up and goes on, or not. -/
def devScan (fl : Flash) (dev : Phydev) (r : β → DevOps) (f : β → ℤ → β ⊕ α) (v : β) :
    Act St (β ⊕ α) := do
  let ret ← nandBlockIsbad fl dev (r v)
  pure (f v ret)

/-- The `k`-th round of a scan looks address `A k` up and goes on when `C k` holds. -/
structure DevScan (r : β → DevOps) (f : β → ℤ → β ⊕ α) (V : ℕ → β → Prop) (A : ℕ → ℕ)
    (C : ℕ → Prop) : Prop where
  addr : ∀ k v, V k v → (r v).addr = A k
  go : ∀ k v ret, V k v → C k → ∃ v', f v ret = Sum.inl v' ∧ V (k + 1) v'
  stop : ∀ k v ret, V k v → ¬C k → ∃ a, f v ret = Sum.inr a

/-- **What a scan calls `block_isbad` with**: addresses of rounds behind rounds that go on. -/
lemma DevScan.spec_of_mem (h : DevScan r f V A C) {N : ℕ} {v : β} {s : St} (hv : V 0 v)
    {p : ChipOpsPara}
    (hp : p ∈ scanCalls (devScan fl dev r f) (rounds (devScan fl dev r f) N v s)) :
    ∃ j < N, (∀ i < j, C i) ∧ A j ≤ dev.size ∧ p = dev.para (A j) := by
  have hstate : ∀ v u, (devScan fl dev r f v u).2 = (nandBlockIsbad fl dev (r v) u).2 := by
    intro v u
    rcases hrun : nandBlockIsbad fl dev (r v) u with ⟨o, t⟩
    cases o with
    | none => rw [devScan, bind_none hrun]
    | some a => rw [devScan, bind_some hrun, pure_apply]
  obtain ⟨q, hq, hp⟩ := List.mem_flatMap.mp hp
  obtain ⟨j, hj, hbefore, hJ⟩ := spec_of_mem_rounds (J := fun k v _ => V k v) (C := C)
    (fun k v u v' t hJ hrun => by
      obtain ⟨ret, u', -, hf⟩ := bind_eq_some hrun
      simp only [pure_apply, Prod.mk.injEq, Option.some.injEq] at hf
      by_cases hC : C k
      · obtain ⟨w, hw, hV⟩ := h.go k v ret hJ hC
        rw [hf.1] at hw
        cases hw
        exact ⟨hC, hV⟩
      · obtain ⟨a, ha⟩ := h.stop k v ret hJ hC
        rw [hf.1] at ha
        cases ha) hv hq
  simp only [zero_add] at hbefore hJ
  obtain ⟨-, ps, hps, hall⟩ := nandBlockIsbad_noted fl dev (r q.1) q.2
  rw [hstate, hps, List.drop_left] at hp
  obtain ⟨hle, rfl⟩ := hall p hp
  rw [h.addr j q.1 hJ] at hle ⊢
  exact ⟨j, hj, hbefore, hle, rfl⟩

/-- A scan of an idle driver looks up every address behind rounds that go on. -/
lemma DevScan.mem (h : DevScan r f V A C) (fl : Flash) (hdev : dev.shutDown = false) {N j : ℕ}
    {v : β} {s : St} (hv : V 0 v) (hs : s.Idle) (hj : j < N) (hbefore : ∀ i < j, C i)
    (hA : A j ≤ dev.size) :
    dev.para (A j) ∈ scanCalls (devScan fl dev r f) (rounds (devScan fl dev r f) N v s) := by
  obtain ⟨q, hq, hV, hI⟩ : ∃ q ∈ rounds (devScan fl dev r f) N v s, V (0 + j) q.1 ∧ q.2.Idle :=
    exists_mem_rounds (J := fun k v (u : St) => V k v ∧ u.Idle) (C := C) (fun k v u hJ hC => by
      obtain ⟨ret, t, hrun, ht, -, -⟩ := nandBlockIsbad_idle fl hdev (r v) hJ.2
      obtain ⟨w, hw, hV⟩ := h.go k v ret hJ.1 hC
      exact ⟨w, t, by rw [devScan, bind_some hrun, pure_apply, hw], hV, ht⟩)
    (k := 0) ⟨hv, hs⟩ hj (fun i hi => by rw [zero_add]; exact hbefore i hi)
  rw [zero_add] at hV
  obtain ⟨ret, t, hrun, -, -, hnoted⟩ := nandBlockIsbad_idle fl hdev (r q.1) hI
  have haddr := h.addr j q.1 hV
  refine List.mem_flatMap.mpr ⟨q, hq, ?_⟩
  rw [devScan, bind_some hrun, pure_apply, hnoted (by rw [haddr]; exact hA), List.drop_left, haddr]
  exact List.mem_singleton_self _

/-- A scan of an idle driver returns from the first round that does not go on. -/
lemma DevScan.returns (h : DevScan r f V A C) (hdev : dev.shutDown = false) {N j : ℕ} {v : β}
    {s : St} (hv : V 0 v) (hs : s.Idle) (hj : j < N) (hbefore : ∀ i < j, C i) (hC : ¬C j) :
    ∃ a t, loopUntil (devScan fl dev r f) N v s = (some a, t) ∧ t.Idle ∧
      t.blkStatus = s.blkStatus := by
  refine loopUntil_returns (J := fun k v (u : St) => V k v ∧ u.Idle ∧ u.blkStatus = s.blkStatus)
    (C := C) (A := fun _ _ (t : St) => t.Idle ∧ t.blkStatus = s.blkStatus) (k := 0)
    (fun k v u hJ hC => ?_) (fun k v u hJ hC => ?_) ⟨hv, hs, rfl⟩ hj
    (fun i hi => by rw [zero_add]; exact hbefore i hi) (by rw [zero_add]; exact hC)
  · obtain ⟨ret, t, hrun, ht, htbl, -⟩ := nandBlockIsbad_idle fl hdev (r v) hJ.2.1
    obtain ⟨w, hw, hV⟩ := h.go k v ret hJ.1 hC
    exact ⟨w, t, by rw [devScan, bind_some hrun, pure_apply, hw], hV, ht, htbl.trans hJ.2.2⟩
  · obtain ⟨ret, t, hrun, ht, htbl, -⟩ := nandBlockIsbad_idle fl hdev (r v) hJ.2.1
    obtain ⟨a, ha⟩ := h.stop k v ret hJ.1 hC
    exact ⟨a, t, by rw [devScan, bind_some hrun, pure_apply, ha], ht, htbl.trans hJ.2.2⟩

end DeviceScan

/-! ## The used-bad blocks of a device -/

section UsedBad

variable {fl : Flash} {dev : Phydev}

/-- What the count of used-bad blocks does with the status of a block. -/
def badCntNext (dev : Phydev) (v : ℕ × ℕ) (ret : ℤ) : (ℕ × ℕ) ⊕ ℕ :=
  let cnt := if ret = 1 ∧ v.2 < 128 then v.2 + 1 else v.2
  let next := (v.1 + dev.erasesize) % 2 ^ 64
  if next < dev.size then Sum.inl (next, cnt) else Sum.inr cnt

/-- A round of the count of bad blocks, as a scan. -/
lemma badCntRound_eq (fl : Flash) (dev : Phydev) : badCntRound fl dev =
    devScan fl dev (fun v => { addr := v.1, len := dev.erasesize }) (badCntNext dev) := by
  funext v
  rw [badCntRound, devScan]
  congr 1
  funext ret
  simp only [badCntNext]
  split <;> rfl

/-- The count looks one superblock after the other up. -/
lemma devScan_usedBad (dev : Phydev) :
    DevScan (fun v : ℕ × ℕ => { addr := v.1, len := dev.erasesize }) (badCntNext dev)
      (fun k v => v.1 = (k * dev.erasesize) % 2 ^ 64) (fun k => (k * dev.erasesize) % 2 ^ 64)
      (fun k => ((k + 1) * dev.erasesize) % 2 ^ 64 < dev.size) where
  addr := fun k v hv => hv
  go := by
    intro k v ret hv hC
    have hnext : (v.1 + dev.erasesize) % 2 ^ 64 = ((k + 1) * dev.erasesize) % 2 ^ 64 := by
      rw [hv, Nat.mod_add_mod, Nat.succ_mul]
    simp only [badCntNext, hnext, if_pos hC]
    exact ⟨_, rfl, rfl⟩
  stop := by
    intro k v ret hv hC
    have hnext : (v.1 + dev.erasesize) % 2 ^ 64 = ((k + 1) * dev.erasesize) % 2 ^ 64 := by
      rw [hv, Nat.mod_add_mod, Nat.succ_mul]
    simp only [badCntNext, hnext, if_neg hC]
    exact ⟨_, rfl⟩

/-- A device whose last superblock starts inside the table is small. -/
lemma ListHeld.size_le (hheld : ListHeld fl dev) (h : DevOk fl dev) :
    dev.size ≤ 2 ^ 16 * 2 ^ dev.erasesizeShift := by
  have h1 := Nat.div_add_mod (dev.size - 1) dev.erasesize
  have h2 := Nat.mod_lt (dev.size - 1) h.erasesize_pos
  have h3 := h.reach_le
  have h4 := h.erasesize_le
  have h5 := h.blocksize_le
  rw [mul_comm] at h1
  unfold ListHeld at hheld
  omega

/-- Rounds that go on stay below the end of a small device. -/
lemma below_of_rounds {e size j : ℕ} (he : 0 < e) (hsmall : size + e ≤ 2 ^ 64)
    (h : ∀ i < j, ((i + 1) * e) % 2 ^ 64 < size) : j ≤ (size - 1) / e := by
  rw [Nat.le_div_iff_mul_le he]
  induction j with
  | zero => omega
  | succ j ih =>
    have hprev := ih fun i hi => h i (by omega)
    have hlast := h j (Nat.lt_succ_self j)
    rw [Nat.mod_eq_of_lt (by rw [Nat.succ_mul]; omega)] at hlast
    omega

/-- The places of a device whose last superblock starts inside the table. -/
lemma ListHeld.below (hheld : ListHeld fl dev) (h : DevOk fl dev) {j : ℕ}
    (hj : ∀ i < j, ((i + 1) * dev.erasesize) % 2 ^ 64 < dev.size) :
    j < placesBelow (dev.reach fl) dev.offset dev.erasesize := by
  have h1 := hheld.size_le h
  have h2 := h.erasesize_le
  have h3 := Amlnf.blocksize_le fl
  have h4 := Nat.pow_le_pow_right (show 0 < 2 by omega) h.shift_le
  rw [lt_placesBelow_iff h.erasesize_pos]
  refine lt_of_le_of_lt ?_ hheld
  have hle := below_of_rounds h.erasesize_pos (by omega) hj
  exact Nat.add_le_add_left (Nat.mul_le_mul_right _ hle) _

/-- The address of a place inside the table or the first behind it. -/
lemma DevOk.mod_place (h : DevOk fl dev) {k e : ℕ} (he : e ≤ dev.erasesize)
    (hk : k ≤ placesBelow (dev.reach fl) dev.offset e) : (k * e) % 2 ^ 64 = k * e := by
  have h1 := h.place_le he hk
  have h2 := Nat.pow_le_pow_right (show 0 < 2 by omega) h.shift_le
  exact Nat.mod_eq_of_lt (by omega)

/-- The count of used-bad blocks stays inside the table when the last superblock does. -/
lemma usedBadCalls_inside (heven : fl.multiPlane = true → 2 ∣ fl.blocks) (h : DevOk fl dev)
    (hheld : ListHeld fl dev) (tbl : BlkStatus) {s : St} {p : ChipOpsPara}
    (hp : p ∈ usedBadCalls fl dev s) : CallInside fl tbl p := by
  rw [usedBadCalls, badCntRound_eq] at hp
  obtain ⟨j, -, hbefore, -, rfl⟩ := (devScan_usedBad dev).spec_of_mem (by simp) hp
  have hj := hheld.below h hbefore
  rw [h.mod_place (le_refl _) hj.le, h.callInside_iff heven _ (h.place_le (le_refl _) hj.le),
    ← lt_placesBelow_iff h.erasesize_pos]
  exact hj

/-- On an idle driver it does not stay inside otherwise. -/
lemma listHeld_of_inside (heven : fl.multiPlane = true → 2 ∣ fl.blocks) (h : DevOk fl dev)
    {tbl : BlkStatus} {s : St} (hs : s.Idle)
    (hin : ∀ p ∈ usedBadCalls fl dev s, CallInside fl tbl p) : ListHeld fl dev := by
  set M := placesBelow (dev.reach fl) dev.offset dev.erasesize with hM
  by_contra hheld
  -- then the scan gets to the first place behind the table
  have hq : M ≤ (dev.size - 1) / dev.erasesize := by
    rw [← not_lt, hM, lt_placesBelow_iff h.erasesize_pos]
    exact hheld
  have hle : M * dev.erasesize ≤ dev.size - 1 :=
    (Nat.mul_le_mul_right _ hq).trans (Nat.div_mul_le_self _ _)
  have hmem := (devScan_usedBad dev).mem fl (N := 2 ^ 64) (j := M) h.awake
    (v := (0, 0)) (by simp) hs (by have := h.placesBelow_le h.pow_le; omega)
    (fun i hi => by
      have h1 : (i + 1) * dev.erasesize ≤ M * dev.erasesize := Nat.mul_le_mul_right _ hi
      have h2 : 0 < (i + 1) * dev.erasesize := Nat.mul_pos (Nat.succ_pos i) h.erasesize_pos
      exact lt_of_le_of_lt (Nat.mod_le _ _) (by omega))
    (by rw [h.mod_place (le_refl _) hM.le]; omega)
  rw [← badCntRound_eq] at hmem
  have hinside := hin _ hmem
  rw [h.mod_place (le_refl _) hM.le, h.callInside_iff heven _ (h.place_le (le_refl _) hM.le),
    ← lt_placesBelow_iff h.erasesize_pos] at hinside
  exact lt_irrefl M hinside

/-- On an idle driver the count returns for a device whose last superblock starts inside the
table. -/
lemma countUsedBad_returns (h : DevOk fl dev) (hheld : ListHeld fl dev) {s : St} (hs : s.Idle) :
    ∃ n t, countUsedBad fl dev s = (some n, t) ∧ t.Idle ∧ t.blkStatus = s.blkStatus := by
  have hsmall : ∀ i, i < placesBelow (dev.reach fl) dev.offset dev.erasesize →
      ((i + 1) * dev.erasesize) % 2 ^ 64 = (i + 1) * dev.erasesize := fun i hi =>
    h.mod_place (le_refl _) hi
  have hq : (dev.size - 1) / dev.erasesize <
      placesBelow (dev.reach fl) dev.offset dev.erasesize := by
    rw [lt_placesBelow_iff h.erasesize_pos]
    exact hheld
  have h1 := Nat.div_mul_le_self (dev.size - 1) dev.erasesize
  rw [countUsedBad, badCntRound_eq]
  refine (devScan_usedBad dev).returns (j := (dev.size - 1) / dev.erasesize) h.awake (by simp) hs
    (by have := h.placesBelow_le h.pow_le; omega) (fun i hi => ?_) ?_
  · have h2 : (i + 1) * dev.erasesize ≤ (dev.size - 1) / dev.erasesize * dev.erasesize :=
      Nat.mul_le_mul_right _ hi
    have h3 : 0 < (i + 1) * dev.erasesize := Nat.mul_pos (Nat.succ_pos i) h.erasesize_pos
    exact lt_of_le_of_lt (Nat.mod_le _ _) (by omega)
  · rw [hsmall _ hq, Nat.succ_mul]
    have h4 := Nat.div_add_mod (dev.size - 1) dev.erasesize
    have h5 := Nat.mod_lt (dev.size - 1) h.erasesize_pos
    rw [mul_comm] at h4
    omega

end UsedBad

/-! ## The blocks of a partition -/

section Allocate

variable {fl : Flash} {dev : Phydev}

/-- What `allocate_partition` does with the status of a block. -/
def allocateNext (v : ℕ × ℕ × ℕ) (ret : ℤ) : (ℕ × ℕ × ℕ) ⊕ ℕ :=
  let bad := if ret ≠ 0 then v.2.2 + 1 else v.2.2
  let num := (v.2.1 + 2 ^ 32 - 1) % 2 ^ 32
  if num ≠ 0 then Sum.inl ((v.1 + 1) % 2 ^ 32, num, bad) else Sum.inr bad

/-- A round of the allocation of the status table, as a scan. -/
lemma allocateRound_eq (fl : Flash) (dev : Phydev) : allocateRound fl dev =
    devScan fl dev
      (fun v => { addr := (v.1 <<< dev.erasesizeShift) % 2 ^ 64, len := dev.erasesize })
      allocateNext := by
  funext v
  unfold allocateRound devScan partBlockIsbad
  refine congrArg (Bind.bind _) (funext fun ret => ?_)
  simp only [allocateNext]
  split <;> rfl

/-- The rounds of `allocate_partition` on a device with `q` blocks: a device without blocks is
counted round 2^32. -/
def allocateRounds (q : ℕ) : ℕ := if q = 0 then 2 ^ 32 else q

/-- `allocate_partition` looks one block after the other up. -/
lemma devScan_allocate (dev : Phydev) (hq : dev.size / 2 ^ dev.erasesizeShift < 2 ^ 32) :
    DevScan (fun v : ℕ × ℕ × ℕ =>
        { addr := (v.1 <<< dev.erasesizeShift) % 2 ^ 64, len := dev.erasesize }) allocateNext
      (fun k v => k < allocateRounds (dev.size / 2 ^ dev.erasesizeShift) ∧ v.1 = k ∧
        v.2.1 = (allocateRounds (dev.size / 2 ^ dev.erasesizeShift) - k) % 2 ^ 32)
      (fun k => (k * 2 ^ dev.erasesizeShift) % 2 ^ 64)
      (fun k => k + 1 < allocateRounds (dev.size / 2 ^ dev.erasesizeShift)) where
  addr := by
    rintro k v ⟨-, rfl, -⟩
    simp only [Nat.shiftLeft_eq]
  go := by
    rintro k v ret ⟨hk, hv, hnum⟩ hC
    have hle : allocateRounds (dev.size / 2 ^ dev.erasesizeShift) ≤ 2 ^ 32 := by
      unfold allocateRounds
      split <;> omega
    have hne : (v.2.1 + 2 ^ 32 - 1) % 2 ^ 32 ≠ 0 := by rw [hnum]; omega
    simp only [allocateNext, if_pos hne]
    refine ⟨_, rfl, hC, by simp only [hv]; omega, by simp only [hnum]; omega⟩
  stop := by
    rintro k v ret ⟨hk, hv, hnum⟩ hC
    have hle : allocateRounds (dev.size / 2 ^ dev.erasesizeShift) ≤ 2 ^ 32 := by
      unfold allocateRounds
      split <;> omega
    have hzero : ¬(v.2.1 + 2 ^ 32 - 1) % 2 ^ 32 ≠ 0 := by rw [hnum]; omega
    simp only [allocateNext, if_neg hzero]
    exact ⟨_, rfl⟩

/-- The loop variables `allocate_partition` starts with. -/
lemma allocate_start (dev : Phydev) (hq : dev.size / 2 ^ dev.erasesizeShift < 2 ^ 32) :
    0 < allocateRounds (dev.size / 2 ^ dev.erasesizeShift) ∧ 0 = 0 ∧
      (dev.size >>> dev.erasesizeShift) % 2 ^ 32 =
        (allocateRounds (dev.size / 2 ^ dev.erasesizeShift) - 0) % 2 ^ 32 := by
  rw [Nat.shiftRight_eq_div_pow]
  revert hq
  generalize dev.size / 2 ^ dev.erasesizeShift = q
  intro hq
  unfold allocateRounds
  split <;> omega

/-- The blocks of a device fit 32 bits. -/
lemma ListHeld.blocks_lt (hheld : ListHeld fl dev) (h : DevOk fl dev) :
    dev.size / 2 ^ dev.erasesizeShift < 2 ^ 32 := by
  rw [Nat.div_lt_iff_lt_mul h.pow_pos]
  have h1 := hheld.size_le h
  have h2 := h.pow_pos
  omega

/-- `allocate_partition` stays inside the table when the last block does. -/
lemma allocateCalls_inside (heven : fl.multiPlane = true → 2 ∣ fl.blocks) (h : DevOk fl dev)
    (hlist : ListHeld fl dev) (hheld : AllocHeld fl dev) (tbl : BlkStatus) {s : St}
    {p : ChipOpsPara} (hp : p ∈ allocateCalls fl dev s) : CallInside fl tbl p := by
  have hq := hlist.blocks_lt h
  rw [allocateCalls, allocateRound_eq] at hp
  obtain ⟨j, hj, hbefore, hle, rfl⟩ :=
    (devScan_allocate dev hq).spec_of_mem (allocate_start dev hq) hp
  -- the address of the block does not overflow, and only blocks of the device are looked up
  have hmod : (j * 2 ^ dev.erasesizeShift) % 2 ^ 64 = j * 2 ^ dev.erasesizeShift := by
    have h1 := Nat.pow_le_pow_right (show 0 < 2 by omega) h.shift_le
    have h2 : j * 2 ^ dev.erasesizeShift ≤ 2 ^ 32 * 2 ^ 31 := Nat.mul_le_mul hj.le h1
    exact Nat.mod_eq_of_lt (by omega)
  rw [hmod, ← Nat.le_div_iff_mul_le h.pow_pos] at hle
  have hlast : j ≤ dev.size / 2 ^ dev.erasesizeShift - 1 := by
    cases j with
    | zero => omega
    | succ j =>
      have hC := hbefore j (Nat.lt_succ_self j)
      unfold allocateRounds at hC
      split at hC <;> omega
  have hplace : j < placesBelow (dev.reach fl) dev.offset (2 ^ dev.erasesizeShift) := by
    rw [lt_placesBelow_iff h.pow_pos]
    exact lt_of_le_of_lt (Nat.add_le_add_left (Nat.mul_le_mul_right _ hlast) _) hheld
  rw [hmod, h.callInside_iff heven _ (h.place_le h.pow_le hplace.le),
    ← lt_placesBelow_iff h.pow_pos]
  exact hplace

/-- On an idle driver it does not stay inside otherwise. -/
lemma allocHeld_of_inside (heven : fl.multiPlane = true → 2 ∣ fl.blocks) (h : DevOk fl dev)
    (hlist : ListHeld fl dev) {tbl : BlkStatus} {s : St} (hs : s.Idle)
    (hin : ∀ p ∈ allocateCalls fl dev s, CallInside fl tbl p) : AllocHeld fl dev := by
  have hq := hlist.blocks_lt h
  set M := placesBelow (dev.reach fl) dev.offset (2 ^ dev.erasesizeShift) with hM
  by_contra hheld
  have hMq : M ≤ dev.size / 2 ^ dev.erasesizeShift - 1 := by
    rw [← not_lt, hM, lt_placesBelow_iff h.pow_pos]
    exact hheld
  have hrounds : M < allocateRounds (dev.size / 2 ^ dev.erasesizeShift) := by
    revert hMq hq
    generalize dev.size / 2 ^ dev.erasesizeShift = q
    intro hq hMq
    unfold allocateRounds
    split <;> omega
  have hle : M * 2 ^ dev.erasesizeShift ≤ dev.size :=
    (Nat.mul_le_mul_right _ (hMq.trans (Nat.sub_le _ _))).trans (Nat.div_mul_le_self _ _)
  have hmem := (devScan_allocate dev hq).mem fl (N := 2 ^ 32) (j := M) h.awake
    (v := (0, (dev.size >>> dev.erasesizeShift) % 2 ^ 32, 0)) (allocate_start dev hq) hs
    (by have := h.placesBelow_le (le_refl _); omega) (fun i hi => by omega)
    (by rw [h.mod_place h.pow_le hM.le]; exact hle)
  rw [← allocateRound_eq] at hmem
  have hinside := hin _ hmem
  rw [h.mod_place h.pow_le hM.le, h.callInside_iff heven _ (h.place_le h.pow_le hM.le),
    ← lt_placesBelow_iff h.pow_pos] at hinside
  exact lt_irrefl M hinside

/-- On an idle driver `allocate_partition` returns. -/
lemma allocatePartition_returns (h : DevOk fl dev) (hlist : ListHeld fl dev) {s : St}
    (hs : s.Idle) :
    ∃ n t, allocatePartition fl dev s = (some n, t) ∧ t.Idle ∧ t.blkStatus = s.blkStatus := by
  have hq := hlist.blocks_lt h
  have hpos := (allocate_start dev hq).1
  have hle : allocateRounds (dev.size / 2 ^ dev.erasesizeShift) ≤ 2 ^ 32 := by
    unfold allocateRounds
    split <;> omega
  rw [allocatePartition, allocateRound_eq]
  exact (devScan_allocate dev hq).returns
    (j := allocateRounds (dev.size / 2 ^ dev.erasesizeShift) - 1) h.awake (allocate_start dev hq)
    hs (by omega) (fun i hi => by omega) (by omega)

end Allocate

/-! ## The scans over all devices -/

section Attach

variable {fl : Flash} {scan : Phydev → Act St ℕ} {calls : Phydev → St → List ChipOpsPara}
  {devs : List Phydev}

/-- What holds of the lookups for each device holds of those for all. -/
lemma scanDevsCalls_inside {Q : ChipOpsPara → Prop} (h : ∀ d ∈ devs, ∀ s, ∀ p ∈ calls d s, Q p)
    (s : St) : ∀ p ∈ scanDevsCalls scan calls devs s, Q p := by
  induction devs generalizing s with
  | nil => exact fun p hp => absurd hp List.not_mem_nil
  | cons d devs ih =>
    intro p hp
    rw [scanDevsCalls, List.mem_append] at hp
    rcases hp with hp | hp
    · exact h d List.mem_cons_self s p hp
    · split at hp
      · exact ih (fun d hd => h d (List.mem_cons_of_mem _ hd)) _ p hp
      · exact absurd hp List.not_mem_nil

/-- Scans over devices, one after the other: when the calls of a scan decide a condition `H`
under which the scan returns, the calls of all scans decide it for all devices. -/
lemma forall_of_scanDevsCalls {Q : ChipOpsPara → Prop} {H : Phydev → Prop}
    (hcalls : ∀ d ∈ devs, ∀ s : St, s.Idle → (∀ p ∈ calls d s, Q p) → H d)
    (hreturns : ∀ d ∈ devs, H d → ∀ s : St, s.Idle → ∃ n t, scan d s = (some n, t) ∧ t.Idle)
    {s : St} (hs : s.Idle) (h : ∀ p ∈ scanDevsCalls scan calls devs s, Q p) :
    (∀ d ∈ devs, H d) ∧ ∃ t, scanDevs scan devs s = (some (), t) ∧ t.Idle := by
  induction devs generalizing s with
  | nil => exact ⟨fun d hd => absurd hd List.not_mem_nil, s, rfl, hs⟩
  | cons d devs ih =>
    rw [scanDevsCalls, List.forall_mem_append] at h
    have hd := hcalls d List.mem_cons_self s hs h.1
    obtain ⟨n, t, hrun, ht⟩ := hreturns d List.mem_cons_self hd s hs
    rw [hrun] at h
    obtain ⟨hall, u, hu, hidle⟩ := ih (fun d hd => hcalls d (List.mem_cons_of_mem _ hd))
      (fun d hd => hreturns d (List.mem_cons_of_mem _ hd)) ht h.2
    refine ⟨fun e he => ?_, u, ?_, hidle⟩
    · rcases List.mem_cons.mp he with rfl | he
      · exact hd
      · exact hall e he
    · rw [scanDevs, bind_some hrun]
      exact hu

/-- The scans behind the loop stay inside the table when the devices lie on its blocks. -/
lemma attachCalls_inside (heven : fl.multiPlane = true → 2 ∣ fl.blocks)
    (hok : ∀ d ∈ devs, DevOk fl d) (hheld : ∀ d ∈ devs, DevHeld fl d) (tbl : BlkStatus) (s : St) :
    ∀ p ∈ attachCalls fl devs s, CallInside fl tbl p := by
  have hlist : ∀ s, ∀ p ∈ scanDevsCalls (countUsedBad fl) (usedBadCalls fl) devs s,
      CallInside fl tbl p := scanDevsCalls_inside fun d hd s p hp =>
    usedBadCalls_inside heven (hok d hd) (hheld d hd).1 tbl hp
  have halloc : ∀ s, ∀ p ∈ scanDevsCalls (allocatePartition fl) (allocateCalls fl)
      (devs.filter fun d => !d.boot) s, CallInside fl tbl p := by
    refine scanDevsCalls_inside fun d hd s p hp => ?_
    obtain ⟨hmem, hboot⟩ := List.mem_filter.mp hd
    exact allocateCalls_inside heven (hok d hmem) (hheld d hmem).1
      ((hheld d hmem).2 (by simpa using hboot)) tbl hp
  intro p hp
  rw [attachCalls, List.mem_append] at hp
  rcases hp with hp | hp
  · exact hlist s p hp
  · split at hp
    · exact halloc _ p hp
    · exact absurd hp List.not_mem_nil

/-- On an idle driver they do not stay inside otherwise. -/
lemma devHeld_of_attachCalls (heven : fl.multiPlane = true → 2 ∣ fl.blocks)
    (hok : ∀ d ∈ devs, DevOk fl d) {tbl : BlkStatus} {s : St} (hs : s.Idle)
    (h : ∀ p ∈ attachCalls fl devs s, CallInside fl tbl p) : ∀ d ∈ devs, DevHeld fl d := by
  rw [attachCalls, List.forall_mem_append] at h
  obtain ⟨hlist, t, ht, hidle⟩ := forall_of_scanDevsCalls (H := ListHeld fl)
    (fun d hd s hs hin => listHeld_of_inside heven (hok d hd) hs hin)
    (fun d hd hheld s hs => by
      obtain ⟨n, t, hrun, ht, -⟩ := countUsedBad_returns (hok d hd) hheld hs
      exact ⟨n, t, hrun, ht⟩) hs h.1
  rw [ht] at h
  have hmem : ∀ d ∈ devs.filter fun d => !d.boot, DevOk fl d ∧ ListHeld fl d := fun d hd =>
    ⟨hok d (List.mem_filter.mp hd).1, hlist d (List.mem_filter.mp hd).1⟩
  obtain ⟨halloc, -⟩ := forall_of_scanDevsCalls (H := AllocHeld fl)
    (fun d hd s hs hin => allocHeld_of_inside heven (hmem d hd).1 (hmem d hd).2 hs hin)
    (fun d hd _ s hs => by
      obtain ⟨n, t, hrun, ht, -⟩ := allocatePartition_returns (hmem d hd).1 (hmem d hd).2 hs
      exact ⟨n, t, hrun, ht⟩) hidle h.2
  intro d hd
  exact ⟨hlist d hd, fun hboot => halloc d (List.mem_filter.mpr ⟨hd, by simp [hboot]⟩)⟩

end Attach

/-! ## Setting the devices up -/

section Init

variable {fl : Flash} {tbl : BlkStatus}

/-- What holds of the locals before every device. -/
structure InitOk (fl : Flash) (l : InitLocals) : Prop where
  index : l.index = 0 → l.bootFlag = false
  first : l.bootFlag = true → l.index = 1 → l.pre = some (bootDev fl)
  pre_le : ∀ d, l.pre = some d → (d.offset + d.size) % 2 ^ 64 ≤ 2 ^ 18 * fl.blocksize

/-- The locals at the start. -/
lemma initOk_start (fl : Flash) : InitOk fl {} :=
  ⟨fun _ => rfl, fun h => absurd h Bool.false_ne_true, fun _ h => absurd h (by simp)⟩

/-- The boot area in blocks. -/
lemma bootSize_eq (fl : Flash) : 1024 * fl.pagesize = fl.startBlk * fl.blocksize := by
  rw [← fl.startBlk_mul_ppb, Flash.blocksize_eq]
  ring

/-- The boot area is at most 1024 blocks long. -/
lemma bootSize_le (fl : Flash) : 1024 * fl.pagesize ≤ 1024 * fl.blocksize := by
  rw [bootSize_eq]
  exact Nat.mul_le_mul_right _ fl.startBlk_le

/-- The locals behind the boot device. -/
lemma InitOk.afterBoot {l : InitLocals} (fl : Flash) : InitOk fl (l.afterBoot fl) where
  index := fun h => absurd h (Nat.succ_ne_zero _)
  first := fun _ _ => rfl
  pre_le := by
    rintro d hd
    obtain rfl : bootDev fl = d := by simpa [InitLocals.afterBoot] using hd
    have h1 := bootSize_le fl
    refine (Nat.mod_le _ _).trans ?_
    simp only [bootDev]
    omega

/-- The locals behind a data device that fits the chips. -/
lemma InitOk.after {l : InitLocals} (hl : InitOk fl l) {dev : Phydev}
    (h : (dev.offset + dev.size) % 2 ^ 64 ≤ chipBytes fl) : InitOk fl (l.after dev) where
  index := fun h => absurd h (Nat.succ_ne_zero _)
  first := by
    intro hboot hindex
    have hzero : l.index = 0 := by
      simp only [InitLocals.after] at hindex
      omega
    simp [InitLocals.after, hl.index hzero] at hboot
  pre_le := by
    rintro d hd
    obtain rfl : dev = d := by simpa [InitLocals.after] using hd
    have h1 := chipBytes_le fl
    omega

/-- The boot device. -/
lemma devOk_bootDev (fl : Flash) : DevOk fl (bootDev fl) where
  shift := rfl
  shift_le := by
    have h1 := fl.shift_lt
    have h2 := fl.ppbShift_le
    simp only [bootDev]
    omega
  plane := fun h => absurd h Bool.false_ne_true
  pow_le := le_refl _
  blocksize_le := le_refl _
  erasesize_le := by
    simp only [bootDev]
    omega
  offset_le := Nat.zero_le _
  awake := rfl

/-- The shift of the erase size, over the chips and planes it covers. -/
lemma pow_erasesizeShift (fl : Flash) (para : DevPara) : 2 ^ (setModes fl para).erasesizeShift =
    fl.blocksize * (devFactor fl para * if devPlane fl para then 2 else 1) := by
  have hshift : (setModes fl para).erasesizeShift =
      (setModes fl para).writesizeShift + fl.ppbShift := by
    simp only [setModes]
    omega
  rw [hshift, pow_add, setModes_shift, Flash.blocksize_eq, Flash.ppb]
  ring

/-- A data device that does not start too far behind. -/
lemma devOk_devAt (fl : Flash) (para : DevPara) {x : ℕ} (hx : x ≤ 2 ^ 18 * fl.blocksize)
    (size : ℕ) : DevOk fl { devAt fl para x with size := size } where
  shift := by
    simp only [devAt, setModes]
    omega
  shift_le := by
    have h1 := fl.shift_lt
    have h2 := fl.ppbShift_le
    have h3 : (if para.multiChip ∧ 1 < fl.chipNum then
        (if fl.chipNum = 2 then 1 else if fl.chipNum = 4 then 2 else 0) else 0) ≤ 2 := by
      split
      · split
        · omega
        · split <;> omega
      · omega
    have h4 : (if para.multiPlane ∧ fl.multiPlane then 1 else 0) ≤ 1 := by split <;> omega
    simp only [devAt, setModes]
    omega
  plane := by
    intro h
    simp only [devAt, setModes, decide_eq_true_eq] at h
    exact h.2
  pow_le := by
    change 2 ^ (setModes fl para).erasesizeShift ≤ _
    rw [pow_erasesizeShift]
    simp only [devAt, setModes]
    refine Nat.mul_le_mul_left _ (Nat.mul_le_mul ?_ ?_)
    · unfold devFactor
      split
      · exact chipFactor_le fl
      · exact le_refl 1
    · unfold devPlane
      cases para.multiPlane <;> cases fl.multiPlane <;> simp
  blocksize_le := by
    change _ ≤ 2 ^ (setModes fl para).erasesizeShift
    rw [pow_erasesizeShift]
    refine Nat.le_mul_of_pos_right _ (Nat.mul_pos (devFactor_pos para) ?_)
    split <;> omega
  erasesize_le := erasesize_le_blocks fl para
  offset_le := hx
  awake := rfl

/-- A search stops at one place. -/
lemma StopsAt.unique {p : ℕ → Prop} [DecidablePred p] {m n n' : ℕ} (h : StopsAt p m n)
    (h' : StopsAt p m n') : n = n' := by
  rcases lt_trichotomy n n' with hlt | heq | hlt
  · have := h'.2.2 n hlt h.1
    have := h.2.1
    omega
  · exact heq
  · have := h.2.2 n' hlt h'.1
    have := h'.2.1
    omega

/-- A search that stops within `M` places stops after some of them. -/
lemma StopsWithin.stopsAt {p : ℕ → Prop} [DecidablePred p] {m M : ℕ} (h : StopsWithin p m M) :
    ∃ n ≤ M, StopsAt p m n := by
  classical
  have hex : ∃ n, 0 < n ∧ m ≤ Nat.count p n := ⟨M, h⟩
  refine ⟨Nat.find hex, Nat.find_min' hex h, (Nat.find_spec hex).1, (Nat.find_spec hex).2,
    fun k hk hpos => ?_⟩
  have hmin := Nat.find_min hex hk
  by_contra hge
  exact hmin ⟨hpos, not_lt.mp hge⟩

/-- A device starts at one place. -/
lemma OffsetAt.unique {l : InitLocals} {x y : ℕ} (hx : OffsetAt fl tbl l x)
    (hy : OffsetAt fl tbl l y) : x = y := by
  unfold OffsetAt at hx hy
  split at hx
  · rename_i hc
    rw [if_pos hc] at hy
    obtain ⟨n, hn, rfl⟩ := hx
    obtain ⟨m, hm, rfl⟩ := hy
    rw [hn.unique hm]
  · rename_i hc
    rw [if_neg hc] at hy
    rw [hx, hy]

/-- A device has one size. -/
lemma SizeAt.unique {dev : Phydev} {isLast : Bool} {want x y : ℕ}
    (hx : SizeAt fl tbl dev isLast want x) (hy : SizeAt fl tbl dev isLast want y) : x = y := by
  cases isLast with
  | true => exact Eq.trans hx (Eq.symm hy)
  | false =>
    obtain ⟨n, hn, rfl⟩ := hx
    obtain ⟨m, hm, rfl⟩ := hy
    rw [hn.unique hm]

/-- Few blocks are counted for the reserved area, so that the first device starts early. -/
lemma counted_le (fl : Flash) {n k : ℕ} (hpos : 0 < n) (hn : n < scanFuel)
    (hk : k ≤ 1024 * fl.blocksize) :
    (roundStripe fl (n % 2 ^ 32) * fl.blocksize) % 2 ^ 32 + k ≤ 2 ^ 18 * fl.blocksize := by
  unfold scanFuel maxChipNum maxChipBlks at hn
  have hround : roundStripe fl (n % 2 ^ 32) ≤ 2 ^ 17 + 2 ^ 11 := by
    have h1 := roundUp_lt (s := stripe fl) hpos
    have h2 := stripe_le fl
    rw [Nat.mod_eq_of_lt (by omega), roundStripe_eq hpos (by omega)]
    omega
  have h1 := Nat.mul_le_mul_right fl.blocksize hround
  have h2 := Nat.mod_le (roundStripe fl (n % 2 ^ 32) * fl.blocksize) (2 ^ 32)
  rw [Nat.add_mul] at h1
  omega

/-- The offset of the next device, when the count of reserved blocks stays inside the table. -/
lemma exists_offset {l : InitLocals} (hl : InitOk fl l) {s : St}
    (hcount : l.counts = true → StopsWithin (CountGood fl s.blkStatus l.tmpBlk) reservedBlockCnt
      (reservePlaces fl l.tmpBlk)) :
    ∃ x p, devOffset fl l s = (some x, { s with opsPara := p }) ∧
      OffsetAt fl s.blkStatus l x ∧ x ≤ 2 ^ 18 * fl.blocksize := by
  by_cases hc : l.counts = true
  · obtain ⟨n, hle, hn⟩ := exists_countsTo (by decide) (hcount hc).2
    have hfuel := lt_of_le_of_lt hle (reservePlaces_lt fl l.tmpBlk)
    obtain ⟨p, hp⟩ := countReserved_returns hn hfuel.le
    cases hpre : l.pre with
    | none =>
      refine ⟨_, p, ?_, ?_, counted_le fl hn.1 hfuel (Nat.zero_le _)⟩
      · rw [devOffset, hpre]
        simp only
        rw [bind_some hp, pure_apply, add_zero]
      · rw [OffsetAt, if_pos hc, hpre]
        exact ⟨n, hn, rfl⟩
    | some d =>
      have hfirst : l.bootFlag = true ∧ l.index = 1 := by simpa [InitLocals.counts, hpre] using hc
      obtain rfl : bootDev fl = d := by
        have := hl.first hfirst.1 hfirst.2
        rw [hpre] at this
        exact (Option.some.inj this).symm
      refine ⟨_, p, ?_, ?_, counted_le fl hn.1 hfuel (bootSize_le fl)⟩
      · rw [devOffset, hpre]
        simp only
        rw [if_pos hfirst, bind_some hp, pure_apply]
        rfl
      · rw [OffsetAt, if_pos hc, hpre]
        exact ⟨n, hn, rfl⟩
  · cases hpre : l.pre with
    | none => simp [InitLocals.counts, hpre] at hc
    | some d =>
      have hfirst : ¬(l.bootFlag = true ∧ l.index = 1) := by
        simpa [InitLocals.counts, hpre] using hc
      refine ⟨_, s.opsPara, ?_, ?_, hl.pre_le d hpre⟩
      · rw [devOffset, hpre]
        simp only
        rw [if_neg hfirst, pure_apply]
      · rw [OffsetAt, if_neg hc, hpre]
        rfl

/-- The size of a device, when the search for its end stays inside the table. -/
lemma exists_size {dev : Phydev} (hdev : DevOk fl dev) (isLast : Bool) (want : ℕ) {s : St}
    (hext : isLast = false → StopsWithin (SuperGood fl s.blkStatus dev)
      (adjustedBlocks want dev.erasesizeShift)
      (placesBelow (dev.reach fl) dev.offset dev.erasesize)) :
    ∃ size p, devBytes fl dev isLast want s = (some size, { s with opsPara := p }) ∧
      SizeAt fl s.blkStatus dev isLast want size := by
  cases isLast with
  | true => exact ⟨want, s.opsPara, rfl, rfl⟩
  | false =>
    obtain ⟨n, hle, hn⟩ := StopsWithin.stopsAt (hext rfl)
    have hM := hdev.placesBelow_le hdev.pow_le
    have hoff : dev.offset < 2 ^ 64 := by
      have h1 := hdev.offset_le
      have h2 := blocksize_le fl
      omega
    have hpos := hn.1
    obtain ⟨stop, t, ht, hstop, p, rfl⟩ := loopUntil_returns (J := ExtentAt fl s dev)
      (C := fun k => Nat.count (SuperGood fl s.blkStatus dev) (k + 1) <
        adjustedBlocks want dev.erasesizeShift)
      (A := fun n stop t => stop = (dev.offset + n * dev.erasesize) % 2 ^ 64 ∧
        ∃ p, t = { s with opsPara := p })
      (N := 2 ^ 32) (j := n - 1) (k := 0) (b := (dev.offset, 0))
      (s := { s with opsPara := { option := dev.option } })
      (fun _ _ _ h => extentRound_go h) (fun _ _ _ h => extentRound_stop h)
      ⟨by rw [zero_mul, add_zero, Nat.mod_eq_of_lt hoff, Nat.count_zero], 0, rfl⟩ (by omega)
      (fun i hi => hn.2.2 (0 + i + 1) (by omega) (by omega))
      (by rw [zero_add, Nat.sub_add_cancel hpos, not_lt]; exact hn.2.1)
    rw [zero_add, Nat.sub_add_cancel hpos] at hstop
    refine ⟨extentSize fl dev n, p, ?_, n, hn, rfl⟩
    rw [devBytes, if_neg Bool.false_ne_true, devExtent, modify_bind, bind_some ht, hstop]
    rfl

/-- The locals `initData` reads before the device in `l`. -/
def wantOf (fl : Flash) (l : InitLocals) (para : DevPara) (isLast : Bool) : ℕ :=
  devSize fl para isLast (l.pre.getD (bootDev fl))

/-- The searches for one data device stay inside the table. -/
def StepHeld (fl : Flash) (tbl : BlkStatus) (l : InitLocals) (para : DevPara) (isLast : Bool)
    (x : ℕ) : Prop :=
  isLast = false → StopsWithin (SuperGood fl tbl (devAt fl para x))
    (adjustedBlocks (wantOf fl l para isLast) (devAt fl para x).erasesizeShift)
    (placesBelow ((devAt fl para x).reach fl) x (devAt fl para x).erasesize)

/-- **The calls for one data device are inside the table exactly when its searches stop there.** -/
lemma dataCalls_inside_iff (heven : fl.multiPlane = true → 2 ∣ fl.blocks) {l : InitLocals}
    (hl : InitOk fl l) (para : DevPara) (isLast : Bool) (s : St) :
    (∀ p ∈ dataCalls fl l para isLast s, CallInside fl s.blkStatus p) ↔
      (l.counts = true → StopsWithin (CountGood fl s.blkStatus l.tmpBlk) reservedBlockCnt
        (reservePlaces fl l.tmpBlk)) ∧
      ∀ x, OffsetAt fl s.blkStatus l x → StepHeld fl s.blkStatus l para isLast x := by
  have hcount : (∀ p ∈ (if l.counts = true then countCalls fl l.tmpBlk s else []),
      CallInside fl s.blkStatus p) ↔ (l.counts = true →
        StopsWithin (CountGood fl s.blkStatus l.tmpBlk) reservedBlockCnt
          (reservePlaces fl l.tmpBlk)) := by
    by_cases hc : l.counts = true
    · rw [if_pos hc, countCalls_inside_iff heven]
      exact ⟨fun h _ => h, fun h => h hc⟩
    · rw [if_neg hc]
      exact ⟨fun _ h => absurd h hc, fun _ p hp => absurd hp List.not_mem_nil⟩
  rw [dataCalls, List.forall_mem_append, hcount]
  refine and_congr_right fun hstops => ?_
  obtain ⟨x, q, hoff, hx, hle⟩ := exists_offset hl hstops
  have hdev : DevOk fl (devAt fl para x) := devOk_devAt fl para hle 0
  have hall : (∀ y, OffsetAt fl s.blkStatus l y → StepHeld fl s.blkStatus l para isLast y) ↔
      StepHeld fl s.blkStatus l para isLast x :=
    ⟨fun h => h x hx, fun h y hy => hy.unique hx ▸ h⟩
  rw [hall, hoff]
  cases isLast with
  | true => simp [StepHeld]
  | false =>
    have hcalls := extentCalls_inside_iff heven hdev (wantOf fl l para false)
      { s with opsPara := q }
    simp only [StepHeld, forall_const, Bool.false_eq_true, if_false]
    exact hcalls

/-- What setting one data device up comes to, when its searches stay inside the table. -/
lemma exists_initData {l : InitLocals} (hl : InitOk fl l) {para : DevPara} {rest : List DevPara}
    {s : St} (hnull : ¬nullDevice l para rest)
    (hcount : l.counts = true → StopsWithin (CountGood fl s.blkStatus l.tmpBlk) reservedBlockCnt
      (reservePlaces fl l.tmpBlk))
    (hstep : ∀ x, OffsetAt fl s.blkStatus l x →
      StepHeld fl s.blkStatus l para rest.isEmpty x) :
    ∃ x size p, OffsetAt fl s.blkStatus l x ∧ x ≤ 2 ^ 18 * fl.blocksize ∧
      SizeAt fl s.blkStatus (devAt fl para x) rest.isEmpty (wantOf fl l para rest.isEmpty) size ∧
      initData fl l para rest.isEmpty s =
        (some (if chipBytes fl < (x + size) % 2 ^ 64 then none
          else some { devAt fl para x with size := size }), { s with opsPara := p }) := by
  obtain ⟨x, q, hoff, hx, hle⟩ := exists_offset hl hcount
  have hdev : DevOk fl (devAt fl para x) := devOk_devAt fl para hle 0
  obtain ⟨size, p, hsize, hat⟩ := exists_size hdev rest.isEmpty (wantOf fl l para rest.isEmpty)
    (s := { s with opsPara := q }) (hstep x hx)
  refine ⟨x, size, p, hx, hle, hat, ?_⟩
  have hnull' : ¬(l.pre.isNone = true ∧ rest.isEmpty = true ∧ para.partitions ≠ []) := by
    rw [List.isEmpty_iff]
    exact hnull
  rw [initData, if_neg hnull', bind_some hoff]
  refine (bind_some hsize).trans ?_
  simp only [devAt]
  split <;> rfl

/-- One data device of the condition, in terms of its searches. -/
lemma held_cons {l : InitLocals} {devs : List Phydev} {para : DevPara} {rest : List DevPara}
    (hnull : ¬nullDevice l para rest) (hboot : ¬para.boot = true) :
    SearchesHeld fl tbl l devs (para :: rest) ↔
      (l.counts = true → StopsWithin (CountGood fl tbl l.tmpBlk) reservedBlockCnt
        (reservePlaces fl l.tmpBlk)) ∧
      ∀ x, OffsetAt fl tbl l x → StepHeld fl tbl l para rest.isEmpty x ∧
        ∀ size, SizeAt fl tbl (devAt fl para x) rest.isEmpty (wantOf fl l para rest.isEmpty) size →
          (x + size) % 2 ^ 64 ≤ chipBytes fl →
          SearchesHeld fl tbl (l.after { devAt fl para x with size := size })
            (devs ++ [{ devAt fl para x with size := size }]) rest := by
  have hlast : rest.isEmpty = false ↔ rest ≠ [] := by
    rw [← Bool.not_eq_true, List.isEmpty_iff]
  rw [SearchesHeld, or_iff_right hnull, if_neg hboot]
  simp only [StepHeld, hlast]
  exact Iff.rfl

/-- A configuration whose first device is read through a null pointer does not return. -/
lemma initDevs_null {l : InitLocals} {para : DevPara} {rest : List DevPara}
    (hnull : nullDevice l para rest) (s : St) : initDevs fl l (para :: rest) s = (none, s) := by
  have hnull' : l.pre.isNone = true ∧ rest = [] ∧ para.partitions ≠ [] := hnull
  rw [initDevs]
  by_cases hboot : para.boot = true
  · rw [if_pos hboot, if_pos hnull']
    rfl
  · have hhang : initData fl l para rest.isEmpty s = (none, s) := by
      rw [initData, if_pos (by rw [List.isEmpty_iff]; exact hnull')]
      rfl
    rw [if_neg hboot, bind_none hhang]

/-- A device put in front of those that follow. -/
lemma bind_cons_iff {x : Act St (ℤ × List Phydev)} {d : Phydev} {s t : St} {ret : ℤ}
    {devs : List Phydev} :
    (do
        let (ret, devs) ← x
        pure (ret, d :: devs) : Act St (ℤ × List Phydev)) s = (some (ret, devs), t) ↔
      ∃ devs', x s = (some (ret, devs'), t) ∧ devs = d :: devs' := by
  constructor
  · intro h
    obtain ⟨⟨ret', devs'⟩, u, hx, h⟩ := bind_eq_some h
    simp only [pure_apply, Prod.mk.injEq, Option.some.injEq] at h
    obtain ⟨⟨rfl, rfl⟩, rfl⟩ := h
    exact ⟨devs', hx, rfl⟩
  · rintro ⟨devs', hx, rfl⟩
    exact (bind_some hx).trans rfl

/-- A configuration that starts with a boot device returns when the rest does. -/
lemma initDevs_boot_iff {l : InitLocals} {para : DevPara} {rest : List DevPara}
    (hnull : ¬nullDevice l para rest) (hboot : para.boot = true) {s t : St} {ret : ℤ}
    {devs : List Phydev} :
    initDevs fl l (para :: rest) s = (some (ret, devs), t) ↔
      ∃ devs', initDevs fl (l.afterBoot fl) rest s = (some (ret, devs'), t) ∧
        devs = bootDev fl :: devs' := by
  have hnull' : ¬(l.pre.isNone = true ∧ rest = [] ∧ para.partitions ≠ []) := hnull
  rw [initDevs, if_pos hboot, if_neg hnull']
  exact bind_cons_iff

/-- A configuration that starts with a data device returns when the rest does. -/
lemma initDevs_data_iff {l : InitLocals} {para : DevPara} {rest : List DevPara}
    (hboot : ¬para.boot = true) {s u t : St} {dev : Phydev}
    (hrun : initData fl l para rest.isEmpty s = (some (some dev), u)) {ret : ℤ}
    {devs : List Phydev} :
    initDevs fl l (para :: rest) s = (some (ret, devs), t) ↔
      ∃ devs', initDevs fl (l.after dev) rest u = (some (ret, devs'), t) ∧ devs = dev :: devs' := by
  rw [initDevs, if_neg hboot, bind_some hrun]
  exact bind_cons_iff

/-- The devices a configuration comes to, behind some that are there, satisfy `H`. -/
def DevsSatisfy (fl : Flash) (H : Phydev → Prop) (l : InitLocals) (config : List DevPara)
    (done : List Phydev) (s : St) : Prop :=
  ∀ devs t, initDevs fl l config s = (some (0, devs), t) → ∀ d ∈ done ++ devs, H d

/-- One data device of a configuration whose searches stay inside the table. -/
lemma held_data_iff {l : InitLocals} {para : DevPara} {rest : List DevPara} {done : List Phydev}
    {s u : St} {x size : ℕ} (hboot : ¬para.boot = true)
    (hstep : ∀ x, OffsetAt fl tbl l x → StepHeld fl tbl l para rest.isEmpty x)
    (hx : OffsetAt fl tbl l x)
    (hsize : SizeAt fl tbl (devAt fl para x) rest.isEmpty (wantOf fl l para rest.isEmpty) size)
    (hrun : initData fl l para rest.isEmpty s =
      (some (if chipBytes fl < (x + size) % 2 ^ 64 then none
        else some { devAt fl para x with size := size }), u))
    (ih : (x + size) % 2 ^ 64 ≤ chipBytes fl →
      ((∀ p ∈ initCalls fl (l.after { devAt fl para x with size := size }) rest u,
          CallInside fl tbl p) ∧
        DevsSatisfy fl (DevHeld fl) (l.after { devAt fl para x with size := size }) rest
          (done ++ [{ devAt fl para x with size := size }]) u ↔
        SearchesHeld fl tbl (l.after { devAt fl para x with size := size })
          (done ++ [{ devAt fl para x with size := size }]) rest)) :
    ((∀ p ∈ (match initData fl l para rest.isEmpty s with
        | (some (some dev), t) => initCalls fl (l.after dev) rest t
        | _ => []), CallInside fl tbl p) ∧
      DevsSatisfy fl (DevHeld fl) l (para :: rest) done s) ↔
    ∀ y, OffsetAt fl tbl l y → StepHeld fl tbl l para rest.isEmpty y ∧
      ∀ size', SizeAt fl tbl (devAt fl para y) rest.isEmpty (wantOf fl l para rest.isEmpty) size' →
        (y + size') % 2 ^ 64 ≤ chipBytes fl →
        SearchesHeld fl tbl (l.after { devAt fl para y with size := size' })
          (done ++ [{ devAt fl para y with size := size' }]) rest := by
  by_cases hcmp : chipBytes fl < (x + size) % 2 ^ 64
  · -- the device is refused
    rw [if_pos hcmp] at hrun
    rw [hrun]
    constructor
    · refine fun _ y hy => ⟨hstep y hy, fun size' hsize' hend => ?_⟩
      obtain rfl := hy.unique hx
      rw [hsize'.unique hsize] at hend
      omega
    · refine fun _ => ⟨fun q hq => absurd hq List.not_mem_nil, fun devs t hdevs => ?_⟩
      rw [initDevs, if_neg hboot, bind_some hrun] at hdevs
      simp only [pure_apply, Prod.mk.injEq, Option.some.injEq] at hdevs
      exact absurd hdevs.1.1 (by decide)
  · rw [if_neg hcmp] at hrun
    have hend := not_lt.mp hcmp
    rw [hrun]
    constructor
    · rintro ⟨hcalls, hdevs⟩ y hy
      obtain rfl := hy.unique hx
      refine ⟨hstep y hy, fun size' hsize' _ => ?_⟩
      rw [hsize'.unique hsize]
      refine (ih hend).mp ⟨hcalls, fun devs t hd => ?_⟩
      rw [List.append_assoc]
      exact hdevs _ t ((initDevs_data_iff hboot hrun).mpr ⟨devs, hd, rfl⟩)
    · intro h
      obtain ⟨hcalls, hdevs⟩ := (ih hend).mpr ((h x hx).2 size hsize hend)
      refine ⟨hcalls, fun devs t hd => ?_⟩
      obtain ⟨devs', hd', rfl⟩ := (initDevs_data_iff hboot hrun).mp hd
      have := hdevs devs' t hd'
      rwa [List.append_assoc] at this

/-- **The devices of a configuration stay inside the table exactly when the condition holds**:
the calls of the loop are inside, and the devices that are set up lie on blocks of the table.

**Proof sketch.** By induction on the configuration. When the searches for a device do not stop
inside the table, both sides fail; when they do, the device starts and ends where the condition
says, and either it is refused or the rest of the configuration follows. -/
lemma initCalls_inside_iff (heven : fl.multiPlane = true → 2 ∣ fl.blocks) (config : List DevPara)
    {l : InitLocals} (hl : InitOk fl l) (done : List Phydev) (s : St) :
    ((∀ p ∈ initCalls fl l config s, CallInside fl s.blkStatus p) ∧
      DevsSatisfy fl (DevHeld fl) l config done s) ↔ SearchesHeld fl s.blkStatus l done config := by
  induction config generalizing l done s with
  | nil =>
    rw [SearchesHeld]
    constructor
    · rintro ⟨-, h⟩
      simpa using h [] s rfl
    · refine fun h => ⟨fun p hp => absurd hp List.not_mem_nil, fun devs t hrun => ?_⟩
      simp only [initDevs, pure_apply, Prod.mk.injEq, Option.some.injEq] at hrun
      rw [← hrun.1.2, List.append_nil]
      exact h
  | cons para rest ih =>
    by_cases hnull : nullDevice l para rest
    · -- the driver reads through a null pointer before it looks anything up
      refine ⟨fun _ => Or.inl hnull, fun _ => ⟨?_, fun devs t h => ?_⟩⟩
      · rw [initCalls, if_pos hnull]
        exact fun p hp => absurd hp List.not_mem_nil
      · rw [initDevs_null hnull] at h
        cases h
    by_cases hboot : para.boot = true
    · rw [SearchesHeld, or_iff_right hnull, if_pos hboot,
        ← ih (InitOk.afterBoot fl) (done ++ [bootDev fl]) s, initCalls, if_neg hnull, if_pos hboot]
      refine and_congr_right fun _ => ⟨fun h devs t hd => ?_, fun h devs t hd => ?_⟩
      · rw [List.append_assoc]
        exact h _ t ((initDevs_boot_iff hnull hboot).mpr ⟨devs, hd, rfl⟩)
      · obtain ⟨devs', hd', rfl⟩ := (initDevs_boot_iff hnull hboot).mp hd
        have := h devs' t hd'
        rwa [List.append_assoc] at this
    · rw [held_cons hnull hboot, initCalls, if_neg hnull, if_neg hboot, List.forall_mem_append,
        dataCalls_inside_iff heven hl, and_assoc, and_assoc]
      refine and_congr_right fun hcount => ?_
      by_cases hstep : ∀ x, OffsetAt fl s.blkStatus l x →
          StepHeld fl s.blkStatus l para rest.isEmpty x
      · obtain ⟨x, size, p, hx, hle, hsize, hrun⟩ := exists_initData hl hnull hcount hstep
        rw [← held_data_iff hboot hstep hx hsize hrun fun hend =>
          ih (hl.after hend) _ { s with opsPara := p }]
        exact and_iff_right hstep
      · exact ⟨fun h => absurd h.1 hstep, fun h => absurd (fun x hx => (h x hx).1) hstep⟩

/-- The devices that come of calls inside the table, and the state behind them. -/
lemma initDevs_ok (heven : fl.multiPlane = true → 2 ∣ fl.blocks) {config : List DevPara}
    {l : InitLocals} (hl : InitOk fl l) {s t : St} {devs : List Phydev}
    (hin : ∀ p ∈ initCalls fl l config s, CallInside fl s.blkStatus p)
    (hrun : initDevs fl l config s = (some (0, devs), t)) :
    (∀ d ∈ devs, DevOk fl d) ∧ ∃ p, t = { s with opsPara := p } := by
  induction config generalizing l s devs with
  | nil =>
    simp only [initDevs, pure_apply, Prod.mk.injEq, Option.some.injEq] at hrun
    obtain ⟨⟨-, rfl⟩, rfl⟩ := hrun
    exact ⟨fun d hd => absurd hd List.not_mem_nil, s.opsPara, rfl⟩
  | cons para rest ih =>
    by_cases hnull : nullDevice l para rest
    · rw [initDevs_null hnull] at hrun
      cases hrun
    by_cases hboot : para.boot = true
    · rw [initCalls, if_neg hnull, if_pos hboot] at hin
      obtain ⟨devs', hd, rfl⟩ := (initDevs_boot_iff hnull hboot).mp hrun
      obtain ⟨hok, ht⟩ := ih (InitOk.afterBoot fl) hin hd
      refine ⟨fun d hd => ?_, ht⟩
      rcases List.mem_cons.mp hd with rfl | hd
      · exact devOk_bootDev fl
      · exact hok d hd
    · rw [initCalls, if_neg hnull, if_neg hboot, List.forall_mem_append,
        dataCalls_inside_iff heven hl] at hin
      obtain ⟨⟨hcount, hstep⟩, hin⟩ := hin
      obtain ⟨x, size, p, hx, hle, hsize, hdata⟩ := exists_initData hl hnull hcount hstep
      by_cases hcmp : chipBytes fl < (x + size) % 2 ^ 64
      · rw [if_pos hcmp] at hdata
        rw [initDevs, if_neg hboot, bind_some hdata] at hrun
        simp only [pure_apply, Prod.mk.injEq, Option.some.injEq] at hrun
        exact absurd hrun.1.1 (by decide)
      · rw [if_neg hcmp] at hdata
        rw [hdata] at hin
        obtain ⟨devs', hd, rfl⟩ := (initDevs_data_iff hboot hdata).mp hrun
        obtain ⟨hok, q, hq⟩ := ih (hl.after (not_lt.mp hcmp)) hin hd
        refine ⟨fun d hd => ?_, q, by rw [hq]⟩
        rcases List.mem_cons.mp hd with rfl | hd
        · exact devOk_devAt fl para hle size
        · exact hok d hd

end Init

/-! ## Bring-up -/

/-- **Every lookup at bring-up is inside the bad-block table if and only if** the searches find
what they count before they leave it, and the devices that are set up lie on its blocks. On chips
with two planes the blocks come in pairs, as they do for every chip of the identification tables
(`even_blocks_flashIdsMlc`). -/
theorem lookups_inside_iff (fl : Flash) (heven : fl.multiPlane = true → 2 ∣ fl.blocks)
    (tbl : BlkStatus) (config : List DevPara) :
    LookupsInside fl tbl config ↔ ConfigHeld fl tbl config := by
  have hcalls : ∀ s : St, (∀ e ∈ bringUpLookups fl config s, InTable fl e) ↔
      ∀ p ∈ bringUpCalls fl config s, CallInside fl s.blkStatus p := fun s => by
    simp only [bringUpLookups, List.mem_flatMap]
    exact ⟨fun h p hp e he => h e ⟨p, hp, he⟩, fun h e ⟨p, hp, he⟩ => h p hp e he⟩
  have hdevs : ∀ s, DevsSatisfy fl (DevHeld fl) {} config [] s ↔ ∀ devs t,
      initDevs fl {} config s = (some (0, devs), t) → ∀ d ∈ devs, DevHeld fl d := fun s => Iff.rfl
  have hinit : ∀ s devs t, amlnandPhydevInit fl config s = (some (0, devs), t) →
      initDevs fl {} config s = (some (0, devs), t) := by
    intro s devs t h
    rw [amlnandPhydevInit] at h
    split at h
    · simp only [pure_apply, Prod.mk.injEq, Option.some.injEq] at h
      exact absurd h.1.1 (by decide)
    · exact h
  constructor
  · intro h
    -- an idle driver with this table
    let s : St := { St.blank with blkStatus := tbl }
    have hs : ∀ p, ({ s with opsPara := p } : St).Idle := fun p => ⟨rfl, rfl, fun _ => rfl⟩
    have hin := (hcalls s).mp (h s rfl)
    rw [bringUpCalls, List.forall_mem_append, List.forall_mem_append] at hin
    obtain ⟨⟨hreserve, hloop⟩, hattach⟩ := hin
    refine ⟨(reserveCalls_inside_iff heven s).mp hreserve,
      (initCalls_inside_iff heven config (initOk_start fl) [] s).mp ⟨hloop, (hdevs s).mpr ?_⟩⟩
    intro devs t hrun
    obtain ⟨hok, p, rfl⟩ := initDevs_ok heven (initOk_start fl) hloop hrun
    by_cases hnil : config = []
    · rw [hnil] at hrun
      simp only [initDevs, pure_apply, Prod.mk.injEq, Option.some.injEq] at hrun
      rw [← hrun.1.2]
      exact fun d hd => absurd hd List.not_mem_nil
    have hphy : amlnandPhydevInit fl config s = (some (0, devs), { s with opsPara := p }) := by
      rw [amlnandPhydevInit, if_neg hnil]
      exact hrun
    rw [hphy] at hattach
    exact devHeld_of_attachCalls heven hok (hs p) hattach
  · rintro ⟨hreserve, hheld⟩ s rfl
    rw [hcalls]
    obtain ⟨hloop, hdev⟩ := (initCalls_inside_iff heven config (initOk_start fl) [] s).mpr hheld
    rw [bringUpCalls, List.forall_mem_append, List.forall_mem_append]
    refine ⟨⟨(reserveCalls_inside_iff heven s).mpr hreserve, hloop⟩, ?_⟩
    split
    · rename_i devs t hrun
      have hrun' := hinit s devs t hrun
      exact attachCalls_inside heven (initDevs_ok heven (initOk_start fl) hloop hrun').1
        (hdev devs t hrun') s.blkStatus t
    · exact fun p hp => absurd hp List.not_mem_nil

/-! ## Chips without bad blocks -/

section Good

variable {fl : Flash}

/-- Where every place has the property, a search stops after as many places as it counts. -/
lemma StopsAt.eq_of_forall {p : ℕ → Prop} [DecidablePred p] {m n : ℕ} (h : ∀ k, p k) (hm : 0 < m)
    (hn : StopsAt p m n) : n = m := by
  have hcount : ∀ k, Nat.count p k = k := fun k => Nat.count_of_forall fun j _ => h j
  refine hn.unique ⟨hm, (hcount m).ge, fun k hk _ => ?_⟩
  rw [hcount]
  exact hk

/-- Where every place counts, a search ends after as many as it needs. -/
lemma stopsWithin_of_forall {p : ℕ → Prop} [DecidablePred p] {m M : ℕ} (h : ∀ k, p k)
    (hm : 0 < m) (hle : m ≤ M) : StopsWithin p m M :=
  ⟨by omega, by rw [Nat.count_of_forall fun j _ => h j]; exact hle⟩

/-- Behind the boot device the first data device starts behind 48 blocks. -/
lemma offsetAt_good (fl : Flash) (l : InitLocals) (hl : l.index = 0) :
    OffsetAt fl (fun _ _ => blockGood) (l.afterBoot fl) (goodStart fl) := by
  have hc : (l.afterBoot fl).counts = true := by simp [InitLocals.counts, InitLocals.afterBoot, hl]
  rw [OffsetAt, if_pos hc]
  refine ⟨reservedBlockCnt, countGood_good fl.startBlk, ?_⟩
  rw [goodStart, Nat.mod_eq_of_lt (show reservedBlockCnt < 2 ^ 32 by decide)]
  rfl

/-- The condition for a data device that is not the last, on chips without bad blocks. -/
lemma held_good {l : InitLocals} {devs : List Phydev} {para para' : DevPara}
    {rest : List DevPara} {x : ℕ} (hboot : para.boot = false)
    (hcount : l.counts = true → reservedBlockCnt ≤ reservePlaces fl l.tmpBlk)
    (hx : OffsetAt fl (fun _ _ => blockGood) l x) (hp : para.partitions ≠ [])
    (hpos : 0 < adjustedBlocks (para.partitions.sum % 2 ^ 64) (setModes fl para).erasesizeShift)
    (hfit : adjustedBlocks (para.partitions.sum % 2 ^ 64) (setModes fl para).erasesizeShift ≤
      placesBelow ((devAt fl para x).reach fl) x (setModes fl para).erasesize)
    (hrest : SearchesHeld fl (fun _ _ => blockGood) (l.after (goodDev fl para x))
      (devs ++ [goodDev fl para x]) (para' :: rest)) :
    SearchesHeld fl (fun _ _ => blockGood) l devs (para :: para' :: rest) := by
  have hwant : wantOf fl l para false = para.partitions.sum % 2 ^ 64 := by
    rw [wantOf, devSize, if_neg hp, if_neg Bool.false_ne_true]
  rw [held_cons (by simp [nullDevice]) (by simp [hboot])]
  refine ⟨fun hc => stopsWithin_of_forall (fun k => ?_) (by decide) (hcount hc), fun y hy => ?_⟩
  · rw [CountGood, isbadVal_good]
    decide
  obtain rfl := hy.unique hx
  refine ⟨fun _ => ?_, fun size hsize _ => ?_⟩
  · rw [List.isEmpty_cons, hwant]
    exact stopsWithin_of_forall (superGood_good _) hpos hfit
  · obtain ⟨n, hn, rfl⟩ := hsize
    rw [List.isEmpty_cons, hwant] at hn
    rw [hn.eq_of_forall (superGood_good _) hpos]
    exact hrest

/-- The condition for the last device, on chips without bad blocks. -/
lemma held_good_last {l : InitLocals} {pre : Phydev} {devs : List Phydev} {para : DevPara}
    (hboot : para.boot = false) (hpre : l.pre = some pre) (hc : l.counts = false)
    (hend : pre.offset + pre.size ≤ chipBytes fl) (hp : para.partitions ≠ [])
    (hdevs : ∀ d ∈ devs ++ [restDev fl para (pre.offset + pre.size)], DevHeld fl d) :
    SearchesHeld fl (fun _ _ => blockGood) l devs [para] := by
  have hlt := chipBytes_lt fl
  have hx : OffsetAt fl (fun _ _ => blockGood) l (pre.offset + pre.size) := by
    rw [OffsetAt, if_neg (by simp [hc]), hpre]
    exact (Nat.mod_eq_of_lt (show pre.offset + pre.size < 2 ^ 64 by omega)).symm
  have hwant : wantOf fl l para true = chipBytes fl - (pre.offset + pre.size) := by
    rw [wantOf, devSize, if_neg hp, if_pos rfl, hpre, Option.getD_some]
    omega
  rw [held_cons (by simp [nullDevice, hpre]) (by simp [hboot])]
  refine ⟨fun h => absurd h (by simp [hc]), fun y hy => ?_⟩
  obtain rfl := hy.unique hx
  refine ⟨fun h => absurd h (by simp), fun size hsize _ => ?_⟩
  obtain rfl : size = chipBytes fl - (pre.offset + pre.size) := hsize.trans hwant
  rw [SearchesHeld]
  exact hdevs

end Good

/-- One chip without bad blocks: with devices of 256 and 512 MiB and the rest, every lookup is
inside the table. -/
theorem lookups_inside_oneChip :
    2 ∣ Flash.oneChip.blocks ∧
      LookupsInside .oneChip (fun _ _ => blockGood) (threeData 256 512) := by
  have heven : 2 ∣ Flash.oneChip.blocks := by decide
  refine ⟨heven, (lookups_inside_iff .oneChip (fun _ => heven) _ _).mpr ⟨?_, Or.inr ?_⟩⟩
  · have hgood : blockGood ≠ blockFactoryBad := by decide
    exact stopsWithin_of_forall (fun _ => hgood) (by decide) (by decide)
  · rw [if_pos rfl]
    refine held_good rfl (fun _ => by decide) (offsetAt_good .oneChip {} rfl) (by simp [dataPara])
      (by decide) (by decide) ?_
    refine held_good
      (x := goodStart .oneChip + goodSize .oneChip (dataPara 256) (goodStart .oneChip)) rfl
      (fun h => absurd h (by decide)) ?_ (by simp [dataPara]) (by decide) (by decide) ?_
    · rw [OffsetAt, if_neg (by decide)]
      rfl
    · refine held_good_last rfl rfl (by decide) (by decide) (by simp [dataPara]) fun d hd => ?_
      simp only [List.nil_append, List.cons_append, List.mem_cons, List.not_mem_nil, or_false] at hd
      rcases hd with rfl | rfl | rfl | rfl <;> decide

/-- One chip of 4 GiB without bad blocks: the search for the end of a device of 8 GiB leaves the
table before the device is refused. -/
theorem not_lookups_inside_oversize :
    ¬∀ (fl : Flash) (tbl : BlkStatus) (config : List DevPara) (s : St), s.blkStatus = tbl →
      ∀ e ∈ bringUpLookups fl config s, InTable fl e := by
  intro h
  let fl := Flash.oneChip
  let s : St := St.blank
  have heven : fl.multiPlane = true → 2 ∣ fl.blocks := fun _ => by decide
  have hcalls : ∀ p ∈ initCalls fl {} (threeData 8192 64) s, CallInside fl s.blkStatus p := by
    intro p hp e he
    refine h fl _ (threeData 8192 64) s rfl e (List.mem_flatMap.mpr ⟨p, ?_, he⟩)
    exact List.mem_append_left _ (List.mem_append_right _ hp)
  have hboot : initCalls fl {} (threeData 8192 64) s =
      initCalls fl (InitLocals.afterBoot fl {}) [dataPara 8192, dataPara 64, dataPara 1] s := by
    rw [threeData, initCalls, if_neg (by decide), if_pos rfl]
  rw [hboot, initCalls, if_neg (by decide), if_neg (by decide), List.forall_mem_append,
    dataCalls_inside_iff heven (InitOk.afterBoot fl)] at hcalls
  have hstops := (hcalls.1.2 (goodStart fl) (offsetAt_good fl {} rfl)) rfl
  have hle := hstops.2.trans (Nat.count_le _)
  revert hle
  decide

end Amlnf
