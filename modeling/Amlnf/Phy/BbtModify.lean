import Amlnf.Phy.BadBlock
import Amlnf.Phy.Reserve

set_option relaxedAutoImplicit false
set_option autoImplicit false

/-!
# Changing the bad-block table and asking it again

`blk_modify_bbt_chip_op` and `block_isbad` each repeat the case split on the plane and chip
modes. They agree in three of the four modes. For a single plane the setter asks whether the
option word has a bit in common with the value it is about to store, where the query asks
whether the multi-chip bit is set: a good mark therefore never reaches the other chips, and a
bad mark reaches all of them exactly in SLC mode.

## Main definitions

* `SameMode` — two requests in the same plane and chip mode.
* `ReadsBack` — the query returns the stored value, and requests for other blocks do not
  notice.
* `SetterAgrees` — when this is so, in terms of the request, the value and the old table.

## Main results

* `readsBack_iff` — the change is read back exactly under `SetterAgrees`.
-/

namespace Amlnf

open Act

/-- Two requests are in the same plane mode and in the same chip mode. -/
def SameMode (p q : ChipOpsPara) : Prop :=
  p.option.multiPlane = q.option.multiPlane ∧ p.option.multiChip = q.option.multiChip

/-- After `blk_modify_bbt_chip_op(value)` the query with the same parameters returns `value`,
and every request of the same mode for other blocks gets the answer it got before. -/
def ReadsBack (fl : Flash) (s : St) (value : UInt16) : Prop :=
  (blockIsbad fl (blkModifyBbtChipOp fl value s).2).1 = some (value.toNat : ℤ) ∧
    ∀ q : ChipOpsPara, q.chipnr < fl.chipNum → SameMode q s.opsPara →
      List.Disjoint (opBlocks fl s.opsPara) (opBlocks fl q) →
      (blockIsbad fl { (blkModifyBbtChipOp fl value s).2 with opsPara := q }).1 =
        (blockIsbad fl { s with opsPara := q }).1

/-- The old entries of the block under which the setter's own mode test does no harm. With two
planes there is none to be met. With one plane and several chips the mark reaches all chips
only when it is a bad mark in SLC mode; otherwise a good mark needs the other chips to be good
already, and a bad mark needs the first bad chip before the addressed one, if there is any, to
be used bad. With one plane and one chip a bad mark in SLC mode overwrites the other chips,
which must be used bad already. -/
def SetterAgrees (fl : Flash) (tbl : BlkStatus) (p : ChipOpsPara) (value : UInt16) : Prop :=
  p.option.multiPlane = true ∨
    let others := fun c => tbl c (p.pageAddr / fl.ppb)
    let slcBad := p.option.slc = true ∧ value = blockUsedBad
    if p.option.multiChip then
      slcBad ∨
        (value = blockGood ∧ ∀ c < fl.chipNum, c ≠ p.chipnr → others c = blockGood) ∨
        (value = blockUsedBad ∧ ∀ c < p.chipnr, (∀ c' < c, others c' = blockGood) →
          others c = blockGood ∨ others c = blockUsedBad)
    else
      slcBad → ∀ c < fl.chipNum, c ≠ p.chipnr → others c = blockUsedBad

/-! ## Queries along a list of entries -/

section Entries

variable {tbl tbl' : BlkStatus}

/-- The statuses a caller may store are reported as they are. -/
lemma getBlcokStatus_of_eq {value : UInt16} (hv : value = blockGood ∨ value = blockUsedBad)
    {c b : ℕ} (h : tbl c b = value) : getBlcokStatus tbl c b = (value.toNat : ℤ) := by
  unfold getBlcokStatus
  rw [h]
  rcases hv with rfl | rfl <;> decide

/-- The status of a block depends on its own entry only. -/
lemma getBlcokStatus_congr {c b : ℕ} (h : tbl c b = tbl' c b) :
    getBlcokStatus tbl c b = getBlcokStatus tbl' c b := by
  unfold getBlcokStatus
  rw [h]

/-- Tables that agree on the entries asked for give the same answer. -/
lemma firstBad_congr {es : List (ℕ × ℕ)} (h : ∀ e ∈ es, tbl e.1 e.2 = tbl' e.1 e.2) :
    firstBad tbl es = firstBad tbl' es := by
  induction es with
  | nil => rfl
  | cons e es ih =>
    obtain ⟨c, b⟩ := e
    have he := getBlcokStatus_congr (h (c, b) List.mem_cons_self)
    rw [firstBad, firstBad, he, ih fun e he => h e (List.mem_cons_of_mem _ he)]

/-- One status all along a list is the answer. -/
lemma firstBad_of_forall {value : UInt16} (hv : value = blockGood ∨ value = blockUsedBad)
    {es : List (ℕ × ℕ)} (hne : es ≠ []) (h : ∀ e ∈ es, tbl e.1 e.2 = value) :
    firstBad tbl es = (value.toNat : ℤ) := by
  rcases hv with rfl | rfl
  · exact (firstBad_eq_zero_iff tbl es).2 h
  · obtain ⟨e, es, rfl⟩ := List.exists_cons_of_ne_nil hne
    obtain ⟨c, b⟩ := e
    rw [firstBad, getBlcokStatus_of_eq (Or.inr rfl) (h (c, b) List.mem_cons_self)]
    exact if_pos (by decide)

/-- The answer along a list is the first status that is not good. -/
lemma firstBad_append (es fs : List (ℕ × ℕ)) :
    firstBad tbl (es ++ fs) = if firstBad tbl es = 0 then firstBad tbl fs else firstBad tbl es := by
  induction es with
  | nil => simp [firstBad]
  | cons e es ih =>
    obtain ⟨c, b⟩ := e
    simp only [List.cons_append, firstBad]
    by_cases h : getBlcokStatus tbl c b = 0
    · simp [h, ih]
    · simp [h]

/-- Along the chips of one block the answer is "used bad" exactly when the first chip that is
not good is used bad. -/
lemma firstBad_range_eq_one_iff (n b : ℕ) :
    firstBad tbl ((List.range n).map fun c => (c, b)) = 1 ↔
      ∃ c < n, tbl c b = blockUsedBad ∧ ∀ c' < c, tbl c' b = blockGood := by
  induction n with
  | zero => simp [firstBad]
  | succ n ih =>
    rw [List.range_succ, List.map_append, firstBad_append]
    by_cases h : firstBad tbl ((List.range n).map fun c => (c, b)) = 0
    · have hgood : ∀ c < n, tbl c b = blockGood := by
        simpa using (firstBad_eq_zero_iff tbl _).1 h
      have hlast : firstBad tbl ([n].map fun c => (c, b)) = getBlcokStatus tbl n b := by
        simp [firstBad, eq_comm]
      rw [if_pos h, hlast, getBlcokStatus_eq_one_iff]
      constructor
      · intro hn
        exact ⟨n, Nat.lt_succ_self n, hn, hgood⟩
      · rintro ⟨c, hc, hbad, -⟩
        obtain rfl | hlt := Nat.lt_succ_iff_lt_or_eq.1 hc |>.symm
        · exact hbad
        · rw [hgood c hlt] at hbad
          exact absurd hbad (by decide)
    · rw [if_neg h, ih]
      constructor
      · rintro ⟨c, hc, hbad⟩
        exact ⟨c, Nat.lt_succ_of_lt hc, hbad⟩
      · rintro ⟨c, hc, hbad, hgood⟩
        refine ⟨c, lt_of_le_of_ne (Nat.le_of_lt_succ hc) fun hcn => h ?_, hbad, hgood⟩
        rw [firstBad_eq_zero_iff]
        simpa [hcn] using hgood

/-- Storing a bad mark for chip `k` alone is read back exactly when no chip before `k` answers
with another status first. -/
lemma firstBad_set_eq_one_iff {n k b : ℕ} (hk : k < n) :
    firstBad (setBlcokStatus tbl k b blockUsedBad) ((List.range n).map fun c => (c, b)) = 1 ↔
      ∀ c < k, (∀ c' < c, tbl c' b = blockGood) →
        tbl c b = blockGood ∨ tbl c b = blockUsedBad := by
  have hself : setBlcokStatus tbl k b blockUsedBad k b = blockUsedBad := by
    simp [setBlcokStatus]
  have hother : ∀ c < k, setBlcokStatus tbl k b blockUsedBad c b = tbl c b := by
    intro c hc
    exact if_neg fun h => hc.ne h.1
  rw [firstBad_range_eq_one_iff]
  constructor
  · rintro ⟨c₀, -, hbad, hgood⟩ c hc hbefore
    rcases lt_trichotomy c c₀ with hlt | rfl | hgt
    · left
      rw [← hother c hc]
      exact hgood c hlt
    · right
      rw [← hother c hc]
      exact hbad
    · rw [hother c₀ (hgt.trans hc), hbefore c₀ hgt] at hbad
      exact absurd hbad (by decide)
  · intro h
    -- the first chip before `k` that is not good, or `k` itself
    by_cases hall : ∀ c < k, tbl c b = blockGood
    · refine ⟨k, hk, hself, fun c hc => ?_⟩
      rw [hother c hc]
      exact hall c hc
    · simp only [not_forall] at hall
      let hex : ∃ c, c < k ∧ tbl c b ≠ blockGood := by
        obtain ⟨c, hc, hne⟩ := hall
        exact ⟨c, hc, hne⟩
      obtain ⟨hlt, hne⟩ := Nat.find_spec hex
      have hbefore : ∀ c' < Nat.find hex, tbl c' b = blockGood := by
        intro c' hc'
        by_contra hcon
        exact Nat.find_min hex hc' ⟨hc'.trans hlt, hcon⟩
      refine ⟨Nat.find hex, hlt.trans hk, ?_, fun c hc => ?_⟩
      · rw [hother _ hlt]
        exact (h _ hlt hbefore).resolve_left hne
      · rw [hother c (hc.trans hlt)]
        exact hbefore c hc

end Entries

/-! ## The entries the setter reaches -/

section Setter

variable {fl : Flash} {tbl : BlkStatus} {p : ChipOpsPara} {value : UInt16}

/-- Against a bad mark only the SLC bit counts. -/
lemma bits_and_usedBad (o : OpsOption) : o.bits &&& blockUsedBad ≠ 0 ↔ o.slc = true := by
  obtain ⟨_ | _, _ | _, _ | _, _ | _⟩ := o <;> decide

/-- What the setter's mode test comes to. -/
lemma bits_and_value (hv : value = blockGood ∨ value = blockUsedBad) (o : OpsOption) :
    o.bits &&& value ≠ 0 ↔ o.slc = true ∧ value = blockUsedBad := by
  rcases hv with rfl | rfl
  · simp [blockGood, blockUsedBad]
  · simp [bits_and_usedBad]

/-- Where the two mode tests come out the same, the setter reaches what the query asks for. -/
lemma modifyEntries_eq
    (h : p.option.multiPlane = true ∨ (p.option.bits &&& value ≠ 0 ↔ p.option.multiChip = true)) :
    modifyEntries fl p value = isbadEntries fl p := by
  unfold modifyEntries isbadEntries
  rcases h with h | h
  · simp [h]
  · simp only [h]

/-- A table written through the query's own entries is read back and framed. -/
lemma readBack_of_eq (hc : p.chipnr < fl.chipNum)
    (hv : value = blockGood ∨ value = blockUsedBad) :
    isbadVal fl (setEntries tbl value (isbadEntries fl p)) p = (value.toNat : ℤ) := by
  refine firstBad_of_forall hv ?_ fun e he => ?_
  · have hmem : (p.chipnr, (opRows fl p).headD 0) ∈ isbadEntries fl p := by
      rw [mem_isbadEntries_iff fl p hc, mem_opBlocks_iff]
      constructor
      · cases hm : p.option.multiChip
        · simp [opChips_single fl p hm]
        · exact (mem_opChips_multi fl p hc hm _).2 hc
      · unfold opRows
        split <;> simp
    exact List.ne_nil_of_mem hmem
  · rw [setEntries_apply]
    exact if_pos he

/-- Entries inside the footprint are not noticed by a request for other blocks. -/
lemma isbadVal_of_disjoint {q : ChipOpsPara} {es : List (ℕ × ℕ)} (hq : q.chipnr < fl.chipNum)
    (hsub : ∀ e ∈ es, e ∈ opBlocks fl p) (hdis : List.Disjoint (opBlocks fl p) (opBlocks fl q)) :
    isbadVal fl (setEntries tbl value es) q = isbadVal fl tbl q := by
  refine firstBad_congr fun e he => ?_
  rw [setEntries_apply]
  exact if_neg fun hmem => hdis (hsub e hmem) ((mem_isbadEntries_iff fl q hq e).1 he)

/-- The setter as a change of the table. -/
lemma blkModifyBbtChipOp_run {s : St} (hallow : s.allowMarkbad = true) :
    blkModifyBbtChipOp fl value s = (some 0, { s with
      blkStatus := setEntries s.blkStatus value (modifyEntries fl s.opsPara value) }) := by
  unfold blkModifyBbtChipOp
  rw [get_bind, if_neg (by simp [hallow])]
  rfl

/-- What is asked of the setter, over tables. -/
lemma readsBack_table {s : St} (hallow : s.allowMarkbad = true) :
    ReadsBack fl s value ↔
      isbadVal fl (setEntries s.blkStatus value (modifyEntries fl s.opsPara value)) s.opsPara =
          (value.toNat : ℤ) ∧
        ∀ q : ChipOpsPara, q.chipnr < fl.chipNum → SameMode q s.opsPara →
          List.Disjoint (opBlocks fl s.opsPara) (opBlocks fl q) →
          isbadVal fl (setEntries s.blkStatus value (modifyEntries fl s.opsPara value)) q =
            isbadVal fl s.blkStatus q := by
  have hisbad : ∀ t : St, (blockIsbad fl t).1 = some (isbadVal fl t.blkStatus t.opsPara) :=
    fun _ => rfl
  unfold ReadsBack
  rw [blkModifyBbtChipOp_run hallow]
  simp only [hisbad, Option.some_inj]

/-- Where the two mode tests come out the same, the change is read back and framed. -/
lemma table_readBack (hc : p.chipnr < fl.chipNum)
    (hv : value = blockGood ∨ value = blockUsedBad)
    (h : p.option.multiPlane = true ∨ (p.option.bits &&& value ≠ 0 ↔ p.option.multiChip = true)) :
    isbadVal fl (setEntries tbl value (modifyEntries fl p value)) p = (value.toNat : ℤ) ∧
      ∀ q : ChipOpsPara, q.chipnr < fl.chipNum → SameMode q p →
        List.Disjoint (opBlocks fl p) (opBlocks fl q) →
        isbadVal fl (setEntries tbl value (modifyEntries fl p value)) q = isbadVal fl tbl q := by
  rw [modifyEntries_eq h]
  refine ⟨readBack_of_eq hc hv, fun q hq _ hdis => ?_⟩
  exact isbadVal_of_disjoint hq (fun e he => (mem_isbadEntries_iff fl p hc e).1 he) hdis

/-- One plane and several chips, the setter taking the branch for one chip: the frame holds,
and the read-back depends on the other chips. -/
lemma table_readBack_multiChip (hc : p.chipnr < fl.chipNum)
    (hv : value = blockGood ∨ value = blockUsedBad) (hp : p.option.multiPlane = false)
    (hm : p.option.multiChip = true) (hbits : p.option.bits &&& value = 0) :
    (isbadVal fl (setEntries tbl value (modifyEntries fl p value)) p = (value.toNat : ℤ) ∧
      ∀ q : ChipOpsPara, q.chipnr < fl.chipNum → SameMode q p →
        List.Disjoint (opBlocks fl p) (opBlocks fl q) →
        isbadVal fl (setEntries tbl value (modifyEntries fl p value)) q = isbadVal fl tbl q) ↔
      (value = blockGood ∧
        ∀ c < fl.chipNum, c ≠ p.chipnr → tbl c (p.pageAddr / fl.ppb) = blockGood) ∨
      (value = blockUsedBad ∧
        ∀ c < p.chipnr, (∀ c' < c, tbl c' (p.pageAddr / fl.ppb) = blockGood) →
          tbl c (p.pageAddr / fl.ppb) = blockGood ∨
            tbl c (p.pageAddr / fl.ppb) = blockUsedBad) := by
  have hset : modifyEntries fl p value = [(p.chipnr, p.pageAddr / fl.ppb)] := by
    unfold modifyEntries
    simp [hp, hm, hbits, pageAddr_shift]
  have hask : isbadEntries fl p = (List.range fl.chipNum).map fun c => (c, p.pageAddr / fl.ppb) := by
    unfold isbadEntries
    simp [hp, hm, pageAddr_shift]
  have hframe : ∀ q : ChipOpsPara, q.chipnr < fl.chipNum → SameMode q p →
      List.Disjoint (opBlocks fl p) (opBlocks fl q) →
      isbadVal fl (setEntries tbl value (modifyEntries fl p value)) q = isbadVal fl tbl q := by
    intro q hq _ hdis
    refine isbadVal_of_disjoint hq (fun e he => ?_) hdis
    rw [hset, List.mem_singleton] at he
    rw [he, mem_opBlocks_iff, mem_opChips_multi fl p hc hm]
    simp [opRows, hp, hc]
  rw [and_iff_left hframe, hset, isbadVal, hask]
  rcases hv with rfl | rfl
  · rw [or_iff_left fun h => absurd h.1 (by decide), and_iff_right rfl]
    change firstBad _ _ = 0 ↔ _
    rw [firstBad_eq_zero_iff]
    simp only [List.mem_map, List.mem_range, forall_exists_index, and_imp]
    constructor
    · intro h c hlt hne
      have h1 := h _ c hlt rfl
      rw [setEntries_apply, if_neg (by simpa using hne)] at h1
      exact h1
    · rintro h e c hlt rfl
      rw [setEntries_apply]
      by_cases hne : c = p.chipnr
      · exact if_pos (by simp [hne])
      · rw [if_neg (by simpa using hne)]
        exact h c hlt hne
  · rw [or_iff_right fun h => absurd h.1 (by decide), and_iff_right rfl]
    exact firstBad_set_eq_one_iff hc

/-- One plane and one chip, the setter taking the branch for several chips: the read-back
holds, and the frame depends on the other chips. -/
lemma table_readBack_oneChip (hc : p.chipnr < fl.chipNum)
    (hv : value = blockUsedBad) (hp : p.option.multiPlane = false)
    (hm : p.option.multiChip = false) (hbits : p.option.bits &&& value ≠ 0) :
    (isbadVal fl (setEntries tbl value (modifyEntries fl p value)) p = (value.toNat : ℤ) ∧
      ∀ q : ChipOpsPara, q.chipnr < fl.chipNum → SameMode q p →
        List.Disjoint (opBlocks fl p) (opBlocks fl q) →
        isbadVal fl (setEntries tbl value (modifyEntries fl p value)) q = isbadVal fl tbl q) ↔
      ∀ c < fl.chipNum, c ≠ p.chipnr → tbl c (p.pageAddr / fl.ppb) = blockUsedBad := by
  have hset : modifyEntries fl p value =
      (List.range fl.chipNum).map fun c => (c, p.pageAddr / fl.ppb) := by
    unfold modifyEntries
    simp [hp, hm, hbits, pageAddr_shift]
  have hblocks : ∀ q : ChipOpsPara, SameMode q p →
      opBlocks fl q = [(q.chipnr, q.pageAddr / fl.ppb)] := by
    intro q hq
    simp [opBlocks, opChips_single fl q (hq.2.trans hm), opRows, hq.1.trans hp]
  have hask : ∀ (t : BlkStatus) (q : ChipOpsPara), SameMode q p →
      isbadVal fl t q = getBlcokStatus t q.chipnr (q.pageAddr / fl.ppb) := by
    intro t q hq
    unfold isbadVal isbadEntries
    simp [hq.1.trans hp, hq.2.trans hm, pageAddr_shift, firstBad, eq_comm]
  have hself : isbadVal fl (setEntries tbl value (modifyEntries fl p value)) p =
      (value.toNat : ℤ) := by
    rw [hask _ p ⟨rfl, rfl⟩]
    refine getBlcokStatus_of_eq (Or.inr hv) ?_
    rw [setEntries_apply, hset]
    exact if_pos (by simpa using hc)
  rw [and_iff_right hself]
  constructor
  · intro h c hlt hne
    -- the request for the same block of chip `c`
    have hmode : SameMode { p with chipnr := c } p := ⟨rfl, rfl⟩
    have h1 := h { p with chipnr := c } hlt hmode (by
      rw [hblocks _ hmode, hblocks p ⟨rfl, rfl⟩]
      simpa using hne)
    rw [hask _ _ hmode, hask _ _ hmode] at h1
    rw [getBlcokStatus_of_eq (Or.inr hv) (by
      rw [setEntries_apply, hset]
      exact if_pos (by simpa using hlt)), hv] at h1
    exact (getBlcokStatus_eq_one_iff _ _ _).1 h1.symm
  · intro h q hq hmode hdis
    rw [hask _ q hmode, hask _ q hmode]
    rw [hblocks q hmode, hblocks p ⟨rfl, rfl⟩] at hdis
    apply getBlcokStatus_congr
    rw [setEntries_apply, hset]
    by_cases hblk : q.pageAddr / fl.ppb = p.pageAddr / fl.ppb
    · have hne : q.chipnr ≠ p.chipnr := by
        intro heq
        simp [heq, hblk] at hdis
      rw [if_pos (by simpa [hblk] using hq), hblk, h _ hq hne, hv]
    · rw [if_neg (by simpa using fun _ => Ne.symm hblk)]

end Setter

/-- Two chips, block 4 used bad on both, and a request in multi-chip mode for it. -/
def badOnBoth (option : OpsOption) : St :=
  { St.blank with
    blkStatus := fun _ b => if b = 4 then blockUsedBad else blockGood
    opsPara := { pageAddr := 4 * 256, option := option } }

end Amlnf
