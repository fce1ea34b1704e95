import Amlnf.Phy.Calm
import Amlnf.Phy.Steps

set_option relaxedAutoImplicit false
set_option autoImplicit false

/-!
# Query and mark against the footprint of an operation

`erase_block` and `write_page` touch `opBlocks`: every chip in multi-chip mode, two blocks in
multi-plane mode. `block_isbad` looks at exactly these entries of the bad-block table.
`block_markbad` sets exactly these entries, but decides whether to do so by the entry at the
block number before it is doubled for two planes, and sets them without looking at them. After
that it saves the table, and a save that meets failures marks further blocks.

## Main definitions

* `marked` — the table after a mark that touches the footprint and nothing else.
* `MarksFootprint` — the condition under which `block_markbad` produces that table.
* `SaveKeepsTable` — the save of the table after that marks no further block.

## Main results

* `isbadVal_eq_zero_iff` — `block_isbad` answers for the footprint.
* `blockMarkbad_table` — what `block_markbad` makes of the table.
* `footprint_iff` — query and mark agree with the footprint exactly under `MarksFootprint` and
  `SaveKeepsTable`.
-/

namespace Amlnf

open Act

section Table

variable (fl : Flash) (tbl : BlkStatus) (p : ChipOpsPara)

lemma getBlcokStatus_eq_zero_iff (c b : ℕ) :
    getBlcokStatus tbl c b = 0 ↔ tbl c b = blockGood := by
  unfold getBlcokStatus blockUsedBad blockFactoryBad blockGood
  split
  · rename_i h
    simp [h]
  · split
    · rename_i h
      simp [h]
    · split <;> simp_all

/-- No bad status along a list means all entries are good. -/
lemma firstBad_eq_zero_iff (es : List (ℕ × ℕ)) :
    firstBad tbl es = 0 ↔ ∀ e ∈ es, tbl e.1 e.2 = blockGood := by
  induction es with
  | nil => simp [firstBad]
  | cons e es ih =>
    obtain ⟨c, b⟩ := e
    rw [firstBad, List.forall_mem_cons, ← ih, ← getBlcokStatus_eq_zero_iff]
    split
    · rename_i h
      simp [h]
    · rename_i h
      simp only [ne_eq, not_not] at h
      simp [h]

lemma shiftLeft_one (b : ℕ) : b <<< 1 = 2 * b := by
  rw [Nat.shiftLeft_eq]
  omega

/-- After doubling the other plane is the next block. -/
lemma planeMate_double (b : ℕ) : planeMate (2 * b) = 2 * b + 1 := if_pos (by omega)

lemma pageAddr_shift : p.pageAddr >>> fl.ppbShift = p.pageAddr / fl.ppb :=
  Nat.shiftRight_eq_div_pow _ _

/-- In multi-chip mode every chip is addressed, also when there is only one. -/
lemma mem_opChips_multi (hc : p.chipnr < fl.chipNum) (hm : p.option.multiChip) (c : ℕ) :
    c ∈ opChips fl p ↔ c < fl.chipNum := by
  unfold opChips
  split
  · exact List.mem_range
  · rename_i h
    have h1 : fl.chipNum = 1 := by
      have := fl.chipNum_pos
      simp only [hm, true_and] at h
      omega
    rw [List.mem_singleton]
    omega

lemma opChips_single (hm : p.option.multiChip = false) : opChips fl p = [p.chipnr] :=
  if_neg (by simp [hm])

/-- Members of the footprint. -/
lemma mem_opBlocks_iff (e : ℕ × ℕ) :
    e ∈ opBlocks fl p ↔ e.1 ∈ opChips fl p ∧ e.2 ∈ opRows fl p := by
  obtain ⟨c, b⟩ := e
  simp [opBlocks]

lemma mem_pairs_iff (n x y c b : ℕ) :
    (c, b) ∈ (List.range n).flatMap (fun c => [(c, x), (c, y)]) ↔ c < n ∧ (b = x ∨ b = y) := by
  simp only [List.mem_flatMap, List.mem_range, List.mem_cons, Prod.mk.injEq, List.not_mem_nil,
    or_false]
  constructor
  · rintro ⟨a, ha, ⟨rfl, h⟩ | ⟨rfl, h⟩⟩
    · exact ⟨ha, Or.inl h⟩
    · exact ⟨ha, Or.inr h⟩
  · rintro ⟨hc, h | h⟩
    · exact ⟨c, hc, Or.inl ⟨rfl, h⟩⟩
    · exact ⟨c, hc, Or.inr ⟨rfl, h⟩⟩

/-- The entries `block_markbad` sets are the footprint. -/
lemma mem_markbadEntries_iff (hc : p.chipnr < fl.chipNum) (e : ℕ × ℕ) :
    e ∈ markbadEntries fl p ↔ e ∈ opBlocks fl p := by
  obtain ⟨c, b⟩ := e
  rw [mem_opBlocks_iff]
  unfold markbadEntries
  simp only [pageAddr_shift, shiftLeft_one, planeMate_double]
  cases hp : p.option.multiPlane <;> cases hm : p.option.multiChip
  · simp [opRows, hp, opChips_single fl p hm]
  · simp [opRows, hp, mem_opChips_multi fl p hc hm, eq_comm]
  · simp [opRows, hp, opChips_single fl p hm]
    tauto
  · simp only [opRows, hp, mem_opChips_multi fl p hc hm]
    simp only [not_true_eq_false, and_false, false_and, if_false, and_self, if_true,
      mem_pairs_iff, List.mem_cons, List.not_mem_nil, or_false]
    rw [or_comm]

/-- The entries `block_isbad` looks at are the footprint. -/
lemma mem_isbadEntries_iff (hc : p.chipnr < fl.chipNum) (e : ℕ × ℕ) :
    e ∈ isbadEntries fl p ↔ e ∈ opBlocks fl p := by
  obtain ⟨c, b⟩ := e
  rw [mem_opBlocks_iff]
  unfold isbadEntries
  simp only [pageAddr_shift, shiftLeft_one, planeMate_double]
  cases hp : p.option.multiPlane <;> cases hm : p.option.multiChip
  · simp [opRows, hp, opChips_single fl p hm]
  · simp [opRows, hp, mem_opChips_multi fl p hc hm, eq_comm]
  · simp [opRows, hp, opChips_single fl p hm]
    tauto
  · simp only [opRows, hp, mem_opChips_multi fl p hc hm]
    simp only [not_true_eq_false, and_false, false_and, if_false, and_self,
      if_true, List.mem_cons, Prod.mk.injEq, mem_pairs_iff, List.not_mem_nil, or_false]
    constructor
    · rintro (⟨rfl, rfl⟩ | h)
      · exact ⟨hc, Or.inl rfl⟩
      · exact h
    · exact Or.inr

/-- **`block_isbad` returns `0` exactly when every block the operation touches is good.** -/
lemma isbadVal_eq_zero_iff (hc : p.chipnr < fl.chipNum) :
    isbadVal fl tbl p = 0 ↔ ∀ e ∈ opBlocks fl p, tbl e.1 e.2 = blockGood := by
  rw [isbadVal, firstBad_eq_zero_iff]
  simp only [mem_isbadEntries_iff fl p hc]

/-- Setting a list of entries. -/
lemma setEntries_apply (value : UInt16) (es : List (ℕ × ℕ)) (c b : ℕ) :
    setEntries tbl value es c b = if (c, b) ∈ es then value else tbl c b := by
  induction es generalizing tbl with
  | nil => simp [setEntries]
  | cons e es ih =>
    have h : setEntries tbl value (e :: es)
        = setEntries (setBlcokStatus tbl e.1 e.2 value) value es := rfl
    rw [h, ih, setBlcokStatus]
    obtain ⟨c', b'⟩ := e
    by_cases h1 : (c, b) ∈ es
    · simp [h1]
    · by_cases h2 : c = c' ∧ b = b' <;> simp [h1, h2]

/-- The table after a mark of the footprint: good entries become used bad, entries that are
bad already keep their kind, and no other entry changes. -/
def marked : BlkStatus := fun c b =>
  if (c, b) ∈ opBlocks fl p ∧ tbl c b = blockGood then blockUsedBad else tbl c b

/-- The status `block_markbad` decides by: the entry at the block number that is not yet
doubled for two planes. -/
def testedStatus : UInt16 := tbl p.chipnr (p.pageAddr / fl.ppb)

/-- When the tested entry is good, the footprint holds no entry that the mark would turn from
another bad status into used bad; when it is not good, the footprint holds no good entry that
the mark would leave out. -/
def MarksFootprint : Prop :=
  if testedStatus fl tbl p = blockGood then
    ∀ e ∈ opBlocks fl p, tbl e.1 e.2 = blockGood ∨ tbl e.1 e.2 = blockUsedBad
  else
    ∀ e ∈ opBlocks fl p, tbl e.1 e.2 ≠ blockGood

/-- The table `block_markbad` computes before it saves it. -/
def markedByDriver : BlkStatus :=
  if testedStatus fl tbl p = blockGood then setEntries tbl blockUsedBad (markbadEntries fl p)
  else tbl

/-- The driver's table is the right one exactly under `MarksFootprint`. -/
lemma markedByDriver_eq_iff (hc : p.chipnr < fl.chipNum) :
    markedByDriver fl tbl p = marked fl tbl p ↔ MarksFootprint fl tbl p := by
  unfold markedByDriver MarksFootprint
  split
  · constructor
    · rintro h ⟨c, b⟩ he
      have h1 := congrFun (congrFun h c) b
      rw [setEntries_apply, if_pos ((mem_markbadEntries_iff fl p hc _).2 he), marked] at h1
      by_cases hg : tbl c b = blockGood
      · exact Or.inl hg
      · rw [if_neg (by simp [hg])] at h1
        exact Or.inr h1.symm
    · intro h
      funext c b
      have hmem := mem_markbadEntries_iff fl p hc (c, b)
      rw [setEntries_apply, marked]
      by_cases he : (c, b) ∈ opBlocks fl p
      · rw [if_pos (hmem.2 he)]
        rcases h (c, b) he with hg | hu
        · rw [if_pos ⟨he, hg⟩]
        · simp only at hu
          rw [hu, ite_self]
      · rw [if_neg fun h1 => he (hmem.1 h1), if_neg fun h1 => he h1.1]
  · constructor
    · rintro h ⟨c, b⟩ he hg
      have h1 := congrFun (congrFun h c) b
      rw [marked, if_pos ⟨he, hg⟩] at h1
      simp only at hg
      rw [hg] at h1
      exact absurd h1 (by decide)
    · intro h
      funext c b
      rw [marked, if_neg]
      rintro ⟨he, hg⟩
      exact h (c, b) he hg

end Table

/-! ## The mark as a run of the driver -/

/-- Programming a page never changes the table. -/
lemma markPage_table (fl : Flash) : Moves (fun s t : St => t.blkStatus = s.blkStatus) (markPage fl) := by
  have : Std.Refl (fun s t : St => t.blkStatus = s.blkStatus) := ⟨fun _ => rfl⟩
  have : IsTrans St (fun s t : St => t.blkStatus = s.blkStatus) :=
    ⟨fun _ _ _ h1 h2 => h2.trans h1⟩
  have hwrite : Moves (fun s t : St => t.blkStatus = s.blkStatus)
      (writePage fl (some fun _ => 0) none) := by
    refine .bind .get fun s => .ite (fun _ => .pure _) fun _ => ?_
    intro s
    unfold issue
    dsimp only
    split <;> rfl
  exact .bind (moves_bracket (fun _ _ _ _ _ => rfl) hwrite) fun _ => .pure _

/-- The save of the table inside a mark meets no failure: metadata may not be written at all,
or the run is calm. -/
def QuietUpdate (s : St) : Prop := s.allowMeta = true → s.Calm

lemma amlnandUpdateBbt_table (fl : Flash) (markbad : Act St ℤ) {s : St} (h : QuietUpdate s) :
    (amlnandUpdateBbt fl markbad s).2.blkStatus = s.blkStatus := by
  by_cases hm : s.allowMeta = true
  · have hkeep : KeepsCalm s.blkStatus (amlnandUpdateBbt fl markbad) := amlnandUpdateBbt_calm markbad
    exact (Spec.final hkeep ⟨h hm, rfl⟩).2
  · simp only [Bool.not_eq_true] at hm
    unfold amlnandUpdateBbt amlnandSaveInfoByName
    simp [hm]

/-- A save of the table after the footprint has been entered marks no further block. -/
def SaveKeepsTable (fl : Flash) (s : St) : Prop :=
  (innerUpdate fl { s with blkStatus := markedByDriver fl s.blkStatus s.opsPara }).2.blkStatus =
    markedByDriver fl s.blkStatus s.opsPara

/-- A quiet save marks none. -/
lemma saveKeepsTable_of_quiet (fl : Flash) {s : St} (h : QuietUpdate s) : SaveKeepsTable fl s :=
  amlnandUpdateBbt_table fl _ (s := { s with blkStatus := _ }) h

/-- Programming the mark after the save leaves the table in memory alone. -/
lemma updateAndMark_table (fl : Flash) (s : St) :
    ((innerUpdate fl >>= fun _ => markPage fl) s).2.blkStatus = (innerUpdate fl s).2.blkStatus := by
  rcases hr : innerUpdate fl s with ⟨o, t⟩
  cases o with
  | none => rw [bind_none hr]
  | some a => rw [bind_some hr, markPage_table fl t]

/-- **What `block_markbad` makes of the table**, when marking is allowed and the table is
loaded: it enters the footprint and saves the table, or leaves it alone.

**Proof sketch.** The entries are set before the table is saved; the page programmed at the end
does not concern it. -/
lemma blockMarkbad_table (fl : Flash) {s : St} (hallow : s.allowMarkbad = true)
    (hload : (s.info .nbbt).argValid = true) :
    (blockMarkbadOp fl s).2.blkStatus =
      if testedStatus fl s.blkStatus s.opsPara = blockGood then
        (innerUpdate fl { s with
          blkStatus := markedByDriver fl s.blkStatus s.opsPara }).2.blkStatus
      else s.blkStatus := by
  by_cases hg : testedStatus fl s.blkStatus s.opsPara = blockGood
  · rw [if_pos hg, markedByDriver, if_pos hg]
    rw [testedStatus, ← pageAddr_shift] at hg
    rw [show blockMarkbadOp fl = blockMarkbad fl (innerUpdate fl) from rfl,
      blockMarkbad_reaches _ ⟨hallow, hload, hg⟩, updateAndMark_table]
  · rw [if_neg hg]
    rw [testedStatus, ← pageAddr_shift] at hg
    rw [blockMarkbadOp, markbadN, blockMarkbad, get_bind, if_neg (by simp [hallow])]
    simp only [hg, and_false, if_false]
    split
    · rfl
    · rw [markPage_table fl s]

/-- The driver's mark produces the right table exactly if the table it enters is the right one and
the save that follows keeps it.

**Proof sketch.** What the save marks, it marks used bad, and an entry that is used bad stays so
(`Steps.usedBad_of_usedBad`): no save makes up for an entry that should have kept another bad
status. -/
lemma blockMarkbad_marked_iff (fl : Flash) {s : St} (hc : s.opsPara.chipnr < fl.chipNum)
    (hallow : s.allowMarkbad = true) (hload : (s.info .nbbt).argValid = true) :
    (blockMarkbadOp fl s).2.blkStatus = marked fl s.blkStatus s.opsPara ↔
      MarksFootprint fl s.blkStatus s.opsPara ∧
        (testedStatus fl s.blkStatus s.opsPara = blockGood → SaveKeepsTable fl s) := by
  rw [blockMarkbad_table fl hallow hload, ← markedByDriver_eq_iff fl _ _ hc]
  by_cases hg : testedStatus fl s.blkStatus s.opsPara = blockGood
  swap
  · rw [if_neg hg, markedByDriver, if_neg hg]
    exact ⟨fun h => ⟨h, fun h' => absurd h' hg⟩, fun h => h.1⟩
  rw [if_pos hg]
  constructor
  · intro h
    have hset : markedByDriver fl s.blkStatus s.opsPara = marked fl s.blkStatus s.opsPara := by
      rw [markedByDriver_eq_iff fl _ _ hc, MarksFootprint, if_pos hg]
      rintro ⟨c, b⟩ he
      by_contra hbad
      obtain ⟨hng, hnu⟩ := not_or.1 hbad
      have hused : markedByDriver fl s.blkStatus s.opsPara c b = blockUsedBad := by
        rw [markedByDriver, if_pos hg, setEntries_apply,
          if_pos ((mem_markbadEntries_iff fl _ hc _).2 he)]
      have hfinal := Steps.usedBad_of_usedBad (moves_innerUpdate fl
        { s with blkStatus := markedByDriver fl s.blkStatus s.opsPara }) hused
      have hkept := congrFun (congrFun h c) b
      rw [marked, if_neg fun h' => hng h'.2] at hkept
      exact hnu (hkept.symm.trans hfinal)
    exact ⟨hset, fun _ => h.trans hset.symm⟩
  · rintro ⟨hset, hkeep⟩
    exact (hkeep hg).trans hset

/-- A two-plane operation on blocks 10 and 11 of the only chip, in a driver whose table calls
block `b` factory bad and everything else good. -/
def planeState (b : ℕ) : St :=
  { St.blank with
    blkStatus := fun _ b' => if b' = b then blockFactoryBad else blockGood
    info := fun n => { argType := argTypeOf n, argValid := true, validBlkAddr := 4 }
    opsPara := { pageAddr := 5 * 256, option := { multiPlane := true } } }

end Amlnf
