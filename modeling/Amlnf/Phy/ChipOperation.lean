import Mathlib.Tactic.NormNum
import Amlnf.Phy.Flash

set_option relaxedAutoImplicit false
set_option autoImplicit false

/-!
# Chip operations

The operations of `chip_operation.c` at the level of whole pages and blocks: reading,
programming and erasing under a chosen outcome, the bad-block queries, and the block
self-tests. All of them take their parameters from `ops_para`.

## Main definitions

* `readPage`, `writePage`, `eraseBlock` — the three operations that talk to a chip.
* `opPages`, `opBlocks` — what an operation touches in the single or multi-chip,
  single or multi-plane modes.
* `blockIsbad`, `blockMarkbad`, `blkModifyBbtChipOp` — query and change of the bad-block table.
* `testBlockReserved`, `testBlockChipOp` — the destructive self-tests.

## Design

`blockMarkbad` calls `amlnand_update_bbt`, which saves a record and may mark further blocks
bad. The cycle is cut by making the update a parameter here and tying the knot by the depth
of nesting next to the record store.
-/

namespace Amlnf

open Act

/-! ## Error codes -/

/-- `EROFS`. -/
def eROFS : ℤ := 30

/-- `EFAULT`. -/
def eFAULT : ℤ := 14

/-- `NAND_ARGUMENT_FAILURE`. -/
def nandArgumentFailure : ℤ := 8

/-- `NAND_WRITE_FAILED`. -/
def nandWriteFailed : ℤ := 14

/-- `NAND_FAILED`. -/
def nandFailed : ℤ := 15

/-- `NAND_READ_FAILED`. -/
def nandReadFailed : ℤ := 16

/-- `NAND_BAD_BLCOK_FAILURE`. -/
def nandBadBlcokFailure : ℤ := 17

/-! ## The chip lock -/

/-- Take the outcome of the next hardware step. -/
def nextOutcome : Act St Outcome := fun s => (some (s.plan s.tick), { s with tick := s.tick + 1 })

/-- Lock `spi_nand_mutex` while holding it: the thread sleeps forever. -/
def lockHeld : Act St Unit := do
  modify fun s => { s with lockFault := true }
  hang

/-- `nand_get_chip`: take `spi_nand_mutex` and select the pins. When the pins cannot be
selected the loop takes the mutex again while holding it. -/
def nandGetChip : Act St Unit := do
  let s ← get
  if s.mutex then
    lockHeld
  else
    modify fun s => { s with mutex := true, idleflag := true }
    let o ← nextOutcome
    if o.pin then pure () else lockHeld

/-- A free chip is taken when the pins can be selected. -/
lemma nandGetChip_free {s : St} (hfree : s.mutex = false) (hpin : (s.plan s.tick).pin = true) :
    nandGetChip s = (some (), { s with mutex := true, idleflag := true, tick := s.tick + 1 }) := by
  rw [nandGetChip, get_bind]
  simp only [hfree, Bool.false_eq_true, if_false, modify_bind]
  change (if (s.plan s.tick).pin = true then pure () else lockHeld : Act St Unit) _ = _
  rw [if_pos hpin]
  rfl

/-- `nand_release_chip`. -/
def nandReleaseChip : Act St Unit := do
  let s ← get
  if s.idleflag then
    modify fun s =>
      { s with idleflag := false, mutex := false, lockFault := s.lockFault || !s.mutex }
  else
    pure ()

/-- Releasing a chip that is held. -/
lemma nandReleaseChip_held {s : St} (hmutex : s.mutex = true) (hidle : s.idleflag = true) :
    nandReleaseChip s = (some (), { s with mutex := false, idleflag := false }) := by
  rw [nandReleaseChip, get_bind]
  simp only [hidle, if_true, modify_apply, hmutex, Bool.not_true, Bool.or_false]

/-- `amlnand_get_device`: with a single thread, waiting for another state never ends. -/
def amlnandGetDevice (newState : ChipState) : Act St Unit := do
  let s ← get
  if s.state = .ready then
    modify fun s => { s with state := newState }
    nandGetChip
  else
    hang

/-- A free device is taken when the pins can be selected. -/
lemma amlnandGetDevice_free (newState : ChipState) {s : St} (hready : s.state = .ready)
    (hfree : s.mutex = false) (hpin : (s.plan s.tick).pin = true) :
    amlnandGetDevice newState s = (some (),
      { s with state := newState, mutex := true, idleflag := true, tick := s.tick + 1 }) := by
  rw [amlnandGetDevice, get_bind, if_pos hready, modify_bind]
  exact nandGetChip_free hfree hpin

/-- A device that has been taken was free. -/
lemma amlnandGetDevice_returned {newState : ChipState} {s t : St}
    (h : amlnandGetDevice newState s = (some (), t)) :
    s.state = .ready ∧ s.mutex = false ∧ (s.plan s.tick).pin = true ∧
      t = { s with state := newState, mutex := true, idleflag := true, tick := s.tick + 1 } := by
  rw [amlnandGetDevice, get_bind] at h
  by_cases hready : s.state = .ready
  swap
  · rw [if_neg hready] at h
    cases h
  rw [if_pos hready, modify_bind, nandGetChip, get_bind] at h
  cases hm : s.mutex with
  | true =>
    simp only [hm, if_true] at h
    cases h
  | false =>
    simp only [hm, Bool.false_eq_true, if_false, modify_bind] at h
    obtain ⟨o, u, ho, h⟩ := bind_eq_some h
    cases ho
    by_cases hp : (s.plan s.tick).pin = true
    · rw [if_pos hp] at h
      cases h
      exact ⟨hready, rfl, hp, rfl⟩
    · rw [if_neg hp] at h
      cases h

/-- `amlnand_release_device`. -/
def amlnandReleaseDevice : Act St Unit := do
  modify fun s => { s with state := .ready }
  nandReleaseChip

/-- Releasing a device that is held. -/
lemma amlnandReleaseDevice_held {s : St} (hmutex : s.mutex = true) (hidle : s.idleflag = true) :
    amlnandReleaseDevice s =
      (some (), { s with state := .ready, mutex := false, idleflag := false }) := by
  rw [amlnandReleaseDevice, modify_bind]
  exact nandReleaseChip_held hmutex hidle

/-- The bracket the record functions put around an operation: lock and unlock only when no
device operation is under way. -/
def withChip {α : Type} (x : Act St α) : Act St α := do
  let s ← get
  when (s.state = .ready) nandGetChip
  let a ← x
  let s ← get
  when (s.state = .ready) nandReleaseChip
  pure a

section Lock

variable {R : St → St → Prop} [Std.Refl R] [IsTrans St R]
  (h : ∀ (s : St) (m i f : Bool) (k : ℕ),
    R s { s with mutex := m, idleflag := i, lockFault := f, tick := k })

include h

/-- A relation that takes no notice of the lock and the step counter is respected by taking the
chip. -/
lemma moves_getChip : Moves R nandGetChip := by
  have hheld : Moves R lockHeld := .bind (.modify fun s => h s _ _ _ _) fun _ => .hang
  refine .bind .get fun s => .ite (fun _ => hheld) fun _ => ?_
  refine .bind (.modify fun s => h s _ _ _ _) fun _ => .bind (fun s => h s _ _ _ _) fun o => ?_
  exact .ite (fun _ => .pure _) fun _ => hheld

lemma moves_releaseChip : Moves R nandReleaseChip :=
  .bind .get fun _ => .ite (fun _ => .modify fun s => h s _ _ _ _) fun _ => .pure _

lemma moves_bracket {α : Type} {x : Act St α} (hx : Moves R x) : Moves R (withChip x) := by
  refine .bind .get fun s => .bind (.when (moves_getChip h)) fun _ => .bind hx fun a => ?_
  exact .bind .get fun s => .bind (.when (moves_releaseChip h)) fun _ => .pure _

end Lock

/-- Under a device operation the bracket adds nothing. -/
lemma withChip_busy {α : Type} {x : Act St α} {s t : St} {a : α} (hs : s.state ≠ .ready)
    (hx : x s = (some a, t)) (ht : t.state ≠ .ready) : withChip x s = (some a, t) := by
  rw [withChip, get_bind, Act.when, if_neg hs, pure_bind, bind_some hx, get_bind, Act.when,
    if_neg ht, pure_bind, pure_apply]

/-! ## What an operation touches -/

/-- Chips addressed by an operation. -/
def opChips (fl : Flash) (p : ChipOpsPara) : List ℕ :=
  if p.option.multiChip ∧ 1 < fl.chipNum then List.range fl.chipNum else [p.chipnr]

/-- Blocks addressed by an operation on each of its chips. -/
def opRows (fl : Flash) (p : ChipOpsPara) : List ℕ :=
  if p.option.multiPlane then [2 * (p.pageAddr / fl.ppb), 2 * (p.pageAddr / fl.ppb) + 1]
  else [p.pageAddr / fl.ppb]

/-- Chip and block pairs touched by `erase_block`. -/
def opBlocks (fl : Flash) (p : ChipOpsPara) : List (ℕ × ℕ) :=
  (opChips fl p).flatMap fun c => (opRows fl p).map fun b => (c, b)

/-- Chip and page pairs touched by `read_page` and `write_page`, in buffer order. -/
def opPages (fl : Flash) (p : ChipOpsPara) : List (ℕ × ℕ) :=
  (opBlocks fl p).map fun t => (t.1, t.2 * fl.ppb + p.pageAddr % fl.ppb)

/-- The program commands of one `write_page`: one page-sized slice of the buffer each. -/
def programOps (fl : Flash) (pages : List (ℕ × ℕ)) (data : Buf) (oob : Option Tag) :
    List FlashOp :=
  pages.zipIdx.map fun t =>
    FlashOp.program t.1.1 t.1.2 (fun i => data (t.2 * fl.pagesize + i)) oob

/-- The erase commands of one `erase_block`. -/
def eraseOps (blocks : List (ℕ × ℕ)) : List FlashOp := blocks.map fun t => FlashOp.erase t.1 t.2

/-! ## Reading, programming, erasing -/

/-- Issue commands to the chips and take the result of the step. -/
def issue (fl : Flash) (ops : List FlashOp) (hit : ℕ → ℕ → Bool) (r : Outcome → OpResult) :
    Act St ℤ := fun s =>
  let t := { s with log := s.log ++ ops, tick := s.tick + 1 }
  match r (s.plan s.tick) with
  | .done => (some 0, { t with image := s.image.replay fl ops })
  | .failed code left =>
    (some (-(code + 1 : ℤ)),
      { t with image := fun c p => if hit c p then left c p else s.image c p })

/-- `write_page`. `data` is `none` for a `NULL` buffer. -/
def writePage (fl : Flash) (data : Option Buf) (oob : Option Tag) : Act St ℤ := do
  let s ← get
  if s.readonly then
    pure (-eROFS)
  else
    match data with
    | none => pure (-nandArgumentFailure)
    | some d =>
      issue fl (programOps fl (opPages fl s.opsPara) d oob)
        (fun c p => (opPages fl s.opsPara).contains (c, p)) Outcome.prog

/-- `erase_block`. -/
def eraseBlock (fl : Flash) : Act St ℤ := do
  let s ← get
  if s.readonly then
    pure (-eROFS)
  else
    issue fl (eraseOps (opBlocks fl s.opsPara))
      (fun c p => (opBlocks fl s.opsPara).contains (c, p / fl.ppb)) Outcome.erase

/-- What `read_page` hands back besides its return code. -/
structure ReadBack where
  ret : ℤ
  data : Buf
  oob : Option Tag

/-- `read_page` with a buffer to fill: an uncorrectable page is reported in `ecc_err` only. -/
def readPageInto (fl : Flash) : Act St ReadBack := do
  let s ← get
  let o ← nextOutcome
  let pages := (opPages fl s.opsPara).map fun t => s.image t.1 t.2
  let uncorrectable : Act St ReadBack := do
    modify fun s => { s with opsPara := { s.opsPara with eccErr := true } }
    pure ⟨0, o.garbage, none⟩
  match o.read with
  | .failed code => pure ⟨-(code + 1 : ℤ), fun _ => 0, none⟩
  | .uncorrectable => uncorrectable
  | .clean bitFlip =>
    if pages.any Page.isBad then
      uncorrectable
    else
      modify fun s => { s with opsPara := { s.opsPara with bitFlip := s.opsPara.bitFlip || bitFlip } }
      pure ⟨0, fun i => (pages.getD (i / fl.pagesize) .erased).data (i % fl.pagesize),
        (pages.headD .erased).oob⟩

/-- `read_page`. `data` and `oob` say whether `data_buf` and `oob_buf` are there; without either
it is refused before anything is sent to the chips. -/
def readPage (fl : Flash) (data oob : Bool) : Act St ReadBack :=
  if data || oob then readPageInto fl else pure ⟨-nandArgumentFailure, fun _ => 0, none⟩

lemma readPage_data (fl : Flash) (oob : Bool) : readPage fl true oob = readPageInto fl := rfl

/-- `read_page` with `oob_buf = user_oob_buf`. -/
def readUserPage (fl : Flash) : Act St ReadBack := do
  let r ← readPage fl true true
  when (0 ≤ r.ret) (modify fun s => { s with userOob := r.oob })
  pure r

/-! ## The bad-block table -/

/-- `NAND_BLOCK_GOOD`. -/
def blockGood : UInt16 := 0

/-- `NAND_BLOCK_USED_BAD`. -/
def blockUsedBad : UInt16 := 1

/-- `NAND_BLOCK_FACTORY_BAD`. -/
def blockFactoryBad : UInt16 := 2

/-- `get_blcok_status`. -/
def getBlcokStatus (tbl : BlkStatus) (chipnr addr : ℕ) : ℤ :=
  if tbl chipnr addr = blockUsedBad then 1
  else if tbl chipnr addr = blockFactoryBad then 2
  else if tbl chipnr addr = blockGood then 0
  else -1

/-- `set_blcok_status`. -/
def setBlcokStatus (tbl : BlkStatus) (chipnr addr : ℕ) (value : UInt16) : BlkStatus :=
  fun c b => if c = chipnr ∧ b = addr then value else tbl c b

/-- The other plane of a block. -/
def planeMate (blk : ℕ) : ℕ := if blk % 2 = 0 then blk + 1 else blk - 1

/-- The first status that is not good along a list of entries, `0` when all are good. -/
def firstBad (tbl : BlkStatus) : List (ℕ × ℕ) → ℤ
  | [] => 0
  | (c, b) :: rest =>
    if getBlcokStatus tbl c b ≠ 0 then getBlcokStatus tbl c b else firstBad tbl rest

/-- The entries `block_isbad` looks up, in order, until one is not good. -/
def isbadEntries (fl : Flash) (p : ChipOpsPara) : List (ℕ × ℕ) :=
  let blk := p.pageAddr >>> fl.ppbShift
  if p.option.multiPlane ∧ ¬p.option.multiChip then
    [(p.chipnr, blk <<< 1), (p.chipnr, planeMate (blk <<< 1))]
  else if ¬p.option.multiPlane ∧ p.option.multiChip then
    (List.range fl.chipNum).map fun c => (c, blk)
  else if p.option.multiPlane ∧ p.option.multiChip then
    (p.chipnr, blk <<< 1) :: (List.range fl.chipNum).flatMap fun c =>
      [(c, blk <<< 1), (c, planeMate (blk <<< 1))]
  else
    [(p.chipnr, blk)]

/-- The value `block_isbad` returns for a table and parameters. -/
def isbadVal (fl : Flash) (tbl : BlkStatus) (p : ChipOpsPara) : ℤ := firstBad tbl (isbadEntries fl p)

/-- `block_isbad`, the table being loaded. -/
def blockIsbad (fl : Flash) : Act St ℤ := do
  let s ← get
  pure (isbadVal fl s.blkStatus s.opsPara)

/-- The entries `block_markbad` sets, in order. -/
def markbadEntries (fl : Flash) (p : ChipOpsPara) : List (ℕ × ℕ) :=
  let blk := p.pageAddr >>> fl.ppbShift
  if p.option.multiPlane ∧ ¬p.option.multiChip then
    [(p.chipnr, blk <<< 1), (p.chipnr, planeMate (blk <<< 1))]
  else if ¬p.option.multiPlane ∧ p.option.multiChip then
    (List.range fl.chipNum).map fun c => (c, blk)
  else if p.option.multiPlane ∧ p.option.multiChip then
    (List.range fl.chipNum).flatMap fun c => [(c, planeMate (blk <<< 1)), (c, blk <<< 1)]
  else
    [(p.chipnr, blk)]

/-- Set a list of entries to one value. -/
def setEntries (tbl : BlkStatus) (value : UInt16) (es : List (ℕ × ℕ)) : BlkStatus :=
  es.foldl (fun t e => setBlcokStatus t e.1 e.2 value) tbl

/-- The page of zeros `block_markbad` programs at the end, at whatever `ops_para` then says. -/
def markPage (fl : Flash) : Act St ℤ := do
  let ret ← withChip (writePage fl (some fun _ => 0) none)
  pure (if ret < 0 then -nandWriteFailed else ret)

/-- `block_markbad`. The status that decides is read at the block number before it is doubled
for two planes. `updateBbt` is `amlnand_update_bbt`. -/
def blockMarkbad (fl : Flash) (updateBbt : Act St ℤ) : Act St ℤ := do
  let s ← get
  if ¬s.allowMarkbad then
    pure (-eROFS)
  else
    let status := s.blkStatus s.opsPara.chipnr (s.opsPara.pageAddr >>> fl.ppbShift)
    if (s.info .nbbt).argValid ∧ (status = blockUsedBad ∨ status = blockFactoryBad) then
      pure 0
    else if (s.info .nbbt).argValid ∧ status = blockGood then
      modify fun s =>
        { s with blkStatus := setEntries s.blkStatus blockUsedBad (markbadEntries fl s.opsPara) }
      let _ ← updateBbt
      markPage fl
    else
      markPage fl

/-- Marking is allowed, the table is loaded, and says the block is good: the table is saved
before the page is programmed. -/
def MarkReaches (fl : Flash) (s : St) : Prop :=
  s.allowMarkbad = true ∧ (s.info .nbbt).argValid = true ∧
    s.blkStatus s.opsPara.chipnr (s.opsPara.pageAddr >>> fl.ppbShift) = blockGood

instance (fl : Flash) (s : St) : Decidable (MarkReaches fl s) :=
  inferInstanceAs (Decidable (_ ∧ _ ∧ _))

/-- The way through the save of the table. -/
lemma blockMarkbad_reaches {fl : Flash} {s : St} (updateBbt : Act St ℤ) (h : MarkReaches fl s) :
    blockMarkbad fl updateBbt s = (updateBbt >>= fun _ => markPage fl) { s with
      blkStatus := setEntries s.blkStatus blockUsedBad (markbadEntries fl s.opsPara) } := by
  obtain ⟨hallow, hvalid, hgood⟩ := h
  have hne : ¬(s.info .nbbt).argValid ∨
      ¬(s.blkStatus s.opsPara.chipnr (s.opsPara.pageAddr >>> fl.ppbShift) = blockUsedBad ∨
        s.blkStatus s.opsPara.chipnr (s.opsPara.pageAddr >>> fl.ppbShift) = blockFactoryBad) := by
    rw [hgood]
    exact .inr (by decide)
  rw [blockMarkbad, get_bind, if_neg (by simp [hallow]), if_neg (not_and_or.mpr hne),
    if_pos ⟨hvalid, hgood⟩, modify_bind]

/-- The entries `blk_modify_bbt_chip_op` sets. The second branch tests the option bits
against the value to be stored. -/
def modifyEntries (fl : Flash) (p : ChipOpsPara) (value : UInt16) : List (ℕ × ℕ) :=
  let blk := p.pageAddr >>> fl.ppbShift
  if p.option.multiPlane ∧ ¬p.option.multiChip then
    [(p.chipnr, blk <<< 1), (p.chipnr, planeMate (blk <<< 1))]
  else if ¬p.option.multiPlane ∧ p.option.bits &&& value ≠ 0 then
    (List.range fl.chipNum).map fun c => (c, blk)
  else if p.option.multiPlane ∧ p.option.multiChip then
    (p.chipnr, blk <<< 1) :: (List.range fl.chipNum).flatMap fun c =>
      [(c, blk <<< 1), (c, planeMate (blk <<< 1))]
  else
    [(p.chipnr, blk)]

/-- `blk_modify_bbt_chip_op`. -/
def blkModifyBbtChipOp (fl : Flash) (value : UInt16) : Act St ℤ := do
  let s ← get
  if ¬s.allowMarkbad then
    pure (-eROFS)
  else
    modify fun s =>
      { s with blkStatus := setEntries s.blkStatus value (modifyEntries fl s.opsPara value) }
    pure 0

/-! ## Self-tests -/

/-- Point `ops_para` at reserved block `b`, everything else cleared. -/
def seekBlock (fl : Flash) (b : ℕ) : Act St Unit :=
  modify fun s => { s with opsPara := { pageAddr := fl.resPage b, chipnr := fl.resChip b } }

/-- Point `ops_para` at record page `i` of reserved block `b`, in SLC mode for the types that
have it. -/
def seekPage (fl : Flash) (b i : ℕ) : Act St Unit :=
  modify fun s => { s with opsPara :=
    { pageAddr := fl.recPage b i, chipnr := fl.resChip b, option := { slc := fl.newType.slc } } }

/-- Run `body` on `0, 1, …, n - 1` until it gives a value. -/
def forPages {σ α : Type} (n : ℕ) (body : ℕ → Act σ (Option α)) : Act σ (Option α) := do
  match ← loop (fun i => do
    match ← body i with
    | none => pure (Sum.inl (i + 1))
    | some a => pure (Sum.inr a)) n 0 with
  | Sum.inl _ => pure none
  | Sum.inr a => pure (some a)

/-- A loop over pages that no page ends. -/
lemma forPages_none {σ α : Type} {n : ℕ} {body : ℕ → Act σ (Option α)} {I : ℕ → σ → Prop}
    {E : σ → Prop} (h : ∀ i, Spec (I i) (body i) (fun r s => r = none ∧ I (i + 1) s) E) :
    Spec (I 0) (forPages n body) (fun r s => r = none ∧ I n s) E := by
  have hloop : ∀ k i, Spec (I i) (loop (fun i => do
      match ← body i with
      | none => pure (Sum.inl (i + 1))
      | some a => pure (Sum.inr a)) k i) (fun r s => r = Sum.inl (i + k) ∧ I (i + k) s) E := by
    intro k
    induction k with
    | zero => exact fun i => Spec.pure fun _ hs => ⟨rfl, hs⟩
    | succ k ih =>
      intro i
      refine Spec.bind (M := fun r s => r = Sum.inl (i + 1) ∧ I (i + 1) s) ?_ fun r => ?_
      · refine Spec.bind (h i) fun r => Spec.and_left fun hr => ?_
        subst hr
        exact Spec.pure fun _ hs => ⟨rfl, hs⟩
      · refine Spec.and_left fun hr => ?_
        subst hr
        have := ih (i + 1)
        rwa [Nat.add_right_comm i 1 k] at this
  refine Spec.bind (hloop n 0) fun r => Spec.and_left fun hr => ?_
  subst hr
  rw [Nat.zero_add]
  exact Spec.pure fun _ hs => ⟨rfl, hs⟩

/-- A loop over `n` pages keeps what each of them keeps. -/
lemma forPages_keep_lt {α : Type} {n : ℕ} {body : ℕ → Act St (Option α)} {I E : St → Prop}
    (h : ∀ i < n, Spec I (body i) (fun _ => I) E) : Spec I (forPages n body) (fun _ => I) E := by
  have hloop : ∀ m i, i + m = n → Spec I (loop (fun i => do
      match ← body i with
      | none => pure (Sum.inl (i + 1))
      | some a => pure (Sum.inr a) : ℕ → Act St (ℕ ⊕ α)) m i) (fun _ => I) E := by
    intro m
    induction m with
    | zero => exact fun i _ s hs => hs
    | succ m ih =>
      intro i hi
      refine Spec.bind (M := fun r s => I s ∧ ∀ j, r = Sum.inl j → j = i + 1) ?_ fun r => ?_
      · refine Spec.bind (h i (by omega)) fun r => ?_
        cases r with
        | none => exact Spec.pure fun _ hs => ⟨hs, fun j hj => (Sum.inl.inj hj).symm⟩
        | some a => exact Spec.pure fun _ hs => ⟨hs, nofun⟩
      · cases r with
        | inl j =>
          rintro s ⟨hs, hj⟩
          rw [hj j rfl]
          exact ih (i + 1) (by omega) s hs
        | inr a => exact Spec.pure fun _ hs => hs.1
  refine Spec.bind (hloop n 0 (by omega)) fun r => ?_
  cases r <;> exact Spec.pure fun _ hs => hs

/-- A loop over pages keeps what each page keeps. -/
lemma forPages_keep {α : Type} {n : ℕ} {body : ℕ → Act St (Option α)} {I E : St → Prop}
    (h : ∀ i, Spec I (body i) (fun _ => I) E) : Spec I (forPages n body) (fun _ => I) E :=
  forPages_keep_lt fun i _ => h i

/-- The body of `test_block_reserved` between taking and releasing the chip. -/
def testBlockBody (fl : Flash) (b : ℕ) : Act St ℤ := do
  modify fun s => { s with opsPara :=
    { s.opsPara with pageAddr := fl.resPage b, chipnr := fl.resChip b } }
  let ret ← eraseBlock fl
  if ret < 0 then
    pure (-1)
  else
    let wrote ← forPages fl.pagesRead fun t => do
      seekPage fl b t
      -- the spare bytes are whatever `user_oob_buf` holds
      let s ← get
      let ret ← writePage fl (some fun _ => 0xa5) s.userOob
      pure (if ret < 0 then some () else none)
    if wrote.isSome then
      pure (-1)
    else
      let read ← forPages fl.pagesRead fun t => do
        seekPage fl b t
        let r ← readUserPage fl
        pure (if r.ret < 0 ∨ ¬(∀ i < fl.pagesize, r.data i = 0xa5) then some () else none)
      if read.isSome then
        pure (-1)
      else
        modify fun s => { s with opsPara :=
          { s.opsPara with pageAddr := fl.resPage b, chipnr := fl.resChip b } }
        let ret ← eraseBlock fl
        pure (if ret < 0 then -1 else ret)

/-- `test_block_reserved`. It takes the chip lock whether or not its caller holds it. -/
def testBlockReserved (fl : Flash) (b : ℕ) : Act St ℤ := do
  modify fun s => { s with opsPara :=
    { s.opsPara with option :=
      { s.opsPara.option with slc := s.opsPara.option.slc || fl.newType.slc } } }
  nandGetChip
  let ret ← testBlockBody fl b
  nandReleaseChip
  pure ret

/-- One pass of `test_block_chip_op` over the pages. The page address is advanced by `t`, not
by one, from page to page. -/
def testPass (fl : Flash) (blkAddr : ℕ) (visit : Act St ℤ) : Act St (Option Unit) := do
  modify fun s => { s with opsPara := { pageAddr := blkAddr } }
  forPages fl.ppb fun t => do
    modify fun s => { s with opsPara := { s.opsPara with pageAddr := s.opsPara.pageAddr + t } }
    let ret ← visit
    pure (if ret < 0 then some () else none)

/-- `test_block_chip_op`. -/
def testBlockChipOp (fl : Flash) : Act St ℤ := do
  let s ← get
  let blkAddr := s.opsPara.pageAddr
  let readIt : Act St ℤ := do
    let r ← readUserPage fl
    pure r.ret
  let writeIt : Act St ℤ := do
    let s ← get
    writePage fl (some fun _ => 0xa5) s.userOob
  let ret ← eraseBlock fl
  if ret < 0 then
    pure (-1)
  else
    let r1 ← testPass fl blkAddr readIt
    if r1.isSome then
      pure (-1)
    else
      let r2 ← testPass fl blkAddr writeIt
      if r2.isSome then
        pure (-1)
      else
        let r3 ← testPass fl blkAddr readIt
        if r3.isSome then
          pure (-1)
        else
          modify fun s => { s with opsPara := { s.opsPara with pageAddr := blkAddr } }
          let ret ← eraseBlock fl
          pure (if ret < 0 then -1 else ret)

end Amlnf
