import Amlnf.Phy.Chipenv

set_option relaxedAutoImplicit false
set_option autoImplicit false

/-!
# Invariants of the record store

An invariant of the record store has to be checked on bookkeeping and on a few operations only: the
bracketed reads, programs and erases, and the self-test of a block. This module carries it from
there through every function that finds, reads and saves records, all runs included, also those that
do not return.

## Main definitions

* `St.hard`, `St.lock` — the parts of the state bookkeeping leaves alone.
* `ReadInvariant` — a property that bookkeeping and reads keep; a parameter says whose `arg_info`
  may change.
* `Invariant` — programs and erases keep it as well. Parameters say what may be programmed and
  whether programs and erases can fail at all.

## Main results

* `ReadInvariant.infoInit` — finding and loading a record keeps an invariant.
* `Invariant.saveInfoByName` — so does saving one.
* `Invariant.markbadN` — and marking blocks bad, at any depth.

## Design

The self-test of a block is reached only behind a program or an erase that has failed, and so is
marking a block bad from inside a save. Where nothing can fail they need not keep the invariant.
-/

namespace Amlnf

open Act

/-- What bookkeeping leaves alone: the chips, the commands issued, the bad-block table, the
plan of outcomes, the three settings and what the devices have handed on. -/
def St.hard (s : St) :
    Image × List FlashOp × BlkStatus × (ℕ → Outcome) × (Bool × Bool × Bool) × List ChipOpsPara :=
  (s.image, s.log, s.blkStatus, s.plan, (s.readonly, s.allowMeta, s.allowMarkbad), s.handed)

/-- The lock of the chips and the state of the driver that goes with it. -/
def St.lock (s : St) : Bool × Bool × Bool × ChipState := (s.mutex, s.idleflag, s.lockFault, s.state)

/-- A property of states that bookkeeping and reads keep. The `arg_info`s of the records in `N` may
change. -/
structure ReadInvariant (fl : Flash) (N : RecName → Prop) (I : St → Prop) : Prop where
  soft {s t : St} (h : t.hard = s.hard) (hl : t.lock = s.lock)
    (hi : ∀ n, ¬N n → t.info n = s.info n) (hs : I s) : I t
  read : Keeps I (withChip (readUserPage fl))

/-- The code of a program or an erase: it is negative only if it `CanFail`. -/
def CodeReported (CanFail : Prop) (I : St → Prop) (ret : ℤ) (s : St) : Prop := (ret < 0 → CanFail) ∧ I s

/-- The result of writing a copy: it is missing only if a program `CanFail`. -/
def CopyWritten (CanFail : Prop) (I : St → Prop) (r : Option ℤ) (s : St) : Prop :=
  (r = none → CanFail) ∧ I s

/-- A property of states that programs of what is `Ok` and erases keep as well. -/
structure Invariant (fl : Flash) (N : RecName → Prop) (Ok : Buf → Option Tag → Prop)
    (CanFail : Prop) (I : St → Prop) : Prop extends ReadInvariant fl N I where
  erase : Spec I (withChip (eraseBlock fl)) (CodeReported CanFail I) I
  write (d : Buf) (o : Option Tag) (h : Ok d o) :
    Spec I (withChip (writePage fl (some d) o)) (CodeReported CanFail I) I
  untagged (d : Buf) : Ok d none
  test (h : CanFail) (b : ℕ) : Keeps I (testBlockReserved fl b)

/-- Marking a block bad sets entries of the table under the guard, rewrites the table and programs
the page. -/
lemma keeps_blockMarkbad {fl : Flash} {I : St → Prop} {updateBbt : Act St ℤ}
    (hset : ∀ (s : St) (es : List (ℕ × ℕ)), I s → s.allowMarkbad = true →
      I { s with blkStatus := setEntries s.blkStatus blockUsedBad es })
    (hupdate : Keeps I updateBbt) (hpage : Keeps I (markPage fl)) :
    Keeps I (blockMarkbad fl updateBbt) := by
  refine Spec.get_bind fun s hs => Spec.ite (fun _ => ?_) fun hallow => ?_
  · exact Spec.pure fun t ht => by rwa [ht]
  refine Spec.ite (fun _ => Spec.pure fun t ht => by rwa [ht]) fun _ => ?_
  refine Spec.ite (fun _ => ?_) fun _ => ?_
  · refine Spec.bind (M := fun _ => I) (Spec.modify fun t ht => ?_) fun _ =>
      .bind hupdate fun _ => hpage
    rw [ht]
    exact hset s _ hs (by simpa using hallow)
  · exact Spec.mono hpage (fun t ht => by rwa [ht]) (fun _ _ ht => ht) fun _ ht => ht

namespace ReadInvariant

variable {fl : Flash} {N : RecName → Prop} {I : St → Prop} (h : ReadInvariant fl N I)

include h

/-! ## Bookkeeping -/

/-- Bookkeeping: a change of the state that leaves the chips, the lock and the `arg_info`s alone. -/
lemma modify {f : St → St}
    (hf : ∀ s, (f s).hard = s.hard ∧ (f s).lock = s.lock ∧ (f s).info = s.info) :
    Keeps I (Act.modify f) :=
  .modify fun s hs => h.soft (hf s).1 (hf s).2.1 (fun n _ => by rw [(hf s).2.2]) hs

/-- The `arg_info` of a record in `N` may change. -/
lemma modifyInfo {name : RecName} (hn : N name) (f : ArgInfo → ArgInfo) :
    Keeps I (modifyInfo name f) := by
  refine .modify fun s hs => h.soft (s := s) rfl rfl (fun n hnn => if_neg fun hname => ?_) hs
  rw [hname] at hnn
  exact hnn hn

/-- Forgetting the name tag of the spare bytes. -/
lemma clearOob : Keeps I clearOob := h.modify fun _ => ⟨rfl, rfl, rfl⟩

/-- Pointing `ops_para` at a record page. -/
lemma seekPage (b i : ℕ) : Keeps I (seekPage fl b i) := h.modify fun _ => ⟨rfl, rfl, rfl⟩

/-! ## Reading a record -/

/-- Looking a reserved block up in the table. -/
lemma lookBlock (b : ℕ) : Keeps I (lookBlock fl b) :=
  .bind (h.modify fun _ => ⟨rfl, rfl, rfl⟩) fun _ => .bind .get fun _ => .pure _

/-- Counting the reserved blocks. -/
lemma lastReserveBlock : Keeps I (getLastReserveBlock fl) := by
  refine .bind (h.modify fun _ => ⟨rfl, rfl, rfl⟩) fun _ => .loopUntil (fun v => ?_) _ _
  refine .ite (fun _ => .bind (h.lookBlock _) fun _ => ?_) fun _ => .pure _
  exact .ite (fun _ => .pure _) fun _ => .pure _

/-- Reading one record page. -/
lemma readRecPage (b i : ℕ) : Keeps I (readRecPage fl b i) :=
  .bind (h.seekPage _ _) fun _ => .bind h.clearOob fun _ => h.read

/-- Reading a record. -/
lemma readInfoByName (name : RecName) (buf : Buf) (size : ℕ) :
    Keeps I (amlnandReadInfoByName fl name buf size) := by
  refine .bind (h.modify fun _ => ⟨rfl, rfl, rfl⟩) fun _ => .bind .get fun s => ?_
  refine .ite (fun _ => .loopUntil (fun v => ?_) _ _) fun _ => .pure _
  refine .ite (fun _ => .bind .get fun s => ?_) fun _ => .pure _
  refine .bind (h.readRecPage _ _) fun r => .bind .get fun s => ?_
  exact .ite (fun _ => .pure _) fun _ => .ite (fun _ => .pure _) fun _ => .pure _

/-! ## Finding a record -/

section Scan

variable (hscan : ∀ b i, Keeps I (scanRead fl b i)) {name : RecName} (hn : N name)

include hscan hn

/-- Scanning a block for the name of a record. -/
lemma scanBlock (size b : ℕ) (ret : ℤ) : Keeps I (scanBlock fl name size b ret) := by
  refine .loopUntil (fun v => .ite (fun _ => ?_) fun _ => .pure _) _ _
  refine .bind (hscan _ _) fun r => .bind .get fun s => .ite (fun _ => .pure _) fun _ => ?_
  split
  · exact .ite (fun _ => .bind (h.modifyInfo hn _) fun _ => .pure _) fun _ => .pure _
  · exact .pure _

/-- The first pass of the scan, over all reserved blocks. -/
lemma scanBlocks (size : ℕ) : Keeps I (scanBlocks fl name size) := by
  refine .loopUntil (fun v => .ite (fun _ => ?_) fun _ => .pure _) _ _
  refine .bind (h.lookBlock _) fun ret => .ite (fun _ => .pure _) fun _ => ?_
  refine .bind (h.scanBlock hscan hn _ _ _) fun ret => .bind .get fun s => ?_
  exact .ite (fun _ => .pure _) fun _ => .pure _

omit hscan in
/-- The second pass of the scan, over the copies in the block found. -/
lemma scanPages (size : ℕ) : Keeps I (scanPages fl name size) := by
  refine .loopUntil (fun v => .ite (fun _ => .bind .get fun s => ?_) fun _ => .pure _) _ _
  refine .bind (h.readRecPage _ _) fun r => .bind .get fun t => .ite (fun _ => ?_) fun _ => ?_
  · exact .bind (h.modifyInfo hn _) fun _ => .pure _
  split
  · exact .ite (fun _ => .bind (h.modifyInfo hn _) fun _ => .pure _) fun _ => .pure _
  · exact .pure _
  · exact .ite (fun _ => .bind (h.modifyInfo hn _) fun _ => .pure _) fun _ => .pure _
  · exact .pure _

/-- Finding a record. -/
lemma checkInfoByName (size : ℕ) : Keeps I (amlnandCheckInfoByName fl name size) := by
  refine .bind (h.modify fun _ => ⟨rfl, rfl, rfl⟩) fun _ => .bind (h.scanBlocks hscan hn _) fun _ => ?_
  refine .bind .get fun s => .ite (fun _ => .bind (h.scanPages hn _) fun _ => ?_) fun _ => .pure _
  exact .bind (h.modify fun _ => ⟨rfl, rfl, rfl⟩) fun _ => .pure _

/-- Finding and loading a record. -/
lemma infoInit (buf : Buf) (size : ℕ) : Keeps I (amlnandInfoInit fl name buf size) := by
  refine .bind (h.checkInfoByName hscan hn _) fun ret => .ite (fun _ => .pure _) fun _ => ?_
  refine .bind .get fun s => .ite (fun _ => ?_) fun _ => .pure _
  exact .bind (h.readInfoByName _ _ _) fun r => .ite (fun _ => .pure _) fun _ => .pure _

end Scan

end ReadInvariant

namespace Invariant

variable {fl : Flash} {N : RecName → Prop} {Ok : Buf → Option Tag → Prop} {CanFail : Prop}
  {I : St → Prop} (h : Invariant fl N Ok CanFail I)

include h

/-! ## Writing a copy -/

/-- Programming the page of a block that was marked bad. -/
lemma markPage : Keeps I (markPage fl) :=
  Spec.bind (h.write _ _ (h.untagged _)) fun _ => Spec.pure fun _ hs => hs.2

/-- Programming one page of a record under its name tag; the code is negative only if a program can
fail. -/
lemma writeRecPage {tag : Tag} (ht : ∀ d, Ok d (some tag)) (blk i : ℕ) (d : Buf) :
    Spec I (writeRecPage fl tag blk i d) (CodeReported CanFail I) I :=
  Spec.bind (h.seekPage _ _) fun _ =>
    Spec.bind (h.modify fun _ => ⟨rfl, rfl, rfl⟩) fun _ => h.write d _ (ht d)

/-- Programming the page that is paired with the last one. -/
lemma writePaired : Keeps I (writePaired fl) := by
  refine .bind .get fun s => .bind (h.modify fun _ => ⟨rfl, rfl, rfl⟩) fun _ => ?_
  refine .bind h.clearOob fun _ => Spec.bind (h.write _ _ (h.untagged _)) fun _ => ?_
  refine Spec.mono (P := I) (.bind (h.modify fun _ => ⟨rfl, rfl, rfl⟩) fun _ => Keeps.pure _)
    (fun _ hs => hs.2) (fun _ _ hs => hs) fun _ hs => hs

/-- Programming a dummy page behind a copy. -/
lemma writeDummy (blk i : ℕ) : Keeps I (writeDummy fl blk i) := by
  refine .bind (h.seekPage _ _) fun _ => .bind h.clearOob fun _ => ?_
  refine Spec.bind (h.write _ _ (h.untagged _)) fun _ => ?_
  exact Spec.mono h.writePaired (fun _ hs => hs.2) (fun _ _ hs => hs) fun _ hs => hs

/-- A copy is missing only if a program can fail. -/
lemma writeCopy {tag : Tag} (ht : ∀ d, Ok d (some tag)) (buf : Buf) (size blk base : ℕ) :
    Spec I (writeCopy fl tag buf size blk base) (CopyWritten CanFail I) I := by
  refine Spec.bind (Spec.loop (I := fun _ => I) (Q := fun _ s => CanFail ∧ I s) (fun v => ?_) _ _)
    fun r => ?_
  · refine Spec.bind (h.writeRecPage ht _ _ _) fun ret => Spec.and_left fun hret => ?_
    refine Spec.ite (fun hneg => Spec.pure fun _ hs => ⟨hret hneg, hs⟩) fun _ => ?_
    refine Spec.ite (fun _ => ?_) fun _ => Spec.pure fun _ hs => hs
    exact Spec.bind h.writePaired fun _ => Spec.pure fun _ hs => hs
  · cases r with
    | inl v => exact Spec.pure fun _ hs => ⟨nofun, hs⟩
    | inr a => exact Spec.pure fun _ hs => ⟨fun _ => hs.1, hs.2⟩

/-- Filling a block with copies of a `FULL_BLK` record. -/
lemma writeFullBlk {tag : Tag} (ht : ∀ d, Ok d (some tag)) (buf : Buf) (size blk : ℕ) :
    Spec I (writeFullBlk fl tag buf size blk) (CopyWritten CanFail I) I := by
  refine Spec.loopUntil (I := fun _ => I) (fun v => ?_) (fun _ _ hs => hs) _ _
  refine Spec.ite (fun _ => Spec.ite (fun _ => Spec.ite (fun _ => ?_) fun _ => ?_) fun _ => ?_)
    fun _ => Spec.pure fun _ hs => ⟨nofun, hs⟩
  · exact Spec.bind (h.writeDummy _ _) fun _ => Spec.pure fun _ hs => ⟨nofun, hs⟩
  · exact Spec.pure fun _ hs => ⟨nofun, hs⟩
  · refine Spec.bind (h.writeCopy ht _ _ _ _) fun r => Spec.and_left fun hr => ?_
    cases r with
    | none => exact Spec.pure fun _ hs => ⟨fun _ => hr rfl, hs⟩
    | some ret =>
      refine Spec.ite (fun _ => ?_) fun _ => Spec.pure fun _ hs => hs
      exact Spec.pure fun _ hs => ⟨nofun, hs⟩

/-- Writing the next copy of a `FULL_PAGE` record. -/
lemma writeFullPage {tag : Tag} (ht : ∀ d, Ok d (some tag)) (buf : Buf) (size blk base : ℕ) :
    Spec I (writeFullPage fl tag buf size blk base) (CopyWritten CanFail I) I := by
  refine Spec.bind (h.writeCopy ht _ _ _ _) fun r => Spec.and_left fun hr => ?_
  cases r with
  | none => exact Spec.pure fun _ hs => ⟨fun _ => hr rfl, hs⟩
  | some ret =>
    refine Spec.ite (fun _ => ?_) fun _ => Spec.pure fun _ hs => ⟨nofun, hs⟩
    exact Spec.bind (h.writeDummy _ _) fun _ => Spec.pure fun _ hs => ⟨nofun, hs⟩

/-- Writing a record of either type. -/
lemma writeRecord {tag : Tag} (ht : ∀ d, Ok d (some tag)) (name : RecName) (buf : Buf) (size : ℕ)
    (l : SaveLocals) : Spec I (writeRecord fl name tag buf size l) (CopyWritten CanFail I) I := by
  refine Spec.bind (M := fun _ => I) Keeps.get fun s => ?_
  cases (s.info name).argType with
  | fullBlk => exact h.writeFullBlk ht _ _ _
  | fullPage => exact h.writeFullPage ht _ _ _ _

/-! ## Saving a record -/

/-- What follows an erase may use that a negative code means that an erase can fail. -/
lemma bind_erase {α : Type} {f : ℤ → Act St α}
    (hf : ∀ ret, (ret < 0 → CanFail) → Keeps I (f ret)) :
    Keeps I (withChip (eraseBlock fl) >>= f) :=
  Spec.bind h.erase fun ret => Spec.and_left (hf ret)

/-- What follows the write of a record may use that a missing copy means that a program can fail. -/
lemma bind_writeRecord {α : Type} {tag : Tag} (ht : ∀ d, Ok d (some tag)) {name : RecName}
    {buf : Buf} {size : ℕ} {l : SaveLocals} {f : Option ℤ → Act St α}
    (hf : ∀ r, (r = none → CanFail) → Keeps I (f r)) :
    Keeps I (Amlnf.writeRecord fl name tag buf size l >>= f) :=
  Spec.bind (h.writeRecord ht _ _ _ _) fun r => Spec.and_left (hf r)

section Markbad

variable {markbad : Act St ℤ} (hm : CanFail → Keeps I markbad)

include hm

/-- One round of the search for a free block; `markbad` is reached only behind an erase that failed.
-/
lemma freeBlockRound (block totalBlk b : ℕ) :
    Keeps I (freeBlockRound fl markbad block totalBlk b) := by
  refine .ite (fun _ => .bind .get fun s => ?_) fun _ => .pure _
  refine .ite (fun _ => .pure _) fun _ => .ite (fun _ => .pure _) fun _ => ?_
  refine .bind (h.lookBlock _) fun ret => .ite (fun _ => .pure _) fun _ => ?_
  refine h.bind_erase fun ret hret => ?_
  exact .ite (fun hneg => .bind (hm (hret hneg)) fun _ => .pure _) fun _ => .pure _

/-- The search for a free block. -/
lemma freeBlock (block : ℕ) : Keeps I (amlnandGetFreeBlock fl markbad block) :=
  .bind (h.modify fun _ => ⟨rfl, rfl, rfl⟩) fun _ => .bind h.lastReserveBlock fun n =>
    .loopUntil (h.freeBlockRound hm block n) _ _

/-- Choosing the block of the next attempt. -/
lemma chooseBlock (name : RecName) (size : ℕ) (l : SaveLocals) :
    Keeps I (chooseBlock fl markbad name size l) := by
  refine .bind .get fun s => .ite (fun _ => .ite (fun _ => ?_) fun _ => .pure _) fun _ => ?_
  all_goals
    refine .bind (h.freeBlock hm _) fun r => ?_
    cases r <;> exact .pure _

/-- The attempts of a save; the self-test is reached only behind a program that failed. -/
lemma saveAttempts {tag : Tag} (ht : ∀ d, Ok d (some tag)) (name : RecName) (buf : Buf) (size : ℕ)
    (l : SaveLocals) : Keeps I (saveAttempts fl markbad name tag buf size l) := by
  refine .loopUntil (fun l => .bind (h.chooseBlock hm _ _ _) fun r => ?_) _ _
  cases r with
  | none => exact .pure _
  | some l =>
    refine h.bind_writeRecord ht fun r hr => ?_
    cases r with
    | some ret => exact .pure _
    | none =>
      refine .ite (fun _ => .pure _) fun _ => .bind (h.test (hr rfl) _) fun ret => ?_
      exact .ite (fun _ => .bind (hm (hr rfl)) fun _ => .pure _) fun _ => .pure _

/-- Erasing the block of the copy before. -/
lemma eraseOld (old : ℕ) : Keeps I (eraseOld fl markbad old) := by
  refine .bind (h.modify fun _ => ⟨rfl, rfl, rfl⟩) fun _ => ?_
  refine h.bind_erase fun ret hret => ?_
  refine .ite (fun hneg => .bind (h.test (hret hneg) _) fun _ => ?_) fun _ => .pure _
  refine .ite (fun _ => .bind (hm (hret hneg)) fun _ => ?_) fun _ => .pure _
  exact .ite (fun _ => .pure _) fun _ => .pure _

variable {name : RecName} (hn : N name)

include hn

/-- Entering the new copy and erasing the block of the old one. -/
lemma commitCopy (size : ℕ) (ret : ℤ) (l : SaveLocals) :
    Keeps I (commitCopy fl markbad name size ret l) := by
  refine .bind .get fun s => .bind (.when fun _ => h.modify fun _ => ⟨rfl, rfl, rfl⟩) fun _ => ?_
  refine .bind (h.modifyInfo hn _) fun _ => .ite (fun _ => ?_) fun _ => .pure _
  refine .bind (h.eraseOld hm _) fun r => ?_
  cases r with
  | inl _ => exact .pure _
  | inr _ => exact .bind (h.modify fun _ => ⟨rfl, rfl, rfl⟩) fun _ => .pure _

variable (ht : ∀ ts d, Ok d (some ⟨name, ts⟩))

include ht

/-- One round of a save. -/
lemma saveRound (buf : Buf) (size : ℕ) (l : SaveLocals) :
    Keeps I (saveRound fl markbad name buf size l) := by
  refine .bind (h.modifyInfo hn _) fun _ => .bind .get fun s => ?_
  refine .bind (h.modify fun _ => ⟨rfl, rfl, rfl⟩) fun _ => ?_
  refine .bind (h.saveAttempts hm (ht _) _ _ _ _) fun r => ?_
  cases r with
  | noBlock => exact .pure _
  | gaveUp => exact .pure _
  | wrote ret l =>
    refine .ite (fun _ => .pure _) fun _ => .bind (h.commitCopy hm hn _ _ _) fun r => ?_
    cases r with
    | inl _ => exact .pure _
    | inr _ => exact .bind (h.modifyInfo hn _) fun _ => .pure _

/-- **Saving a record**, whose name may be programmed. -/
lemma saveInfoByName (buf : Buf) (size : ℕ) :
    Keeps I (amlnandSaveInfoByName fl markbad name buf size) := by
  refine .bind .get fun s => .ite (fun _ => .pure _) fun _ => ?_
  refine .bind (h.saveRound hm hn ht _ _ _) fun r => ?_
  rcases r with ret | ⟨ret, l⟩
  · exact .pure _
  · refine .ite (fun _ => .bind (h.modifyInfo hn _) fun _ => ?_) fun _ => .pure _
    refine .bind (h.saveRound hm hn ht _ _ _) fun r => ?_
    rcases r with ret | ⟨ret, l⟩
    · exact .pure _
    · exact .pure _

end Markbad

/-! ## Marking blocks bad -/

variable (hset : ∀ (s : St) (es : List (ℕ × ℕ)), I s → s.allowMarkbad = true →
    I { s with blkStatus := setEntries s.blkStatus blockUsedBad es })

include hset

variable (hbbt : N .nbbt) (ht : ∀ ts d, Ok d (some ⟨.nbbt, ts⟩))

include hbbt ht

/-- **Marking blocks bad**, with the table saved at every depth of nesting. -/
lemma markbadN (n : ℕ) : Keeps I (markbadN fl n) := by
  induction n with
  | zero => exact .hang
  | succ n ih =>
    exact keeps_blockMarkbad hset (.bind .get fun _ => h.saveInfoByName (fun _ => ih) hbbt ht _ _)
      h.markPage

end Invariant

end Amlnf
