import Amlnf.Phy.Invariant

set_option relaxedAutoImplicit false
set_option autoImplicit false

/-!
# Relations the driver respects

A relation between the states before and after has to be checked on bookkeeping, programs and
erases only. The raw operations of the chips respect it as they are; the functions of the record
store do because the states a given one is related to form an invariant.

## Main definitions

* `Frame` — a relation that bookkeeping respects; a parameter says whose `arg_info` may change.
* `IgnoresLock` — a relation that takes no notice of the lock.
* `WriteFrame` — programs and erases respect it as well; a parameter says what may be programmed.

## Main results

* `Frame.moves_amlnandInfoInit` — finding and loading a record.
* `WriteFrame.moves_amlnandSaveInfoByName` — saving one, marking blocks bad being a parameter.
-/

namespace Amlnf

open Act

/-- A relation that bookkeeping respects. The `arg_info`s of the records in `N` may change. -/
structure Frame (N : RecName → Prop) (R : St → St → Prop) : Prop where
  soft {s t : St} (h : t.hard = s.hard) (hl : t.lock = s.lock)
    (hi : ∀ n, ¬N n → t.info n = s.info n) : R s t

/-- A relation that takes no notice of the lock. -/
def IgnoresLock (R : St → St → Prop) : Prop :=
  ∀ (s : St) (st : ChipState) (m i f : Bool) (k : ℕ),
    R s { s with state := st, mutex := m, idleflag := i, lockFault := f, tick := k }

/-- A relation that programs of what is `Ok` and erases respect. The pattern of the self-test is
programmed with any spare bytes, and anything without a name. -/
structure WriteFrame (fl : Flash) (N : RecName → Prop) (Ok : Buf → Option Tag → Prop)
    (R : St → St → Prop) : Prop extends Frame N R where
  write (d : Buf) (o : Option Tag) (h : Ok d o) : Moves R (writePage fl (some d) o)
  erase : Moves R (eraseBlock fl)
  pattern (o : Option Tag) : Ok (fun _ => 0xa5) o
  untagged (d : Buf) : Ok d none

section

variable {fl : Flash} {α : Type} {R : St → St → Prop} [Std.Refl R] [IsTrans St R]

/-- Asking for the status of a block changes nothing. -/
lemma moves_blockIsbad : Moves R (blockIsbad fl) := .bind .get fun _ => .pure _

/-- A loop over the pages of a block, from its body. -/
lemma moves_forPages {n : ℕ} {body : ℕ → Act St (Option α)} (h : ∀ i, Moves R (body i)) :
    Moves R (forPages n body) := by
  refine .bind (.loop (fun i => .bind (h i) fun r => ?_) _ _) fun r => ?_
  · cases r <;> exact .pure _
  · cases r <;> exact .pure _

omit [Std.Refl R] in
/-- What is related to a state stays so. -/
lemma keeps_of_moves {x : Act St α} (h : Moves R x) (s₀ : St) : Keeps (R s₀) x :=
  .of_moves h fun _ _ hst hs => trans_of R hs hst

namespace IgnoresLock

variable (L : IgnoresLock R)

include L

/-- Taking the chips changes the lock only. -/
lemma moves_nandGetChip : Moves R nandGetChip := moves_getChip fun s => L s s.state

/-- Releasing the chips changes the lock only. -/
lemma moves_nandReleaseChip : Moves R nandReleaseChip := moves_releaseChip fun s => L s s.state

/-- An operation between taking and releasing the chips. -/
lemma moves_withChip {x : Act St α} (hx : Moves R x) : Moves R (withChip x) :=
  moves_bracket (fun s => L s s.state) hx

/-- Taking the device changes the lock and the state that goes with it. -/
lemma moves_amlnandGetDevice (st : ChipState) : Moves R (amlnandGetDevice st) := by
  refine .bind .get fun _ => .ite (fun _ => ?_) fun _ => .hang
  exact .bind (.modify fun s => L s st s.mutex s.idleflag s.lockFault s.tick) fun _ =>
    L.moves_nandGetChip

/-- Releasing the device changes the lock and the state that goes with it. -/
lemma moves_amlnandReleaseDevice : Moves R amlnandReleaseDevice :=
  .bind (.modify fun s => L s .ready s.mutex s.idleflag s.lockFault s.tick) fun _ =>
    L.moves_nandReleaseChip

end IgnoresLock

end

namespace Frame

variable {fl : Flash} {α : Type} {N : RecName → Prop} {R : St → St → Prop} (F : Frame N R)

include F

/-! ## Raw operations -/

/-- Bookkeeping: a change of the state that leaves the chips, the lock and the `arg_info`s alone. -/
lemma moves_soft {f : St → St}
    (h : ∀ s, (f s).hard = s.hard ∧ (f s).lock = s.lock ∧ (f s).info = s.info) :
    Moves R (Act.modify f) := .modify fun s => F.soft (h s).1 (h s).2.1 fun n _ => by rw [(h s).2.2]

/-- The next outcome of the plan: only the step counter moves. -/
lemma moves_nextOutcome : Moves R nextOutcome := fun _ => F.soft rfl rfl fun _ _ => rfl

variable [Std.Refl R] [IsTrans St R]

/-- A read changes the step counter and the flags of `ops_para`. -/
lemma moves_readPageInto : Moves R (readPageInto fl) := by
  refine .bind .get fun s => .bind F.moves_nextOutcome fun o => ?_
  have h : ∀ g : Buf, Moves R (do
      modify fun s => { s with opsPara := { s.opsPara with eccErr := true } }
      pure (⟨0, g, none⟩ : ReadBack)) :=
    fun g => .bind (F.moves_soft fun _ => ⟨rfl, rfl, rfl⟩) fun _ => .pure _
  dsimp only
  split
  · exact .pure _
  · exact h _
  · refine .ite (fun _ => h _) fun _ => ?_
    exact .bind (F.moves_soft fun _ => ⟨rfl, rfl, rfl⟩) fun _ => .pure _

/-- A read of a page, with or without buffers. -/
lemma moves_readPage (data oob : Bool) : Moves R (readPage fl data oob) :=
  .ite (fun _ => F.moves_readPageInto) fun _ => .pure _

/-- A read of a page with its spare bytes. -/
lemma moves_readUserPage : Moves R (readUserPage fl) :=
  .bind (F.moves_readPage _ _) fun _ =>
    .bind (.when (F.moves_soft fun _ => ⟨rfl, rfl, rfl⟩)) fun _ => .pure _

/-! ## Reading and finding records -/

variable (L : IgnoresLock R)

include L

/-- The states related to a given one form an invariant. -/
lemma readInvariant (s₀ : St) : ReadInvariant fl N (R s₀) where
  soft h hl hi hs := trans_of R hs (F.soft h hl hi)
  read := keeps_of_moves (L.moves_withChip F.moves_readUserPage) s₀

/-- Reading a record. -/
lemma moves_amlnandReadInfoByName (name : RecName) (buf : Buf) (size : ℕ) :
    Moves R (amlnandReadInfoByName fl name buf size) :=
  .of_keeps fun s₀ => (F.readInvariant L s₀).readInfoByName name buf size

/-- The read of the scan. -/
lemma moves_scanRead (b i : ℕ) : Moves R (scanRead fl b i) := by
  refine .bind (F.moves_soft fun _ => ⟨rfl, rfl, rfl⟩) fun _ => ?_
  refine .bind (F.moves_soft fun _ => ⟨rfl, rfl, rfl⟩) fun _ => ?_
  refine .bind L.moves_nandGetChip fun _ => ?_
  exact .bind F.moves_readUserPage fun _ => .bind L.moves_nandReleaseChip fun _ => .pure _

/-- Finding and loading a record. -/
lemma moves_amlnandInfoInit {name : RecName} (hn : N name) (buf : Buf) (size : ℕ) :
    Moves R (amlnandInfoInit fl name buf size) :=
  .of_keeps fun s₀ => (F.readInvariant L s₀).infoInit
    (fun b i => keeps_of_moves (F.moves_scanRead L b i) s₀) hn buf size

end Frame

namespace WriteFrame

variable {fl : Flash} {N : RecName → Prop} {Ok : Buf → Option Tag → Prop} {R : St → St → Prop}
  [Std.Refl R] [IsTrans St R] (F : WriteFrame fl N Ok R)

include F

/-! ## Self-tests and saving records -/

/-- The self-test of a block: erase, program, read back, erase. -/
lemma moves_testBlockBody (b : ℕ) : Moves R (testBlockBody fl b) := by
  refine .bind (F.moves_soft fun _ => ⟨rfl, rfl, rfl⟩) fun _ => .bind F.erase fun ret => ?_
  refine .ite (fun _ => .pure _) fun _ => .bind (moves_forPages fun t => ?_) fun r => ?_
  · refine .bind (F.moves_soft fun _ => ⟨rfl, rfl, rfl⟩) fun _ => .bind .get fun s => ?_
    exact .bind (F.write _ _ (F.pattern _)) fun _ => .pure _
  · refine .ite (fun _ => .pure _) fun _ => .bind (moves_forPages fun t => ?_) fun r => ?_
    · refine .bind (F.moves_soft fun _ => ⟨rfl, rfl, rfl⟩) fun _ => ?_
      exact .bind F.moves_readUserPage fun _ => .pure _
    · refine .ite (fun _ => .pure _) fun _ => ?_
      refine .bind (F.moves_soft fun _ => ⟨rfl, rfl, rfl⟩) fun _ => ?_
      exact .bind F.erase fun _ => .pure _

variable (L : IgnoresLock R)

include L

/-- The self-test of a reserved block, under the lock. -/
lemma moves_testBlockReserved (b : ℕ) : Moves R (testBlockReserved fl b) :=
  .bind (F.moves_soft fun _ => ⟨rfl, rfl, rfl⟩) fun _ => .bind L.moves_nandGetChip fun _ =>
    .bind (F.moves_testBlockBody b) fun _ => .bind L.moves_nandReleaseChip fun _ => .pure _

/-- The states related to a given one form an invariant, whatever fails. -/
lemma invariant (s₀ : St) : Invariant fl N Ok True (R s₀) where
  toReadInvariant := F.readInvariant L s₀
  erase := (keeps_of_moves (L.moves_withChip F.erase) s₀).mono (fun _ hs => hs)
    (fun _ _ hs => ⟨fun _ => trivial, hs⟩) fun _ hs => hs
  write d o h := (keeps_of_moves (L.moves_withChip (F.write d o h)) s₀).mono (fun _ hs => hs)
    (fun _ _ hs => ⟨fun _ => trivial, hs⟩) fun _ hs => hs
  untagged := F.untagged
  test _ b := keeps_of_moves (F.moves_testBlockReserved L b) s₀

variable {markbad : Act St ℤ} (hm : Moves R markbad)

include hm

/-- Saving a record, whose name may be programmed. -/
lemma moves_amlnandSaveInfoByName {name : RecName} (hn : N name)
    (ht : ∀ ts d, Ok d (some ⟨name, ts⟩)) (buf : Buf) (size : ℕ) :
    Moves R (amlnandSaveInfoByName fl markbad name buf size) :=
  .of_keeps fun s₀ =>
    (F.invariant L s₀).saveInfoByName (fun _ => keeps_of_moves hm s₀) hn ht buf size

end WriteFrame

end Amlnf
