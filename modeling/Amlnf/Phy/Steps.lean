import Amlnf.Phy.Frame

set_option relaxedAutoImplicit false
set_option autoImplicit false

/-!
# What the record store can do to the state

Every function of the record store, in every run, is a sequence of three kinds of steps:
bookkeeping that touches neither the chips nor the bad-block table, commands issued to the
chips while `amlnf_readonly` is off, and entries of the bad-block table set to used bad while
marking is allowed. Invariants of whole runs are proved for these three steps only.

## Main definitions

* `Step`, `Steps` — one step and a sequence of steps.

## Main results

* `steps_frame` — bookkeeping, programs and erases are steps, hence so are the functions made of
  them: `moves_amlnandInfoInit`, `moves_blockMarkbadOp`, `moves_saveInfo`.
* `Steps.usedBad_of_usedBad` — an entry that is used bad stays so.
-/

namespace Amlnf

open Act

/-- One step of the record store. -/
inductive Step (fl : Flash) : St → St → Prop
  | soft {s t : St} (h : t.hard = s.hard) : Step fl s t
  | issue {s : St} (ops : List FlashOp) (hit : ℕ → ℕ → Bool) (r : Outcome → OpResult)
      (h : s.readonly = false) : Step fl s (issue fl ops hit r s).2
  | mark {s : St} (es : List (ℕ × ℕ)) (h : s.allowMarkbad = true) :
      Step fl s { s with blkStatus := setEntries s.blkStatus blockUsedBad es }

/-- A sequence of steps. -/
abbrev Steps (fl : Flash) : St → St → Prop := Relation.ReflTransGen (Step fl)

section

variable {fl : Flash} {α β : Type}

/-- Bookkeeping is one step. -/
lemma moves_soft {f : St → St} (h : ∀ s, (f s).hard = s.hard) : Moves (Steps fl) (Act.modify f) :=
  .modify fun s => .single (.soft (h s))

/-! ## The functions of the record store -/

/-- A program is one step, or none while `amlnf_readonly` is on. -/
lemma moves_writePage (d : Option Buf) (oob : Option Tag) :
    Moves (Steps fl) (writePage fl d oob) := by
  refine Moves.get_bind fun s => ?_
  by_cases h : s.readonly = true
  · rw [if_pos h]
    exact .refl
  · rw [if_neg h]
    cases d with
    | none => exact .refl
    | some d => exact .single (.issue _ _ _ (by simpa using h))

/-- An erase is one step, or none while `amlnf_readonly` is on. -/
lemma moves_eraseBlock : Moves (Steps fl) (eraseBlock fl) := by
  refine Moves.get_bind fun s => ?_
  by_cases h : s.readonly = true
  · rw [if_pos h]
    exact .refl
  · rw [if_neg h]
    exact .single (.issue _ _ _ (by simpa using h))

/-- Bookkeeping, programs and erases are steps. -/
lemma steps_frame (fl : Flash) :
    WriteFrame fl (fun _ => True) (fun _ _ => True) (Steps fl) where
  soft h _ _ := .single (.soft h)
  write d o _ := moves_writePage (some d) o
  erase := moves_eraseBlock
  pattern _ := trivial
  untagged _ := trivial

/-- Taking and releasing the lock is bookkeeping. -/
lemma steps_ignoresLock (fl : Flash) : IgnoresLock (Steps fl) :=
  fun _ _ _ _ _ _ => .single (.soft rfl)

/-- Releasing the chips is a sequence of steps. -/
lemma moves_nandReleaseChip : Moves (Steps fl) nandReleaseChip :=
  (steps_ignoresLock fl).moves_nandReleaseChip

/-- A read is a sequence of steps. -/
lemma moves_readPage (data oob : Bool) : Moves (Steps fl) (readPage fl data oob) :=
  (steps_frame fl).moves_readPage data oob

/-- Finding and loading a record is a sequence of steps. -/
lemma moves_amlnandInfoInit (name : RecName) (buf : Buf) (size : ℕ) :
    Moves (Steps fl) (amlnandInfoInit fl name buf size) :=
  (steps_frame fl).moves_amlnandInfoInit (steps_ignoresLock fl) trivial buf size

/-- Rewriting the table is a sequence of steps if marking blocks bad is one. -/
lemma moves_amlnandUpdateBbt {markbad : Act St ℤ} (hm : Moves (Steps fl) markbad) :
    Moves (Steps fl) (amlnandUpdateBbt fl markbad) :=
  .bind .get fun _ =>
    (steps_frame fl).moves_amlnandSaveInfoByName (steps_ignoresLock fl) hm trivial
      (fun _ _ => trivial) _ _

/-- Marking blocks bad, at any depth of nesting, is a sequence of steps: the entries are set under
the guard. -/
lemma moves_markbadN (n : ℕ) : Moves (Steps fl) (markbadN fl n) :=
  .of_keeps fun s₀ => ((steps_frame fl).invariant (steps_ignoresLock fl) s₀).markbadN
    (fun _ es hs ha => hs.tail (.mark es ha)) trivial (fun _ _ => trivial) n

/-- Marking a block bad is a sequence of steps. -/
lemma moves_blockMarkbadOp (fl : Flash) : Moves (Steps fl) (blockMarkbadOp fl) := moves_markbadN _

/-- The save of the table inside a mark. -/
lemma moves_innerUpdate (fl : Flash) : Moves (Steps fl) (innerUpdate fl) :=
  moves_amlnandUpdateBbt (moves_markbadN _)

/-- A save is a sequence of steps. -/
lemma moves_saveInfo (name : RecName) (buf : Buf) (size : ℕ) :
    Moves (Steps fl) (saveInfo fl name buf size) :=
  (steps_frame fl).moves_amlnandSaveInfoByName (steps_ignoresLock fl) (moves_blockMarkbadOp fl)
    trivial (fun _ _ => trivial) buf size

end

/-! ## Facts about every sequence of steps -/

/-- What no step changes: the plan, the settings and what the devices have handed on. -/
def St.fixed (s : St) : (ℕ → Outcome) × (Bool × Bool × Bool) × List ChipOpsPara :=
  (s.plan, (s.readonly, s.allowMeta, s.allowMarkbad), s.handed)

/-- A step leaves the plan, the settings and the calls handed on as they are. -/
lemma Step.fixed {fl : Flash} {s t : St} (h : Step fl s t) : t.fixed = s.fixed := by
  cases h with
  | soft hh => exact congrArg (fun x => x.2.2.2) hh
  | issue ops hit r hro =>
    unfold Amlnf.issue
    dsimp only
    split <;> rfl
  | mark es ha => rfl

/-- So does a sequence of steps. -/
lemma Steps.fixed {fl : Flash} {s t : St} (h : Steps fl s t) : t.fixed = s.fixed := by
  induction h with
  | refl => rfl
  | tail _ hstep ih => exact hstep.fixed.trans ih

/-- The settings and the plan never change. -/
lemma Steps.settings {fl : Flash} {s t : St} (h : Steps fl s t) :
    t.plan = s.plan ∧ t.readonly = s.readonly ∧ t.allowMeta = s.allowMeta ∧
      t.allowMarkbad = s.allowMarkbad := by
  have hf := h.fixed
  simp only [St.fixed, Prod.mk.injEq] at hf
  exact ⟨hf.1, hf.2.1⟩

/-- The chip operations and the record store hand nothing on in the name of a device. -/
lemma Steps.handed {fl : Flash} {s t : St} (h : Steps fl s t) : t.handed = s.handed :=
  congrArg (fun x => x.2.2) h.fixed

/-- A command is logged whatever becomes of it. -/
lemma issue_log {fl : Flash} (ops : List FlashOp) (hit : ℕ → ℕ → Bool) (r : Outcome → OpResult)
    (s : St) : (issue fl ops hit r s).2.log = s.log ++ ops := by
  unfold issue
  dsimp only
  cases r (s.plan s.tick) <;> rfl

/-- A step only adds commands, and none while `amlnf_readonly` is on. -/
lemma Step.log {fl : Flash} {s t : St} (h : Step fl s t) :
    ∃ ops, t.log = s.log ++ ops ∧ (s.readonly = true → ops = []) := by
  cases h with
  | soft hh =>
    simp only [St.hard, Prod.mk.injEq] at hh
    exact ⟨[], by rw [hh.2.1, List.append_nil], fun _ => rfl⟩
  | issue ops hit r hro =>
    refine ⟨ops, issue_log ops hit r s, fun h => ?_⟩
    rw [hro] at h
    cases h
  | mark es ha => exact ⟨[], (List.append_nil _).symm, fun _ => rfl⟩

/-- While `amlnf_readonly` is on no command is issued. -/
lemma Steps.log_of_readonly {fl : Flash} {s t : St} (h : Steps fl s t) (hro : s.readonly = true) :
    t.log = s.log := by
  induction h with
  | refl => rfl
  | @tail u v hsteps hstep ih =>
    obtain ⟨ops, hlog, hops⟩ := hstep.log
    rw [hlog, hops ((Steps.settings hsteps).2.1.trans hro), List.append_nil, ih]

/-- What setting entries to used bad does to one entry. -/
lemma setEntries_usedBad (tbl : BlkStatus) (es : List (ℕ × ℕ)) (c b : ℕ) :
    setEntries tbl blockUsedBad es c b = tbl c b ∨
      setEntries tbl blockUsedBad es c b = blockUsedBad := by
  induction es generalizing tbl with
  | nil => exact Or.inl rfl
  | cons e es ih =>
    rcases ih (setBlcokStatus tbl e.1 e.2 blockUsedBad) with h | h
    · have hone : setBlcokStatus tbl e.1 e.2 blockUsedBad c b = tbl c b ∨
          setBlcokStatus tbl e.1 e.2 blockUsedBad c b = blockUsedBad := by
        unfold setBlcokStatus
        split
        · exact Or.inr rfl
        · exact Or.inl rfl
      exact hone.imp (fun h' => h.trans h') fun h' => h.trans h'
    · exact Or.inr h

/-- An entry keeps its status or becomes used bad. -/
lemma Steps.entry {fl : Flash} {s t : St} (h : Steps fl s t) (c b : ℕ) :
    t.blkStatus c b = s.blkStatus c b ∨ t.blkStatus c b = blockUsedBad := by
  induction h with
  | refl => exact Or.inl rfl
  | @tail u v _ hstep ih =>
    cases hstep with
    | soft hh =>
      simp only [St.hard, Prod.mk.injEq] at hh
      rw [hh.2.2.1]
      exact ih
    | issue ops hit r hro =>
      unfold Amlnf.issue
      dsimp only
      split <;> exact ih
    | mark es ha =>
      rcases setEntries_usedBad u.blkStatus es c b with h | h
      · exact ih.imp (fun h' => h.trans h') fun h' => h.trans h'
      · exact Or.inr h

/-- An entry that is used bad stays so. -/
lemma Steps.usedBad_of_usedBad {fl : Flash} {s t : St} (h : Steps fl s t) {c b : ℕ}
    (hb : s.blkStatus c b = blockUsedBad) : t.blkStatus c b = blockUsedBad := by
  rcases h.entry c b with h | h
  · rwa [h]
  · exact h

end Amlnf
