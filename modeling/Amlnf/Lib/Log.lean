import Mathlib.Data.List.Basic

set_option relaxedAutoImplicit false
set_option autoImplicit false

/-!
# Logs

A log is a list of events with the newest first. An event that opens something is *answered*
when an event that closes it came later.

## Main definitions

* `Answered` — every opening event of a log is answered.

## Main results

* `answered_cons_of_answer`, `answered_cons_of_not` — what a further event does to it.
-/

variable {α : Type} {p q : α → Prop} {x : α} {log : List α}

/-- Every event with `p` is followed by one with `q`. -/
def Answered (p q : α → Prop) (log : List α) : Prop :=
  ∀ later x earlier, log = later ++ x :: earlier → p x → ∃ y ∈ later, q y

lemma answered_nil : Answered p q [] := by
  intro later x earlier h
  simp at h

/-- An answer that opens nothing answers everything before it. -/
lemma answered_cons_of_answer (hq : q x) (hp : ¬p x) : Answered p q (x :: log) := by
  intro later y earlier h hy
  cases later with
  | nil =>
    obtain ⟨rfl, -⟩ := List.cons.inj h
    exact absurd hy hp
  | cons z later =>
    obtain ⟨rfl, -⟩ := List.cons.inj h
    exact ⟨x, List.mem_cons_self, hq⟩

/-- An event that is no answer must not open anything. -/
lemma answered_cons_of_not (hq : ¬q x) : Answered p q (x :: log) ↔ ¬p x ∧ Answered p q log := by
  constructor
  · intro h
    refine ⟨fun hp => ?_, fun later y earlier hl hy => ?_⟩
    · obtain ⟨y, hy, -⟩ := h [] x log rfl hp
      cases hy
    · obtain ⟨z, hz, hqz⟩ := h (x :: later) y earlier (congrArg (x :: ·) hl) hy
      rcases List.mem_cons.mp hz with rfl | hz
      · exact absurd hqz hq
      · exact ⟨z, hz, hqz⟩
  · rintro ⟨hp, hlog⟩ later y earlier hl hy
    cases later with
    | nil =>
      obtain ⟨rfl, -⟩ := List.cons.inj hl
      exact absurd hy hp
    | cons z later =>
      obtain ⟨rfl, hl'⟩ := List.cons.inj hl
      obtain ⟨w, hw, hqw⟩ := hlog later y earlier hl' hy
      exact ⟨w, List.mem_cons_of_mem _ hw, hqw⟩

/-- A log that opens nothing. -/
lemma answered_of_forall_not (h : ∀ x ∈ log, ¬p x) : Answered p q log := by
  rintro later x earlier rfl hx
  exact absurd hx (h x (by simp))

/-- Events that neither open nor answer anything. -/
lemma answered_append_of_not {l : List α} (h : ∀ x ∈ l, ¬p x ∧ ¬q x) :
    Answered p q (l ++ log) ↔ Answered p q log := by
  induction l with
  | nil => rfl
  | cons x l ih =>
    have hx := h x List.mem_cons_self
    rw [List.cons_append, answered_cons_of_not hx.2, ih fun y hy => h y (List.mem_cons_of_mem _ hy)]
    exact and_iff_right hx.1
