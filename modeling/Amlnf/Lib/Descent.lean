import Amlnf.Lib.Count

set_option relaxedAutoImplicit false
set_option autoImplicit false

/-!
# Loops that end

A loop ends when every round that goes on lowers a number of its loop variables. How many rounds
it makes is then bounded whatever its rounds meet, and with a round that always returns the loop
returns as well.

## Main definitions

* `Act.Descends` — a round that goes on keeps a property of the loop variables and lowers their
  measure.
* `Act.Returns` — an action returns from every state of a class, and stays in the class.

## Main results

* `Act.Descends.length_rounds`, `Act.Descends.of_mem_rounds` — how many rounds there are, and
  what holds at each.
* `Act.Descends.returns` — a loop whose rounds return returns.
-/

namespace Act

variable {σ α β : Type}

/-! ## Descent -/

/-- A round that goes on keeps `I` of the loop variables and lowers their measure `μ`. -/
def Descends (I : β → Prop) (μ : β → ℕ) (body : β → Act σ (β ⊕ α)) : Prop :=
  ∀ b s b' t, I b → body b s = (some (Sum.inl b'), t) → I b' ∧ μ b' < μ b

section Descends

variable {I : β → Prop} {μ : β → ℕ} {body : β → Act σ (β ⊕ α)}

/-- A loop makes no more rounds than the measure says, however many it is allowed. -/
lemma Descends.length_rounds (h : Descends I μ body) (N : ℕ) {b : β} (hb : I b) (s : σ) :
    (rounds body N b s).length ≤ μ b + 1 := by
  induction N generalizing b s with
  | zero => exact Nat.zero_le _
  | succ N ih =>
    rw [rounds, List.length_cons]
    split
    · next b' t hbody =>
      obtain ⟨hb', hlt⟩ := h b s b' t hb hbody
      have := ih hb' t
      omega
    · exact Nat.succ_le_succ (Nat.zero_le _)

/-- What is kept from round to round holds at each. -/
lemma Descends.of_mem_rounds (h : Descends I μ body) {N : ℕ} {b : β} (hb : I b) {s : σ}
    {r : β × σ} (hr : r ∈ rounds body N b s) : I r.1 := by
  obtain ⟨_, _, _, hI⟩ := spec_of_mem_rounds (J := fun _ b _ => I b) (C := fun _ => True)
    (fun _ b s b' t hb hbody => ⟨trivial, (h b s b' t hb hbody).1⟩) (k := 0) hb hr
  exact hI

end Descends

/-! ## Actions that return -/

/-- From every state with `P` the action returns, in a state with `P`. -/
def Returns (P : σ → Prop) (x : Act σ α) : Prop := Spec P x (fun _ => P) fun _ => False

section Returns

variable {P : σ → Prop}

/-- An action that returns has a result. -/
lemma Returns.exists_eq {x : Act σ α} (h : Returns P x) {s : σ} (hs : P s) :
    ∃ a t, x s = (some a, t) ∧ P t := by
  have := h s hs
  rcases hx : x s with ⟨o, t⟩
  rw [hx] at this
  cases o with
  | none => exact this.elim
  | some a => exact ⟨a, t, rfl, this⟩

/-- Returning a value. -/
lemma Returns.pure (a : α) : Returns P (Pure.pure a : Act σ α) := Spec.pure fun _ hs => hs

/-- Reading the state. -/
lemma Returns.get : Returns P (Act.get : Act σ σ) := fun _ hs => hs

/-- Changing the state. -/
lemma Returns.modify {f : σ → σ} (h : ∀ s, P s → P (f s)) : Returns P (Act.modify f) :=
  Spec.modify h

/-- Sequencing. -/
lemma Returns.bind {x : Act σ α} {f : α → Act σ β} (hx : Returns P x)
    (hf : ∀ a, Returns P (f a)) : Returns P (x >>= f) := Spec.bind hx hf

/-- Both branches. -/
lemma Returns.ite {c : Prop} [Decidable c] {x y : Act σ α} (hx : Returns P x)
    (hy : Returns P y) : Returns P (if c then x else y) := Spec.ite (fun _ => hx) fun _ => hy

/-- A branch that may be skipped. -/
lemma Returns.when {c : Prop} [Decidable c] {x : Act σ Unit} (hx : Returns P x) :
    Returns P (Act.when c x) := .ite hx (.pure _)

/-- A loop with a bound on its rounds returns when they do. -/
lemma Returns.loop {body : β → Act σ (β ⊕ α)} (h : ∀ b, Returns P (body b)) (n : ℕ) (b : β) :
    Returns P (Act.loop body n b) := by
  induction n generalizing b with
  | zero => exact .pure _
  | succ n ih =>
    refine .bind (h b) fun r => ?_
    cases r with
    | inl b' => exact ih b'
    | inr a => exact .pure _

/-- An action that always returns and keeps a property returns with it. -/
lemma Returns.of_keeps {x : Act σ α} (hx : Returns (fun _ => True) x) (h : Keeps P x) :
    Returns P x :=
  (Spec.and hx h).mono (fun _ hs => ⟨trivial, hs⟩) (fun _ _ hs => hs.2) fun _ hs => hs.1

/-- A loop whose rounds return, and which goes down, returns when it is allowed more rounds than
the measure says. -/
lemma Descends.returns {I : β → Prop} {μ : β → ℕ} {body : β → Act σ (β ⊕ α)}
    (h : Descends I μ body) (hbody : ∀ b, Returns P (body b)) {N : ℕ} {b : β} (hb : I b)
    (hN : μ b < N) : Returns P (loopUntil body N b) := by
  induction N generalizing b with
  | zero => exact absurd hN (Nat.not_lt_zero _)
  | succ N ih =>
    intro s hs
    obtain ⟨r, t, hr, ht⟩ := (hbody b).exists_eq hs
    cases r with
    | inl b' =>
      obtain ⟨hb', hlt⟩ := h b s b' t hb hr
      rw [loopUntil_inl N hr]
      exact ih hb' (by omega) t ht
    | inr a =>
      rw [loopUntil_inr N hr]
      exact ht

end Returns

end Act
