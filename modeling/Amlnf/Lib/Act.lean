import Mathlib.Data.Nat.Notation
import Mathlib.Logic.Relation
import Mathlib.Order.Defs.Unbundled

set_option relaxedAutoImplicit false
set_option autoImplicit false

/-!
# Actions on a state

A program fragment of a driver is an *action*: it reads and changes a state and then
either returns a value or never returns (it sleeps on a lock nobody will release). The
effect an action has before it stops for good is kept, because a safety property speaks
about every state passed through and not only about the states in which a call returns.

## Main definitions

* `Act` — actions over a state `σ` returning a value of type `α`, a monad.
* `Act.loop`, `Act.loopUntil` — a loop with a bounded number of rounds whose body may leave
  early, and one that only its body leaves.
* `Act.Moves` — every execution relates the state before to the state after.
* `Act.Spec` — pre- and postcondition, with a condition on the state an action stops in.
* `Act.Keeps` — a property of states that an action keeps.

## Main results

* `Act.Moves.bind`, `Act.Moves.loop` — a reflexive and transitive relation that every part
  respects is respected by the whole.
* `Act.Spec.bind`, `Act.Spec.loop` — the rules of sequencing and of loop invariants.
-/

/-- An action on a state `σ`. The first component is `none` when the action never
returns; the second is the last state it reached. -/
def Act (σ α : Type) : Type := σ → Option α × σ

namespace Act

variable {σ α β γ : Type}

/-- Run `x`, then `f` on its value; an action that never returns is not continued. -/
def bind (x : Act σ α) (f : α → Act σ β) : Act σ β := fun s =>
  match x s with
  | (some a, t) => f a t
  | (none, t) => (none, t)

instance : Monad (Act σ) where
  pure a := fun s => (some a, s)
  bind := Act.bind

/-- The current state. -/
def get : Act σ σ := fun s => (some s, s)

/-- Change the state by `f`. -/
def modify (f : σ → σ) : Act σ Unit := fun s => (some (), f s)

/-- Sleep forever. -/
def hang : Act σ α := fun s => (none, s)

/-- Run `x` only under a condition. -/
def when (c : Prop) [Decidable c] (x : Act σ Unit) : Act σ Unit := if c then x else Pure.pure ()

/-- Returning a value leaves the state. -/
@[simp] lemma pure_apply (a : α) (s : σ) : (pure a : Act σ α) s = (some a, s) := rfl

/-- Reading the state. -/
@[simp] lemma get_apply (s : σ) : (get : Act σ σ) s = (some s, s) := rfl

/-- Changing the state. -/
@[simp] lemma modify_apply (f : σ → σ) (s : σ) : modify f s = (some (), f s) := rfl

/-- Not returning leaves the state. -/
@[simp] lemma hang_apply (s : σ) : (hang : Act σ α) s = (none, s) := rfl

/-- Sequencing after an action that returned. -/
lemma bind_some {x : Act σ α} {f : α → Act σ β} {s t : σ} {a : α}
    (h : x s = (some a, t)) : (x >>= f) s = f a t := by
  change Act.bind x f s = f a t
  simp [Act.bind, h]

/-- Sequencing after an action that never returns. -/
lemma bind_none {x : Act σ α} {f : α → Act σ β} {s t : σ}
    (h : x s = (none, t)) : (x >>= f) s = (none, t) := by
  change Act.bind x f s = (none, t)
  simp [Act.bind, h]

/-- A value is handed on. -/
@[simp] lemma pure_bind (a : α) (f : α → Act σ β) (s : σ) :
    ((pure a : Act σ α) >>= f) s = f a s := rfl

/-- The state is handed on. -/
@[simp] lemma get_bind (f : σ → Act σ β) (s : σ) : ((get : Act σ σ) >>= f) s = f s s := rfl

/-- What follows a change runs from the state it makes. -/
@[simp] lemma modify_bind (g : σ → σ) (f : Unit → Act σ β) (s : σ) :
    (modify g >>= f) s = f () (g s) := rfl

/-- Sequencing is associative. -/
lemma bind_assoc (x : Act σ α) (f : α → Act σ β) (g : β → Act σ γ) :
    (x >>= f) >>= g = x >>= fun a => f a >>= g := by
  funext s
  rcases hx : x s with ⟨o, t⟩
  cases o with
  | none => rw [bind_none hx, bind_none (bind_none hx)]
  | some a =>
    rw [bind_some hx]
    change Act.bind (x >>= f) g s = Act.bind (f a) g t
    simp only [Act.bind, bind_some hx]

/-- An action that returns ends in some state. -/
lemma exists_of_returned {x : Act σ α} {s : σ} {a : α} (h : (x s).1 = some a) :
    ∃ t, x s = (some a, t) := ⟨(x s).2, Prod.ext h rfl⟩

/-- An action that returns ends in a state with the properties of its last state. -/
lemma exists_of_run {x : Act σ α} {s : σ} {a : α} {P : σ → Prop} (h : (x s).1 = some a)
    (hP : P (x s).2) : ∃ t, x s = (some a, t) ∧ P t := ⟨(x s).2, Prod.ext h rfl, hP⟩

/-- When a sequence returns, its first part returned and so did the rest. -/
lemma bind_eq_some {x : Act σ α} {f : α → Act σ β} {s t : σ} {b : β}
    (h : (x >>= f) s = (some b, t)) :
    ∃ a u, x s = (some a, u) ∧ f a u = (some b, t) := by
  rcases hx : x s with ⟨o, u⟩
  cases o with
  | none =>
    rw [bind_none hx] at h
    simp at h
  | some a =>
    rw [bind_some hx] at h
    exact ⟨a, u, rfl, h⟩

/-! ## Loops -/

/-- At most `n` rounds of `body`. A round either carries new loop variables to the next
round (`inl`) or leaves the loop with a value (`inr`). -/
def loop (body : β → Act σ (β ⊕ α)) : ℕ → β → Act σ (β ⊕ α)
  | 0, b => pure (Sum.inl b)
  | n + 1, b => do
    match ← body b with
    | Sum.inl b' => loop body n b'
    | Sum.inr a => pure (Sum.inr a)

/-- A loop without rounds left. -/
@[simp] lemma loop_zero (body : β → Act σ (β ⊕ α)) (b : β) (s : σ) :
    loop body 0 b s = (some (Sum.inl b), s) := rfl

/-- A round that continues. -/
lemma loop_succ_inl {body : β → Act σ (β ⊕ α)} {b b' : β} {s t : σ} (n : ℕ)
    (h : body b s = (some (Sum.inl b'), t)) :
    loop body (n + 1) b s = loop body n b' t := by
  rw [loop, bind_some h]

/-- A round that leaves. -/
lemma loop_succ_inr {body : β → Act σ (β ⊕ α)} {b : β} {s t : σ} {a : α} (n : ℕ)
    (h : body b s = (some (Sum.inr a), t)) :
    loop body (n + 1) b s = (some (Sum.inr a), t) := by
  rw [loop, bind_some h]
  rfl

/-- A round that never returns. -/
lemma loop_succ_none {body : β → Act σ (β ⊕ α)} {b : β} {s t : σ} (n : ℕ)
    (h : body b s = (none, t)) :
    loop body (n + 1) b s = (none, t) := by
  rw [loop, bind_none h]

/-- A loop that is only left by its body: `n` bounds the rounds it makes, and rounds beyond
the bound never end. -/
def loopUntil (body : β → Act σ (β ⊕ α)) (n : ℕ) (b : β) : Act σ α := do
  match ← loop body n b with
  | Sum.inl _ => hang
  | Sum.inr a => pure a

/-- A round that continues. -/
lemma loopUntil_inl {body : β → Act σ (β ⊕ α)} {b b' : β} {s t : σ} (n : ℕ)
    (h : body b s = (some (Sum.inl b'), t)) :
    loopUntil body (n + 1) b s = loopUntil body n b' t := by
  rcases hl : loop body n b' t with ⟨o, u⟩
  have hl' : loop body (n + 1) b s = (o, u) := by rw [loop_succ_inl n h, hl]
  cases o with
  | none => rw [loopUntil, loopUntil, bind_none hl, bind_none hl']
  | some r => rw [loopUntil, loopUntil, bind_some hl, bind_some hl']

/-- A round that leaves. -/
lemma loopUntil_inr {body : β → Act σ (β ⊕ α)} {b : β} {s t : σ} {a : α} (n : ℕ)
    (h : body b s = (some (Sum.inr a), t)) :
    loopUntil body (n + 1) b s = (some a, t) := by
  rw [loopUntil, bind_some (loop_succ_inr n h)]
  rfl

/-- The first round of a loop that was left. -/
lemma loopUntil_eq_some {body : β → Act σ (β ⊕ α)} {b : β} {s t : σ} {a : α} {n : ℕ}
    (h : loopUntil body (n + 1) b s = (some a, t)) :
    body b s = (some (Sum.inr a), t) ∨
      ∃ b' u, body b s = (some (Sum.inl b'), u) ∧ loopUntil body n b' u = (some a, t) := by
  rcases hb : body b s with ⟨o, u⟩
  cases o with
  | none =>
    rw [loopUntil, bind_none (loop_succ_none n hb)] at h
    cases h
  | some r =>
    cases r with
    | inl b' =>
      rw [loopUntil_inl n hb] at h
      exact .inr ⟨b', u, rfl, h⟩
    | inr a' =>
      rw [loopUntil_inr n hb] at h
      cases h
      exact .inl rfl

/-! ## Relations every execution respects -/

/-- Whatever `x` does, returning or not, the state it started in and the state it ended in
are related by `R`. -/
def Moves (R : σ → σ → Prop) (x : Act σ α) : Prop := ∀ s, R s (x s).2

section Moves

variable {R : σ → σ → Prop}

/-- A weaker relation is respected too. -/
lemma Moves.imp {R' : σ → σ → Prop} {x : Act σ α} (hx : Moves R x) (h : ∀ s t, R s t → R' s t) :
    Moves R' x := fun s => h _ _ (hx s)

/-- Returning a value. -/
lemma Moves.pure [Std.Refl R] (a : α) : Moves R (Pure.pure a : Act σ α) := fun s => refl_of R s

/-- Reading the state. -/
lemma Moves.get [Std.Refl R] : Moves R (Act.get : Act σ σ) := fun s => refl_of R s

/-- Not returning. -/
lemma Moves.hang [Std.Refl R] : Moves R (Act.hang : Act σ α) := fun s => refl_of R s

/-- Changing the state. -/
lemma Moves.modify {f : σ → σ} (h : ∀ s, R s (f s)) : Moves R (Act.modify f) := h

/-- Sequencing respects a transitive relation both parts respect. -/
lemma Moves.bind [IsTrans σ R] {x : Act σ α} {f : α → Act σ β} (hx : Moves R x)
    (hf : ∀ a, Moves R (f a)) : Moves R (x >>= f) := by
  intro s
  have h := hx s
  rcases hs : x s with ⟨o, t⟩
  rw [hs] at h
  cases o with
  | none => rw [bind_none hs]; exact h
  | some a => rw [bind_some hs]; exact trans_of R h (hf a t)

/-- Sequencing after a read of the state: the continuation may use what it saw. -/
lemma Moves.get_bind {f : σ → Act σ β} (hf : ∀ s, R s (f s s).2) :
    Moves R ((Act.get : Act σ σ) >>= f) := hf

/-- A branch, from both sides. -/
lemma Moves.ite {c : Prop} [Decidable c] {x y : Act σ α} (hx : c → Moves R x)
    (hy : ¬c → Moves R y) : Moves R (if c then x else y) := by
  split
  · exact hx ‹_›
  · exact hy ‹_›

/-- A loop respects what each of its rounds respects. -/
lemma Moves.loop [Std.Refl R] [IsTrans σ R] {body : β → Act σ (β ⊕ α)}
    (h : ∀ b, Moves R (body b)) (n : ℕ) (b : β) : Moves R (Act.loop body n b) := by
  induction n generalizing b with
  | zero => exact Moves.pure _
  | succ n ih =>
    refine Moves.bind (h b) fun r => ?_
    cases r with
    | inl b' => exact ih b'
    | inr a => exact Moves.pure _

/-- A loop that only its body leaves. -/
lemma Moves.loopUntil [Std.Refl R] [IsTrans σ R] {body : β → Act σ (β ⊕ α)}
    (h : ∀ b, Moves R (body b)) (n : ℕ) (b : β) : Moves R (Act.loopUntil body n b) := by
  refine Moves.bind (Moves.loop h n b) fun r => ?_
  cases r with
  | inl _ => exact Moves.hang
  | inr _ => exact Moves.pure _

/-- A branch that may be skipped. -/
lemma Moves.when [Std.Refl R] {c : Prop} [Decidable c] {x : Act σ Unit} (hx : Moves R x) :
    Moves R (Act.when c x) := .ite (fun _ => hx) fun _ => .pure _

end Moves

/-! ## Pre- and postconditions -/

/-- From a state satisfying `P`, `Q` holds of the value and the state when `x` returns, and
`E` holds of the state in which it stops for good otherwise. -/
def Spec (P : σ → Prop) (x : Act σ α) (Q : α → σ → Prop) (E : σ → Prop) : Prop :=
  ∀ s, P s → match x s with
    | (some a, t) => Q a t
    | (none, t) => E t

section Spec

variable {P : σ → Prop} {Q : α → σ → Prop} {E : σ → Prop}

/-- What holds when an action returns. -/
lemma Spec.returned {x : Act σ α} (h : Spec P x Q E) {s t : σ} {a : α} (hs : P s)
    (hx : x s = (some a, t)) : Q a t := by
  have := h s hs
  rw [hx] at this
  exact this

/-- A specification of the executions that return. -/
lemma Spec.of_returned {x : Act σ α}
    (h : ∀ s a t, P s → x s = (some a, t) → Q a t) : Spec P x Q fun _ => True := by
  intro s hs
  rcases hx : x s with ⟨o, t⟩
  cases o with
  | none => trivial
  | some a => exact h s a t hs hx

/-- The state an action ends in, whether it returns or not. -/
lemma Spec.final {x : Act σ α} {I : σ → Prop} (h : Spec P x (fun _ => I) I) {s : σ} (hs : P s) :
    I (x s).2 := by
  have := h s hs
  rcases hx : x s with ⟨o, t⟩
  rw [hx] at this
  cases o <;> exact this

/-- What holds of the last state, returned or not. -/
lemma Spec.of_final {x : Act σ α} {I : σ → Prop} (h : ∀ s, P s → I (x s).2) :
    Spec P x (fun _ => I) I := by
  intro s hs
  have ht := h s hs
  rcases hx : x s with ⟨o, t⟩
  rw [hx] at ht
  cases o <;> exact ht

/-- Returning a value. -/
lemma Spec.pure {a : α} (h : ∀ s, P s → Q a s) : Spec P (Pure.pure a : Act σ α) Q E :=
  fun s hs => h s hs

/-- Not returning. -/
lemma Spec.hang (h : ∀ s, P s → E s) : Spec P (Act.hang : Act σ α) Q E := fun s hs => h s hs

/-- Changing the state. -/
lemma Spec.modify {Q : Unit → σ → Prop} {f : σ → σ} (h : ∀ s, P s → Q () (f s)) :
    Spec P (Act.modify f) Q E := fun s hs => h s hs

/-- Sequencing, through what holds in between. -/
lemma Spec.bind {M : β → σ → Prop} {x : Act σ β} {f : β → Act σ α}
    (hx : Spec P x M E) (hf : ∀ b, Spec (M b) (f b) Q E) : Spec P (x >>= f) Q E := by
  intro s hs
  have h := hx s hs
  rcases hr : x s with ⟨o, t⟩
  rw [hr] at h
  cases o with
  | none => rw [bind_none hr]; exact h
  | some b => rw [bind_some hr]; exact hf b t h

/-- Sequencing after a read of the state. -/
lemma Spec.get_bind {f : σ → Act σ α} (h : ∀ s₀, P s₀ → Spec (fun s => s = s₀) (f s₀) Q E) :
    Spec P ((Act.get : Act σ σ) >>= f) Q E := fun s hs => h s hs s rfl

/-- A precondition on values alone is a hypothesis. -/
lemma Spec.and_left {p : Prop} {x : Act σ α} (h : p → Spec P x Q E) :
    Spec (fun s => p ∧ P s) x Q E := fun s hs => h hs.1 s hs.2

/-- A value the precondition fixes is a parameter. -/
lemma Spec.exists_pre {ι : Type} {P : ι → σ → Prop} {x : Act σ α} (h : ∀ i, Spec (P i) x Q E) :
    Spec (fun s => ∃ i, P i s) x Q E := fun s ⟨i, hs⟩ => h i s hs

/-- Two specifications of one action hold together. -/
lemma Spec.and {P' : σ → Prop} {Q' : α → σ → Prop} {E' : σ → Prop} {x : Act σ α}
    (h : Spec P x Q E) (h' : Spec P' x Q' E') :
    Spec (fun s => P s ∧ P' s) x (fun a s => Q a s ∧ Q' a s) (fun s => E s ∧ E' s) := by
  intro s hs
  have h1 := h s hs.1
  have h2 := h' s hs.2
  rcases hx : x s with ⟨o, t⟩
  rw [hx] at h1 h2
  cases o <;> exact ⟨h1, h2⟩

/-- A weaker precondition and stronger postconditions are enough. -/
lemma Spec.mono {P' : σ → Prop} {Q' : α → σ → Prop} {E' : σ → Prop} {x : Act σ α}
    (h : Spec P x Q E) (hP : ∀ s, P' s → P s) (hQ : ∀ a s, Q a s → Q' a s)
    (hE : ∀ s, E s → E' s) : Spec P' x Q' E' := by
  intro s hs
  have := h s (hP s hs)
  rcases hx : x s with ⟨o, t⟩
  rw [hx] at this
  cases o with
  | none => exact hE t this
  | some a => exact hQ a t this

/-- A branch, from both sides. -/
lemma Spec.ite {c : Prop} [Decidable c] {x y : Act σ α} (hx : c → Spec P x Q E)
    (hy : ¬c → Spec P y Q E) : Spec P (if c then x else y) Q E := by
  split
  · exact hx ‹_›
  · exact hy ‹_›

/-- A branch that may be skipped. -/
lemma Spec.when {c : Prop} [Decidable c] {x : Act σ Unit} {I : σ → Prop}
    (hx : Spec I x (fun _ => I) E) : Spec I (Act.when c x) (fun _ => I) E :=
  .ite (fun _ => hx) fun _ => .pure fun _ h => h

/-- Loop rule: a continuing round keeps the invariant `I` of the loop variables and the state,
a leaving round establishes the postcondition. -/
lemma Spec.loop {I : β → σ → Prop} {body : β → Act σ (β ⊕ α)}
    (h : ∀ b, Spec (I b) (body b) (fun r s => Sum.elim (fun b' => I b' s) (fun a => Q a s) r) E)
    (n : ℕ) (b : β) :
    Spec (I b) (Act.loop body n b)
      (fun r s => Sum.elim (fun b' => I b' s) (fun a => Q a s) r) E := by
  induction n generalizing b with
  | zero => exact Spec.pure fun _ hs => hs
  | succ n ih =>
    refine Spec.bind (h b) fun r => ?_
    cases r with
    | inl b' => exact ih b'
    | inr a => exact Spec.pure fun _ hs => hs

/-- The loop rule for a loop that is only left by its body. -/
lemma Spec.loopUntil {I : β → σ → Prop} {body : β → Act σ (β ⊕ α)}
    (h : ∀ b, Spec (I b) (body b) (fun r s => Sum.elim (fun b' => I b' s) (fun a => Q a s) r) E)
    (hE : ∀ b s, I b s → E s) (n : ℕ) (b : β) : Spec (I b) (Act.loopUntil body n b) Q E := by
  refine Spec.bind (Spec.loop h n b) fun r => ?_
  cases r with
  | inl b' => exact Spec.hang (hE b')
  | inr a => exact Spec.pure fun _ hs => hs

end Spec

/-! ## Invariants -/

/-- `x` keeps the invariant `I`, whether it returns or not. -/
def Keeps (I : σ → Prop) (x : Act σ α) : Prop := Spec I x (fun _ => I) I

section Keeps

variable {I : σ → Prop}

/-- The part of it about the executions that return. -/
lemma Keeps.spec {x : Act σ α} (h : Keeps I x) : Spec I x (fun _ => I) fun _ => True :=
  h.mono (fun _ hs => hs) (fun _ _ hs => hs) fun _ _ => trivial

/-- Returning a value. -/
lemma Keeps.pure (a : α) : Keeps I (Pure.pure a : Act σ α) := Spec.pure fun _ hs => hs

/-- Not returning. -/
lemma Keeps.hang : Keeps I (Act.hang : Act σ α) := Spec.hang fun _ hs => hs

/-- Reading the state. -/
lemma Keeps.get : Keeps I (Act.get : Act σ σ) := fun _ hs => hs

/-- Changing the state. -/
lemma Keeps.modify {f : σ → σ} (h : ∀ s, I s → I (f s)) : Keeps I (Act.modify f) := Spec.modify h

/-- Sequencing. -/
lemma Keeps.bind {x : Act σ α} {f : α → Act σ β} (hx : Keeps I x) (hf : ∀ a, Keeps I (f a)) :
    Keeps I (x >>= f) := Spec.bind hx hf

/-- A branch, from both sides. -/
lemma Keeps.ite {c : Prop} [Decidable c] {x y : Act σ α} (hx : c → Keeps I x)
    (hy : ¬c → Keeps I y) : Keeps I (if c then x else y) := Spec.ite hx hy

/-- A branch that may be skipped. -/
lemma Keeps.when {c : Prop} [Decidable c] {x : Act σ Unit} (hx : c → Keeps I x) :
    Keeps I (Act.when c x) := .ite hx fun _ => .pure _

/-- A loop keeps what each of its rounds keeps. -/
lemma Keeps.loop {body : β → Act σ (β ⊕ α)} (h : ∀ b, Keeps I (body b)) (n : ℕ) (b : β) :
    Keeps I (Act.loop body n b) := by
  induction n generalizing b with
  | zero => exact .pure _
  | succ n ih =>
    refine .bind (h b) fun r => ?_
    cases r with
    | inl b' => exact ih b'
    | inr a => exact .pure _

/-- A loop that only its body leaves. -/
lemma Keeps.loopUntil {body : β → Act σ (β ⊕ α)} (h : ∀ b, Keeps I (body b)) (n : ℕ) (b : β) :
    Keeps I (Act.loopUntil body n b) := by
  refine .bind (.loop h n b) fun r => ?_
  cases r with
  | inl _ => exact .hang
  | inr _ => exact .pure _

/-- A property that a relation carries over is kept by the actions that respect the relation. -/
lemma Keeps.of_moves {R : σ → σ → Prop} {x : Act σ α} (h : Moves R x)
    (hI : ∀ s t, R s t → I s → I t) : Keeps I x :=
  Spec.of_final fun s hs => hI s _ (h s) hs

/-- An action that keeps being related to any state respects the relation. -/
lemma Moves.of_keeps {R : σ → σ → Prop} [Std.Refl R] {x : Act σ α} (h : ∀ s₀, Keeps (R s₀) x) :
    Moves R x := fun s => Spec.final (h s) (refl_of R s)

end Keeps

end Act
