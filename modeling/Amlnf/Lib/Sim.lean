import Amlnf.Lib.Act

set_option relaxedAutoImplicit false
set_option autoImplicit false

/-!
# Simulation of actions

An action on a large state simulates one on a part of it when both return the same value and the
part comes out the same, whatever the rest of the state is. The rest may be constrained by a
precondition and a postcondition, so that a branch of the large action that looks at it can be
matched with the branch the small action takes.

## Main definitions

* `Act.zoom` — an action on a part of the state as an action on the whole.
* `Act.Sim` — simulation along a projection, with a precondition and a postcondition.

## Main results

* `Act.Sim.bind`, `Act.Sim.hidden`, `Act.Sim.loopUntil` — the rules of sequencing, of steps that
  the part does not see, and of loops.
-/

namespace Act

variable {σ τ α β : Type}

/-- An action on the part `v s` of the state `s`, which `put` replaces. -/
def zoom (v : σ → τ) (put : τ → σ → σ) (y : Act τ α) : Act σ α := fun s =>
  ((y (v s)).1, put (y (v s)).2 s)

/-- A run of an action on a part, from the run on the whole. -/
lemma zoom_eq_some {v : σ → τ} {put : τ → σ → σ} {y : Act τ α} {s t : σ} {a : α}
    (h : zoom v put y s = (some a, t)) : ∃ u, y (v s) = (some a, u) ∧ t = put u s := by
  obtain ⟨h1, h2⟩ := Prod.mk.inj h
  exact ⟨(y (v s)).2, Prod.ext h1 rfl, h2.symm⟩

/-- From a state satisfying `P`, the action `x` does to the part `v s` what `y` does and returns
what `y` returns; `Q` holds when it returns. -/
def Sim (v : σ → τ) (P : σ → Prop) (x : Act σ α) (y : Act τ α) (Q : α → σ → Prop) : Prop :=
  ∀ s, P s → (x s).1 = (y (v s)).1 ∧ v (x s).2 = (y (v s)).2 ∧ ∀ a, (x s).1 = some a → Q a (x s).2

section Sim

variable {v : σ → τ} {P : σ → Prop} {Q : α → σ → Prop}

/-- Returning the same value. -/
lemma Sim.pure {a : α} (h : ∀ s, P s → Q a s) :
    Sim v P (Pure.pure a : Act σ α) (Pure.pure a : Act τ α) Q := by
  intro s hs
  refine ⟨rfl, rfl, fun b hb => ?_⟩
  obtain rfl : a = b := Option.some.inj hb
  exact h s hs

/-- Neither returns. -/
lemma Sim.hang : Sim v P (Act.hang : Act σ α) (Act.hang : Act τ α) Q :=
  fun _ _ => ⟨rfl, rfl, nofun⟩

/-- An action on the part, on both sides. -/
lemma Sim.zoom {put : τ → σ → σ} (hput : ∀ u s, v (put u s) = u) (y : Act τ α)
    {Q : σ → Prop} (h : ∀ s u, P s → Q (put u s)) :
    Sim v P (zoom v put y) y fun _ => Q :=
  fun s hs => ⟨rfl, hput _ _, fun _ _ => h s _ hs⟩

/-- The rule of sequencing. -/
lemma Sim.bind {M : β → σ → Prop} {x : Act σ β} {y : Act τ β} {f : β → Act σ α} {g : β → Act τ α}
    (hx : Sim v P x y M) (hf : ∀ b, Sim v (M b) (f b) (g b) Q) :
    Sim v P (x >>= f) (y >>= g) Q := by
  intro s hs
  obtain ⟨hret, hst, hM⟩ := hx s hs
  rcases hxs : x s with ⟨o, t⟩
  rcases hys : y (v s) with ⟨o', u⟩
  rw [hxs, hys] at hret hst
  rw [hxs] at hM
  dsimp only at hret hst hM
  subst hret hst
  cases o with
  | none =>
    rw [bind_none hxs, bind_none hys]
    exact ⟨rfl, rfl, nofun⟩
  | some b =>
    rw [bind_some hxs, bind_some hys]
    exact hf b t (hM b rfl)

/-- A step the part does not see. -/
lemma Sim.hidden {M : β → σ → Prop} {x : Act σ β} {f : β → Act σ α} {y : Act τ α}
    (hx : ∀ s, P s → ∃ b t, x s = (some b, t) ∧ v t = v s ∧ M b t)
    (hf : ∀ b, Sim v (M b) (f b) y Q) : Sim v P (x >>= f) y Q := by
  intro s hs
  obtain ⟨b, t, hrun, hv, hM⟩ := hx s hs
  rw [bind_some hrun, ← hv]
  exact hf b t hM

/-- A change the part does not see. -/
lemma Sim.modify_bind {M : σ → Prop} {g : σ → σ} {f : Unit → Act σ α} {y : Act τ α}
    (hv : ∀ s, v (g s) = v s) (hM : ∀ s, P s → M (g s)) (hf : Sim v M (f ()) y Q) :
    Sim v P (Act.modify g >>= f) y Q :=
  Sim.hidden (M := fun _ => M) (fun s hs => ⟨(), g s, rfl, hv s, hM s hs⟩) fun _ => hf

/-- A step the part does not see, after the action. -/
lemma Sim.bind_hidden {M : α → σ → Prop} {x : Act σ α} {f : α → Act σ α} {y : Act τ α}
    (hx : Sim v P x y M)
    (hf : ∀ a s, M a s → ∃ t, f a s = (some a, t) ∧ v t = v s ∧ Q a t) :
    Sim v P (x >>= f) y Q := by
  intro s hs
  obtain ⟨hret, hst, hM⟩ := hx s hs
  rcases hxs : x s with ⟨o, t⟩
  rw [hxs] at hret hst hM
  cases o with
  | none =>
    rw [bind_none hxs]
    exact ⟨hret, hst, nofun⟩
  | some a =>
    obtain ⟨u, hrun, hv, hQ⟩ := hf a t (hM a rfl)
    rw [bind_some hxs, hrun]
    refine ⟨hret, hv.trans hst, fun b hb => ?_⟩
    obtain rfl : a = b := Option.some.inj hb
    exact hQ

/-- Branches under the same condition. -/
lemma Sim.ite {c : Prop} [Decidable c] {x x' : Act σ α} {y y' : Act τ α}
    (h : c → Sim v P x y Q) (h' : ¬c → Sim v P x' y' Q) :
    Sim v P (if c then x else x') (if c then y else y') Q := by
  split
  · next hc => exact h hc
  · next hc => exact h' hc

/-- A look at the whole state. -/
lemma Sim.get_bind {f : σ → Act σ α} {y : Act τ α}
    (h : ∀ s₀, P s₀ → Sim v (fun s => s = s₀) (f s₀) y Q) : Sim v P (Act.get >>= f) y Q :=
  fun s hs => h s hs s rfl

/-- A weaker precondition and a stronger postcondition are enough. -/
lemma Sim.mono {P' : σ → Prop} {Q' : α → σ → Prop} {x : Act σ α} {y : Act τ α}
    (h : Sim v P x y Q) (hP : ∀ s, P' s → P s) (hQ : ∀ a s, Q a s → Q' a s) :
    Sim v P' x y Q' := by
  intro s hs
  obtain ⟨h1, h2, h3⟩ := h s (hP s hs)
  exact ⟨h1, h2, fun a ha => hQ a _ (h3 a ha)⟩

/-- Loops whose bodies simulate each other. -/
lemma Sim.loop {I : β → σ → Prop} {body : β → Act σ (β ⊕ α)} {body' : β → Act τ (β ⊕ α)}
    (h : ∀ b, Sim v (I b) (body b) (body' b) fun r s => Sum.elim (fun b' => I b' s)
      (fun a => Q a s) r) (n : ℕ) (b : β) :
    Sim v (I b) (loop body n b) (loop body' n b) fun r s => Sum.elim (fun b' => I b' s)
      (fun a => Q a s) r := by
  induction n generalizing b with
  | zero => exact .pure fun _ hs => hs
  | succ n ih =>
    refine .bind (h b) fun r => ?_
    cases r with
    | inl b' => exact ih b'
    | inr a => exact .pure fun _ hs => hs

/-- Loops that only their bodies leave. -/
lemma Sim.loopUntil {I : β → σ → Prop} {body : β → Act σ (β ⊕ α)} {body' : β → Act τ (β ⊕ α)}
    (h : ∀ b, Sim v (I b) (body b) (body' b) fun r s => Sum.elim (fun b' => I b' s)
      (fun a => Q a s) r) (n : ℕ) (b : β) :
    Sim v (I b) (loopUntil body n b) (loopUntil body' n b) Q := by
  refine .bind (Sim.loop h n b) fun r => ?_
  cases r with
  | inl b' => exact .hang
  | inr a => exact .pure fun _ hs => hs

end Sim

end Act
