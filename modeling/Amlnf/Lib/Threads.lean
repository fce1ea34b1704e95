import Mathlib.Algebra.Order.BigOperators.Group.Finset
import Mathlib.Algebra.Module.NatInt
import Mathlib.Data.Fintype.BigOperators
import Mathlib.Logic.Relation

set_option relaxedAutoImplicit false
set_option autoImplicit false

/-!
# Threads that share a memory

Threads are indexed by a type `τ`. Each one is at some place of its code, and all of them share a
memory; a step moves one thread and may change the memory. A lock is a field of the memory that
names its owner, and is held by the thread that is in the part of the code the lock protects.

## Main definitions

* `Threads`, `Threads.Step`, `Threads.Reach` — the places and the memory, a step of one thread,
  and any interleaving of steps.
* `Threads.Owned` — the owner of a lock is the thread in the protected part of the code.
* `Threads.LockMove` — what a step may do to a lock.
* `Threads.Guarded` — a value that only the holder of a lock changes.
* `Threads.Marked` — a flag for each thread, set while the thread is in some part of the code.

## Main results

* `Threads.Reach.invariant` — what every step keeps holds after any interleaving.
* `Threads.Owned.move`, `Threads.Owned.unique` — locks stay owned, by one thread at most.
* `Threads.Guarded.move`, `Threads.Marked.move` — the same for values and flags.
* `Threads.sum_lt_of_le_add` — a sum over the threads goes down when the part of one thread goes
  down by enough.
-/

namespace Amlnf

/-- Where each thread is, and the memory they share. -/
structure Threads (τ κ σ : Type) where
  pc : τ → κ
  mem : σ

namespace Threads

variable {τ κ σ α : Type} [DecidableEq τ]

/-- Thread `i` goes to `k` and leaves the memory as `m`. -/
def move (s : Threads τ κ σ) (i : τ) (k : κ) (m : σ) : Threads τ κ σ :=
  ⟨Function.update s.pc i k, m⟩

section Move

variable (s : Threads τ κ σ) (i : τ) (k : κ) (m : σ)

@[simp] lemma move_mem : (s.move i k m).mem = m := rfl

@[simp] lemma move_pc_self : (s.move i k m).pc i = k := Function.update_self ..

@[simp] lemma move_pc_of_ne {j : τ} (h : j ≠ i) : (s.move i k m).pc j = s.pc j :=
  Function.update_of_ne h ..

@[simp] lemma move_move (k' : κ) (m' : σ) : (s.move i k m).move i k' m' = s.move i k' m' := by
  rw [move, move, move, Function.update_idem]

end Move

/-- A step of one thread, `R` being the steps a thread can take from its place and the memory. -/
inductive Step (R : τ → κ → σ → κ → σ → Prop) : Threads τ κ σ → Threads τ κ σ → Prop
  | of {s : Threads τ κ σ} {i : τ} {k : κ} {m : σ} (h : R i (s.pc i) s.mem k m) :
      Step R s (s.move i k m)

/-- Any interleaving of the steps of the threads. -/
def Reach (R : τ → κ → σ → κ → σ → Prop) : Threads τ κ σ → Threads τ κ σ → Prop :=
  Relation.ReflTransGen (Step R)

section Run

variable {R : τ → κ → σ → κ → σ → Prop} {s t : Threads τ κ σ} {I : Threads τ κ σ → Prop}

/-- What every step keeps holds after any interleaving. -/
lemma Reach.invariant (h : Reach R s t)
    (hstep : ∀ s i k m, R i (s.pc i) s.mem k m → I s → I (s.move i k m)) (hs : I s) : I t := by
  induction h with
  | refl => exact hs
  | tail _ hlast ih =>
    obtain ⟨hlast⟩ := hlast
    exact hstep _ _ _ _ hlast ih

/-- The first step of a thread that is known to be at `k`. -/
lemma Reach.start {i : τ} {k k' : κ} {m : σ} (hk : s.pc i = k) (hR : R i k s.mem k' m) :
    Reach R s (s.move i k' m) :=
  .single (.of (hk ▸ hR))

/-- One more step of the thread that moved last. -/
lemma Reach.again {i : τ} {k k' : κ} {m m' : σ} (h : Reach R s (t.move i k m))
    (hR : R i k m k' m') : Reach R s (t.move i k' m') := by
  rw [← move_move t i k m]
  exact Relation.ReflTransGen.tail h (.of (by rwa [move_pc_self]))

/-- Fewer steps reach less. -/
lemma Reach.mono {R' : τ → κ → σ → κ → σ → Prop} (h : Reach R s t)
    (hR : ∀ i k m k' m', R i k m k' m' → R' i k m k' m') : Reach R' s t := by
  induction h with
  | refl => exact .refl
  | tail _ hlast ih =>
    obtain ⟨hlast⟩ := hlast
    exact ih.tail (.of (hR _ _ _ _ _ hlast))

end Run

/-! ## Locks -/

/-- The owner of a lock is the thread that is in the part of the code the lock protects. -/
def Owned (owner : σ → Option τ) (holds : κ → Bool) (s : Threads τ κ σ) : Prop :=
  ∀ i, owner s.mem = some i ↔ holds (s.pc i) = true

/-- What a step of thread `i` may do to a lock: the owner and whether the thread holds the lock,
before and after. -/
inductive LockMove (i : τ) : Option τ → Bool → Option τ → Bool → Prop
  | keep (o : Option τ) (b : Bool) : LockMove i o b o b
  | take : LockMove i none false (some i) true
  | drop (o : Option τ) : LockMove i o true none false

section Owned

variable {owner : σ → Option τ} {holds : κ → Bool} {s : Threads τ κ σ} {i j : τ} {k : κ} {m : σ}

omit [DecidableEq τ] in
/-- Two threads that hold a lock are one. -/
lemma Owned.unique (h : Owned owner holds s) (hi : holds (s.pc i) = true)
    (hj : holds (s.pc j) = true) : i = j :=
  Option.some.inj (((h i).2 hi).symm.trans ((h j).2 hj))

omit [DecidableEq τ] in
/-- Nobody holds a free lock. -/
lemma Owned.not_holds (h : Owned owner holds s) (hfree : owner s.mem = none) (i : τ) :
    holds (s.pc i) = false := by
  have hi := h i
  rw [hfree] at hi
  simpa using hi

omit [DecidableEq τ] in
/-- A lock that is not free is held by some thread. -/
lemma Owned.exists_holds (h : Owned owner holds s) (hne : owner s.mem ≠ none) :
    ∃ i, holds (s.pc i) = true := by
  obtain ⟨i, hi⟩ := Option.ne_none_iff_exists'.1 hne
  exact ⟨i, (h i).1 hi⟩

/-- A step that takes, drops or leaves alone the lock keeps it owned. -/
lemma Owned.move (h : Owned owner holds s)
    (hm : LockMove i (owner s.mem) (holds (s.pc i)) (owner m) (holds k)) :
    Owned owner holds (s.move i k m) := by
  intro j
  have hi := h i
  have hj := h j
  rw [move_mem]
  by_cases hji : j = i
  · subst hji
    rw [move_pc_self]
    generalize owner s.mem = o, holds (s.pc j) = b, owner m = o', holds k = b' at hm hi
    cases hm with
    | keep => exact hi
    | take => simp
    | drop => simp
  · rw [move_pc_of_ne s i k m hji]
    generalize owner s.mem = o, holds (s.pc i) = b, owner m = o', holds k = b' at hm hi hj
    cases hm with
    | keep => exact hj
    | take => simpa [Ne.symm hji] using hj
    | drop =>
      have hio : o = some i := hi.2 rfl
      rw [hio] at hj
      simpa [Ne.symm hji] using hj

end Owned

/-- A value that is `free` while the lock is, and otherwise what the place of its holder says. -/
def Guarded (owner : σ → Option τ) (holds : κ → Bool) (val : σ → α) (free : α) (expect : κ → α)
    (s : Threads τ κ σ) : Prop :=
  (owner s.mem = none → val s.mem = free) ∧ ∀ i, holds (s.pc i) = true → val s.mem = expect (s.pc i)

/-- A step keeps a value guarded: outside the lock it leaves the value alone, inside it sets the
value to what its place says, and with the lock it gives the value back. -/
lemma Guarded.move {owner : σ → Option τ} {holds : κ → Bool} {val : σ → α} {free : α}
    {expect : κ → α} {s : Threads τ κ σ} {i : τ} {k : κ} {m : σ}
    (h : Guarded owner holds val free expect s) (ho : Owned owner holds s)
    (hm : LockMove i (owner s.mem) (holds (s.pc i)) (owner m) (holds k))
    (hin : holds k = true → val m = expect k)
    (hout : holds (s.pc i) = false → holds k = false → val m = val s.mem)
    (hdrop : holds (s.pc i) = true → holds k = false → val m = free) :
    Guarded owner holds val free expect (s.move i k m) := by
  have ho' := ho.move hm
  have hself := ho' i
  rw [move_pc_self, move_mem] at hself
  refine ⟨fun hfree => ?_, fun j hj => ?_⟩
  · rw [move_mem] at hfree ⊢
    have hk : holds k = false := by
      rw [hfree] at hself
      simpa using hself
    cases hi : holds (s.pc i) with
    | true => exact hdrop hi hk
    | false =>
      rw [hout hi hk]
      refine h.1 ?_
      generalize owner s.mem = o, owner m = o' at hm hfree
      rw [hi, hk, hfree] at hm
      cases hm
      rfl
  · by_cases hji : j = i
    · subst hji
      rw [move_pc_self] at hj ⊢
      exact hin hj
    · have hown := (ho' j).2 hj
      rw [move_pc_of_ne s i k m hji] at hj ⊢
      rw [move_mem] at hown ⊢
      have hk : holds k = false := by
        rw [hown] at hself
        simpa [hji] using hself
      cases hi : holds (s.pc i) with
      | false =>
        rw [hout hi hk]
        exact h.2 j hj
      | true => exact absurd (ho.unique hj hi) hji

/-! ## Flags -/

/-- The flag of a thread is set while the thread is in some part of its code. -/
def Marked (flag : σ → τ → Bool) (on : κ → Bool) (s : Threads τ κ σ) : Prop :=
  ∀ i, flag s.mem i = on (s.pc i)

/-- A step that sets the flag of its own thread as its place says keeps the flags. -/
lemma Marked.move {flag : σ → τ → Bool} {on : κ → Bool} {s : Threads τ κ σ} {i : τ} {k : κ} {m : σ}
    (h : Marked flag on s) (hself : flag m i = on k) (hother : ∀ j ≠ i, flag m j = flag s.mem j) :
    Marked flag on (s.move i k m) := by
  intro j
  by_cases hji : j = i
  · subst hji
    rw [move_mem, move_pc_self, hself]
  · rw [move_mem, move_pc_of_ne s i k m hji, hother j hji, h j]

/-! ## Measures -/

/-- A sum over the threads goes down when the part of one thread goes down by more than all the
others together may go up. -/
lemma sum_lt_of_le_add [Fintype τ] {f g : τ → ℕ} {i : τ} (c : ℕ)
    (hself : f i + c * Fintype.card τ < g i) (hother : ∀ j ≠ i, f j ≤ g j + c) :
    ∑ j, f j < ∑ j, g j := by
  rw [← Finset.add_sum_erase _ f (Finset.mem_univ i), ← Finset.add_sum_erase _ g (Finset.mem_univ i)]
  have hsum : ∑ j ∈ Finset.univ.erase i, f j ≤ ∑ j ∈ Finset.univ.erase i, (g j + c) :=
    Finset.sum_le_sum fun j hj => hother j (Finset.ne_of_mem_erase hj)
  have hcard : (Finset.univ.erase i).card * c ≤ c * Fintype.card τ := by
    rw [Nat.mul_comm, ← Finset.card_univ]
    exact Nat.mul_le_mul_left c (Finset.card_le_card (Finset.erase_subset ..))
  rw [Finset.sum_add_distrib, Finset.sum_const, smul_eq_mul] at hsum
  omega

end Threads

end Amlnf
