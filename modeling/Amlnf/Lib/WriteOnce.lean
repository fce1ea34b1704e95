import Mathlib.Data.List.Basic
import Mathlib.Data.Set.Basic

set_option relaxedAutoImplicit false
set_option autoImplicit false

/-!
# Cells that take one write between two clears

A medium has cells that a command writes or clears. A sequence of commands respects the medium when
no cell is written twice without a clear in between. That follows from an invariant of the run: each
command writes cells that are clear at that point.

## Main definitions

* `Medium` — which cells a command writes, and which it clears.
* `Medium.OnClear` — each command writes clear cells only.
* `Medium.WritesOnce` — between two writes of a cell there is a clear of it.

## Main results

* `Medium.onClear_append` — sequencing.
* `Medium.onClear_of_pairwise` — commands that write different cells.
* `Medium.OnClear.writesOnce` — writing clear cells only is writing once.
-/

/-- Which cells a command writes and which it clears. -/
structure Medium (Op Cell : Type) where
  writes : Op → Cell → Prop
  clears : Op → Cell → Prop
  /-- No command does both to a cell. -/
  apart : ∀ op c, writes op c → ¬clears op c

namespace Medium

variable {Op Cell : Type} (M : Medium Op Cell)

/-- The clear cells after a command. -/
def step (E : Set Cell) (op : Op) : Set Cell := {c | M.clears op c ∨ c ∈ E ∧ ¬M.writes op c}

/-- Each command writes cells that are clear when its turn comes; `E` are the clear cells at the
start. -/
def OnClear : Set Cell → List Op → Prop
  | _, [] => True
  | E, op :: ops => (∀ c, M.writes op c → c ∈ E) ∧ OnClear (M.step E op) ops

/-- Between two writes of a cell there is a clear of it. -/
def WritesOnce (ops : List Op) : Prop :=
  ∀ xs ys zs x y c, ops = xs ++ x :: (ys ++ y :: zs) → M.writes x c → M.writes y c →
    ∃ op ∈ ys, M.clears op c

variable {M} {E F : Set Cell} {xs ys ops : List Op} {op : Op} {c : Cell}

/-- Sequencing. -/
lemma onClear_append :
    M.OnClear E (xs ++ ys) ↔ M.OnClear E xs ∧ M.OnClear (xs.foldl M.step E) ys := by
  induction xs generalizing E with
  | nil => simp [OnClear]
  | cons x xs ih =>
    rw [List.cons_append, OnClear, OnClear, ih, List.foldl_cons, and_assoc]

/-- A command that writes nothing needs no clear cell. -/
lemma onClear_singleton (h : ∀ c, ¬M.writes op c) : M.OnClear E [op] :=
  ⟨fun c hc => absurd hc (h c), trivial⟩

/-- Commands that write different cells, all of them clear. -/
lemma onClear_of_pairwise (hE : ∀ op ∈ ops, ∀ c, M.writes op c → c ∈ E)
    (hp : ops.Pairwise fun x y => ∀ c, M.writes x c → ¬M.writes y c) : M.OnClear E ops := by
  induction ops generalizing E with
  | nil => trivial
  | cons x xs ih =>
    obtain ⟨hx, hxs⟩ := List.pairwise_cons.1 hp
    refine ⟨hE x List.mem_cons_self, ih (fun y hy c hc => Or.inr ⟨?_, ?_⟩) hxs⟩
    · exact hE y (List.mem_cons_of_mem _ hy) c hc
    · exact fun hxc => hx y hy c hxc hc

/-- A cell that is not clear stays so until a command clears it. -/
lemma not_mem_foldl_step (hc : c ∉ E) (h : ∀ op ∈ ops, ¬M.clears op c) :
    c ∉ ops.foldl M.step E := by
  induction ops generalizing E with
  | nil => exact hc
  | cons x xs ih =>
    refine ih ?_ fun y hy => h y (List.mem_cons_of_mem _ hy)
    rintro (hx | hx)
    · exact h x List.mem_cons_self hx
    · exact hc hx.1

/-- **Writing clear cells only is writing once.**

**Proof sketch.** A written cell is not clear, and stays so without a clear, but the next command
that writes it needs it to be. -/
theorem OnClear.writesOnce (h : M.OnClear E ops) : M.WritesOnce ops := by
  rintro xs ys zs x y c rfl hx hy
  by_contra hno
  push Not at hno
  have h1 := (onClear_append.1 h).2
  have h2 := (onClear_append.1 h1.2).2
  have hmem : c ∈ ys.foldl M.step (M.step (xs.foldl M.step E) x) := h2.1 c hy
  refine not_mem_foldl_step ?_ hno hmem
  rintro (hc | hc)
  · exact M.apart x c hx hc
  · exact hc.2 hx

end Medium
