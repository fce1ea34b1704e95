import Mathlib.Data.List.Basic

set_option relaxedAutoImplicit false
set_option autoImplicit false

/-!
# Values with a stored copy

A value that is worked on in memory and has a copy that survives a restart: edits change the value,
a commit stores it, and a restart brings the copy back.

## Main definitions

* `Durable` — a value in use and the copy kept.
* `DurableOp`, `Durable.run` — the operations and their sequences.

## Main results

* `Durable.kept_run` — only a commit changes the copy.
* `Durable.now_restart` — a restart brings back the value of the last commit.
-/

/-- A value in use and the copy of it that is kept. -/
structure Durable (α : Type) where
  now : α
  kept : α

/-- What can be done with it. -/
inductive DurableOp (α : Type)
  | edit (f : α → α)
  | commit
  | restart

/-- Does the operation store the value? -/
def DurableOp.IsCommit {α : Type} : DurableOp α → Prop
  | commit => True
  | _ => False

namespace Durable

variable {α : Type}

/-- Effect of one operation. -/
def apply (d : Durable α) : DurableOp α → Durable α
  | .edit f => { d with now := f d.now }
  | .commit => { d with kept := d.now }
  | .restart => { d with now := d.kept }

/-- Effect of a sequence of operations. -/
def run (d : Durable α) (ops : List (DurableOp α)) : Durable α := ops.foldl apply d

/-- No operations. -/
@[simp] lemma run_nil (d : Durable α) : d.run [] = d := rfl

/-- One operation, then the others. -/
@[simp] lemma run_cons (d : Durable α) (op : DurableOp α) (ops : List (DurableOp α)) :
    d.run (op :: ops) = (d.apply op).run ops := rfl

/-- Runs compose. -/
lemma run_append (d : Durable α) (xs ys : List (DurableOp α)) :
    d.run (xs ++ ys) = (d.run xs).run ys :=
  List.foldl_append

/-- Only a commit changes the copy. -/
lemma kept_apply (d : Durable α) {op : DurableOp α} (h : ¬op.IsCommit) :
    (d.apply op).kept = d.kept := by
  cases op with
  | edit f => rfl
  | commit => exact absurd trivial h
  | restart => rfl

/-- Operations without a commit leave the copy alone. -/
lemma kept_run (d : Durable α) {ops : List (DurableOp α)} (h : ∀ op ∈ ops, ¬op.IsCommit) :
    (d.run ops).kept = d.kept := by
  induction ops generalizing d with
  | nil => rfl
  | cons op ops ih =>
    rw [run_cons, ih _ fun o ho => h o (List.mem_cons_of_mem _ ho)]
    exact d.kept_apply (h op List.mem_cons_self)

/-- **A restart brings back the value of the last commit**: what was edited since is lost. -/
lemma now_restart (d : Durable α) {mid : List (DurableOp α)} (h : ∀ op ∈ mid, ¬op.IsCommit)
    (pre : List (DurableOp α)) :
    (d.run (pre ++ .commit :: (mid ++ [.restart]))).now = (d.run pre).now := by
  rw [run_append, run_cons, run_append]
  change ((((d.run pre).apply .commit).run mid).kept) = _
  rw [kept_run _ h]
  rfl

end Durable
