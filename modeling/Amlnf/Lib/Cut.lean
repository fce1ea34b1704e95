import Mathlib.Data.List.Basic

set_option relaxedAutoImplicit false
set_option autoImplicit false

/-!
# Interrupted sequences of commands

A device carries out a sequence of commands one after another. When it is interrupted it has
carried out a prefix of them, and the command under way may have left something of its own. A
property that holds at every such point is a property of the sequence, and sequences compose.

## Main definitions

* `Cut` — the contents an interrupted sequence can leave.
* `Cuts` — a property holds of all of them, by recursion on the sequence.

## Main results

* `cuts_append` — sequencing.
* `Cuts.of_inv` — the rule of invariants.
* `cuts_iff` — the recursion says what it should.
-/

variable {M O : Type}

/-- The contents a sequence of commands can leave when it is interrupted: `apply` is the effect of
a command, `tear` what is left of one that was under way. -/
inductive Cut (apply tear : M → O → M) (m : M) (ops : List O) : M → Prop
  | between (pre post : List O) (h : ops = pre ++ post) : Cut apply tear m ops (pre.foldl apply m)
  | torn (pre post : List O) (op : O) (h : ops = pre ++ op :: post) :
      Cut apply tear m ops (tear (pre.foldl apply m) op)

/-- `Φ` holds wherever the sequence is interrupted. -/
def Cuts (apply tear : M → O → M) (Φ : M → Prop) : M → List O → Prop
  | m, [] => Φ m
  | m, op :: ops => Φ m ∧ Φ (tear m op) ∧ Cuts apply tear Φ (apply m op) ops

variable {apply tear : M → O → M} {Φ Ψ : M → Prop}

/-- It holds before the first command. -/
lemma Cuts.head : ∀ {m : M} {ops : List O}, Cuts apply tear Φ m ops → Φ m
  | _, [], h => h
  | _, _ :: _, h => h.1

/-- Sequencing. -/
lemma cuts_append (m : M) (xs ys : List O) :
    Cuts apply tear Φ m (xs ++ ys) ↔
      Cuts apply tear Φ m xs ∧ Cuts apply tear Φ (xs.foldl apply m) ys := by
  induction xs generalizing m with
  | nil => exact ⟨fun h => ⟨h.head, h⟩, fun h => h.2⟩
  | cons x xs ih =>
    simp only [List.cons_append, Cuts, List.foldl_cons, ih]
    tauto

lemma Cuts.mono (hΦ : ∀ m, Φ m → Ψ m) : ∀ {m : M} {ops : List O}, Cuts apply tear Φ m ops →
    Cuts apply tear Ψ m ops
  | _, [], h => hΦ _ h
  | _, _ :: _, h => ⟨hΦ _ h.1, hΦ _ h.2.1, h.2.2.mono hΦ⟩

/-- The rule of invariants: what every command keeps, completed or torn, holds throughout. -/
lemma Cuts.of_inv {I : M → Prop} (hΦ : ∀ m, I m → Φ m) {ops : List O}
    (hstep : ∀ op ∈ ops, ∀ m, I m → I (apply m op) ∧ I (tear m op)) {m : M} (h : I m) :
    Cuts apply tear Φ m ops := by
  induction ops generalizing m with
  | nil => exact hΦ m h
  | cons op ops ih =>
    obtain ⟨h1, h2⟩ := hstep op List.mem_cons_self m h
    exact ⟨hΦ m h, hΦ _ h2, ih (fun o ho => hstep o (List.mem_cons_of_mem _ ho)) h1⟩

/-- The recursion covers every point at which the sequence can be interrupted. -/
lemma cuts_iff (m : M) (ops : List O) :
    Cuts apply tear Φ m ops ↔ ∀ m', Cut apply tear m ops m' → Φ m' := by
  constructor
  · rintro h m' (⟨pre, post, rfl⟩ | ⟨pre, post, op, rfl⟩)
    · exact ((cuts_append m pre post).1 h).2.head
    · exact ((cuts_append m pre (op :: post)).1 h).2.2.1
  · intro h
    induction ops generalizing m with
    | nil => exact h m (.between [] [] rfl)
    | cons op ops ih =>
      refine ⟨h m (.between [] (op :: ops) rfl), h _ (.torn [] ops op rfl), ih _ fun m' hm' => ?_⟩
      rcases hm' with ⟨pre, post, rfl⟩ | ⟨pre, post, o, rfl⟩
      · exact h _ (.between (op :: pre) post rfl)
      · exact h _ (.torn (op :: pre) post o rfl)

/-- An interrupted prefix of a sequence is an interrupted sequence. -/
lemma Cut.append_right {m m' : M} {xs : List O} (ys : List O) (h : Cut apply tear m xs m') :
    Cut apply tear m (xs ++ ys) m' := by
  rcases h with ⟨pre, post, rfl⟩ | ⟨pre, post, op, rfl⟩
  · exact .between pre (post ++ ys) (List.append_assoc _ _ _)
  · exact .torn pre (post ++ ys) op (by rw [List.append_assoc, List.cons_append])
