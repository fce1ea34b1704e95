import Mathlib.Data.List.Basic
import Mathlib.Order.Nat

set_option relaxedAutoImplicit false
set_option autoImplicit false

/-!
# Tables of small numbers

A table that gives out numbers to its entries: a new entry gets the smallest number that is free,
entries are found by their number, and the entry that follows a number can be asked for.

## Main definitions

* `Idr` — the table.
* `Idr.find`, `Idr.alloc`, `Idr.remove`, `Idr.next` — its operations.

## Main results

* `Idr.find_alloc`, `Idr.find_remove` — what is found after an entry was added or removed.
* `Idr.next_eq_some`, `Idr.next_eq_none` — what follows a number.
-/

/-- A table: the entry of each number that was ever given out. -/
structure Idr (α : Type) where
  slots : List (Option α)

namespace Idr

variable {α : Type} (t : Idr α)

/-- The table without entries. -/
def empty : Idr α := ⟨[]⟩

/-- The entry with the number `n`. -/
def find (n : ℕ) : Option α := (t.slots[n]?).join

/-- The smallest number that is free. -/
def free : ℕ := t.slots.findIdx Option.isNone

/-- Add an entry under the smallest number that is free. -/
def alloc (a : α) : Idr α :=
  ⟨if t.free < t.slots.length then t.slots.set t.free (some a) else t.slots ++ [some a]⟩

/-- Take out the entry with the number `n`. -/
def remove (n : ℕ) : Idr α := ⟨t.slots.set n none⟩

/-- The entry with the smallest number from `n` on. -/
def next (n : ℕ) : Option α := (t.slots.drop n).findSome? id

@[simp] lemma find_empty (n : ℕ) : (empty : Idr α).find n = none := rfl

lemma find_eq_some {n : ℕ} {a : α} : t.find n = some a ↔ t.slots[n]? = some (some a) := by
  rw [find, Option.join_eq_some_iff]

/-- Nothing is found under the number that is free. -/
lemma find_free : t.find t.free = none := by
  cases h : t.find t.free with
  | none => rfl
  | some a =>
    have hslot := t.find_eq_some.mp h
    obtain ⟨hlt, hget⟩ := List.getElem?_eq_some_iff.mp hslot
    have hnone : (t.slots[t.free]).isNone = true := List.findIdx_getElem (w := hlt)
    rw [hget] at hnone
    cases hnone

/-- What is found after an entry was added. -/
lemma find_alloc (a : α) (n : ℕ) :
    (t.alloc a).find n = if n = t.free then some a else t.find n := by
  unfold alloc
  by_cases hlt : t.free < t.slots.length
  · rw [if_pos hlt, find, List.getElem?_set]
    by_cases hn : n = t.free
    · rw [if_pos hn.symm, if_pos hlt, if_pos hn]
      rfl
    · rw [if_neg (Ne.symm hn), if_neg hn, find]
  · have hend : t.free = t.slots.length :=
      Nat.le_antisymm List.findIdx_le_length (Nat.le_of_not_lt hlt)
    rw [if_neg hlt, hend, find]
    dsimp only
    rcases Nat.lt_trichotomy n t.slots.length with hn | hn | hn
    · rw [List.getElem?_append_left hn, if_neg hn.ne, find]
    · rw [if_pos hn, hn, List.getElem?_append_right le_rfl, Nat.sub_self]
      rfl
    · rw [if_neg hn.ne', find, List.getElem?_eq_none hn.le, List.getElem?_eq_none]
      rw [List.length_append]
      exact hn

/-- What is found after an entry was taken out. -/
lemma find_remove (m n : ℕ) : (t.remove m).find n = if n = m then none else t.find n := by
  rw [find, remove, List.getElem?_set]
  by_cases hn : n = m
  · rw [if_pos hn.symm, if_pos hn]
    split <;> rfl
  · rw [if_neg (Ne.symm hn), if_neg hn, find]

/-- An entry that follows a number has a number, and those between are free. -/
lemma next_eq_some {n : ℕ} {a : α} (h : t.next n = some a) :
    ∃ i, n ≤ i ∧ t.find i = some a ∧ ∀ j, n ≤ j → j < i → t.find j = none := by
  obtain ⟨l₁, x, l₂, hdrop, hx, hnone⟩ := List.findSome?_eq_some_iff.mp h
  obtain rfl : x = some a := hx
  have hslot : ∀ k, t.slots[n + k]? = (l₁ ++ some a :: l₂)[k]? := fun k => by
    rw [← hdrop, List.getElem?_drop]
  refine ⟨n + l₁.length, Nat.le_add_right _ _, ?_, fun j hnj hj => ?_⟩
  · rw [find_eq_some, hslot, List.getElem?_append_right le_rfl, Nat.sub_self]
    rfl
  · obtain ⟨k, rfl⟩ := Nat.exists_eq_add_of_le hnj
    have hk : k < l₁.length := by omega
    rw [find, hslot, List.getElem?_append_left hk, List.getElem?_eq_getElem hk]
    exact hnone _ (List.getElem_mem hk)

/-- Nothing follows a number when all from it on are free. -/
lemma next_eq_none {n : ℕ} : t.next n = none ↔ ∀ j, n ≤ j → t.find j = none := by
  rw [next, List.findSome?_eq_none_iff]
  constructor
  · intro h j hj
    cases hf : t.find j with
    | none => rfl
    | some a =>
      have hmem : some a ∈ t.slots.drop n := by
        rw [List.mem_iff_getElem?]
        refine ⟨j - n, ?_⟩
        rw [List.getElem?_drop, Nat.add_sub_cancel' hj]
        exact t.find_eq_some.mp hf
      exact absurd (h _ hmem) nofun
  · intro h x hx
    obtain ⟨k, hk⟩ := List.mem_iff_getElem?.mp hx
    rw [List.getElem?_drop] at hk
    have hfind := h (n + k) (Nat.le_add_right _ _)
    rwa [find, hk] at hfind

/-- Numbers beyond the table are free. -/
lemma find_eq_none_of_le {n : ℕ} (h : t.slots.length ≤ n) : t.find n = none := by
  rw [find, List.getElem?_eq_none h]
  rfl

end Idr
