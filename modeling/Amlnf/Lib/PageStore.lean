import Mathlib.Data.List.Basic
import Mathlib.Data.Nat.Notation

set_option relaxedAutoImplicit false
set_option autoImplicit false

/-!
# Stores of pages

A flash memory as its user sees it: pages that are erased in blocks, can be programmed once
after an erase, and are read one at a time. An operation may fail, and then it leaves the pages
it is about in a state nobody knows.

## Main definitions

* `Cell` — what is known of a page.
* `PageEvent` — an erase, write or read and how it ended.
* `PageStore.next`, `PageStore.after` — the store behind an event and behind a history.
* `Legal` — a history in which every read delivers what the store holds.
* `Complete` — a history in which every event succeeds that can.

## Main results

* `Legal.written` — a read delivers what was written since the last erase of the block.

## Design

`α` is what a page holds, `κ` the pages and `β` the blocks. A read may always fail; the store
only bounds what a read that succeeds delivers.
-/

/-- What is known of a page. -/
inductive Cell (α : Type)
  | clear
  | full (a : α)
  /-- Written again without an erase. -/
  | spoilt
  | unknown

/-- An operation on the pages, with `true` for success, or with what a read delivered. -/
inductive PageEvent (α κ β : Type)
  | erase (b : β) (ok : Bool)
  | write (p : κ) (a : α) (ok : Bool)
  | read (p : κ) (got : Option α)

/-- What is known of every page. -/
abbrev PageStore (α κ : Type) : Type := κ → Cell α

section

variable {α κ β : Type}

/-- A page that has been written with success. -/
def Cell.write : Cell α → α → Cell α
  | .clear, a => .full a
  | .unknown, _ => .unknown
  | _, _ => .spoilt

/-- May a read of the page deliver `x`? An erased page reads as `blank`. -/
def Cell.Delivers (blank : α) : Cell α → α → Prop
  | .clear, x => x = blank
  | .full a, x => x = a
  | .spoilt, _ => False
  | .unknown, _ => True

/-- Has the event to do with page `p`? -/
def PageEvent.Changes (blockOf : κ → β) (p : κ) : PageEvent α κ β → Prop
  | .erase b _ => blockOf p = b
  | .write q _ _ => p = q
  | .read _ _ => False

variable [DecidableEq κ] [DecidableEq β]

/-- The store behind an event. -/
def PageStore.next (blockOf : κ → β) (s : PageStore α κ) : PageEvent α κ β → PageStore α κ
  | .erase b ok => fun p => if blockOf p = b then (if ok then .clear else .unknown) else s p
  | .write q a ok => fun p => if p = q then (if ok then (s p).write a else .unknown) else s p
  | .read _ _ => s

/-- The store behind a history. -/
def PageStore.after (blockOf : κ → β) (s : PageStore α κ) (es : List (PageEvent α κ β)) :
    PageStore α κ :=
  es.foldl (PageStore.next blockOf) s

omit [DecidableEq κ] [DecidableEq β] in
/-- A read delivers what the store may deliver; the other events are always possible. -/
def PageEvent.Allowed (blank : κ → α) (s : PageStore α κ) : PageEvent α κ β → Prop
  | .read p (some x) => (s p).Delivers (blank p) x
  | _ => True

omit [DecidableEq κ] [DecidableEq β] in
/-- The event succeeds, unless it reads a page that is spoilt or unknown. -/
def PageEvent.Succeeds (s : PageStore α κ) : PageEvent α κ β → Prop
  | .erase _ ok => ok = true
  | .write _ _ ok => ok = true
  | .read p got => got.isSome = true ∨ s p = .spoilt ∨ s p = .unknown

/-- Every event is as `P` says in the store behind the events before it. -/
def Along (blockOf : κ → β) (P : PageStore α κ → PageEvent α κ β → Prop) :
    PageStore α κ → List (PageEvent α κ β) → Prop
  | _, [] => True
  | s, e :: es => P s e ∧ Along blockOf P (s.next blockOf e) es

/-- A history in which every event is allowed. -/
def Legal (blockOf : κ → β) (blank : κ → α) : PageStore α κ → List (PageEvent α κ β) → Prop :=
  Along blockOf fun s e => e.Allowed blank s

/-- A history in which every event succeeds that can. -/
def Complete (blockOf : κ → β) : PageStore α κ → List (PageEvent α κ β) → Prop :=
  Along blockOf fun s e => e.Succeeds s

variable {blockOf : κ → β} {blank : κ → α} {s : PageStore α κ} {p : κ} {a x : α}
  {e : PageEvent α κ β} {es fs : List (PageEvent α κ β)}

@[simp] lemma PageStore.after_nil : s.after blockOf ([] : List (PageEvent α κ β)) = s := rfl

@[simp] lemma PageStore.after_cons :
    s.after blockOf (e :: es) = (s.next blockOf e).after blockOf es := rfl

lemma PageStore.after_append :
    s.after blockOf (es ++ fs) = (s.after blockOf es).after blockOf fs := List.foldl_append

/-- An event that has nothing to do with a page leaves it alone. -/
lemma PageStore.next_of_not_changes (h : ¬e.Changes blockOf p) : s.next blockOf e p = s p := by
  cases e with
  | read q got => rfl
  | _ => exact if_neg h

/-- Events that have nothing to do with a page leave it alone. -/
lemma PageStore.after_of_not_changes (h : ∀ e ∈ es, ¬e.Changes blockOf p) :
    s.after blockOf es p = s p := by
  induction es generalizing s with
  | nil => rfl
  | cons e es ih =>
    rw [PageStore.after_cons, ih fun e he => h e (List.mem_cons_of_mem _ he),
      PageStore.next_of_not_changes (h e List.mem_cons_self)]

lemma PageStore.next_erase : s.next blockOf (.erase (blockOf p) true) p = .clear := by
  simp [PageStore.next]

lemma PageStore.next_write : s.next blockOf (.write p a true) p = (s p).write a := by
  simp [PageStore.next]

/-- Histories compose. -/
lemma along_append {P : PageStore α κ → PageEvent α κ β → Prop} : Along blockOf P s (es ++ fs) ↔
    Along blockOf P s es ∧ Along blockOf P (s.after blockOf es) fs := by
  induction es generalizing s with
  | nil => simp [Along]
  | cons e es ih => simp [Along, ih, and_assoc]

/-- A read at the end of a history delivers what the store holds then. -/
lemma Legal.delivers (h : Legal blockOf blank s (es ++ [.read p (some x)])) :
    (s.after blockOf es p).Delivers (blank p) x := (along_append.1 h).2.1

/-- **What a read delivers after a write.** A page whose block has been erased and that has been
written once since delivers what was written. -/
theorem Legal.written {pre mid post : List (PageEvent α κ β)}
    (hmid : ∀ e ∈ mid, ¬e.Changes blockOf p) (hpost : ∀ e ∈ post, ¬e.Changes blockOf p)
    (h : Legal blockOf blank s
      (pre ++ .erase (blockOf p) true :: mid ++ .write p a true :: post ++ [.read p (some x)])) :
    x = a := by
  have hd := h.delivers
  rw [PageStore.after_append, PageStore.after_cons, PageStore.after_of_not_changes hpost,
    PageStore.next_write, PageStore.after_append, PageStore.after_cons,
    PageStore.after_of_not_changes hmid, PageStore.next_erase] at hd
  exact hd

end
