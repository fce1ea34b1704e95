import Mathlib.Data.List.Basic
import Mathlib.Order.Nat

set_option relaxedAutoImplicit false
set_option autoImplicit false

/-!
# The list of partitions

Opening a partition rewrites the flash, so the translation layer is attached only to the
partitions that the module parameter `parts` names: `aml_nftl_add_ntd` asks `amlnf_part_enabled`
before anything else. The parameter is a C string, and it is taken apart by hand.

## Main definitions

* `CString` — the bytes of a string in front of its terminator.
* `strchr`, `strncmpZero` — the library functions the loop uses.
* `partLoop`, `amlnfPartEnabled` — the loop over the list, and the function.

## Main results

* `partLoop_iff` — the loop finds the nonempty names among the tokens.
* `amlnfPartEnabled_iff` — the list is parsed exactly.
-/

namespace Amlnf

/-! ## C strings -/

/-- A C string: the bytes in front of the terminator. -/
structure CString where
  bytes : List UInt8
  noNul : 0 ∉ bytes

/-- `strchr`, as the distance of the first byte `c`; `none` is the null pointer. -/
def strchr (s : List UInt8) (c : UInt8) : Option ℕ := s.idxOf? c

/-- `!strncmp(a, b, n)`: the comparison ends at the terminator of both strings. -/
def strncmpZero : List UInt8 → List UInt8 → ℕ → Bool
  | _, _, 0 => true
  | [], [], _ + 1 => true
  | a :: as, b :: bs, n + 1 => a == b && strncmpZero as bs n
  | _, _, _ + 1 => false

/-- The first string is cut off at the length of the second by the comparison. -/
lemma strncmpZero_length (a b : List UInt8) :
    strncmpZero a b b.length = true ↔ a.take b.length = b := by
  induction b generalizing a with
  | nil => simp [strncmpZero]
  | cons y b ih =>
    cases a with
    | nil => simp [strncmpZero]
    | cons x a =>
      rw [List.length_cons, strncmpZero, Bool.and_eq_true, ih, List.take_succ_cons,
        List.cons.injEq, beq_iff_eq]

/-! ## The function -/

/-- The comma. -/
def comma : UInt8 := 0x2c

/-- `"all"`. -/
def allParts : List UInt8 := [0x61, 0x6c, 0x6c]

/-- The loop of `amlnf_part_enabled`, with `p` at the start of a token. It is left at the
terminator, so that nothing is looked at behind a comma at the end. -/
def partLoop (name : List UInt8) : List UInt8 → Bool
  | [] => false
  | c :: p =>
    let n := (strchr (c :: p) comma).getD (c :: p).length
    if n = name.length ∧ strncmpZero (c :: p) name n then true
    else match strchr (c :: p) comma with
      | none => false
      | some k => partLoop name ((c :: p).drop (k + 1))
termination_by p => p.length

/-- `amlnf_part_enabled`; the name may be a null pointer. -/
def amlnfPartEnabled (parts : CString) (name : Option CString) : Bool :=
  match name with
  | none => false
  | some name => if parts.bytes = allParts then true else partLoop name.bytes parts.bytes

/-! ## The tokens -/

/-- The first comma cuts a string into a token without a comma and the rest. -/
lemma split_of_strchr {p : List UInt8} {k : ℕ} (h : strchr p comma = some k) :
    p = p.take k ++ comma :: p.drop (k + 1) ∧ comma ∉ p.take k ∧ k < p.length := by
  obtain ⟨hk, hc, hbefore⟩ := List.idxOf?_eq_some_iff.mp h
  refine ⟨?_, ?_, hk⟩
  · rw [← hc, List.getElem_cons_drop, List.take_append_drop]
  · intro hmem
    obtain ⟨j, hj, heq⟩ := List.mem_take_iff_getElem.mp hmem
    exact hbefore j (by omega) heq

/-- The test of a round: the token at `p` is the name. -/
lemma token_eq_iff {p name : List UInt8} {n : ℕ} (hn : n ≤ p.length) :
    n = name.length ∧ strncmpZero p name n = true ↔ p.take n = name := by
  constructor
  · rintro ⟨rfl, h⟩
    exact (strncmpZero_length p name).mp h
  · intro h
    have hlen : n = name.length := by rw [← h, List.length_take, min_eq_left hn]
    exact ⟨hlen, by rw [hlen, strncmpZero_length, ← hlen, h]⟩

/-- **The loop finds the names among the tokens.** The empty token behind a comma at the end is
not looked at, which a nonempty name does not notice. -/
lemma partLoop_iff {name : List UInt8} (hne : name ≠ []) (p : List UInt8) :
    partLoop name p = true ↔ name ∈ p.splitOn comma := by
  -- induction along the rounds: each round cuts the first token off
  fun_induction partLoop name p with
  | case1 =>
    rw [List.splitOn_nil, List.mem_singleton]
    exact iff_of_false Bool.false_ne_true hne
  | case2 c p n h =>
    refine iff_of_true rfl ?_
    cases hc : strchr (c :: p) comma with
    | none =>
      rw [show n = (c :: p).length by simp only [n, hc, Option.getD_none],
        token_eq_iff le_rfl, List.take_length] at h
      rw [List.splitOn_eq_singleton (List.idxOf?_eq_none_iff.mp hc), h]
      exact List.mem_singleton_self name
    | some k =>
      obtain ⟨hsplit, hfree, hk⟩ := split_of_strchr hc
      rw [show n = k by simp only [n, hc, Option.getD_some], token_eq_iff hk.le] at h
      rw [hsplit, List.splitOn_append_cons_self_of_not_mem hfree, h]
      exact List.mem_cons_self
  | case3 c p n h hc =>
    rw [show n = (c :: p).length by simp only [n, hc, Option.getD_none],
      token_eq_iff le_rfl, List.take_length] at h
    rw [List.splitOn_eq_singleton (List.idxOf?_eq_none_iff.mp hc), List.mem_singleton]
    exact iff_of_false Bool.false_ne_true fun heq => h heq.symm
  | case4 c p n h k hc ih =>
    obtain ⟨hsplit, hfree, hk⟩ := split_of_strchr hc
    rw [show n = k by simp only [n, hc, Option.getD_some], token_eq_iff hk.le] at h
    rw [ih]
    conv_rhs => rw [hsplit, List.splitOn_append_cons_self_of_not_mem hfree, List.mem_cons]
    exact ⟨.inr, fun hmem => hmem.resolve_left fun heq => h heq.symm⟩

/-- **The list is parsed exactly.** A partition with a nonempty name is enabled when the list is
`all`, or when the name is one of the tokens between its commas. -/
theorem amlnfPartEnabled_iff (parts name : CString) (hne : name.bytes ≠ []) :
    amlnfPartEnabled parts (some name) = true ↔
      parts.bytes = allParts ∨ name.bytes ∈ parts.bytes.splitOn comma := by
  rw [amlnfPartEnabled]
  split
  · next h => exact iff_of_true rfl (.inl h)
  · next h =>
    rw [partLoop_iff hne]
    exact ⟨.inr, fun hmem => hmem.resolve_left h⟩

/-- The list `,nf,,nfs,`. -/
def partsList : CString := ⟨[0x2c, 0x6e, 0x66, 0x2c, 0x2c, 0x6e, 0x66, 0x73, 0x2c], by decide⟩

/-- With this list the partition `nfs` is enabled, though `nf` stands in front of it. -/
theorem amlnfPartEnabled_nfs :
    amlnfPartEnabled partsList (some ⟨[0x6e, 0x66, 0x73], by decide⟩) = true :=
  (amlnfPartEnabled_iff _ _ (by decide)).mpr (.inr (by decide))

end Amlnf
