import Mathlib.Data.Nat.Count
import Mathlib.Order.Bounds.Defs
import Mathlib.Tactic.Ring
import Amlnf.Lib.Act

set_option relaxedAutoImplicit false
set_option autoImplicit false

/-!
# Searches that count

A search walks over places `0, 1, 2, …` until it has passed a given number of places with some
property. Where it stops, and what the least range in multiples of a stripe is that holds so
many of these places, is arithmetic of `Nat.count`.

## Main definitions

* `CountsTo` — the search for `m` places with property `p` stops after `n` places.
* `StopsWithin` — the search stops before it leaves the first `M` places.
* `roundUp` — the least multiple of `s` that is not below `n`.
* `Act.rounds` — the rounds a loop runs.

## Main results

* `CountsTo.le_count_iff` — a range holds enough places exactly when the search stops in it.
* `CountsTo.isLeast_roundUp` — the least range in multiples of a stripe.
* `Act.spec_countLoop`, `Act.countLoop_returns` — a loop that counts returns where the search
  stops, and does return when the search stops in time.
* `stopsWithin_iff` — the search looks only at the first `M` places exactly when these hold
  enough places.
* `Act.spec_of_mem_rounds`, `Act.exists_mem_rounds` — which rounds a loop runs.
-/

/-- The search for `m` places that satisfy `p` stops after `n` places. -/
def CountsTo (p : ℕ → Prop) [DecidablePred p] (m n : ℕ) : Prop :=
  0 < n ∧ Nat.count p n = m ∧ ∀ k < n, Nat.count p k < m

section CountsTo

variable {p : ℕ → Prop} [DecidablePred p] {m n : ℕ}

/-- A count has one end. -/
lemma CountsTo.unique {n' : ℕ} (h : CountsTo p m n) (h' : CountsTo p m n') : n = n' := by
  have h1 := h.2.2 n'
  have h2 := h'.2.2 n
  have h3 := h.2.1
  have h4 := h'.2.1
  omega

/-- A range holds `m` places exactly when the search stops in it. -/
lemma CountsTo.le_count_iff (h : CountsTo p m n) (k : ℕ) : m ≤ Nat.count p k ↔ n ≤ k := by
  constructor
  · intro hk
    by_contra hlt
    exact absurd (h.2.2 k (not_le.mp hlt)) (not_lt.mpr hk)
  · intro hk
    rw [← h.2.1]
    exact Nat.count_monotone p hk

/-- Counting depends on the values of the predicate only. -/
lemma count_congr {q : ℕ → Prop} [DecidablePred q] (h : ∀ k, p k ↔ q k) (n : ℕ) :
    Nat.count p n = Nat.count q n := by
  induction n with
  | zero => rw [Nat.count_zero, Nat.count_zero]
  | succ n ih =>
    rw [Nat.count_succ, Nat.count_succ, ih]
    by_cases hn : p n
    · rw [if_pos hn, if_pos ((h n).mp hn)]
    · rw [if_neg hn, if_neg fun hq => hn ((h n).mpr hq)]

/-- So does the end of a count. -/
lemma countsTo_congr {q : ℕ → Prop} [DecidablePred q] (h : ∀ k, p k ↔ q k) :
    CountsTo p m n ↔ CountsTo q m n := by
  simp only [CountsTo, count_congr h]

/-- A count ends behind what was to be counted. -/
lemma CountsTo.le (h : CountsTo p m n) : m ≤ n := by
  rw [← h.2.1]
  exact Nat.count_le p

/-- When every place has the property, the search stops after `m` places. -/
lemma countsTo_of_forall (h : ∀ k, p k) (hm : 0 < m) : CountsTo p m m := by
  have hcount : ∀ k, Nat.count p k = k := fun k => Nat.count_of_forall fun j _ => h j
  refine ⟨hm, hcount m, fun k hk => ?_⟩
  rw [hcount]
  exact hk

/-- A search for at least one place stops in every range that holds enough. -/
lemma exists_countsTo {k : ℕ} (hm : 0 < m) (hk : m ≤ Nat.count p k) :
    ∃ n ≤ k, CountsTo p m n := by
  classical
  have hex : ∃ n, m ≤ Nat.count p n := ⟨k, hk⟩
  have hpos : 0 < Nat.find hex := by
    rw [Nat.find_pos, Nat.count_zero]
    omega
  have hmin : ∀ j < Nat.find hex, Nat.count p j < m := fun j hj => not_le.mp (Nat.find_min hex hj)
  refine ⟨Nat.find hex, Nat.find_min' hex hk, hpos, le_antisymm ?_ (Nat.find_spec hex), hmin⟩
  -- the last place adds at most one
  obtain ⟨j, hj⟩ : ∃ j, Nat.find hex = j + 1 := ⟨Nat.find hex - 1, by omega⟩
  have hlast := hmin j (by omega)
  have hle : (if p j then 1 else 0) ≤ 1 := by split <;> omega
  rw [hj, Nat.count_succ]
  omega

end CountsTo

/-- A search that looks at one place at least stops before it leaves the first `M` places. -/
def StopsWithin (p : ℕ → Prop) [DecidablePred p] (m M : ℕ) : Prop := 0 < M ∧ m ≤ Nat.count p M

/-- **The search leaves the first `M` places exactly when they do not hold enough.** It gets to
place `j` when it has found too few places up to each place before. -/
lemma stopsWithin_iff {p : ℕ → Prop} [DecidablePred p] {m M N : ℕ} {Q : ℕ → Prop} (hM : M < N)
    (hQ : ∀ k ≤ M, Q k ↔ k < M) :
    (∀ j < N, (∀ i < j, Nat.count p (i + 1) < m) → Q j) ↔ StopsWithin p m M := by
  constructor
  · intro h
    by_contra hstop
    -- then the search gets to place `M`
    have hreach : ∀ i < M, Nat.count p (i + 1) < m := by
      intro i hi
      refine lt_of_le_of_lt (Nat.count_monotone p (Nat.succ_le_of_lt hi)) ?_
      by_contra hle
      exact hstop ⟨by omega, not_lt.mp hle⟩
    exact lt_irrefl M ((hQ M (le_refl M)).mp (h M hM hreach))
  · rintro ⟨hpos, hcount⟩ j hj hbefore
    have hlt : j < M := by
      by_contra hge
      have h1 := hbefore (M - 1) (by omega)
      rw [Nat.sub_add_cancel hpos] at h1
      omega
    exact (hQ j hlt.le).mpr hlt

/-- The least multiple of `s` that is not below `n`, for a positive `n`. -/
def roundUp (s n : ℕ) : ℕ := ((n - 1) / s + 1) * s

section RoundUp

variable {s n : ℕ}

/-- Rounding up does not go below. -/
lemma le_roundUp (hs : 0 < s) : n ≤ roundUp s n := by
  have h1 := Nat.div_add_mod (n - 1) s
  have h2 := Nat.mod_lt (n - 1) hs
  have h3 : roundUp s n = s * ((n - 1) / s) + s := by rw [roundUp]; ring
  omega

/-- Nor a whole step above. -/
lemma roundUp_lt (hn : 0 < n) : roundUp s n < n + s := by
  have h1 := Nat.div_add_mod (n - 1) s
  have h3 : roundUp s n = s * ((n - 1) / s) + s := by rw [roundUp]; ring
  omega

/-- Every multiple that is not below `n` is not below `roundUp s n`. -/
lemma roundUp_le (hn : 0 < n) (hs : 0 < s) {k : ℕ} (hk : n ≤ k * s) : roundUp s n ≤ k * s := by
  refine Nat.mul_le_mul_right s ?_
  rw [Nat.succ_le_iff, Nat.div_lt_iff_lt_mul hs]
  omega

end RoundUp

/-- The least range in multiples of `s` places of `e` bytes that holds `m` of the places with
property `p`. -/
lemma CountsTo.isLeast_roundUp {p : ℕ → Prop} [DecidablePred p] {m n s e : ℕ}
    (h : CountsTo p m n) (hs : 0 < s) :
    IsLeast {x | ∃ k, x = k * s * e ∧ m ≤ Nat.count p (k * s)} (roundUp s n * e) := by
  refine ⟨⟨(n - 1) / s + 1, rfl, (h.le_count_iff _).mpr (le_roundUp hs)⟩, ?_⟩
  rintro x ⟨k, rfl, hk⟩
  exact Nat.mul_le_mul_right e (roundUp_le h.1 hs ((h.le_count_iff _).mp hk))

namespace Act

variable {σ α β : Type} {p : ℕ → Prop} [DecidablePred p] {m : ℕ}

/-- Rule for a loop that counts: after `k` rounds `J k` holds of the loop variables and the
state, and the round that reaches the count leaves with a value in `A`. -/
lemma spec_countLoop {J : ℕ → β → σ → Prop} {A : ℕ → α → σ → Prop} {body : β → Act σ (β ⊕ α)}
    (hgo : ∀ k b s, J k b s → Nat.count p (k + 1) < m →
      ∃ b' t, body b s = (some (Sum.inl b'), t) ∧ J (k + 1) b' t)
    (hstop : ∀ k b s, J k b s → ¬Nat.count p (k + 1) < m →
      ∃ a t, body b s = (some (Sum.inr a), t) ∧ A (k + 1) a t)
    (hm : 0 < m) (N : ℕ) (b : β) :
    Spec (J 0 b) (loopUntil body N b) (fun a t => ∃ n, CountsTo p m n ∧ A n a t)
      (fun _ => True) := by
  let I : β → σ → Prop := fun b s => ∃ k, J k b s ∧ Nat.count p k < m
  have hround : ∀ b, Spec (I b) (body b)
      (fun r t => Sum.elim (fun b' => I b' t) (fun a => ∃ n, CountsTo p m n ∧ A n a t) r)
      (fun _ => True) := by
    rintro b s ⟨k, hJ, hk⟩
    by_cases hlt : Nat.count p (k + 1) < m
    · obtain ⟨b', t, hb, ht⟩ := hgo k b s hJ hlt
      rw [hb]
      exact ⟨k + 1, ht, hlt⟩
    · obtain ⟨a, t, hb, ht⟩ := hstop k b s hJ hlt
      rw [hb]
      refine ⟨k + 1, ⟨Nat.succ_pos k, ?_, fun j hj => ?_⟩, ht⟩
      · have hle : (if p k then 1 else 0) ≤ 1 := by split <;> omega
        rw [Nat.count_succ] at hlt ⊢
        omega
      · exact lt_of_le_of_lt (Nat.count_monotone p (Nat.lt_succ_iff.mp hj)) hk
  refine Spec.mono (Spec.loopUntil hround (fun _ _ _ => trivial) N b) (fun s hs => ?_)
    (fun _ _ h => h) fun _ h => h
  exact ⟨0, hs, by rwa [Nat.count_zero]⟩

/-- The rounds a loop runs: the loop variables and the state at the start of each. -/
def rounds (body : β → Act σ (β ⊕ α)) : ℕ → β → σ → List (β × σ)
  | 0, _, _ => []
  | n + 1, b, s =>
    (b, s) :: match body b s with
      | (some (Sum.inl b'), t) => rounds body n b' t
      | _ => []

section Rounds

variable {J : ℕ → β → σ → Prop} {C : ℕ → Prop} {body : β → Act σ (β ⊕ α)}

/-- The rounds of a loop whose first round continues. -/
lemma rounds_inl {b b' : β} {s t : σ} (n : ℕ) (h : body b s = (some (Sum.inl b'), t)) :
    rounds body (n + 1) b s = (b, s) :: rounds body n b' t := by
  rw [rounds, h]

/-- What holds of every round that is run: when `J` is kept by a round that goes on, and only
rounds in `C` go on, every round is some `j`-th one behind rounds in `C`. -/
lemma spec_of_mem_rounds
    (hstep : ∀ k b s b' t, J k b s → body b s = (some (Sum.inl b'), t) → C k ∧ J (k + 1) b' t)
    {N k : ℕ} {b : β} {s : σ} (hs : J k b s) {r : β × σ} (hr : r ∈ rounds body N b s) :
    ∃ j, j < N ∧ (∀ i < j, C (k + i)) ∧ J (k + j) r.1 r.2 := by
  induction N generalizing k b s with
  | zero => exact absurd hr List.not_mem_nil
  | succ N ih =>
    rw [rounds, List.mem_cons] at hr
    rcases hr with rfl | hr
    · exact ⟨0, Nat.succ_pos N, fun i hi => absurd hi (Nat.not_lt_zero i), hs⟩
    · split at hr
      · rename_i b' t hb
        obtain ⟨hC, hJ⟩ := hstep k b s b' t hs hb
        obtain ⟨j, hj, hbefore, hJj⟩ := ih hJ hr
        refine ⟨j + 1, Nat.succ_lt_succ hj, fun i hi => ?_, ?_⟩
        · cases i with
          | zero => exact hC
          | succ i => exact (show k + 1 + i = k + (i + 1) by omega) ▸ hbefore i (by omega)
        · exact (show k + 1 + j = k + (j + 1) by omega) ▸ hJj
      · exact absurd hr List.not_mem_nil

/-- The rounds that are run: when every round in `C` goes on, the loop gets to the round behind
any number of them. -/
lemma exists_mem_rounds
    (hgo : ∀ k b s, J k b s → C k → ∃ b' t, body b s = (some (Sum.inl b'), t) ∧ J (k + 1) b' t)
    {N j k : ℕ} {b : β} {s : σ} (hs : J k b s) (hj : j < N) (hbefore : ∀ i < j, C (k + i)) :
    ∃ r ∈ rounds body N b s, J (k + j) r.1 r.2 := by
  induction j generalizing N k b s with
  | zero =>
    obtain ⟨N, rfl⟩ : ∃ M, N = M + 1 := ⟨N - 1, by omega⟩
    exact ⟨(b, s), by rw [rounds]; exact List.mem_cons_self, hs⟩
  | succ j ih =>
    obtain ⟨N, rfl⟩ : ∃ M, N = M + 1 := ⟨N - 1, by omega⟩
    obtain ⟨b', t, hb, hJ⟩ := hgo k b s hs (hbefore 0 (Nat.succ_pos j))
    obtain ⟨r, hr, hJr⟩ := ih hJ (Nat.lt_of_succ_lt_succ hj) fun i hi =>
      (show k + (i + 1) = k + 1 + i by omega) ▸ hbefore (i + 1) (by omega)
    refine ⟨r, ?_, (show k + 1 + j = k + (j + 1) by omega) ▸ hJr⟩
    rw [rounds_inl N hb]
    exact List.mem_cons_of_mem _ hr

/-- A loop returns from the first round that does not go on. -/
lemma loopUntil_returns {A : ℕ → α → σ → Prop}
    (hgo : ∀ k b s, J k b s → C k → ∃ b' t, body b s = (some (Sum.inl b'), t) ∧ J (k + 1) b' t)
    (hstop : ∀ k b s, J k b s → ¬C k → ∃ a t, body b s = (some (Sum.inr a), t) ∧ A (k + 1) a t)
    {N j k : ℕ} {b : β} {s : σ} (hs : J k b s) (hj : j < N) (hbefore : ∀ i < j, C (k + i))
    (hC : ¬C (k + j)) : ∃ a t, loopUntil body N b s = (some a, t) ∧ A (k + j + 1) a t := by
  induction j generalizing N k b s with
  | zero =>
    obtain ⟨N, rfl⟩ : ∃ M, N = M + 1 := ⟨N - 1, by omega⟩
    obtain ⟨a, t, hb, hA⟩ := hstop k b s hs hC
    exact ⟨a, t, loopUntil_inr N hb, hA⟩
  | succ j ih =>
    obtain ⟨N, rfl⟩ : ∃ M, N = M + 1 := ⟨N - 1, by omega⟩
    obtain ⟨b', t, hb, hJ⟩ := hgo k b s hs (hbefore 0 (Nat.succ_pos j))
    have heq : ∀ i, k + (i + 1) = k + 1 + i := fun i => by omega
    obtain ⟨a, u, hu, hA⟩ := ih hJ (Nat.lt_of_succ_lt_succ hj)
      (fun i hi => heq i ▸ hbefore (i + 1) (by omega)) (heq j ▸ hC)
    exact ⟨a, u, (loopUntil_inl N hb).trans hu, (heq j).symm ▸ hA⟩

end Rounds

/-- A loop that counts returns when the search stops in time. -/
lemma countLoop_returns {J : ℕ → β → σ → Prop} {A : ℕ → α → σ → Prop} {body : β → Act σ (β ⊕ α)}
    (hgo : ∀ k b s, J k b s → Nat.count p (k + 1) < m →
      ∃ b' t, body b s = (some (Sum.inl b'), t) ∧ J (k + 1) b' t)
    (hstop : ∀ k b s, J k b s → ¬Nat.count p (k + 1) < m →
      ∃ a t, body b s = (some (Sum.inr a), t) ∧ A (k + 1) a t)
    {n N : ℕ} (hn : CountsTo p m n) (hN : n ≤ N) {b : β} {s : σ} (hs : J 0 b s) :
    ∃ a t, loopUntil body N b s = (some a, t) ∧ A n a t := by
  have hpos := hn.1
  obtain ⟨a, t, ht, hA⟩ := loopUntil_returns (C := fun k => Nat.count p (k + 1) < m)
    (N := N) (j := n - 1) (k := 0) hgo hstop hs (by omega)
    (fun i hi => by rw [zero_add]; exact hn.2.2 (i + 1) (by omega))
    (by rw [zero_add, Nat.sub_add_cancel hpos, hn.2.1]; exact lt_irrefl m)
  exact ⟨a, t, ht, (show 0 + (n - 1) + 1 = n by omega) ▸ hA⟩

end Act
