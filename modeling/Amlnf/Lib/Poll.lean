import Mathlib.Data.Nat.Find
import Mathlib.Order.Basic
import Mathlib.Tactic.Common

set_option relaxedAutoImplicit false
set_option autoImplicit false

/-!
# Polling with a counter

A loop that takes readings until one shows completion, counts the readings that did not, and is
judged by its counter afterwards: `do { if (done) break; } while (cnt++ <= limit)`. The loop may
be entered again with the counter it was left with.

## Main definitions

* `Poll.loop` — the loop: the counter it leaves and the number of readings taken so far.
* `Poll.retry` — the loop, entered again a number of times while the counter has reached the
  limit.
* `Poll.Honest` — success is reported exactly when one of the readings taken showed completion.

## Main results

* `Poll.loop_of_first`, `Poll.loop_of_none` — what the loop leaves.
* `Poll.retry_fst` — only a completion in the first `limit` readings is reported.
* `Poll.honest_retry_iff` — when the report is honest.
-/

namespace Poll

variable {done : ℕ → Bool} {limit : ℕ}

/-- Take readings from number `i` on with the counter `cnt`. -/
def loop (done : ℕ → Bool) (limit i cnt : ℕ) : ℕ × ℕ :=
  if done i then (cnt, i + 1)
  else if cnt ≤ limit then loop done limit (i + 1) (cnt + 1)
  else (cnt + 1, i + 1)
termination_by limit + 1 - cnt

/-- Enter the loop, and at most `n` more times while the counter has reached the limit. -/
def retry (done : ℕ → Bool) (limit : ℕ) : ℕ → ℕ → ℕ → Bool × ℕ
  | 0, i, cnt =>
    let r := loop done limit i cnt
    (decide (r.1 < limit), r.2)
  | n + 1, i, cnt =>
    let r := loop done limit i cnt
    if r.1 < limit then (true, r.2) else retry done limit n r.2 r.1

/-- Success is reported exactly when one of the readings taken showed completion. -/
def Honest (done : ℕ → Bool) (r : Bool × ℕ) : Prop := r.1 = true ↔ ∃ i < r.2, done i = true

/-! ## The loop -/

/-- A completion the loop gets to ends it, with the readings before it counted. -/
lemma loop_of_first (limit : ℕ) {k : ℕ} : ∀ (i cnt : ℕ), done (i + k) = true →
    (∀ j < k, done (i + j) = false) → cnt + k ≤ limit + 1 →
      loop done limit i cnt = (cnt + k, i + k + 1) := by
  induction k with
  | zero =>
    intro i cnt hk _ _
    rw [Nat.add_zero] at hk
    rw [loop, if_pos hk]
    rfl
  | succ k ih =>
    intro i cnt hk hbefore hle
    rw [loop, if_neg (by simpa using hbefore 0 (Nat.succ_pos k)), if_pos (by omega), ih]
    · ext <;> simp only <;> omega
    · rwa [Nat.add_right_comm, Nat.add_assoc]
    · intro j hj
      rw [Nat.add_right_comm, Nat.add_assoc]
      exact hbefore (j + 1) (Nat.succ_lt_succ hj)
    · omega

/-- Without a completion the loop ends behind the limit. -/
lemma loop_of_none {k : ℕ} : ∀ (i cnt : ℕ), (∀ j ≤ k, done (i + j) = false) →
    cnt + k = limit + 1 → loop done limit i cnt = (limit + 2, i + k + 1) := by
  induction k with
  | zero =>
    intro i cnt hnone hcnt
    rw [loop, if_neg (by simpa using hnone 0 le_rfl), if_neg (by omega)]
    ext
    · simp only
      omega
    · rfl
  | succ k ih =>
    intro i cnt hnone hcnt
    rw [loop, if_neg (by simpa using hnone 0 (Nat.zero_le _)), if_pos (by omega), ih]
    · exact Prod.ext rfl (by simp only; omega)
    · intro j hj
      rw [Nat.add_right_comm, Nat.add_assoc]
      exact hnone (j + 1) (Nat.succ_le_succ hj)
    · omega

/-- Behind the limit only one reading is taken. -/
lemma loop_of_lt {i cnt : ℕ} (h : limit < cnt) :
    loop done limit i cnt = (if done i then cnt else cnt + 1, i + 1) := by
  rw [loop, if_neg (Nat.not_le.mpr h)]
  split <;> rfl

/-- The counter only grows. -/
lemma le_loop (done : ℕ → Bool) (limit i cnt : ℕ) : cnt ≤ (loop done limit i cnt).1 := by
  fun_induction loop done limit i cnt with
  | case1 => exact le_rfl
  | case2 i cnt _ _ ih => omega
  | case3 => exact Nat.le_succ _

/-- At least one reading is taken. -/
lemma lt_loop_snd (done : ℕ → Bool) (limit i cnt : ℕ) : i < (loop done limit i cnt).2 := by
  fun_induction loop done limit i cnt with
  | case1 => exact Nat.lt_succ_self _
  | case2 i cnt _ _ ih => omega
  | case3 => exact Nat.lt_succ_self _

/-! ## Retries -/

/-- A loop that left its counter at the limit or behind it is entered again. -/
lemma retry_succ {n i cnt : ℕ} (h : limit ≤ (loop done limit i cnt).1) :
    retry done limit (n + 1) i cnt =
      retry done limit n (loop done limit i cnt).2 (loop done limit i cnt).1 := by
  rw [retry]
  exact if_neg (Nat.not_lt.mpr h)

/-- A loop that left its counter below the limit is the last. -/
lemma retry_of_lt (n : ℕ) {i cnt : ℕ} (h : (loop done limit i cnt).1 < limit) :
    retry done limit n i cnt = (true, (loop done limit i cnt).2) := by
  cases n with
  | zero =>
    rw [retry, decide_eq_true h]
  | succ n =>
    rw [retry]
    exact if_pos h

/-- Once the counter has reached the limit, no retry is reported as a success. -/
lemma retry_fst_of_le (n : ℕ) : ∀ {i cnt : ℕ}, limit ≤ (loop done limit i cnt).1 →
    (retry done limit n i cnt).1 = false := by
  induction n with
  | zero =>
    intro i cnt h
    exact decide_eq_false (Nat.not_lt.mpr h)
  | succ n ih =>
    intro i cnt h
    rw [retry_succ h]
    exact ih (h.trans (le_loop done limit _ _))

/-- The readings of a loop are among those of its retries. -/
lemma loop_snd_le_retry (n : ℕ) : ∀ i cnt : ℕ,
    (loop done limit i cnt).2 ≤ (retry done limit n i cnt).2 := by
  induction n with
  | zero =>
    intro i cnt
    exact le_rfl
  | succ n ih =>
    intro i cnt
    by_cases h : (loop done limit i cnt).1 < limit
    · rw [retry_of_lt _ h]
    · rw [retry_succ (Nat.not_lt.mp h)]
      exact (Nat.le_of_lt (lt_loop_snd done limit _ _)).trans (ih _ _)

/-- Behind the limit every retry takes one reading. -/
lemma retry_snd_of_lt (n : ℕ) : ∀ {i cnt : ℕ}, limit < cnt →
    (retry done limit n i cnt).2 = i + n + 1 := by
  induction n with
  | zero =>
    intro i cnt h
    change (loop done limit i cnt).2 = i + 0 + 1
    rw [loop_of_lt h]
  | succ n ih =>
    intro i cnt h
    have hle := h.trans_le (le_loop done limit i cnt)
    rw [retry_succ hle.le, ih hle, loop_of_lt h]
    dsimp only
    omega

/-- A first completion among the first `limit` readings is reported. -/
lemma retry_of_first (n : ℕ) {k : ℕ} (hk : done k = true) (hbefore : ∀ j < k, done j = false)
    (hlt : k < limit) : retry done limit n 0 0 = (true, k + 1) := by
  have hloop : loop done limit 0 0 = (k, k + 1) := by
    have h := loop_of_first limit (k := k) 0 0 (by simpa using hk) (by simpa using hbefore) (by omega)
    simpa using h
  rw [retry_of_lt n (by rw [hloop]; exact hlt), hloop]

/-- Without one, the counter reaches the limit in the first loop, and as many readings are taken
as it takes to see a later completion. -/
lemma loop_of_late (hlate : ∀ j < limit, done j = false) :
    limit ≤ (loop done limit 0 0).1 ∧
      ((∃ m < limit + 2, m < (loop done limit 0 0).2 ∧ done m = true) ∨
        loop done limit 0 0 = (limit + 2, limit + 2) ∧ ∀ j < limit + 2, done j = false) := by
  have hfirst : ∀ m, done m = true → (∀ j < m, done j = false) → m ≤ limit + 1 →
      loop done limit 0 0 = (m, m + 1) := by
    intro m hm hbefore hle
    have h := loop_of_first limit (k := m) 0 0 (by simpa using hm) (by simpa using hbefore) (by omega)
    simpa using h
  cases h0 : done limit with
  | true =>
    rw [hfirst limit h0 hlate (Nat.le_succ _)]
    exact ⟨le_rfl, .inl ⟨limit, by omega, Nat.lt_succ_self _, h0⟩⟩
  | false =>
    have hlate' : ∀ j < limit + 1, done j = false := fun j hj => by
      rcases Nat.lt_succ_iff_lt_or_eq.mp hj with hj | rfl
      · exact hlate j hj
      · exact h0
    cases h1 : done (limit + 1) with
    | true =>
      rw [hfirst (limit + 1) h1 hlate' le_rfl]
      exact ⟨Nat.le_succ _, .inl ⟨limit + 1, by omega, Nat.lt_succ_self _, h1⟩⟩
    | false =>
      have hnone : ∀ j < limit + 2, done j = false := fun j hj => by
        rcases Nat.lt_succ_iff_lt_or_eq.mp hj with hj | rfl
        · exact hlate' j hj
        · exact h1
      have h : loop done limit 0 0 = (limit + 2, 0 + (limit + 1) + 1) :=
        loop_of_none 0 0 (fun j hj => by simpa using hnone j (by omega)) (by omega)
      rw [show 0 + (limit + 1) + 1 = limit + 2 by omega] at h
      rw [h]
      exact ⟨Nat.le_add_right _ _, .inr ⟨rfl, hnone⟩⟩

/-- **When is the report honest?** When a completion is among the first `limit` readings, or when
there is none among all readings that are taken then. -/
theorem honest_retry_iff (done : ℕ → Bool) (limit n : ℕ) :
    Honest done (retry done limit n 0 0) ↔
      (∃ i < limit, done i = true) ∨ ∀ i < limit + 2 + n, done i = false := by
  by_cases hearly : ∃ i < limit, done i = true
  · -- the first completion is reported
    refine iff_of_true ?_ (.inl hearly)
    have hex : ∃ i, done i = true := hearly.imp fun i h => h.2
    have hlt : Nat.find hex < limit := by
      obtain ⟨i, hi, hd⟩ := hearly
      exact (Nat.find_min' hex hd).trans_lt hi
    rw [retry_of_first n (Nat.find_spec hex)
      (fun j hj => by simpa using Nat.find_min hex hj) hlt]
    exact iff_of_true rfl ⟨_, Nat.lt_succ_self _, Nat.find_spec hex⟩
  · have hlate : ∀ j < limit, done j = false := fun j hj => by
      cases hd : done j with
      | false => rfl
      | true => exact absurd ⟨j, hj, hd⟩ hearly
    obtain ⟨hle, hcase⟩ := loop_of_late hlate
    rw [Honest, retry_fst_of_le n hle, or_iff_right hearly]
    rcases hcase with ⟨m, hm, htaken, hd⟩ | ⟨hloop, hnone⟩
    · -- a completion the first loop saw too late
      refine iff_of_false (fun h => ?_) fun h => ?_
      · exact absurd (h.mpr ⟨m, htaken.trans_le (loop_snd_le_retry n 0 0), hd⟩) nofun
      · rw [h m (by omega)] at hd
        cases hd
    · -- a completion in a retry, or none at all
      have htaken : (retry done limit n 0 0).2 = limit + 2 + n := by
        cases n with
        | zero => exact congrArg Prod.snd hloop
        | succ n =>
          rw [retry_succ hle, hloop, retry_snd_of_lt n (by omega)]
          omega
      rw [htaken]
      constructor
      · intro h i hi
        cases hd : done i with
        | false => rfl
        | true => exact absurd (h.mpr ⟨i, hi, hd⟩) nofun
      · intro h
        refine iff_of_false nofun ?_
        rintro ⟨i, hi, hd⟩
        rw [h i hi] at hd
        cases hd

end Poll
