import Mathlib.Algebra.BigOperators.Group.List.Basic
import Mathlib.Logic.Relation
import Mathlib.Tactic.Linarith

set_option relaxedAutoImplicit false
set_option autoImplicit false

/-!
# The request queue of a disk

`ntd_queue_rq` enters a request at the end of `rq_list` under `queue_lock` and queues the work
item; the work item takes requests off the list one by one, with the lock released while it
transfers one. Any number of calls of `ntd_queue_rq` and the work item run interleaved.

## Main definitions

* `CallPc`, `WorkPc` — where a call of `ntd_queue_rq` and the work item are.
* `QueueSt`, `QueueStep` — the state of a queue and the steps of all parties.
* `QueueSt.Inv` — what holds in every state.

## Main results

* `QueueStep.inv` — every step keeps the invariant.
* `QueueInternal.measure_lt` — without new calls the steps come to an end.
* `queue_delivers` — no request is lost, duplicated or stuck.

## Design

A spin lock is a flag, taken by a step that needs it free. The work item has a pending flag:
`queue_work` sets it, and it is cleared when the ordered workqueue starts the work function.
`added`, `started` and `ended` record the requests in the order in which they were put on the
list, started and ended; a request that is used again after its end counts anew.
-/

namespace Amlnf

variable {ρ : Type}

/-- Where a call of `ntd_queue_rq` is. -/
inductive CallPc (ρ : Type)
  /-- Before `spin_lock_irq`. -/
  | enter (rq : ρ)
  /-- Before `list_add_tail`. -/
  | locked (rq : ρ)
  /-- Before `spin_unlock_irq`. -/
  | added (rq : ρ)
  /-- Before `queue_work`. -/
  | unlocked (rq : ρ)
  /-- Returned `BLK_STS_OK`. -/
  | returned (rq : ρ)
  /-- The queue has no device: the request was started and `BLK_STS_IOERR` returned. -/
  | refused (rq : ρ)

/-- Where the work function `ntd_blktrans_work_fn` is. -/
inductive WorkPc (ρ : Type)
  /-- Not running. -/
  | idle
  /-- Before the first `spin_lock_irq`. -/
  | entry
  /-- At the top of the loop, before `ntd_next_request`. -/
  | top
  /-- A request has been taken off the list and started; before `spin_unlock_irq`. -/
  | taken (rq : ρ)
  /-- Transferring; before `blk_mq_end_request`. -/
  | transfer (rq : ρ)
  /-- Before the `spin_lock_irq` that ends the round. -/
  | relock
  /-- The list was found empty; before the last `spin_unlock_irq`. -/
  | leaving
  /-- Unlocked; before the return to the workqueue. -/
  | returning

/-- Does the call hold `queue_lock`? -/
def CallPc.holds : CallPc ρ → Bool
  | .locked _ => true
  | .added _ => true
  | _ => false

/-- Has the call put its request on the list without having queued the work? -/
def CallPc.between : CallPc ρ → Bool
  | .added _ => true
  | .unlocked _ => true
  | _ => false

/-- The request the call has put on the list. -/
def CallPc.accepted : CallPc ρ → Option ρ
  | .added rq => some rq
  | .unlocked rq => some rq
  | .returned rq => some rq
  | _ => none

/-- Has the call returned? -/
def CallPc.over : CallPc ρ → Bool
  | .returned _ => true
  | .refused _ => true
  | _ => false

/-- Does the work function hold `queue_lock`? -/
def WorkPc.holds : WorkPc ρ → Bool
  | .top => true
  | .taken _ => true
  | .leaving => true
  | _ => false

/-- Will the work function still look whether the list is empty? -/
def WorkPc.looks : WorkPc ρ → Bool
  | .entry => true
  | .top => true
  | .taken _ => true
  | .transfer _ => true
  | .relock => true
  | _ => false

/-- The request the work function is busy with. -/
def WorkPc.current : WorkPc ρ → List ρ
  | .taken rq => [rq]
  | .transfer rq => [rq]
  | _ => []

/-- A request queue. -/
structure QueueSt (ρ : Type) where
  /-- Is `hctx->queue->queuedata` set? -/
  queuedata : Bool
  rqList : List ρ
  /-- Is `queue_lock` held? -/
  lock : Bool
  /-- Is the work item queued? -/
  pending : Bool
  work : WorkPc ρ
  calls : List (CallPc ρ)
  added : List ρ
  started : List ρ
  ended : List ρ

/-- A disk as `add_ntd_blktrans_dev` sets it up. -/
def QueueSt.init (queuedata : Bool) : QueueSt ρ :=
  ⟨queuedata, [], false, false, .idle, [], [], [], []⟩

/-- The steps that do not depend on new calls. -/
inductive QueueInternal : QueueSt ρ → QueueSt ρ → Prop
  | refuse {s : QueueSt ρ} {l r : List (CallPc ρ)} {rq : ρ} (hc : s.calls = l ++ .enter rq :: r)
      (hd : s.queuedata = false) : QueueInternal s { s with calls := l ++ .refused rq :: r }
  | lock {s : QueueSt ρ} {l r : List (CallPc ρ)} {rq : ρ} (hc : s.calls = l ++ .enter rq :: r)
      (hd : s.queuedata = true) (hl : s.lock = false) :
      QueueInternal s { s with lock := true, calls := l ++ .locked rq :: r }
  | listAddTail {s : QueueSt ρ} {l r : List (CallPc ρ)} {rq : ρ}
      (hc : s.calls = l ++ .locked rq :: r) :
      QueueInternal s { s with
        rqList := s.rqList ++ [rq]
        added := s.added ++ [rq]
        calls := l ++ .added rq :: r }
  | unlock {s : QueueSt ρ} {l r : List (CallPc ρ)} {rq : ρ} (hc : s.calls = l ++ .added rq :: r) :
      QueueInternal s { s with lock := false, calls := l ++ .unlocked rq :: r }
  | queueWork {s : QueueSt ρ} {l r : List (CallPc ρ)} {rq : ρ}
      (hc : s.calls = l ++ .unlocked rq :: r) :
      QueueInternal s { s with pending := true, calls := l ++ .returned rq :: r }
  | workStart {s : QueueSt ρ} (hw : s.work = .idle) (hp : s.pending = true) :
      QueueInternal s { s with pending := false, work := .entry }
  | workLock {s : QueueSt ρ} (hw : s.work = .entry) (hl : s.lock = false) :
      QueueInternal s { s with lock := true, work := .top }
  | nextRequest {s : QueueSt ρ} {rq : ρ} {rqs : List ρ} (hw : s.work = .top)
      (hq : s.rqList = rq :: rqs) :
      QueueInternal s { s with
        rqList := rqs
        started := s.started ++ [rq]
        work := .taken rq }
  | noRequest {s : QueueSt ρ} (hw : s.work = .top) (hq : s.rqList = []) :
      QueueInternal s { s with work := .leaving }
  | workUnlock {s : QueueSt ρ} {rq : ρ} (hw : s.work = .taken rq) :
      QueueInternal s { s with lock := false, work := .transfer rq }
  | endRequest {s : QueueSt ρ} {rq : ρ} (hw : s.work = .transfer rq) :
      QueueInternal s { s with ended := s.ended ++ [rq], work := .relock }
  | workRelock {s : QueueSt ρ} (hw : s.work = .relock) (hl : s.lock = false) :
      QueueInternal s { s with lock := true, work := .top }
  | workLeave {s : QueueSt ρ} (hw : s.work = .leaving) :
      QueueInternal s { s with lock := false, work := .returning }
  | workReturn {s : QueueSt ρ} (hw : s.work = .returning) :
      QueueInternal s { s with work := .idle }

/-- A step of any party. -/
inductive QueueStep : QueueSt ρ → QueueSt ρ → Prop
  /-- The block layer calls `ntd_queue_rq`. -/
  | call (s : QueueSt ρ) (rq : ρ) : QueueStep s { s with calls := s.calls ++ [.enter rq] }
  | internal {s t : QueueSt ρ} (h : QueueInternal s t) : QueueStep s t

/-- What holds in every state: one party at most holds the lock; the requests put on the list are
those of the calls that got so far, and are those that have ended, the one in progress and those
still on the list, in this order; the work function leaves only with an empty list; and a list
that is not empty will be looked at. -/
structure QueueSt.Inv (s : QueueSt ρ) : Prop where
  lock : s.work.holds.toNat + s.calls.countP CallPc.holds = s.lock.toNat
  accepted : s.added.Perm (s.calls.filterMap CallPc.accepted)
  added : s.added = s.ended ++ s.work.current ++ s.rqList
  started : s.started = s.ended ++ s.work.current
  leaving : s.work = .leaving → s.rqList = []
  seen : s.rqList ≠ [] → s.pending = true ∨ s.work.looks = true ∨ ∃ c ∈ s.calls, c.between = true

/-- Steps left at most, without new calls. -/
def WorkPc.weight : WorkPc ρ → ℕ
  | .idle => 0
  | .entry => 5
  | .top => 4
  | .taken _ => 8
  | .transfer _ => 7
  | .relock => 6
  | .leaving => 3
  | .returning => 2

def CallPc.weight : CallPc ρ → ℕ
  | .enter _ => 20
  | .locked _ => 19
  | .added _ => 8
  | .unlocked _ => 7
  | .returned _ => 0
  | .refused _ => 0

/-- A bound on the steps that can follow without new calls. -/
def QueueSt.measure (s : QueueSt ρ) : ℕ :=
  10 * s.rqList.length + s.work.weight + 6 * s.pending.toNat + (s.calls.map CallPc.weight).sum

section

variable {s t : QueueSt ρ}

lemma inv_init (queuedata : Bool) : (QueueSt.init queuedata : QueueSt ρ).Inv :=
  ⟨rfl, .nil, rfl, rfl, nofun, fun h => absurd rfl h⟩

/-- A call that moves on without touching list or lock. -/
lemma between_of_ne {l r : List (CallPc ρ)} {c c' : CallPc ρ} (hc : c.between = false)
    (h : ∃ x ∈ l ++ c :: r, x.between = true) : ∃ x ∈ l ++ c' :: r, x.between = true := by
  obtain ⟨x, hx, hb⟩ := h
  refine ⟨x, ?_, hb⟩
  simp only [List.mem_append, List.mem_cons] at hx ⊢
  rcases hx with hx | rfl | hx
  · exact Or.inl hx
  · rw [hc] at hb
    cases hb
  · exact Or.inr (Or.inr hx)

/-- A call that moves on without putting a request on the list. -/
lemma accepted_perm {l r : List (CallPc ρ)} {c c' : CallPc ρ} {rqs : List ρ}
    (h : rqs.Perm ((l ++ c :: r).filterMap CallPc.accepted)) (hc : c'.accepted = c.accepted) :
    rqs.Perm ((l ++ c' :: r).filterMap CallPc.accepted) := by
  simp only [List.filterMap_append, List.filterMap_cons, hc] at h ⊢
  exact h

/-- **Every step of the parties keeps the invariant.** -/
lemma QueueInternal.inv (h : QueueInternal s t) (hi : s.Inv) : t.Inv := by
  obtain ⟨hlock, hacc, hadd, hst, hlv, hseen⟩ := hi
  cases h with
  | refuse hc hd =>
    rw [hc] at hlock hseen hacc
    refine ⟨?_, accepted_perm hacc rfl, hadd, hst, hlv, fun hq => ?_⟩
    · simpa [CallPc.holds] using hlock
    · exact (hseen hq).imp_right (Or.imp_right (between_of_ne rfl))
  | lock hc hd hl =>
    rw [hc] at hlock hseen hacc
    refine ⟨?_, accepted_perm hacc rfl, hadd, hst, hlv, fun hq => ?_⟩
    · rw [hl] at hlock
      simp only [List.countP_append, List.countP_cons, CallPc.holds, Bool.toNat_false,
        Bool.false_eq_true, if_false, if_true, Bool.toNat_true] at hlock ⊢
      omega
    · exact (hseen hq).imp_right (Or.imp_right (between_of_ne rfl))
  | listAddTail hc =>
    rw [hc] at hlock hacc
    have hholds : s.work.holds = false := by
      simp only [List.countP_append, List.countP_cons, CallPc.holds, if_true] at hlock
      have := Bool.toNat_le s.lock
      cases hw : s.work.holds
      · rfl
      · rw [hw] at hlock
        simp only [Bool.toNat_true] at hlock
        omega
    refine ⟨?_, ?_, ?_, hst, fun hw => ?_,
      fun _ => Or.inr (Or.inr ⟨_, List.mem_append_right _ List.mem_cons_self, rfl⟩)⟩
    · simpa [List.countP_cons, CallPc.holds] using hlock
    · simp only [List.filterMap_append, List.filterMap_cons, CallPc.accepted] at hacc ⊢
      exact (List.perm_append_singleton _ _).trans ((hacc.cons _).trans List.perm_middle.symm)
    · simp only [hadd, List.append_assoc]
    · rw [show s.work = .leaving from hw] at hholds
      cases hholds
  | unlock hc =>
    rw [hc] at hlock hacc
    refine ⟨?_, accepted_perm hacc rfl, hadd, hst, hlv,
      fun _ => Or.inr (Or.inr ⟨_, List.mem_append_right _ List.mem_cons_self, rfl⟩)⟩
    · simp only [List.countP_append, List.countP_cons, CallPc.holds, Bool.toNat_false,
        Bool.false_eq_true, if_false, if_true] at hlock ⊢
      have := Bool.toNat_le s.lock
      omega
  | queueWork hc =>
    rw [hc] at hlock hacc
    refine ⟨?_, accepted_perm hacc rfl, hadd, hst, hlv, fun _ => Or.inl rfl⟩
    simpa [CallPc.holds] using hlock
  | workStart hw hp =>
    rw [hw] at hlock hadd hst
    exact ⟨hlock, hacc, hadd, hst, nofun, fun _ => Or.inr (Or.inl rfl)⟩
  | workLock hw hl =>
    rw [hw] at hlock hadd hst
    refine ⟨?_, hacc, hadd, hst, nofun, fun _ => Or.inr (Or.inl rfl)⟩
    rw [hl] at hlock
    simp only [WorkPc.holds, Bool.toNat_false, Bool.toNat_true] at hlock ⊢
    omega
  | nextRequest hw hq =>
    rw [hw] at hlock hadd hst
    rw [hq] at hadd
    refine ⟨hlock, hacc, ?_, ?_, nofun, fun _ => Or.inr (Or.inl rfl)⟩
    · rw [hadd]
      simp [WorkPc.current]
    · simp only [hst, WorkPc.current, List.append_nil]
  | noRequest hw hq =>
    rw [hw] at hlock hadd hst
    exact ⟨hlock, hacc, hadd, hst, fun _ => hq, fun h => absurd hq h⟩
  | workUnlock hw =>
    rw [hw] at hlock hadd hst
    refine ⟨?_, hacc, hadd, hst, nofun, fun _ => Or.inr (Or.inl rfl)⟩
    simp only [WorkPc.holds, Bool.toNat_false, Bool.toNat_true] at hlock ⊢
    have := Bool.toNat_le s.lock
    omega
  | endRequest hw =>
    rw [hw] at hlock hadd hst
    refine ⟨hlock, hacc, ?_, ?_, nofun, fun _ => Or.inr (Or.inl rfl)⟩
    · simp only [hadd, WorkPc.current, List.append_nil]
    · simp only [hst, WorkPc.current, List.append_nil]
  | workRelock hw hl =>
    rw [hw] at hlock hadd hst
    refine ⟨?_, hacc, hadd, hst, nofun, fun _ => Or.inr (Or.inl rfl)⟩
    rw [hl] at hlock
    simp only [WorkPc.holds, Bool.toNat_false, Bool.toNat_true] at hlock ⊢
    omega
  | workLeave hw =>
    have hempty := hlv hw
    rw [hw] at hlock hadd hst
    refine ⟨?_, hacc, hadd, hst, nofun, fun h => absurd hempty h⟩
    simp only [WorkPc.holds, Bool.toNat_false, Bool.toNat_true] at hlock ⊢
    have := Bool.toNat_le s.lock
    omega
  | workReturn hw =>
    rw [hw] at hlock hadd hst hseen
    exact ⟨hlock, hacc, hadd, hst, nofun, hseen⟩

lemma QueueStep.inv (h : QueueStep s t) (hi : s.Inv) : t.Inv := by
  cases h with
  | call rq =>
    refine ⟨?_, ?_, hi.added, hi.started, hi.leaving, fun hq => ?_⟩
    · rw [List.countP_append]
      exact hi.lock
    · rw [List.filterMap_append]
      simpa [List.filterMap_cons, CallPc.accepted] using hi.accepted
    · rcases hi.seen hq with h | h | ⟨c, hc, hb⟩
      · exact Or.inl h
      · exact Or.inr (Or.inl h)
      · exact Or.inr (Or.inr ⟨c, List.mem_append_left _ hc, hb⟩)
  | internal h => exact h.inv hi

/-- The invariant holds in every state that can be reached. -/
lemma inv_of_reachable {queuedata : Bool}
    (h : Relation.ReflTransGen QueueStep (QueueSt.init queuedata) s) : s.Inv := by
  induction h with
  | refl => exact inv_init queuedata
  | tail _ hstep ih => exact hstep.inv ih

/-- Every step of the parties brings the end nearer. -/
lemma QueueInternal.measure_lt (h : QueueInternal s t) : t.measure < s.measure := by
  cases h with
  | refuse hc _ => simp [QueueSt.measure, hc, CallPc.weight]
  | lock hc _ _ => simp [QueueSt.measure, hc, CallPc.weight]
  | listAddTail hc =>
    simp only [QueueSt.measure, hc, CallPc.weight, List.length_append, List.length_singleton,
      List.map_append, List.map_cons, List.sum_append, List.sum_cons]
    omega
  | unlock hc => simp [QueueSt.measure, hc, CallPc.weight]
  | queueWork hc =>
    simp only [QueueSt.measure, hc, CallPc.weight, List.map_append, List.map_cons, List.sum_append,
      List.sum_cons, Bool.toNat_true]
    omega
  | workStart hw hp => simp [QueueSt.measure, hw, hp, WorkPc.weight]
  | workLock hw _ => simp [QueueSt.measure, hw, WorkPc.weight]
  | nextRequest hw hq =>
    simp only [QueueSt.measure, hw, hq, WorkPc.weight, List.length_cons]
    omega
  | noRequest hw _ => simp [QueueSt.measure, hw, WorkPc.weight]
  | workUnlock hw => simp [QueueSt.measure, hw, WorkPc.weight]
  | endRequest hw => simp [QueueSt.measure, hw, WorkPc.weight]
  | workRelock hw _ => simp [QueueSt.measure, hw, WorkPc.weight]
  | workLeave hw => simp [QueueSt.measure, hw, WorkPc.weight]
  | workReturn hw => simp [QueueSt.measure, hw, WorkPc.weight]

/-- With the lock free the work function can go on. -/
lemma exists_work_step (hl : s.lock = false) (hw : s.work ≠ .idle) : ∃ t, QueueInternal s t := by
  cases h : s.work with
  | idle => exact absurd h hw
  | entry => exact ⟨_, .workLock h hl⟩
  | top =>
    cases hq : s.rqList with
    | nil => exact ⟨_, .noRequest h hq⟩
    | cons rq rqs => exact ⟨_, .nextRequest h hq⟩
  | taken rq => exact ⟨_, .workUnlock h⟩
  | transfer rq => exact ⟨_, .endRequest h⟩
  | relock => exact ⟨_, .workRelock h hl⟩
  | leaving => exact ⟨_, .workLeave h⟩
  | returning => exact ⟨_, .workReturn h⟩

/-- The party that holds the lock can go on. -/
lemma exists_holder_step (hi : s.Inv) (hl : s.lock = true) : ∃ t, QueueInternal s t := by
  have hlock := hi.lock
  rw [hl] at hlock
  cases hw : s.work with
  | top =>
    cases hq : s.rqList with
    | nil => exact ⟨_, .noRequest hw hq⟩
    | cons rq rqs => exact ⟨_, .nextRequest hw hq⟩
  | taken rq => exact ⟨_, .workUnlock hw⟩
  | leaving => exact ⟨_, .workLeave hw⟩
  | idle | entry | transfer | relock | returning =>
    rw [hw] at hlock
    have hpos : 0 < s.calls.countP CallPc.holds := by
      simp only [WorkPc.holds, Bool.toNat_false, Bool.toNat_true] at hlock
      omega
    obtain ⟨c, hc, hh⟩ := List.countP_pos_iff.1 hpos
    obtain ⟨l, r, hlr⟩ := List.append_of_mem hc
    cases c with
    | locked rq => exact ⟨_, .listAddTail hlr⟩
    | added rq => exact ⟨_, .unlock hlr⟩
    | enter | unlocked | returned | refused => cases hh

/-- As long as a call or the work is under way some party can go on. -/
lemma exists_internal (hi : s.Inv)
    (h : (∃ c ∈ s.calls, c.over = false) ∨ s.work ≠ .idle ∨ s.pending = true) :
    ∃ t, QueueInternal s t := by
  by_cases hl : s.lock = true
  · exact exists_holder_step hi hl
  have hl : s.lock = false := by simpa using hl
  by_cases hw : s.work = .idle
  swap
  · exact exists_work_step hl hw
  rcases h with ⟨c, hc, hover⟩ | h | h
  · obtain ⟨l, r, hlr⟩ := List.append_of_mem hc
    cases c with
    | enter rq =>
      cases hd : s.queuedata with
      | false => exact ⟨_, .refuse hlr hd⟩
      | true => exact ⟨_, .lock hlr hd hl⟩
    | locked rq => exact ⟨_, .listAddTail hlr⟩
    | added rq => exact ⟨_, .unlock hlr⟩
    | unlocked rq => exact ⟨_, .queueWork hlr⟩
    | returned | refused => cases hover
  · exact absurd hw h
  · exact ⟨_, .workStart hw h⟩

/-- Where no party can go on every request has ended. -/
lemma QueueSt.Inv.ended_of_stuck (hi : s.Inv) (h : ∀ t, ¬QueueInternal s t) :
    s.rqList = [] ∧ s.ended = s.added ∧ s.started = s.added ∧ ∀ c ∈ s.calls, c.over = true := by
  have hover : ∀ c ∈ s.calls, c.over = true := by
    intro c hc
    by_contra hne
    obtain ⟨t, ht⟩ := exists_internal hi (Or.inl ⟨c, hc, by simpa using hne⟩)
    exact h t ht
  have hidle : s.work = .idle := by
    by_contra hne
    obtain ⟨t, ht⟩ := exists_internal hi (Or.inr (Or.inl hne))
    exact h t ht
  have hpend : s.pending = false := by
    by_contra hne
    obtain ⟨t, ht⟩ := exists_internal hi (Or.inr (Or.inr (by simpa using hne)))
    exact h t ht
  have hq : s.rqList = [] := by
    by_contra hne
    rcases hi.seen hne with hp | hw | ⟨c, hc, hb⟩
    · rw [hpend] at hp
      cases hp
    · rw [hidle] at hw
      cases hw
    · have hret := hover c hc
      cases c with
      | added | unlocked => cases hret
      | enter | locked | returned | refused => cases hb
  have hadd := hi.added
  have hst := hi.started
  rw [hidle] at hadd hst
  rw [hq] at hadd
  simp only [WorkPc.current, List.append_nil] at hadd hst
  exact ⟨hq, hadd.symm, hst.trans hadd.symm, hover⟩

/-- **No request is lost, duplicated or stuck.** In every state that can be reached: the requests
put on the list are those of the calls that got so far, and in this order are those that have
ended, the one in progress and those on the list; those started are the ended ones and the one in
progress. If the list is not empty the work is queued, or will look at the list again, or some call
is about to queue it. Without new calls the steps come to an end, and then every call has returned
and every request put on the list has been started and ended once, in this order. -/
theorem queue_delivers {queuedata : Bool}
    (h : Relation.ReflTransGen QueueStep (QueueSt.init queuedata) s) :
    s.added.Perm (s.calls.filterMap CallPc.accepted) ∧
    s.added = s.ended ++ s.work.current ++ s.rqList ∧
    s.started = s.ended ++ s.work.current ∧
    (s.rqList ≠ [] →
      s.pending = true ∨ s.work.looks = true ∨ ∃ c ∈ s.calls, c.between = true) ∧
    Acc (fun t u => QueueInternal u t) s ∧
    ∀ t, Relation.ReflTransGen QueueInternal s t → (∀ u, ¬QueueInternal t u) →
      t.rqList = [] ∧ t.ended = t.added ∧ t.started = t.added ∧ ∀ c ∈ t.calls, c.over = true := by
  have hi := inv_of_reachable h
  refine ⟨hi.accepted, hi.added, hi.started, hi.seen, ?_, fun t ht hstuck => ?_⟩
  · have hwf : WellFounded fun t u : QueueSt ρ => t.measure < u.measure :=
      InvImage.wf QueueSt.measure Nat.lt_wfRel.wf
    exact Subrelation.accessible (fun h => QueueInternal.measure_lt h) (hwf.apply s)
  · have hreach : Relation.ReflTransGen QueueStep (QueueSt.init queuedata) t :=
      h.trans (ht.lift id fun _ _ => QueueStep.internal)
    exact (inv_of_reachable hreach).ended_of_stuck hstuck

end

/-- One call that has put its request on the list and released the lock. -/
theorem queue_delivers_unlocked :
    let s : QueueSt ℕ := { QueueSt.init true with
      rqList := [7]
      added := [7]
      calls := [.unlocked 7] }
    Relation.ReflTransGen QueueStep (QueueSt.init true) s ∧
      (s.rqList ≠ [] →
        s.pending = true ∨ s.work.looks = true ∨ ∃ c ∈ s.calls, c.between = true) := by
  intro s
  have hrun : Relation.ReflTransGen QueueStep (QueueSt.init true) s := by
    refine .head (.call _ 7) (.head (.internal (.lock (l := []) (r := []) rfl rfl rfl)) ?_)
    refine .head (.internal (.listAddTail (l := []) (r := []) rfl)) ?_
    exact .single (.internal (.unlock (l := []) (r := []) rfl))
  exact ⟨hrun, (queue_delivers hrun).2.2.2.1⟩

end Amlnf
