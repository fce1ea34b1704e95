import Amlnf.Lib.Descent
import Amlnf.Phy.PageSteps

set_option relaxedAutoImplicit false
set_option autoImplicit false

/-!
# Reading a page ends

`read_page` jumps back to its commands, across both of its loops, for every retry. The counter of
retries is set to zero between the planes and between the chips, and the first plane is read again
while the second one is retried as long as it was found blank. What goes down from jump to jump is
made of the chips still to come, `plane0_retry_flag` and the retries left.

## Main definitions

* `Bus.turnCnts` — the values of `retry_cnt` at the start of the rounds of a turn.
* `Bus.jumps` — the jumps back among the calls on the chips: each follows a call of the handler.
* `Bus.Turn.left` — the jumps back that are still possible.
* `Bus.BusSt.Waits` — every wait for the hardware ends in time.

## Main results

* `Bus.descends_onePlaneRound`, `Bus.descends_twoPlaneRound` — what a jump back lowers.
* `Bus.jumps_readSteps` — how many jumps back a whole run makes.
* `Bus.readPage_ends` — a bound for each turn and for the whole read, and the read returns.
-/

namespace Amlnf.Bus

open Act

variable {fl : Flash} {ctl : Controller} {req : PageReq}

/-! ## The retries of a turn -/

/-- The counter never gets near the end of an `unsigned char`. -/
lemma budget_le (fl : Flash) (req : PageReq) : req.budget fl ≤ 49 := by
  unfold PageReq.budget
  generalize pageKind fl req.para.pageAddr = kind
  cases fl.newType <;> cases kind <;> decide

/-- A page that is to be retried has a retry left, and takes it. -/
lemma PageStep.again_cnt {chip plane n n' : ℕ} {resets : Bool} {b b' : Bench}
    (h : PageStep fl ctl req chip plane resets b n b' .again n') :
    n' = n + 1 ∧ n < req.budget fl := by
  cases h with
  | again x hv hr hn => exact ⟨rfl, hn⟩

/-- A page found blank keeps the counter. -/
lemma PageStep.blank_cnt {chip plane n n' : ℕ} {resets : Bool} {b b' : Bench}
    (h : PageStep fl ctl req chip plane resets b n b' .blank n') : n' = n := by
  cases h with
  | blank x hv => rfl

/-- A round over one plane that goes on has used up one retry of the budget. -/
lemma onePlaneRound_inl {flag : Bool} {chip n n' : ℕ} {s t : BusSt}
    (h : onePlaneRound fl ctl req flag chip n s = (some (Sum.inl n'), t)) :
    n' = n + 1 ∧ n < req.budget fl := by
  obtain ⟨rb, u, _, h⟩ := bind_eq_some h
  split at h
  · cases h
  · obtain ⟨⟨r, k⟩, v, hv, h⟩ := bind_eq_some h
    have hp := pagePart_step hv
    cases r with
    | again =>
      cases h
      exact hp.again_cnt
    | blank =>
      obtain ⟨_, _, _, h⟩ := bind_eq_some h
      cases h
    | corrected =>
      obtain ⟨_, _, _, h⟩ := bind_eq_some h
      cases h
    | uncorrected =>
      obtain ⟨_, _, _, h⟩ := bind_eq_some h
      cases h

/-- A round that jumps back takes a retry; a chip with one plane has so many. -/
lemma descends_onePlaneRound (fl : Flash) (ctl : Controller) (req : PageReq) (flag : Bool)
    (chip : ℕ) :
    Descends (fun n => n ≤ req.budget fl) (fun n => req.budget fl - n)
      (onePlaneRound fl ctl req flag chip) := by
  intro n s n' t _ h
  obtain ⟨rfl, hlt⟩ := onePlaneRound_inl h
  dsimp only
  omega

/-- The first plane is retried, or it is passed with its variables unchanged, or it has been
read and the second plane gets all its retries. -/
lemma plane0Part_cases {chip : ℕ} {v : Bool × ℕ} {s t : BusSt} {r : (Bool × ℕ) ⊕ (Bool × ℕ)}
    (h : plane0Part fl ctl req chip v s = (some r, t)) :
    (v.1 = false ∧ v.2 < req.budget fl ∧ r = Sum.inl (false, v.2 + 1)) ∨ r = Sum.inr v ∨
      (v.1 = false ∧ r = Sum.inr (true, 0)) := by
  obtain ⟨flag, n⟩ := v
  cases flag with
  | true =>
    cases h
    exact .inr (.inl rfl)
  | false =>
    rw [plane0Part, if_neg (by simp)] at h
    obtain ⟨⟨e, k⟩, w, hw, h⟩ := bind_eq_some h
    have hp := pagePart_step hw
    have hread : ∀ {a : (Bool × ℕ) ⊕ (Bool × ℕ)},
        a = Sum.inr (if req.soft ctl then (false, n) else (true, 0)) →
        a = Sum.inr (false, n) ∨ (false = false ∧ a = Sum.inr (true, 0)) := by
      rintro a rfl
      split
      · exact .inl rfl
      · exact .inr ⟨rfl, rfl⟩
    cases e with
    | again =>
      cases h
      obtain ⟨hk, hlt⟩ := hp.again_cnt
      exact .inl ⟨rfl, hlt, by rw [hk]⟩
    | blank =>
      cases h
      rw [hp.blank_cnt]
      exact .inr (.inl rfl)
    | corrected =>
      cases h
      exact .inr (hread rfl)
    | uncorrected =>
      cases h
      exact .inr (hread rfl)

/-- A second plane that goes on has used up one retry of the budget. -/
lemma plane1Part_inl {chip : ℕ} {v v' : Bool × ℕ} {s t : BusSt}
    (h : plane1Part fl ctl req chip v s = (some (Sum.inl v'), t)) :
    v' = (v.1, v.2 + 1) ∧ v.2 < req.budget fl := by
  obtain ⟨⟨e, k⟩, w, hw, h⟩ := bind_eq_some h
  have hp := pagePart_step hw
  cases e with
  | again =>
    cases h
    obtain ⟨hk, hlt⟩ := hp.again_cnt
    exact ⟨by rw [hk], hlt⟩
  | blank =>
    obtain ⟨_, _, _, h⟩ := bind_eq_some h
    cases h
  | corrected =>
    obtain ⟨_, _, _, h⟩ := bind_eq_some h
    cases h
  | uncorrected =>
    obtain ⟨_, _, _, h⟩ := bind_eq_some h
    cases h

/-- A round over both planes that jumps back: a plane takes a retry, or the first plane has been
read in this round and the second one takes its first retry. -/
lemma twoPlaneRound_inl {chip : ℕ} {v v' : Bool × ℕ} {s t : BusSt}
    (h : twoPlaneRound fl ctl req chip v s = (some (Sum.inl v'), t)) :
    v.2 < req.budget fl ∧ v' = (v.1, v.2 + 1) ∨
      v.1 = false ∧ 0 < req.budget fl ∧ v' = (true, 1) := by
  obtain ⟨rb, u, _, h⟩ := bind_eq_some h
  split at h
  · cases h
  · obtain ⟨r, w, hw, h⟩ := bind_eq_some h
    rcases plane0Part_cases hw with ⟨hf, hlt, rfl⟩ | rfl | ⟨hf, rfl⟩
    · cases h
      exact .inl ⟨hlt, by rw [hf]⟩
    · dsimp only at h
      split at h
      · cases h
      · obtain ⟨hv, hlt⟩ := plane1Part_inl h
        exact .inl ⟨hlt, hv⟩
    · dsimp only at h
      split at h
      · cases h
      · obtain ⟨hv, hlt⟩ := plane1Part_inl h
        exact .inr ⟨hf, hlt, hv⟩

/-- The retries a turn over both planes has left: once the first plane was read, those of the
second one. -/
def planesLeft (B : ℕ) (v : Bool × ℕ) : ℕ := (if v.1 then B else 2 * B) - v.2

/-- A retry lowers what is left. -/
lemma planesLeft_succ {B n : ℕ} (flag : Bool) (h : n < B) :
    planesLeft B (flag, n + 1) < planesLeft B (flag, n) := by
  simp only [planesLeft]
  split <;> omega

/-- So the rounds over two planes come to an end. -/
lemma descends_twoPlaneRound (fl : Flash) (ctl : Controller) (req : PageReq) (chip : ℕ) :
    Descends (fun v => v.2 ≤ req.budget fl) (planesLeft (req.budget fl))
      (twoPlaneRound fl ctl req chip) := by
  intro v s v' t hv h
  obtain ⟨flag, n⟩ := v
  simp only at hv
  rcases twoPlaneRound_inl h with ⟨hlt, rfl⟩ | ⟨hf, hpos, rfl⟩
  · exact ⟨hlt, planesLeft_succ flag hlt⟩
  · simp only at hf
    subst hf
    refine ⟨hpos, ?_⟩
    simp only [planesLeft, if_true, Bool.false_eq_true, if_false]
    omega

/-- The values of `retry_cnt` at the start of the rounds of a turn. Each round but the first one
starts with a jump back to the command. -/
def turnCnts (fl : Flash) (ctl : Controller) (req : PageReq) (flag : Bool) (chip N : ℕ)
    (s : BusSt) : List ℕ :=
  if req.para.option.multiPlane then
    (rounds (twoPlaneRound fl ctl req chip) N (flag, 0) s).map fun r => r.1.2
  else
    (rounds (onePlaneRound fl ctl req flag chip) N 0 s).map fun r => r.1

/-- **The jumps back of a turn.** However many rounds the turn of a chip is allowed, it makes at
most one, and two for each retry; the counter stays below the limit. -/
lemma turnCnts_spec (flag : Bool) (chip N : ℕ) (s : BusSt) :
    (turnCnts fl ctl req flag chip N s).length ≤ 2 * req.budget fl + 1 ∧
      ∀ n ∈ turnCnts fl ctl req flag chip N s, n ≤ req.budget fl := by
  unfold turnCnts
  split
  · have h := descends_twoPlaneRound fl ctl req chip
    constructor
    · rw [List.length_map]
      refine (h.length_rounds N (Nat.zero_le _) s).trans (Nat.succ_le_succ ?_)
      simp only [planesLeft]
      split <;> omega
    · intro n hn
      obtain ⟨r, hr, rfl⟩ := List.mem_map.mp hn
      exact h.of_mem_rounds (Nat.zero_le _) hr
  · have h := descends_onePlaneRound fl ctl req flag chip
    constructor
    · rw [List.length_map]
      refine (h.length_rounds N (Nat.zero_le _) s).trans (Nat.succ_le_succ ?_)
      omega
    · intro n hn
      obtain ⟨r, hr, rfl⟩ := List.mem_map.mp hn
      exact h.of_mem_rounds (Nat.zero_le _) hr

/-! ## The jumps back of a whole read -/

/-- The calls of the handler, each of which is followed by a jump back. -/
def jumps (calls : List ChipCall) : ℕ :=
  calls.countP fun c => match c with
    | .handle _ => true
    | _ => false

/-- The jumps back that are still possible. -/
def Turn.left (B : ℕ) (T : Turn) : ℕ :=
  match T.chips with
  | [] => 0
  | _ :: rest => rest.length * (2 * B) + planesLeft B (T.flag, T.cnt)

/-- The calls a page adds besides the handler's. -/
lemma jumps_exitCalls (chip n : ℕ) : jumps (exitCalls chip n) = 0 := by
  unfold exitCalls
  split <;> rfl

/-- A reset is no jump. -/
lemma jumps_resetCalls (resets : Bool) (chip : ℕ) : jumps (resetCalls fl resets chip) = 0 := by
  unfold resetCalls
  split <;> rfl

/-- Jumps add up. -/
lemma jumps_append (l l' : List ChipCall) : jumps (l ++ l') = jumps l + jumps l' :=
  List.countP_append

/-- A page adds a jump back exactly when it is to be retried. -/
lemma PageStep.jumps {chip plane n n' : ℕ} {resets : Bool} {b b' : Bench} {r : AttemptEnd}
    (h : PageStep fl ctl req chip plane resets b n b' r n') :
    jumps b'.calls = jumps b.calls + if r = .again then 1 else 0 := by
  cases h with
  | again x hv hr hn =>
    rw [if_pos rfl, Bench.call, take_calls]
    exact List.countP_cons_of_pos rfl
  | blank x hv => rw [if_neg (by decide), dlv_calls, take_calls, Nat.add_zero]
  | ok x hv =>
    rw [if_neg (by decide), dlv_calls, Bench.note, jumps_append, jumps_exitCalls, take_calls,
      Nat.zero_add, Nat.add_zero]
  | given x hv hn =>
    rw [dlv_calls, Bench.note, jumps_append, jumps_append, jumps_exitCalls, jumps_resetCalls,
      Bench.err, take_calls, if_neg (show ¬AttemptEnd.uncorrected = .again by decide)]
    omega

/-- At the head of the turn of the next chip no more jumps are possible than this chip and those
behind it have. -/
lemma left_roundAt_tail (req : PageReq) (chip : ℕ) (rest : List ℕ) (B : ℕ) (flag : Bool)
    (b : Bench) :
    (roundAt req (chip :: rest).tail flag 0 b).left B ≤ rest.length * (2 * B) := by
  cases rest with
  | nil => exact Nat.zero_le _
  | cons c rest =>
    have hle : planesLeft B (flag, 0) ≤ 2 * B := by
      simp only [planesLeft]
      split <;> omega
    simp only [roundAt, Turn.left, List.tail_cons, List.length_cons, Nat.succ_mul]
    omega

/-- Where a read stands with so many jumps back made and left, at most `J` together: the counter
is within the limit, and a first plane that is still to be read has not been read. -/
structure LeftInv (fl : Flash) (req : PageReq) (J : ℕ) (T : Turn) : Prop where
  cnt_le : T.cnt ≤ req.budget fl
  unread : T.second = false → req.para.option.multiPlane = true → T.flag = false
  jumps_le : jumps T.bench.calls + T.left (req.budget fl) ≤ J

/-- At the head of a round the first plane is skipped once it was read. -/
lemma unread_roundAt {chips : List ℕ} {flag : Bool} {n : ℕ} {b : Bench}
    (h : (roundAt req chips flag n b).second = false) (hm : req.para.option.multiPlane = true) :
    flag = false := by
  simpa [roundAt, hm] using h

section Step

variable {J chip : ℕ} {rest : List ℕ} {T : Turn} {b : Bench}

/-- The turn of the chip is over. -/
lemma LeftInv.next (hT : LeftInv fl req J T) (hc : T.chips = chip :: rest)
    (hb : jumps b.calls = jumps T.bench.calls) (flag : Bool) :
    LeftInv fl req J (roundAt req T.chips.tail flag 0 b) where
  cnt_le := Nat.zero_le _
  unread := unread_roundAt
  jumps_le := by
    have hle := left_roundAt_tail req chip rest (req.budget fl) flag b
    have hJ := hT.jumps_le
    simp only [Turn.left, hc] at hJ
    rw [hc]
    change jumps b.calls + _ ≤ J
    omega

/-- The second plane comes next, with the variables unchanged. -/
lemma LeftInv.second (hT : LeftInv fl req J T) (hb : jumps b.calls = jumps T.bench.calls) :
    LeftInv fl req J { T with second := true, bench := b } where
  cnt_le := hT.cnt_le
  unread := nofun
  jumps_le := by
    have hJ := hT.jumps_le
    simp only [Turn.left] at hJ ⊢
    omega

/-- A page was read: the retries of the first plane are over, or the turn is. -/
lemma LeftInv.afterRead (hT : LeftInv fl req J T) (hc : T.chips = chip :: rest)
    (hb : jumps b.calls = jumps T.bench.calls) : LeftInv fl req J (T.afterRead ctl req b) := by
  unfold Turn.afterRead
  by_cases hlast : T.isLast req = true
  · rw [if_pos hlast]
    exact hT.next hc hb _
  · rw [if_neg hlast]
    split
    · exact hT.second hb
    · have hflag : T.flag = false := by
        simp only [Turn.isLast, Bool.or_eq_true, Bool.not_eq_true', not_or, Bool.not_eq_true,
          Bool.not_eq_false] at hlast
        exact hT.unread hlast.1 hlast.2
      refine ⟨Nat.zero_le _, by simp, ?_⟩
      have hJ := hT.jumps_le
      have hcnt := hT.cnt_le
      simp only [Turn.left, hc, planesLeft, hflag, Bool.false_eq_true, if_false, if_true] at hJ ⊢
      omega

/-- A jump back takes one of those that were left. -/
lemma LeftInv.again (hT : LeftInv fl req J T) (hc : T.chips = chip :: rest)
    (hlt : T.cnt < req.budget fl) (hb : jumps b.calls = jumps T.bench.calls + 1) :
    LeftInv fl req J (roundAt req T.chips T.flag (T.cnt + 1) b) where
  cnt_le := hlt
  unread := unread_roundAt
  jumps_le := by
    have hJ := hT.jumps_le
    have hlow := planesLeft_succ T.flag hlt
    simp only [roundAt, Turn.left, hc] at hJ ⊢
    omega

end Step

/-- Every step keeps the jumps made and left within the bound. -/
lemma readStep_leftInv {J : ℕ} {T U : Turn} (h : ReadStep fl ctl req T U)
    (hT : LeftInv fl req J T) : LeftInv fl req J U := by
  obtain ⟨chip, rest, b, r, n, hc, hp, rfl⟩ := h.cases
  have hjumps := hp.jumps
  cases r with
  | again =>
    obtain ⟨rfl, hlt⟩ := hp.again_cnt
    rw [if_pos rfl] at hjumps
    exact hT.again hc hlt hjumps
  | blank =>
    rw [if_neg (by decide), Nat.add_zero] at hjumps
    rw [Turn.after]
    split
    · exact hT.next hc hjumps _
    · obtain rfl := hp.blank_cnt
      exact hT.second hjumps
  | corrected =>
    rw [if_neg (by decide), Nat.add_zero] at hjumps
    exact hT.afterRead hc hjumps
  | uncorrected =>
    rw [if_neg (by decide), Nat.add_zero] at hjumps
    exact hT.afterRead hc hjumps

/-- **The jumps back of a whole run**: twice the retries of a page for each chip. -/
lemma jumps_readSteps {b : Bench} {T : Turn}
    (h : ReadSteps fl ctl req (startTurn fl req b) T) :
    jumps T.bench.calls ≤
      jumps b.calls + (opChips fl req.para).length * (2 * req.budget fl) := by
  have hstart : (startTurn fl req b).left (req.budget fl) ≤
      (opChips fl req.para).length * (2 * req.budget fl) := by
    unfold startTurn Turn.left roundAt
    cases opChips fl req.para with
    | nil => exact Nat.zero_le _
    | cons c rest =>
      simp only [planesLeft, List.length_cons, Nat.succ_mul, Bool.false_eq_true, if_false]
      omega
  have hinv := h.invariant (fun _ _ hs hI => readStep_leftInv hs hI)
    ⟨Nat.zero_le _, unread_roundAt, Nat.add_le_add_left hstart _⟩
  exact (Nat.le_add_right _ _).trans hinv.jumps_le

/-! ## The read returns -/

/-- Every wait for the command FIFO and for a transfer ends in time. -/
structure BusSt.Waits (s : BusSt) : Prop where
  fifo : ∀ k, s.hw.fifo k = true
  dma : ∀ chip k, s.hw.dma chip k = true

section Returns

/-- What happens on the bench waits for nothing. -/
lemma onBench_waits (g : Bench → Bench) : Returns BusSt.Waits (onBench g) :=
  .modify fun _ hs => ⟨hs.fifo, hs.dma⟩

/-- Nor does a note. -/
lemma noteCall_waits (c : ChipCall) : Returns BusSt.Waits (noteCall c) := onBench_waits _

/-- Asking the ready line returns. -/
lemma queneRb_waits (chip : ℕ) : Returns BusSt.Waits (queneRb chip) := fun _ hs => ⟨hs.fifo, hs.dma⟩

/-- The command FIFO drains. -/
lemma checkCmdfifoSize_waits : Returns BusSt.Waits checkCmdfifoSize := by
  intro s hs
  rw [checkCmdfifoSize, if_pos (hs.fifo _)]
  exact ⟨hs.fifo, hs.dma⟩

/-- Sending the command returns. -/
lemma sendCmd_waits (chip : ℕ) : Returns BusSt.Waits (sendCmd ctl req chip) :=
  .bind (.when (.bind (queneRb_waits chip) fun _ => .pure _)) fun _ => checkCmdfifoSize_waits

/-- A transfer comes to an end. -/
lemma dmaRead_waits (len chip plane : ℕ) : Returns BusSt.Waits (dmaRead len chip plane) := by
  intro s hs
  rw [dmaRead, if_pos (hs.dma _ _)]
  exact ⟨hs.fifo, hs.dma⟩

/-- A transfer and the verdict on it: the size of a page is never refused. -/
lemma pageAttempt_waits (chip plane n : ℕ) :
    Returns BusSt.Waits (pageAttempt fl ctl req chip plane n) := by
  refine .bind (dmaRead_waits _ _ _) fun f => ?_
  by_cases hsoft : req.soft ctl = true
  · rw [if_pos hsoft]
    exact .pure _
  · rw [if_neg hsoft]
    refine .bind (onBench_waits _) fun _ => ?_
    cases he : hweccCorrect ctl (req.pageSize ctl) f.page with
    | argument => exact absurd he (hweccCorrect_ne_argument (by simpa using hsoft) f.page)
    | corrected cur =>
      exact .bind (.when (.modify fun _ hs => ⟨hs.fifo, hs.dma⟩)) fun _ => .pure _
    | failure z =>
      refine .ite (.pure _) (.ite (.ite ?_ ?_) ?_)
      · exact .bind (noteCall_waits _) fun _ => .pure _
      · exact .bind (onBench_waits _) fun _ => .pure _
      · exact .bind (onBench_waits _) fun _ => .pure _

/-- Copying a page returns. -/
lemma deliver_waits (f : Fetch) (allFf : Bool) : Returns BusSt.Waits (deliver ctl req f allFf) :=
  .bind (.when (onBench_waits _)) fun _ => .when (onBench_waits _)

/-- The end of a page returns. -/
lemma finishPage_waits (r : AttemptEnd) (resets : Bool) (chip n : ℕ) :
    Returns BusSt.Waits (finishPage fl r resets chip n) :=
  .bind (.when (noteCall_waits _)) fun _ => .when (noteCall_waits _)

/-- One attempt at a page returns. -/
lemma pagePart_waits (chip plane : ℕ) (resets : Bool) (n : ℕ) :
    Returns BusSt.Waits (pagePart fl ctl req chip plane resets n) := by
  refine .bind (pageAttempt_waits _ _ _) fun x => ?_
  obtain ⟨r, f, k⟩ := x
  have hread : ∀ r, Returns BusSt.Waits (do
      finishPage fl r resets chip k
      deliver ctl req f false
      Pure.pure (r, k)) := fun r =>
    .bind (finishPage_waits _ _ _ _) fun _ => .bind (deliver_waits _ _) fun _ => .pure _
  cases r with
  | again => exact .bind (sendCmd_waits _) fun _ => .pure _
  | blank => exact .bind (deliver_waits _ _) fun _ => .pure _
  | corrected => exact hread _
  | uncorrected => exact hread _

/-- A round over one plane returns. -/
lemma onePlaneRound_waits (flag : Bool) (chip n : ℕ) :
    Returns BusSt.Waits (onePlaneRound fl ctl req flag chip n) := by
  refine .bind (queneRb_waits _) fun rb => .ite (.pure _) (.bind (pagePart_waits _ _ _ _) fun x => ?_)
  obtain ⟨r, k⟩ := x
  cases r with
  | again => exact .pure _
  | blank => exact .bind checkCmdfifoSize_waits fun _ => .pure _
  | corrected => exact .bind checkCmdfifoSize_waits fun _ => .pure _
  | uncorrected => exact .bind checkCmdfifoSize_waits fun _ => .pure _

/-- The first plane of a round returns. -/
lemma plane0Part_waits (chip : ℕ) (v : Bool × ℕ) :
    Returns BusSt.Waits (plane0Part fl ctl req chip v) := by
  refine .ite (.pure _) (.bind (pagePart_waits _ _ _ _) fun x => ?_)
  obtain ⟨r, k⟩ := x
  cases r <;> exact .pure _

/-- The second plane of a round returns. -/
lemma plane1Part_waits (chip : ℕ) (v : Bool × ℕ) :
    Returns BusSt.Waits (plane1Part fl ctl req chip v) := by
  refine .bind (pagePart_waits _ _ _ _) fun x => ?_
  obtain ⟨r, k⟩ := x
  cases r with
  | again => exact .pure _
  | blank => exact .bind checkCmdfifoSize_waits fun _ => .pure _
  | corrected => exact .bind checkCmdfifoSize_waits fun _ => .pure _
  | uncorrected => exact .bind checkCmdfifoSize_waits fun _ => .pure _

/-- A round over two planes returns. -/
lemma twoPlaneRound_waits (chip : ℕ) (v : Bool × ℕ) :
    Returns BusSt.Waits (twoPlaneRound fl ctl req chip v) := by
  refine .bind (queneRb_waits _) fun rb => .ite (.pure _) (.bind (plane0Part_waits _ _) fun x => ?_)
  cases x with
  | inl v => exact .pure _
  | inr v => exact .ite (.pure _) (plane1Part_waits _ _)

/-- The turn of a chip returns: 256 rounds are more than the retries allow. -/
lemma readChip_waits (flag : Bool) (chip : ℕ) :
    Returns BusSt.Waits (readChip fl ctl req flag chip) := by
  have hbudget := budget_le fl req
  refine .ite ?_ ?_
  · refine (descends_twoPlaneRound fl ctl req chip).returns (twoPlaneRound_waits chip)
      (Nat.zero_le _) ?_
    simp only [planesLeft]
    split <;> omega
  · refine (descends_onePlaneRound fl ctl req flag chip).returns (onePlaneRound_waits flag chip)
      (Nat.zero_le _) ?_
    omega

/-- The turns of the chips return. -/
lemma readChips_waits (flag : Bool) (chips : List ℕ) :
    Returns BusSt.Waits (readChips fl ctl req flag chips) := by
  induction chips generalizing flag with
  | nil => exact .pure _
  | cons chip rest ih =>
    refine .bind (readChip_waits flag chip) fun e => ?_
    cases e with
    | busy => exact .pure _
    | leave => exact .pure _
    | next flag => exact ih flag

/-- Sending the read command to the chips returns. -/
lemma sendRead_waits (chips : List ℕ) : Returns BusSt.Waits (sendRead fl ctl req chips) := by
  induction chips with
  | nil => exact .pure _
  | cons chip rest ih =>
    refine .bind (queneRb_waits _) fun rb => .ite (.pure _) (.bind (.when (noteCall_waits _)) fun _ => ?_)
    exact .bind (sendCmd_waits _) fun _ => ih

/-- `read_page` returns. -/
lemma readPage_waits : Returns BusSt.Waits (readPage fl ctl req) := by
  refine .ite (.pure _) (.bind (sendRead_waits _) fun ok => .ite ?_ (.pure _))
  refine .bind (readChips_waits _ _) fun ret => .bind (.when (.modify ?_)) fun _ => .pure _
  exact fun _ hs => ⟨hs.fifo, hs.dma⟩

end Returns

/-- The calls of the SLC mode are no jumps. -/
lemma jumps_entered (b : Bench) (k : ℕ) : jumps (b.entered k).calls = jumps b.calls := by
  have hslc : jumps (List.replicate k .slcEnter) = 0 := by
    rw [jumps, List.countP_eq_zero]
    intro c hc
    rw [(List.mem_replicate.mp hc).2]
    exact Bool.false_ne_true
  rw [Bench.entered, jumps_append, hslc, Nat.zero_add]

/-- **Reading a page ends.** Whatever the pages read as, and however many rounds the turn of a
chip is allowed, it makes at most one round and two for each retry, with the counter far from the
end of its range. When no wait for the hardware fails, the read returns, after at most two jumps
back for each retry and chip. -/
theorem readPage_ends (fl : Flash) (ctl : Controller) (req : PageReq) :
    (∀ flag chip N s, (turnCnts fl ctl req flag chip N s).length ≤ 2 * req.budget fl + 1 ∧
      ∀ n ∈ turnCnts fl ctl req flag chip N s, n + 1 < 2 ^ 8) ∧
    ∀ s : BusSt, s.Waits → ∃ r t, readPage fl ctl req s = (some r, t) ∧
      jumps t.calls ≤
        jumps s.calls + (opChips fl req.para).length * (2 * req.budget fl) := by
  refine ⟨fun flag chip N s => ⟨(turnCnts_spec flag chip N s).1, fun n hn => ?_⟩, fun s hs => ?_⟩
  · have hle := (turnCnts_spec flag chip N s).2 n hn
    have hbudget := budget_le fl req
    omega
  · obtain ⟨r, t, ht, _⟩ := readPage_waits.exists_eq hs
    obtain ⟨k, T, hT, hb, _, _⟩ := readPage_steps ht
    refine ⟨r, t, ht, ?_⟩
    rw [← hb, ← jumps_entered s.toBench k]
    exact jumps_readSteps hT

/-- A read of both planes of a Hynix chip that never delivers a correctable page returns. -/
theorem readPage_ends_uncorrectable :
    ∃ r t, readPage Flash.h27ucg8t2a ctl8k
      { para := { option := { multiPlane := true } }, withData := true, withOob := true }
      (startSt (.steady (.uniform 0x3f3f0000 0) 0xe0) (fun _ => 0) fun _ => 0) = (some r, t) ∧
      jumps t.calls ≤ 98 := by
  obtain ⟨r, t, ht, hle⟩ := (readPage_ends Flash.h27ucg8t2a ctl8k
    { para := { option := { multiPlane := true } }, withData := true, withOob := true }).2
    (startSt (.steady (.uniform 0x3f3f0000 0) 0xe0) (fun _ => 0) fun _ => 0)
    ⟨fun _ => rfl, fun _ _ => rfl⟩
  exact ⟨r, t, ht, hle.trans (by decide)⟩

end Amlnf.Bus
