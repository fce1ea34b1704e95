import Amlnf.Phy.PageTransfer

set_option relaxedAutoImplicit false
set_option autoImplicit false

/-!
# `read_page` as a transition system

Every run of `read_page` is a sequence of steps, one for each page that comes over the bus. A
step is what one page does to the bench, followed by the move of the loop variables; invariants
of whole runs are proved for these steps only.

## Main definitions

* `Bus.PageStep` — what one page does to the bench and to `retry_cnt`.
* `Bus.Turn`, `Bus.Turn.after` — where `read_page` stands, and where it goes after a page.
* `Bus.ReadStep`, `Bus.ReadSteps` — one step and a sequence of steps.

## Main results

* `Bus.readPage_steps` — a run of `read_page` that returns is a sequence of steps.
* `Bus.ReadSteps.invariant` — what every step keeps holds after every sequence of steps.
-/

namespace Amlnf.Bus

open Act

/-! ## The verdict -/

section Verdict

variable {fl : Flash} {ctl : Controller} {req : PageReq}

/-- With the ECC engine a page is made of whole ECC steps. -/
lemma pageSize_mod (h : req.soft ctl = false) : req.pageSize ctl % ctl.eccUnit = 0 := by
  unfold PageReq.pageSize
  split
  · exact Nat.mod_self _
  · rw [if_neg (by simp [h])]
    exact Nat.mul_mod_left _ _

/-- With the ECC engine the size of a page is never refused. -/
lemma hweccCorrect_ne_argument (h : req.soft ctl = false) (x : Transfer) :
    hweccCorrect ctl (req.pageSize ctl) x ≠ .argument := by
  have hloop : ∀ n step cur, hweccLoop ctl x n step cur ≠ .argument := by
    intro n
    induction n with
    | zero => exact fun _ _ => nofun
    | succ n ih =>
      intro step cur
      rw [hweccLoop]
      split
      · exact nofun
      · exact ih _ _
  rw [hweccCorrect, if_neg (by simp [pageSize_mod h])]
  exact hloop _ _ _

/-- Without the ECC engine every page is taken as it is. -/
lemma verdict_soft (h : req.soft ctl = true) (x : Transfer) : req.verdict ctl x = .ok := if_pos h

/-- With it the verdict is that of `hwecc_correct`. -/
lemma verdict_hard (h : req.soft ctl = false) (x : Transfer) :
    req.verdict ctl x = match hweccCorrect ctl (req.pageSize ctl) x with
      | .failure zeroCnt => if zeroCnt < ctl.eccMax then .blank else .fail
      | _ => .ok := if_neg (by simp [h])

end Verdict

/-! ## What one page does -/

section Steps

variable (fl : Flash) (ctl : Controller) (req : PageReq)

/-- A page that came over the bus, with its user bytes collected if the ECC engine is used. -/
def PageReq.take (b : Bench) (f : Fetch) : Bench :=
  if req.soft ctl then b.fetch (req.dmaSize ctl) f
  else (b.fetch (req.dmaSize ctl) f).putUser
    (ctl.getUserByte f.page.words (req.userByteNum ctl))

/-- Copy a page to the caller if there is a buffer. -/
def PageReq.dlv (b : Bench) (f : Fetch) (allFf : Bool) : Bench :=
  let b := if req.withData then b.deliver (req.pageSize ctl) f allFf else b
  if req.withOob then b.passUser (req.userByteNum ctl) allFf else b

/-- The calls that leave the retry mode, if there was a retry. -/
def exitCalls (chip retryCnt : ℕ) : List ChipCall := if retryCnt ≠ 0 then [.exit chip] else []

/-- The reset of a Hynix chip that gave up. -/
def resetCalls (resets : Bool) (chip : ℕ) : List ChipCall :=
  if resets ∧ fl.newType.isHynix then [.reset chip] else []

/-- Several calls on the chips. -/
def Bench.note (b : Bench) (l : List ChipCall) : Bench := { b with calls := l ++ b.calls }

/-- What a page of a chip and a plane does to the bench and to `retry_cnt`, by the verdict. -/
inductive PageStep (chip plane : ℕ) (resets : Bool) :
    Bench → ℕ → Bench → AttemptEnd → ℕ → Prop
  | again {b : Bench} {n : ℕ} (x : Transfer) (hv : req.verdict ctl x = .fail)
      (hr : req.retries fl = true) (hn : n < req.budget fl) :
      PageStep chip plane resets b n
        ((req.take ctl b ⟨chip, plane, x⟩).call (.handle chip)) .again (n + 1)
  | blank {b : Bench} {n : ℕ} (x : Transfer) (hv : req.verdict ctl x = .blank) :
      PageStep chip plane resets b n
        (req.dlv ctl (req.take ctl b ⟨chip, plane, x⟩) ⟨chip, plane, x⟩ true) .blank n
  | ok {b : Bench} {n : ℕ} (x : Transfer) (hv : req.verdict ctl x = .ok) :
      PageStep chip plane resets b n
        (req.dlv ctl ((req.take ctl b ⟨chip, plane, x⟩).note (exitCalls chip n))
          ⟨chip, plane, x⟩ false) .corrected n
  | given {b : Bench} {n : ℕ} (x : Transfer) (hv : req.verdict ctl x = .fail)
      (hn : req.retries fl = true → req.budget fl ≤ n) :
      PageStep chip plane resets b n
        (req.dlv ctl ((req.take ctl b ⟨chip, plane, x⟩).err.note
          (exitCalls chip (if req.retries fl then n + 1 else n) ++ resetCalls fl resets chip))
          ⟨chip, plane, x⟩ false)
        .uncorrected (if req.retries fl then n + 1 else n)

/-! ## Where `read_page` stands -/

/-- The chips whose turn is not over, the first having its turn now, whether its second plane
comes next, `plane0_retry_flag`, `retry_cnt` and the bench. -/
structure Turn where
  chips : List ℕ
  second : Bool
  flag : Bool
  cnt : ℕ
  bench : Bench

/-- The plane that comes next. -/
def Turn.plane (T : Turn) : ℕ := if T.second then 1 else 0

/-- Is this the last plane of its chip? -/
def Turn.isLast (T : Turn) : Bool := T.second || !req.para.option.multiPlane

/-- The head of a round: the first plane is skipped once it was read. -/
def roundAt (chips : List ℕ) (flag : Bool) (cnt : ℕ) (b : Bench) : Turn :=
  ⟨chips, req.para.option.multiPlane && flag, flag, cnt, b⟩

/-- `plane0_retry_flag` after the last plane of a chip was read. -/
def Turn.flagAfter (T : Turn) : Bool :=
  if req.para.option.multiPlane then (ctl.micron && req.soft ctl) && T.flag else T.flag

/-- Where `read_page` goes after a page it is done with and that was not blank. -/
def Turn.afterRead (T : Turn) (b : Bench) : Turn :=
  if T.isLast req then roundAt req T.chips.tail (T.flagAfter ctl req) 0 b
  else if req.soft ctl then { T with second := true, bench := b }
  else { T with second := true, flag := true, cnt := 0, bench := b }

/-- Where `read_page` goes after a page. -/
def Turn.after (T : Turn) (r : AttemptEnd) (n : ℕ) (b : Bench) : Turn :=
  match r with
  | .again => roundAt req T.chips T.flag n b
  | .blank =>
    if T.isLast req then roundAt req T.chips.tail T.flag 0 b
    else { T with second := true, cnt := n, bench := b }
  | .corrected => T.afterRead ctl req b
  | .uncorrected => T.afterRead ctl req b

/-- One step: a page of the chip whose turn it is. -/
inductive ReadStep : Turn → Turn → Prop
  | page {T : Turn} {chip : ℕ} {rest : List ℕ} {b : Bench} {r : AttemptEnd} {n : ℕ}
      (hc : T.chips = chip :: rest)
      (hp : PageStep fl ctl req chip T.plane (T.isLast req) T.bench T.cnt b r n) :
      ReadStep T (T.after ctl req r n b)

/-- A sequence of steps. -/
abbrev ReadSteps : Turn → Turn → Prop := Relation.ReflTransGen (ReadStep fl ctl req)

end Steps

section Dlv

variable (ctl : Controller) (req : PageReq) (b : Bench) (f : Fetch) (allFf : Bool)

@[simp] lemma dlv_fetched : (req.dlv ctl b f allFf).fetched = b.fetched := by
  unfold PageReq.dlv
  split <;> split <;> rfl

@[simp] lemma dlv_calls : (req.dlv ctl b f allFf).calls = b.calls := by
  unfold PageReq.dlv
  split <;> split <;> rfl

@[simp] lemma dlv_eccErr : (req.dlv ctl b f allFf).eccErr = b.eccErr := by
  unfold PageReq.dlv
  split <;> split <;> rfl

@[simp] lemma dlv_dataBuf : (req.dlv ctl b f allFf).dataBuf = b.dataBuf := by
  unfold PageReq.dlv
  split <;> split <;> rfl

lemma dlv_delivered : (req.dlv ctl b f allFf).delivered =
    if req.withData then ⟨f, allFf, b.pos⟩ :: b.delivered else b.delivered := by
  unfold PageReq.dlv
  split <;> split <;> rfl

lemma dlv_pos : (req.dlv ctl b f allFf).pos =
    if req.withData then b.pos + req.pageSize ctl else b.pos := by
  unfold PageReq.dlv
  split <;> split <;> rfl

lemma dlv_buf : (req.dlv ctl b f allFf).buf =
    if req.withData then (b.deliver (req.pageSize ctl) f allFf).buf else b.buf := by
  unfold PageReq.dlv
  split <;> split <;> rfl

@[simp] lemma take_fetched : (req.take ctl b f).fetched = f :: b.fetched := by
  unfold PageReq.take
  split <;> rfl

@[simp] lemma take_calls : (req.take ctl b f).calls = b.calls := by
  unfold PageReq.take
  split <;> rfl

@[simp] lemma take_eccErr : (req.take ctl b f).eccErr = b.eccErr := by
  unfold PageReq.take
  split <;> rfl

@[simp] lemma take_delivered : (req.take ctl b f).delivered = b.delivered := by
  unfold PageReq.take
  split <;> rfl

@[simp] lemma take_buf : (req.take ctl b f).buf = b.buf := by
  unfold PageReq.take
  split <;> rfl

@[simp] lemma take_pos : (req.take ctl b f).pos = b.pos := by
  unfold PageReq.take
  split <;> rfl

lemma take_dataBuf : (req.take ctl b f).dataBuf = (b.fetch (req.dmaSize ctl) f).dataBuf := by
  unfold PageReq.take
  split <;> rfl

end Dlv

section

variable {fl : Flash} {ctl : Controller} {req : PageReq}

/-- What a step can do: one attempt at the page of the chip whose turn it is. -/
lemma ReadStep.cases {T U : Turn} (h : ReadStep fl ctl req T U) :
    ∃ chip rest b r n, T.chips = chip :: rest ∧
      PageStep fl ctl req chip T.plane (T.isLast req) T.bench T.cnt b r n ∧
      U = T.after ctl req r n b := by
  cases h with
  | page hc hp => exact ⟨_, _, _, _, _, hc, hp, rfl⟩

/-- **Invariant rule.** What holds at the start and is kept by every step holds after every
sequence of steps. -/
lemma ReadSteps.invariant {I : Turn → Prop} {T T' : Turn} (h : ReadSteps fl ctl req T T')
    (hstep : ∀ U U', ReadStep fl ctl req U U' → I U → I U') (hI : I T) : I T' := by
  induction h with
  | refl => exact hI
  | tail _ hs ih => exact hstep _ _ hs ih

/-- Whose turn it is next does not matter to the bench. -/
lemma afterRead_bench (T : Turn) (b : Bench) : (T.afterRead ctl req b).bench = b := by
  unfold Turn.afterRead
  split
  · rfl
  · split <;> rfl

/-- Nor do the ends of an attempt. -/
lemma after_bench (ctl : Controller) (req : PageReq) (T : Turn) (r : AttemptEnd) (n : ℕ) (b : Bench) :
    (T.after ctl req r n b).bench = b := by
  cases r with
  | again => rfl
  | blank =>
    rw [Turn.after]
    split <;> rfl
  | corrected => exact afterRead_bench T b
  | uncorrected => exact afterRead_bench T b

/-- The invariant rule for a property of the bench alone: it is enough that every page keeps
it. -/
lemma ReadSteps.bench {I : Bench → Prop} {T T' : Turn} (h : ReadSteps fl ctl req T T')
    (hpage : ∀ {chip plane n n' : ℕ} {resets : Bool} {b b' : Bench} {r : AttemptEnd},
      PageStep fl ctl req chip plane resets b n b' r n' → I b → I b')
    (hI : I T.bench) : I T'.bench := by
  refine h.invariant (I := fun T => I T.bench) (fun U U' hU hI => ?_) hI
  cases hU with
  | page hc hp =>
    rw [after_bench]
    exact hpage hp hI

/-! ## The model is made of steps -/

/-- A check of the command FIFO that returns leaves the bench alone. -/
lemma checkCmdfifoSize_bench {s t : BusSt} {u : Unit} (h : checkCmdfifoSize s = (some u, t)) :
    t.toBench = s.toBench := by
  rw [checkCmdfifoSize] at h
  rw [← (Prod.mk.inj h).2]
  rfl

/-- Sending the command leaves the bench alone. -/
lemma sendCmd_bench {chip : ℕ} {s t : BusSt} {u : Unit} (h : sendCmd ctl req chip s = (some u, t)) :
    t.toBench = s.toBench := by
  obtain ⟨_, v, hv, hrest⟩ := bind_eq_some h
  rw [checkCmdfifoSize_bench hrest]
  unfold Act.when at hv
  split at hv
  · rw [← (Prod.mk.inj hv).2]
    rfl
  · rw [← (Prod.mk.inj hv).2]

/-- What a transfer leaves. -/
lemma dmaRead_bench {len chip plane : ℕ} {s t : BusSt} {f : Fetch}
    (h : dmaRead len chip plane s = (some f, t)) :
    ∃ x, f = ⟨chip, plane, x⟩ ∧ t.toBench = s.toBench.fetch len f := by
  rw [dmaRead] at h
  split at h
  · obtain ⟨hf, ht⟩ := Prod.mk.inj h
    rw [← ht, ← Option.some.inj hf]
    exact ⟨_, rfl, rfl⟩
  · cases h

/-- A delivery on the bench. -/
lemma deliver_bench (f : Fetch) (allFf : Bool) (s : BusSt) :
    deliver ctl req f allFf s = (some (), { s with toBench := req.dlv ctl s.toBench f allFf }) := by
  unfold deliver Act.when PageReq.dlv
  split <;> split <;> rfl

/-- The end of a page on the bench. -/
lemma finishPage_bench (r : AttemptEnd) (resets : Bool) (chip n : ℕ) (s : BusSt) :
    finishPage fl r resets chip n s = (some (),
      { s with toBench := Bench.note s.toBench (exitCalls chip n ++
        if r = .uncorrected then resetCalls fl resets chip else []) }) := by
  unfold finishPage Act.when resetCalls exitCalls
  by_cases hr : r = .uncorrected <;> by_cases hh : resets ∧ fl.newType.isHynix = true <;>
    by_cases hn : n = 0 <;> simp [hr, hh, hn] <;> rfl

/-- How a transfer ends: the bench it leaves and the new `retry_cnt`, by the verdict. -/
lemma pageAttempt_cases {chip plane n n' : ℕ} {s t : BusSt} {r : AttemptEnd} {f : Fetch}
    (h : pageAttempt fl ctl req chip plane n s = (some (r, f, n'), t)) :
    ∃ x, f = ⟨chip, plane, x⟩ ∧
      ((r = .corrected ∧ n' = n ∧ req.verdict ctl x = .ok ∧
          t.toBench = req.take ctl s.toBench f) ∨
        (r = .blank ∧ n' = n ∧ req.verdict ctl x = .blank ∧
          t.toBench = req.take ctl s.toBench f) ∨
        (r = .again ∧ n' = n + 1 ∧ req.verdict ctl x = .fail ∧ req.retries fl = true ∧
          n < req.budget fl ∧
          t.toBench = (req.take ctl s.toBench f).call (.handle chip)) ∨
        (r = .uncorrected ∧ n' = (if req.retries fl then n + 1 else n) ∧
          req.verdict ctl x = .fail ∧ (req.retries fl = true → req.budget fl ≤ n) ∧
          t.toBench = (req.take ctl s.toBench f).err)) := by
  obtain ⟨g, u, hu, h⟩ := bind_eq_some h
  obtain ⟨x, rfl, hb⟩ := dmaRead_bench hu
  cases hsoft : req.soft ctl with
  | true =>
    rw [if_pos hsoft] at h
    cases h
    have htake : t.toBench = req.take ctl s.toBench ⟨chip, plane, x⟩ := by
      rw [hb, PageReq.take, if_pos hsoft]
    exact ⟨x, rfl, .inl ⟨rfl, rfl, verdict_soft hsoft x, htake⟩⟩
  | false =>
    rw [if_neg (by simp [hsoft])] at h
    have hv := verdict_hard hsoft x
    obtain ⟨_, v, hput, h⟩ := bind_eq_some h
    have hb : v.toBench = req.take ctl s.toBench ⟨chip, plane, x⟩ := by
      rw [← (Prod.mk.inj hput).2]
      change u.toBench.putUser (ctl.getUserByte u.toBench.userBuf _) = _
      rw [hb, PageReq.take, if_neg (by simp [hsoft])]
      rfl
    dsimp only at h
    cases he : hweccCorrect ctl (req.pageSize ctl) x with
    | argument => exact absurd he (hweccCorrect_ne_argument hsoft x)
    | corrected cur =>
      rw [he] at h hv
      obtain ⟨_, w, hw, h⟩ := bind_eq_some h
      cases h
      refine ⟨x, rfl, .inl ⟨rfl, rfl, hv, ?_⟩⟩
      rw [← hb]
      unfold Act.when at hw
      split at hw <;> rw [← (Prod.mk.inj hw).2]
    | failure z =>
      rw [he] at h hv
      dsimp only at h hv
      by_cases hz : z < ctl.eccMax
      · rw [if_pos hz] at h hv
        cases h
        exact ⟨x, rfl, .inr (.inl ⟨rfl, rfl, hv, hb⟩)⟩
      · rw [if_neg hz] at h hv
        by_cases hr : req.retries fl = true
        · rw [if_pos hr] at h
          by_cases hn : n < req.budget fl
          · rw [if_pos hn] at h
            cases h
            exact ⟨x, rfl, .inr (.inr (.inl ⟨rfl, rfl, hv, hr, hn, by rw [← hb]⟩))⟩
          · rw [if_neg hn] at h
            cases h
            refine ⟨x, rfl, .inr (.inr (.inr ⟨rfl, (if_pos hr).symm, hv, ?_, by rw [← hb]⟩))⟩
            exact fun _ => Nat.le_of_not_lt hn
        · rw [if_neg hr] at h
          cases h
          exact ⟨x, rfl, .inr (.inr (.inr ⟨rfl, (if_neg hr).symm, hv, fun h => absurd h hr,
            by rw [← hb]⟩))⟩

/-- **A page of a round is a step.** -/
lemma pagePart_step {chip plane n n' : ℕ} {resets : Bool} {s t : BusSt} {r : AttemptEnd}
    (h : pagePart fl ctl req chip plane resets n s = (some (r, n'), t)) :
    PageStep fl ctl req chip plane resets s.toBench n t.toBench r n' := by
  obtain ⟨⟨r₁, f, n₁⟩, u, hu, hr'⟩ := bind_eq_some h
  obtain ⟨x, rfl, hcase⟩ := pageAttempt_cases hu
  rcases hcase with ⟨rfl, rfl, hv, hb⟩ | ⟨rfl, rfl, hv, hb⟩ | ⟨rfl, rfl, hv, hr, hn, hb⟩ |
    ⟨rfl, rfl, hv, hn, hb⟩
  · dsimp only at hr'
    rw [bind_some (finishPage_bench _ _ _ _ _), bind_some (deliver_bench _ _ _)] at hr'
    cases hr'
    rw [if_neg (by decide), List.append_nil, hb]
    exact .ok x hv
  · dsimp only at hr'
    rw [bind_some (deliver_bench _ _ _)] at hr'
    cases hr'
    rw [hb]
    exact .blank x hv
  · dsimp only at hr'
    obtain ⟨_, w, hw, hend⟩ := bind_eq_some hr'
    cases hend
    rw [sendCmd_bench hw, hb]
    exact .again x hv hr hn
  · dsimp only at hr'
    rw [bind_some (finishPage_bench _ _ _ _ _), bind_some (deliver_bench _ _ _)] at hr'
    cases hr'
    rw [if_pos rfl, hb]
    exact .given x hv hn

/-! ## Rounds, turns and the whole read -/

/-- Where the turn of a chip leaves `read_page`. -/
def EndsAt (ctl : Controller) (req : PageReq) (rest : List ℕ) (T : Turn) : TurnEnd → Prop
  | .busy => True
  | .leave => ctl.micron = true ∧ req.newOob ctl = true
  | .next flag => T = roundAt req rest flag 0 T.bench

/-- From `T`, the read reaches a place with the bench of `s` where a turn ends as `e` says. -/
def ReachesEnd (fl : Flash) (ctl : Controller) (req : PageReq) (T : Turn) (rest : List ℕ)
    (e : TurnEnd) (s : BusSt) : Prop :=
  ∃ T', ReadSteps fl ctl req T T' ∧ T'.bench = s.toBench ∧ EndsAt ctl req rest T' e

section Rounds

variable {T : Turn} {chip : ℕ} {rest : List ℕ}

/-- A step of the chip whose turn it is, from any place with the given bench. -/
lemma ReadSteps.page {U : Turn} {b : Bench} {r : AttemptEnd} {n : ℕ}
    (h : ReadSteps fl ctl req T U) (hc : U.chips = chip :: rest)
    (hp : PageStep fl ctl req chip U.plane (U.isLast req) U.bench U.cnt b r n) :
    ReadSteps fl ctl req T (U.after ctl req r n b) := h.tail (.page hc hp)

/-- A round of a single plane. -/
lemma onePlaneRound_steps (hm : req.para.option.multiPlane = false) (flag : Bool) (n : ℕ) :
    Spec (fun s => ReadSteps fl ctl req T (roundAt req (chip :: rest) flag n s.toBench))
      (onePlaneRound fl ctl req flag chip n)
      (fun x s => Sum.elim
        (fun n' => ReadSteps fl ctl req T (roundAt req (chip :: rest) flag n' s.toBench))
        (fun e => ReachesEnd fl ctl req T rest e s) x) fun _ => True := by
  refine Spec.of_returned fun s x t hs h => ?_
  obtain ⟨rb, u, hu, h⟩ := bind_eq_some h
  have hub : u.toBench = s.toBench := by
    rw [← (Prod.mk.inj hu).2]
    rfl
  rw [← hub] at hs
  cases rb with
  | false =>
    rw [if_pos (by simp)] at h
    cases h
    exact ⟨_, hs, rfl, trivial⟩
  | true =>
    rw [if_neg (by simp)] at h
    obtain ⟨⟨r, n'⟩, v, hv, h⟩ := bind_eq_some h
    have hplane : (roundAt req (chip :: rest) flag n u.toBench).plane = 0 := by
      simp [roundAt, Turn.plane, hm]
    have hlast : (roundAt req (chip :: rest) flag n u.toBench).isLast req = true := by
      simp [Turn.isLast, hm]
    have hp := pagePart_step hv
    rw [← hplane, ← hlast] at hp
    have hs' := hs.page rfl hp
    cases r with
    | again =>
      cases h
      exact hs'
    | blank =>
      obtain ⟨_, w, hw, h⟩ := bind_eq_some h
      cases h
      rw [Turn.after, if_pos hlast] at hs'
      exact ⟨_, hs', (checkCmdfifoSize_bench hw).symm, rfl⟩
    | corrected =>
      obtain ⟨_, w, hw, h⟩ := bind_eq_some h
      cases h
      rw [Turn.after, Turn.afterRead, if_pos hlast, Turn.flagAfter, if_neg (by simp [hm])] at hs'
      exact ⟨_, hs', (checkCmdfifoSize_bench hw).symm, rfl⟩
    | uncorrected =>
      obtain ⟨_, w, hw, h⟩ := bind_eq_some h
      cases h
      rw [Turn.after, Turn.afterRead, if_pos hlast, Turn.flagAfter, if_neg (by simp [hm])] at hs'
      exact ⟨_, hs', (checkCmdfifoSize_bench hw).symm, rfl⟩

/-- The first plane of a round. -/
lemma plane0Part_steps (hm : req.para.option.multiPlane = true) (v : Bool × ℕ) :
    Spec (fun s => ReadSteps fl ctl req T (roundAt req (chip :: rest) v.1 v.2 s.toBench))
      (plane0Part fl ctl req chip v)
      (fun x s => Sum.elim
        (fun v' => ReadSteps fl ctl req T (roundAt req (chip :: rest) v'.1 v'.2 s.toBench))
        (fun v' => ReadSteps fl ctl req T ⟨chip :: rest, true, v'.1, v'.2, s.toBench⟩) x)
      fun _ => True := by
  obtain ⟨flag, n⟩ := v
  refine Spec.of_returned fun s x t hs h => ?_
  cases flag with
  | true =>
    cases h
    rwa [roundAt, hm] at hs
  | false =>
    rw [plane0Part, if_neg (by simp)] at h
    obtain ⟨⟨r, n'⟩, w, hw, h⟩ := bind_eq_some h
    have hplane : (roundAt req (chip :: rest) false n s.toBench).plane = 0 := by
      simp [roundAt, Turn.plane]
    have hlast : (roundAt req (chip :: rest) false n s.toBench).isLast req = false := by
      simp [Turn.isLast, roundAt, hm]
    have hp : PageStep fl ctl req chip (roundAt req (chip :: rest) false n s.toBench).plane
        ((roundAt req (chip :: rest) false n s.toBench).isLast req) s.toBench n w.toBench r n' := by
      rw [hplane, hlast]
      exact pagePart_step hw
    have hs' := hs.page rfl hp
    -- the page was read: the flag is set unless the ECC engine was off
    have hread : ReadSteps fl ctl req T
        ((roundAt req (chip :: rest) false n s.toBench).afterRead ctl req w.toBench) →
        Sum.elim
          (fun v' => ReadSteps fl ctl req T (roundAt req (chip :: rest) v'.1 v'.2 w.toBench))
          (fun v' => ReadSteps fl ctl req T ⟨chip :: rest, true, v'.1, v'.2, w.toBench⟩)
          (Sum.inr (if req.soft ctl then (false, n) else (true, 0)) :
            (Bool × ℕ) ⊕ (Bool × ℕ)) := by
      intro h'
      rw [Turn.afterRead, if_neg (by simp [hlast])] at h'
      by_cases hsoft : req.soft ctl = true
      · rwa [if_pos hsoft] at h' ⊢
      · rwa [if_neg hsoft] at h' ⊢
    cases r with
    | again =>
      cases h
      exact hs'
    | blank =>
      cases h
      rwa [Turn.after, if_neg (by simp [hlast])] at hs'
    | corrected =>
      cases h
      exact hread hs'
    | uncorrected =>
      cases h
      exact hread hs'

/-- The second plane of a round. -/
lemma plane1Part_steps (hm : req.para.option.multiPlane = true) (v : Bool × ℕ) :
    Spec (fun s => ReadSteps fl ctl req T ⟨chip :: rest, true, v.1, v.2, s.toBench⟩)
      (plane1Part fl ctl req chip v)
      (fun x s => Sum.elim
        (fun v' => ReadSteps fl ctl req T (roundAt req (chip :: rest) v'.1 v'.2 s.toBench))
        (fun e => ReachesEnd fl ctl req T rest e s) x) fun _ => True := by
  refine Spec.of_returned fun s x t hs h => ?_
  obtain ⟨⟨r, n'⟩, w, hw, h⟩ := bind_eq_some h
  have hs' := hs.page rfl (pagePart_step hw)
  have hflag : Turn.flagAfter ctl req ⟨chip :: rest, true, v.1, v.2, s.toBench⟩ =
      if ctl.micron && req.soft ctl then v.1 else false := by
    rw [Turn.flagAfter, if_pos hm]
    cases ctl.micron && req.soft ctl <;> rfl
  cases r with
  | again =>
    cases h
    exact hs'
  | blank =>
    obtain ⟨_, u, hu, h⟩ := bind_eq_some h
    cases h
    exact ⟨_, hs', (checkCmdfifoSize_bench hu).symm, rfl⟩
  | corrected =>
    obtain ⟨_, u, hu, h⟩ := bind_eq_some h
    cases h
    rw [← hflag]
    exact ⟨_, hs', (checkCmdfifoSize_bench hu).symm, rfl⟩
  | uncorrected =>
    obtain ⟨_, u, hu, h⟩ := bind_eq_some h
    cases h
    rw [← hflag]
    exact ⟨_, hs', (checkCmdfifoSize_bench hu).symm, rfl⟩

/-- A round over both planes. -/
lemma twoPlaneRound_steps (hm : req.para.option.multiPlane = true) (v : Bool × ℕ) :
    Spec (fun s => ReadSteps fl ctl req T (roundAt req (chip :: rest) v.1 v.2 s.toBench))
      (twoPlaneRound fl ctl req chip v)
      (fun x s => Sum.elim
        (fun v' => ReadSteps fl ctl req T (roundAt req (chip :: rest) v'.1 v'.2 s.toBench))
        (fun e => ReachesEnd fl ctl req T rest e s) x) fun _ => True := by
  have hrb : Spec
      (fun s => ReadSteps fl ctl req T (roundAt req (chip :: rest) v.1 v.2 s.toBench))
      (queneRb chip)
      (fun _ s => ReadSteps fl ctl req T (roundAt req (chip :: rest) v.1 v.2 s.toBench))
      fun _ => True := fun s hs => hs
  refine Spec.bind hrb
    fun rb => .ite (fun _ => .pure fun s hs => ⟨_, hs, rfl, trivial⟩) fun _ => ?_
  refine Spec.bind (plane0Part_steps hm v) fun x => ?_
  cases x with
  | inl v' => exact .pure fun s hs => hs
  | inr v' =>
    exact .ite (fun h => .pure fun s hs => ⟨_, hs, rfl, h⟩) fun _ => plane1Part_steps hm v'

/-- The turn of a chip. -/
lemma readChip_steps (flag : Bool) :
    Spec (fun s => ReadSteps fl ctl req T (roundAt req (chip :: rest) flag 0 s.toBench))
      (readChip fl ctl req flag chip) (fun e s => ReachesEnd fl ctl req T rest e s)
      fun _ => True := by
  unfold readChip
  by_cases hm : req.para.option.multiPlane = true
  · rw [if_pos hm]
    exact Spec.loopUntil (I := fun (v : Bool × ℕ) (s : BusSt) =>
      ReadSteps fl ctl req T (roundAt req (chip :: rest) v.1 v.2 s.toBench))
      (twoPlaneRound_steps hm) (fun _ _ _ => trivial) _ (flag, 0)
  · rw [if_neg hm]
    exact Spec.loopUntil (I := fun (n : ℕ) (s : BusSt) =>
      ReadSteps fl ctl req T (roundAt req (chip :: rest) flag n s.toBench))
      (onePlaneRound_steps (by simpa using hm) flag) (fun _ _ _ => trivial) _ 0

end Rounds

/-- The turns of the chips: a read that returns 0 had all of them, or wanted the spare bytes of
one page only. -/
lemma readChips_steps {T : Turn} (flag : Bool) (chips : List ℕ) :
    Spec (fun s => ReadSteps fl ctl req T (roundAt req chips flag 0 s.toBench))
      (readChips fl ctl req flag chips)
      (fun r s => ∃ T', ReadSteps fl ctl req T T' ∧ T'.bench = s.toBench ∧
        (r = 0 → T'.chips = [] ∨ req.newOob ctl = true)) fun _ => True := by
  induction chips generalizing flag with
  | nil => exact .pure fun s hs => ⟨_, hs, rfl, fun _ => .inl rfl⟩
  | cons chip rest ih =>
    refine Spec.bind (readChip_steps flag) fun e => ?_
    cases e with
    | busy => exact .pure fun s ⟨T', hT, hb, _⟩ => ⟨T', hT, hb, fun h => absurd h (by decide)⟩
    | leave => exact .pure fun s ⟨T', hT, hb, he⟩ => ⟨T', hT, hb, fun _ => .inr he.2⟩
    | next g =>
      refine (ih g).mono (fun s ⟨T', hT, hb, he⟩ => ?_) (fun _ _ h => h) fun _ h => h
      rw [he, hb] at hT
      exact hT

/-- The bench after the command was sent: SLC modes were entered, nothing else. -/
def Bench.entered (b : Bench) (k : ℕ) : Bench :=
  { b with calls := List.replicate k .slcEnter ++ b.calls }

/-- The read command enters a SanDisk mode at most. -/
lemma sendRead_bench (chips : List ℕ) {s t : BusSt} {ok : Bool}
    (h : sendRead fl ctl req chips s = (some ok, t)) :
    ∃ k, t.toBench = s.toBench.entered k ∧ (fl.newType ≠ .sandisk19nm → k = 0) := by
  induction chips generalizing s with
  | nil =>
    cases h
    exact ⟨0, rfl, fun _ => rfl⟩
  | cons chip rest ih =>
    obtain ⟨rb, u, hu, h⟩ := bind_eq_some h
    have hub : u.toBench = s.toBench := by
      rw [← (Prod.mk.inj hu).2]
      rfl
    split at h
    · cases h
      exact ⟨0, hub, fun _ => rfl⟩
    · obtain ⟨_, v, hv, h⟩ := bind_eq_some h
      obtain ⟨_, w, hw, h⟩ := bind_eq_some h
      obtain ⟨k, hk, hk0⟩ := ih h
      have hwv := sendCmd_bench hw
      unfold Act.when at hv
      split at hv
      · rename_i hslc
        refine ⟨k + 1, ?_, fun hne => absurd hslc.2.2 hne⟩
        have hvs : v.toBench = s.toBench.call .slcEnter := by
          rw [← (Prod.mk.inj hv).2, ← hub]
        rw [hk, hwv, hvs, Bench.entered, Bench.entered, List.replicate_succ']
        simp [Bench.call]
      · cases hv
        exact ⟨k, by rw [hk, hwv, hub], hk0⟩

/-- The place at which a read starts. -/
def startTurn (fl : Flash) (req : PageReq) (b : Bench) : Turn :=
  roundAt req (opChips fl req.para) false 0 b

/-- **A read is a sequence of steps.** When it returns 0, every chip had its turn, or only the
spare bytes of a page were wanted. -/
theorem readPage_steps {s t : BusSt} {r : ℤ} (h : readPage fl ctl req s = (some r, t)) :
    ∃ k T, ReadSteps fl ctl req (startTurn fl req (s.toBench.entered k)) T ∧
      T.bench = t.toBench ∧ (r = 0 → T.chips = [] ∨ req.newOob ctl = true) ∧
      (fl.newType ≠ .sandisk19nm → k = 0) := by
  unfold readPage at h
  split at h
  · cases h
    exact ⟨0, _, .refl, rfl, fun h => absurd h (by decide), fun _ => rfl⟩
  · obtain ⟨ok, u, hu, h⟩ := bind_eq_some h
    obtain ⟨k, hk, hk0⟩ := sendRead_bench _ hu
    split at h
    · obtain ⟨ret, v, hv, h⟩ := bind_eq_some h
      obtain ⟨T, hT, hb, hr⟩ := (readChips_steps false _).returned (s := u) .refl hv
      obtain ⟨_, w, hw, h⟩ := bind_eq_some h
      cases h
      have hwb : t.toBench = v.toBench := by
        unfold Act.when at hw
        split at hw
        · rw [← (Prod.mk.inj hw).2]
          rfl
        · rw [← (Prod.mk.inj hw).2]
      rw [hk] at hT
      exact ⟨k, T, hT, hb.trans hwb.symm, hr, hk0⟩
    · cases h
      exact ⟨k, _, .refl, hk.symm, fun h => absurd h (by decide), hk0⟩

end

end Amlnf.Bus
