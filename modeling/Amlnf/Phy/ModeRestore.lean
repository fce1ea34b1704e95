import Amlnf.Lib.Log
import Amlnf.Phy.PageSteps
import Amlnf.Phy.StatusCheck

set_option relaxedAutoImplicit false
set_option autoImplicit false

/-!
# Are the modes of a chip restored?

A retry programs read levels into a chip and the SLC mode of a Hynix chip changes how it is
programmed. Both are meant to be undone before the operation returns.

## Main definitions

* `Bus.ModesRestored` — every `handle` is followed by an `exit` or a reset of the same chip, and
  every `slcEnter` on a Hynix flash by an `slcExit`.
* `Bus.openFails` — how often a chip failed to deliver since it last delivered a correct page.
* `Bus.ReadSettles`, `Bus.WriteSettles` — the conditions for it.

## Main results

* `Bus.readStep_settleInv` — every step of a read keeps the invariant that ties the calls, the
  failures and `retry_cnt` together.
* `Bus.modesRestored_iff` — when a read or a write restores the modes.
-/

namespace Amlnf.Bus

open Act

/-- The calls that set the read levels of a chip. -/
def IsHandle (chip : ℕ) (x : ChipCall) : Prop := x = .handle chip

/-- The calls that set them back. -/
def IsExit (chip : ℕ) (x : ChipCall) : Prop := x = .exit chip ∨ x = .reset chip

/-- The modes of all chips are restored. -/
def ModesRestored (fl : Flash) (calls : List ChipCall) : Prop :=
  (∀ chip, Answered (IsHandle chip) (IsExit chip) calls) ∧
    (fl.newType.isHynix = true → Answered (· = .slcEnter) (· = .slcExit) calls)

/-! ## Reading -/

section Read

variable {fl : Flash} {ctl : Controller} {req : PageReq}

/-- How often a chip failed to deliver since it last delivered a correct page; blank pages do
not count. The list is newest first. -/
def openFails (ctl : Controller) (req : PageReq) (chip : ℕ) : List Fetch → ℕ
  | [] => 0
  | f :: fs =>
    if f.chip = chip then
      match req.verdict ctl f.page with
      | .ok => 0
      | .blank => openFails ctl req chip fs
      | .fail => openFails ctl req chip fs + 1
    else openFails ctl req chip fs

/-- How many retries a page gets, none when there is no retry. -/
def PageReq.maxRetry (fl : Flash) (req : PageReq) : ℕ := if req.retries fl then req.budget fl else 0

/-- A page is given up after `maxRetry` retries, so the failures of every chip since its last
correct page come in whole groups of `maxRetry + 1`. -/
def ReadSettles (fl : Flash) (ctl : Controller) (req : PageReq) (fetched : List Fetch) : Prop :=
  ∀ chip, openFails ctl req chip fetched % (req.maxRetry fl + 1) = 0

/-- The invariant of a read: the calls on a chip are restored exactly when its failures come in
whole groups, and `retry_cnt` is what is left over of the chip whose turn it is. -/
structure SettleInv (fl : Flash) (ctl : Controller) (req : PageReq) (T : Turn) : Prop where
  nodup : T.chips.Nodup
  calls : ∀ chip, Answered (IsHandle chip) (IsExit chip) T.bench.calls ↔
    openFails ctl req chip T.bench.fetched % (req.maxRetry fl + 1) = 0
  cnt : ∀ chip rest, T.chips = chip :: rest →
    T.cnt = openFails ctl req chip T.bench.fetched % (req.maxRetry fl + 1)
  later : ∀ chip ∈ T.chips.tail, openFails ctl req chip T.bench.fetched = 0

/-- With the software ECC no page counts as failed. -/
lemma openFails_soft (h : req.soft ctl = true) (chip : ℕ) (fs : List Fetch) :
    openFails ctl req chip fs = 0 := by
  induction fs with
  | nil => rfl
  | cons f fs ih =>
    rw [openFails, verdict_soft h]
    split
    · rfl
    · exact ih

/-- A page of another chip does not count. -/
lemma openFails_cons_of_ne {chip : ℕ} {f : Fetch} (h : f.chip ≠ chip) (fs : List Fetch) :
    openFails ctl req chip (f :: fs) = openFails ctl req chip fs := if_neg h

/-- Calls about one chip say nothing about another. -/
lemma answered_other {c chip : ℕ} (hc : c ≠ chip) {l calls : List ChipCall}
    (hl : ∀ x ∈ l, x = .handle c ∨ x = .exit c ∨ x = .reset c) :
    Answered (IsHandle chip) (IsExit chip) (l ++ calls) ↔
      Answered (IsHandle chip) (IsExit chip) calls := by
  refine answered_append_of_not fun x hx => ?_
  rcases hl x hx with rfl | rfl | rfl <;> simp [IsHandle, IsExit, hc]

/-- An exit restores the chip. -/
lemma answered_exit (chip : ℕ) (calls : List ChipCall) :
    Answered (IsHandle chip) (IsExit chip) (.exit chip :: calls) :=
  answered_cons_of_answer (.inl rfl) nofun

lemma answered_reset (chip : ℕ) (calls : List ChipCall) :
    Answered (IsHandle chip) (IsExit chip) (.reset chip :: calls) :=
  answered_cons_of_answer (.inr rfl) nofun

section Page

variable {chip plane n n' : ℕ} {resets : Bool} {b b' : Bench} {r : AttemptEnd}

/-- A page does nothing to the other chips. -/
lemma PageStep.other (h : PageStep fl ctl req chip plane resets b n b' r n') {c : ℕ}
    (hc : c ≠ chip) :
    openFails ctl req c b'.fetched = openFails ctl req c b.fetched ∧
      (Answered (IsHandle c) (IsExit c) b'.calls ↔ Answered (IsHandle c) (IsExit c) b.calls) := by
  have hne : chip ≠ c := hc.symm
  have hexit : ∀ m, ∀ x ∈ exitCalls chip m, x = .handle chip ∨ x = .exit chip ∨ x = .reset chip := by
    intro m x hx
    unfold exitCalls at hx
    split at hx <;> simp_all
  have hreset : ∀ x ∈ resetCalls fl resets chip,
      x = .handle chip ∨ x = .exit chip ∨ x = .reset chip := by
    intro x hx
    unfold resetCalls at hx
    split at hx <;> simp_all
  cases h with
  | again x hv hr hn =>
    simp only [Bench.call, take_fetched, take_calls]
    exact ⟨openFails_cons_of_ne hne _, answered_other (l := [.handle chip]) hne (by simp)⟩
  | blank x hv =>
    rw [dlv_fetched, dlv_calls, take_fetched, take_calls]
    exact ⟨openFails_cons_of_ne hne _, Iff.rfl⟩
  | ok x hv =>
    simp only [dlv_fetched, dlv_calls, Bench.note, take_fetched, take_calls]
    exact ⟨openFails_cons_of_ne hne _, answered_other hne (hexit _)⟩
  | given x hv hn =>
    simp only [dlv_fetched, dlv_calls, Bench.note, Bench.err, take_fetched, take_calls]
    refine ⟨openFails_cons_of_ne hne _, answered_other hne fun x hx => ?_⟩
    exact (List.mem_append.mp hx).elim (hexit _ x) (hreset x)

/-- What a page does to its own chip, when `retry_cnt` is what is left over of its failures: the
calls are restored exactly when nothing is left over, and after a page that was neither retried
nor blank nothing is. -/
lemma PageStep.own (h : PageStep fl ctl req chip plane resets b n b' r n')
    (hcalls : Answered (IsHandle chip) (IsExit chip) b.calls ↔
      openFails ctl req chip b.fetched % (req.maxRetry fl + 1) = 0)
    (hcnt : n = openFails ctl req chip b.fetched % (req.maxRetry fl + 1)) :
    (Answered (IsHandle chip) (IsExit chip) b'.calls ↔
      openFails ctl req chip b'.fetched % (req.maxRetry fl + 1) = 0) ∧
    (r = .again ∨ r = .blank →
      n' = openFails ctl req chip b'.fetched % (req.maxRetry fl + 1)) ∧
    (r = .corrected ∨ r = .uncorrected →
      openFails ctl req chip b'.fetched % (req.maxRetry fl + 1) = 0) := by
  have hlt : n < req.maxRetry fl + 1 := hcnt ▸ Nat.mod_lt _ (Nat.succ_pos _)
  cases h with
  | again x hv hr hn =>
    have hmax : req.maxRetry fl = req.budget fl := if_pos hr
    have hfails : openFails ctl req chip (⟨chip, plane, x⟩ :: b.fetched) =
        openFails ctl req chip b.fetched + 1 := by rw [openFails, if_pos rfl, hv]
    have hmod : openFails ctl req chip (⟨chip, plane, x⟩ :: b.fetched) %
        (req.maxRetry fl + 1) = n + 1 := by
      rw [hfails, ← Nat.mod_add_mod, ← hcnt, Nat.mod_eq_of_lt (by omega)]
    simp only [Bench.call, take_fetched, take_calls]
    refine ⟨?_, fun _ => hmod.symm, by simp⟩
    refine iff_of_false (fun h => ?_) (by simp [hmod])
    exact ((answered_cons_of_not (by simp [IsExit])).mp h).1 rfl
  | blank x hv =>
    have hfails : openFails ctl req chip (⟨chip, plane, x⟩ :: b.fetched) =
        openFails ctl req chip b.fetched := by rw [openFails, if_pos rfl, hv]
    rw [dlv_fetched, dlv_calls]
    simp only [take_fetched, take_calls, hfails]
    exact ⟨hcalls, fun _ => hcnt, by simp⟩
  | ok x hv =>
    have hfails : openFails ctl req chip (⟨chip, plane, x⟩ :: b.fetched) = 0 := by
      rw [openFails, if_pos rfl, hv]
    rw [dlv_fetched, dlv_calls]
    simp only [take_fetched, take_calls, Bench.note, hfails, Nat.zero_mod]
    refine ⟨iff_of_true ?_ trivial, by simp, fun _ => trivial⟩
    unfold exitCalls
    split
    · exact answered_exit _ _
    · exact hcalls.mpr (by omega)
  | given x hv hn =>
    have hfails : openFails ctl req chip (⟨chip, plane, x⟩ :: b.fetched) =
        openFails ctl req chip b.fetched + 1 := by rw [openFails, if_pos rfl, hv]
    have hfull : n = req.maxRetry fl := by
      unfold PageReq.maxRetry at hlt ⊢
      split at hlt
      · rename_i hr
        rw [if_pos hr]
        have := hn hr
        omega
      · rename_i hr
        rw [if_neg hr]
        omega
    have hmod : openFails ctl req chip (⟨chip, plane, x⟩ :: b.fetched) %
        (req.maxRetry fl + 1) = 0 := by
      rw [hfails, ← Nat.mod_add_mod, ← hcnt, hfull, Nat.mod_self]
    rw [dlv_fetched, dlv_calls]
    simp only [take_fetched, take_calls, Bench.err, Bench.note, hmod]
    refine ⟨iff_of_true ?_ trivial, by simp, fun _ => trivial⟩
    by_cases hr : req.retries fl = true
    · have hexit : exitCalls chip (if req.retries fl then n + 1 else n) = [.exit chip] := by
        rw [if_pos hr]
        rfl
      rw [hexit]
      exact answered_exit _ _
    · have hn0 : n = 0 := hfull.trans (if_neg hr)
      have hexit : exitCalls chip (if req.retries fl then n + 1 else n) = [] := by
        rw [if_neg hr, hn0]
        rfl
      rw [hexit]
      unfold resetCalls
      split
      · exact answered_reset _ _
      · exact hcalls.mpr (by omega)

/-- A page never enters the SLC mode. -/
lemma PageStep.slcEnter_notMem (h : PageStep fl ctl req chip plane resets b n b' r n')
    (hb : .slcEnter ∉ b.calls) : .slcEnter ∉ b'.calls := by
  cases h with
  | again x hv hr hn => simpa [Bench.call] using hb
  | blank x hv => simpa using hb
  | ok x hv =>
    unfold exitCalls
    split <;> simpa [Bench.note] using hb
  | given x hv hn =>
    unfold exitCalls resetCalls
    split <;> split <;> simpa [Bench.err, Bench.note] using hb

end Page

/-- The chip that comes next has not failed yet. -/
lemma SettleInv.next {T : Turn} {b : Bench} (hT : SettleInv fl ctl req T) {chip : ℕ} {rest : List ℕ}
    (hc : T.chips = chip :: rest)
    (hcalls : ∀ c, Answered (IsHandle c) (IsExit c) b.calls ↔
      openFails ctl req c b.fetched % (req.maxRetry fl + 1) = 0)
    (hother : ∀ c, c ≠ chip →
      openFails ctl req c b.fetched = openFails ctl req c T.bench.fetched) (flag : Bool) :
    SettleInv fl ctl req (roundAt req T.chips.tail flag 0 b) := by
  have hnd := hT.nodup
  have hlater := hT.later
  rw [hc] at hnd hlater
  rw [hc, List.tail_cons] at *
  have hzero : ∀ c ∈ rest, openFails ctl req c b.fetched = 0 := by
    intro c hcr
    have hne : c ≠ chip := fun h => (List.nodup_cons.mp hnd).1 (h ▸ hcr)
    rw [hother c hne]
    exact hlater c hcr
  refine ⟨(List.nodup_cons.mp hnd).2, hcalls, fun c cs h => ?_, fun c hcr => ?_⟩
  · change 0 = openFails ctl req c b.fetched % (req.maxRetry fl + 1)
    have h' : rest = c :: cs := h
    rw [hzero c (h' ▸ List.mem_cons_self), Nat.zero_mod]
  · exact hzero c (List.mem_of_mem_tail hcr)

/-- The same chip goes on. -/
lemma SettleInv.same {T U : Turn} {b : Bench} (hT : SettleInv fl ctl req T) {chip : ℕ}
    {rest : List ℕ} (hc : T.chips = chip :: rest) (hU : U.chips = T.chips) (hb : U.bench = b)
    (hcalls : ∀ c, Answered (IsHandle c) (IsExit c) b.calls ↔
      openFails ctl req c b.fetched % (req.maxRetry fl + 1) = 0)
    (hother : ∀ c, c ≠ chip →
      openFails ctl req c b.fetched = openFails ctl req c T.bench.fetched)
    (hcnt : U.cnt = openFails ctl req chip b.fetched % (req.maxRetry fl + 1)) :
    SettleInv fl ctl req U := by
  have hnd := hT.nodup
  refine ⟨hU ▸ hnd, hb ▸ hcalls, fun c cs h => ?_, fun c hcr => ?_⟩
  · obtain ⟨rfl, -⟩ := List.cons.inj ((hU.trans hc).symm.trans h)
    rw [hb]
    exact hcnt
  · rw [hU] at hcr
    have hne : c ≠ chip := by
      rintro rfl
      rw [hc] at hnd hcr
      exact (List.nodup_cons.mp hnd).1 hcr
    rw [hb, hother c hne]
    exact hT.later c hcr

/-- **Every step of a read keeps the invariant.** -/
lemma readStep_settleInv {T U : Turn} (h : ReadStep fl ctl req T U) (hT : SettleInv fl ctl req T) :
    SettleInv fl ctl req U := by
  obtain ⟨chip, rest, b, r, n, hc, hp, rfl⟩ := h.cases
  have hother := fun c hne => (hp.other (c := c) hne).1
  obtain ⟨hown, hleft, hdone⟩ := hp.own (hT.calls chip) (hT.cnt chip rest hc)
  have hcalls : ∀ c, Answered (IsHandle c) (IsExit c) b.calls ↔
      openFails ctl req c b.fetched % (req.maxRetry fl + 1) = 0 := by
    intro c
    by_cases hcc : c = chip
    · subst hcc
      exact hown
    · rw [(hp.other hcc).2, (hp.other hcc).1]
      exact hT.calls c
  have hread : r = .corrected ∨ r = .uncorrected →
      SettleInv fl ctl req (T.afterRead ctl req b) := by
    intro hr
    unfold Turn.afterRead
    split
    · exact hT.next hc hcalls hother _
    · split
      · rename_i hsoft
        refine hT.same hc rfl rfl hcalls hother ?_
        change T.cnt = _
        rw [hT.cnt chip rest hc, openFails_soft hsoft, openFails_soft hsoft]
      · exact hT.same hc rfl rfl hcalls hother (hdone hr).symm
  cases r with
  | again => exact hT.same hc rfl rfl hcalls hother (hleft (.inl rfl))
  | blank =>
    rw [Turn.after]
    split
    · exact hT.next hc hcalls hother _
    · exact hT.same hc rfl rfl hcalls hother (hleft (.inr rfl))
  | corrected => exact hread (.inl rfl)
  | uncorrected => exact hread (.inr rfl)

/-- A read restores the modes exactly when the failures of every chip come in whole groups. -/
lemma readPage_restored_iff {hw : Hw} {dataBuf buf : Buf} {r : ℤ} {t : BusSt}
    (h : readPage fl ctl req (startSt hw dataBuf buf) = (some r, t)) :
    ModesRestored fl t.calls ↔ ReadSettles fl ctl req t.fetched := by
  obtain ⟨k, T, hT, hb, -, hk⟩ := readPage_steps h
  have henter : ∀ x ∈ ((startSt hw dataBuf buf).toBench.entered k).calls, x = .slcEnter := by
    intro x hx
    have hx' : x ∈ List.replicate k ChipCall.slcEnter := by
      simpa [Bench.entered, startSt] using hx
    exact (List.mem_replicate.mp hx').2
  have hstart : SettleInv fl ctl req (startTurn fl req ((startSt hw dataBuf buf).toBench.entered k)) :=
    ⟨opChips_nodup fl req.para, fun c => iff_of_true (answered_of_forall_not fun x hx =>
      by simp [henter x hx, IsHandle]) rfl, fun _ _ _ => rfl, fun _ _ => rfl⟩
  have hend := hT.invariant (fun _ _ => readStep_settleInv) hstart
  have hcalls := hend.calls
  rw [hb] at hcalls
  refine ⟨fun h c => (hcalls c).mp (h.1 c), fun h => ⟨fun c => (hcalls c).mpr (h c), ?_⟩⟩
  intro hhynix
  have hk0 : k = 0 := hk fun h => by simp [h, NewType.isHynix, NewType.code] at hhynix
  have hnone : .slcEnter ∉ T.bench.calls := by
    refine hT.bench (I := fun b => .slcEnter ∉ b.calls) (fun hp hI => hp.slcEnter_notMem hI) ?_
    simp [startTurn, roundAt, Bench.entered, startSt, hk0]
  rw [hb] at hnone
  exact answered_of_forall_not fun x hx he => hnone (he ▸ hx)

end Read

/-! ## Writing -/

section Write

variable {fl : Flash} {req : PageReq}

/-- No SLC mode was left open. -/
abbrev SlcRestored (calls : List ChipCall) : Prop := Answered (· = .slcEnter) (· = .slcExit) calls

/-- A call other than the way out of SLC mode. -/
lemma slcRestored_cons {x : ChipCall} {calls : List ChipCall} (hx : x ≠ .slcExit) :
    SlcRestored (x :: calls) ↔ x ≠ .slcEnter ∧ SlcRestored calls := answered_cons_of_not hx

lemma slcRestored_exit (calls : List ChipCall) : SlcRestored (.slcExit :: calls) :=
  answered_cons_of_answer rfl nofun

/-- In the SLC mode of a Hynix flash, a write that gets to its first chip must start the command
on every chip and find the first chip ready and its status right. -/
def WriteSettles (fl : Flash) (req : PageReq) (readonly : Bool) (hw : Hw) : Prop :=
  req.hynixSlc fl = true → req.para.option.multiPlane = false → readonly = false →
    req.withData = true → ∀ first ∈ (opChips fl req.para).head?, hw.rb first 0 = true →
      (∀ c ∈ opChips fl req.para, hw.rb c 0 = true ∧ hw.dma c 0 = true) ∧
        hw.rb first 2 = true ∧ statusOk nandStatusMaxTry (hw.status first) = true

/-- What the primitives of a write leave: the answer, the questions asked and the calls. -/
lemma queneRb_inv {chip : ℕ} {s t : BusSt} {rb : Bool} (h : queneRb chip s = (some rb, t)) :
    rb = s.hw.rb chip (s.used (.rb chip)) ∧ t.hw = s.hw ∧ t.calls = s.calls ∧
      t.used = Function.update s.used (.rb chip) (s.used (.rb chip) + 1) := by
  obtain ⟨hr, rfl⟩ := Prod.mk.inj h
  exact ⟨(Option.some.inj hr).symm, rfl, rfl, rfl⟩

lemma dmaWrite_inv {chip : ℕ} {s t : BusSt} {ok : Bool} (h : dmaWrite chip s = (some ok, t)) :
    ok = s.hw.dma chip (s.used (.dma chip)) ∧ t.hw = s.hw ∧ t.calls = s.calls ∧
      t.used = Function.update s.used (.dma chip) (s.used (.dma chip) + 1) := by
  obtain ⟨hr, rfl⟩ := Prod.mk.inj h
  exact ⟨(Option.some.inj hr).symm, rfl, rfl, rfl⟩

lemma noteCall_inv {x : ChipCall} {s t : BusSt} {u : Unit} (h : noteCall x s = (some u, t)) :
    t.hw = s.hw ∧ t.calls = x :: s.calls ∧ t.used = s.used := by
  obtain ⟨-, rfl⟩ := Prod.mk.inj h
  exact ⟨rfl, rfl, rfl⟩

lemma checkCmdfifoSize_inv {s t : BusSt} {u : Unit} (h : checkCmdfifoSize s = (some u, t)) :
    t.hw = s.hw ∧ t.calls = s.calls ∧
      t.used = Function.update s.used .fifo (s.used .fifo + 1) := by
  obtain ⟨-, rfl⟩ := Prod.mk.inj h
  exact ⟨rfl, rfl, rfl⟩

/-- `write_page` on one chip in SLC mode, the first time it is asked. -/
lemma programChip_slc (hm : req.para.option.multiPlane = false) (hs : req.slcMode fl = true)
    {chip : ℕ} {s t : BusSt} {o : Option ℤ} (h : programChip fl req chip s = (some o, t))
    (hrb : s.used (.rb chip) = 0) (hdma : s.used (.dma chip) = 0) :
    (∀ c ≠ chip, t.used (.rb c) = s.used (.rb c) ∧ t.used (.dma c) = s.used (.dma c)) ∧
    ((s.hw.rb chip 0 = false ∧ o ≠ none ∧ t.calls = s.calls) ∨
      (s.hw.rb chip 0 = true ∧ s.hw.dma chip 0 = false ∧ o ≠ none ∧
        t.calls = .slcEnter :: s.calls) ∨
      (s.hw.rb chip 0 = true ∧ s.hw.dma chip 0 = true ∧ o = none ∧
        t.calls = .program chip :: .slcEnter :: s.calls ∧ t.used (.rb chip) = 2)) := by
  obtain ⟨rb, s₁, h₁, h⟩ := bind_eq_some h
  obtain ⟨hrb₁, hw₁, hc₁, hu₁⟩ := queneRb_inv h₁
  rw [hrb] at hrb₁ hu₁
  cases rb with
  | false =>
    rw [if_pos (by simp)] at h
    cases h
    refine ⟨fun c hc => by simp [hu₁, hc], .inl ⟨hrb₁.symm, Option.some_ne_none _, hc₁⟩⟩
  | true =>
    rw [if_neg (by simp), if_neg (by simp [hm]), Act.when, if_pos hs] at h
    obtain ⟨_, s₂, h₂, h⟩ := bind_eq_some h
    obtain ⟨hw₂, hc₂, hu₂⟩ := noteCall_inv h₂
    obtain ⟨_, s₃, h₃, h⟩ := bind_eq_some h
    obtain ⟨-, hw₃, hc₃, hu₃⟩ := queneRb_inv h₃
    obtain ⟨d, s₄, h₄, h⟩ := bind_eq_some h
    obtain ⟨hd₄, hw₄, hc₄, hu₄⟩ := dmaWrite_inv h₄
    rw [hu₂, hu₁] at hu₃
    have hd : d = s.hw.dma chip 0 := by
      rw [hd₄, hw₃, hw₂, hw₁, hu₃]
      simp [hdma]
    cases d with
    | false =>
      rw [if_pos (by simp)] at h
      cases h
      refine ⟨fun c hc => by simp [hu₄, hu₃, hc],
        .inr (.inl ⟨hrb₁.symm, hd.symm, Option.some_ne_none _, ?_⟩)⟩
      rw [hc₄, hc₃, hc₂, hc₁]
    | true =>
      rw [if_neg (by simp)] at h
      obtain ⟨_, s₅, h₅, h⟩ := bind_eq_some h
      obtain ⟨hw₅, hc₅, hu₅⟩ := noteCall_inv h₅
      obtain ⟨_, s₆, h₆, h⟩ := bind_eq_some h
      obtain ⟨hw₆, hc₆, hu₆⟩ := checkCmdfifoSize_inv h₆
      cases h
      refine ⟨fun c hc => by simp [hu₆, hu₅, hu₄, hu₃, hc],
        .inr (.inr ⟨hrb₁.symm, hd.symm, rfl, ?_, by simp [hu₆, hu₅, hu₄, hu₃]⟩)⟩
      rw [hc₆, hc₅, hc₄, hc₃, hc₂, hc₁]

/-- A mode left open stays open while commands are started. -/
lemma keeps_slcOpen_programChip (chip : ℕ) :
    Keeps (fun s => ¬SlcRestored s.calls) (programChip fl req chip) := by
  have hnote : ∀ x, x ≠ .slcExit → Keeps (fun s => ¬SlcRestored s.calls) (noteCall x) := by
    intro x hx
    exact .modify fun s hs h => hs ((slcRestored_cons hx).mp h).2
  have hrb : Keeps (fun s => ¬SlcRestored s.calls) (queneRb chip) := fun s hs => hs
  have hdma : Keeps (fun s => ¬SlcRestored s.calls) (dmaWrite chip) := fun s hs => hs
  have hfifo : Keeps (fun s => ¬SlcRestored s.calls) checkCmdfifoSize := by
    intro s hs
    unfold checkCmdfifoSize
    cases s.hw.fifo (s.used .fifo) <;> exact hs
  have hsend : Keeps (fun s => ¬SlcRestored s.calls)
      (do noteCall (.program chip); checkCmdfifoSize; pure none : Act BusSt (Option ℤ)) :=
    .bind (hnote _ nofun) fun _ => .bind hfifo fun _ => .pure _
  refine .bind hrb fun _ => .ite (fun _ => .pure _) fun _ => .ite (fun _ => ?_) fun _ => ?_
  · refine .bind hdma fun _ => .ite (fun _ => .pure _) fun _ => ?_
    refine .bind hrb fun _ => .ite (fun _ => .pure _) fun _ => ?_
    exact .bind hdma fun _ => .ite (fun _ => .pure _) fun _ => hsend
  · refine .bind (.when fun _ => hnote _ nofun) fun _ => .bind hrb fun _ => ?_
    exact .bind hdma fun _ => .ite (fun _ => .pure _) fun _ => hsend

/-- Starting the command on chips that were not asked yet: it succeeds when all of them are
ready and take their page. -/
lemma startAll_slc (hm : req.para.option.multiPlane = false) (hs : req.slcMode fl = true)
    (chips : List ℕ) (hnd : chips.Nodup) {s t : BusSt} {o : Option ℤ}
    (h : startAll (programChip fl req) chips s = (some o, t))
    (hf : ∀ c ∈ chips, s.used (.rb c) = 0 ∧ s.used (.dma c) = 0) :
    (o = none ↔ ∀ c ∈ chips, s.hw.rb c 0 = true ∧ s.hw.dma c 0 = true) ∧
      (∀ c ∉ chips, t.used (.rb c) = s.used (.rb c)) ∧
      (¬SlcRestored s.calls → ¬SlcRestored t.calls) := by
  induction chips generalizing s with
  | nil =>
    cases h
    exact ⟨iff_of_true rfl nofun, fun _ _ => rfl, fun h => h⟩
  | cons chip rest ih =>
    obtain ⟨o', u, hu, h⟩ := bind_eq_some h
    have hchip := hf chip List.mem_cons_self
    have hhw := ((starts_programChip s chip).returned (.refl _ s) hu).1.hw
    have hopen := fun hs => (keeps_slcOpen_programChip chip).returned hs hu
    obtain ⟨hother, hcase⟩ := programChip_slc hm hs hu hchip.1 hchip.2
    have hused : ∀ c ∉ chip :: rest, u.used (.rb c) = s.used (.rb c) :=
      fun c hc => (hother c fun he => hc (he ▸ List.mem_cons_self)).1
    cases o' with
    | some code =>
      cases h
      refine ⟨iff_of_false nofun fun hall => ?_, hused, hopen⟩
      have := hall chip List.mem_cons_self
      rcases hcase with ⟨hrb, -⟩ | ⟨-, hdma, -⟩ | ⟨-, -, hn, -⟩
      · rw [hrb] at this
        exact absurd this.1 nofun
      · rw [hdma] at this
        exact absurd this.2 nofun
      · cases hn
    | none =>
      have hgood : s.hw.rb chip 0 = true ∧ s.hw.dma chip 0 = true := by
        rcases hcase with ⟨-, hn, -⟩ | ⟨-, -, hn, -⟩ | ⟨hrb, hdma, -⟩
        · exact absurd rfl hn
        · exact absurd rfl hn
        · exact ⟨hrb, hdma⟩
      have hnotin := (List.nodup_cons.mp hnd).1
      obtain ⟨hiff, husedt, hopent⟩ := ih (List.nodup_cons.mp hnd).2 h fun c hc => by
        have hne : c ≠ chip := fun he => hnotin (he ▸ hc)
        rw [(hother c hne).1, (hother c hne).2]
        exact hf c (List.mem_cons_of_mem _ hc)
      refine ⟨?_, fun c hc => ?_, fun hs => hopent (hopen hs)⟩
      · rw [hiff, hhw, List.forall_mem_cons]
        exact (and_iff_right hgood).symm
      · rw [husedt c fun h => hc (List.mem_cons_of_mem _ h), hused c hc]

/-- Reading status bytes neither opens nor closes a mode. -/
lemma statusTry_slc (chip n : ℕ) {s t : BusSt} {ok : Bool}
    (h : statusTry chip n s = (some ok, t)) : SlcRestored t.calls ↔ SlcRestored s.calls := by
  have hread : ∀ s : BusSt, SlcRestored (s.readStatus chip).calls ↔ SlcRestored s.calls :=
    fun s => (slcRestored_cons (x := .status chip (s.nextStatus chip)) nofun).trans (and_iff_right nofun)
  induction n generalizing s with
  | zero =>
    cases h
    exact hread s
  | succ n ih =>
    rw [statusTry, bind_some (show readbyte chip s = _ from rfl)] at h
    split at h
    · cases h
      exact hread s
    · split at h
      · exact (ih h).trans (hread s)
      · cases h
        exact hread s

/-- Once the mode was left, the rest of the second loop leaves it so. -/
lemma checkStatus_slc (chips : List ℕ) {s t : BusSt} {r : ℤ}
    (h : checkStatus (noteCall .slcExit) chips s = (some r, t)) (hs : SlcRestored s.calls) :
    SlcRestored t.calls := by
  induction chips generalizing s with
  | nil =>
    cases h
    exact hs
  | cons chip rest ih =>
    obtain ⟨rb, u, hu, h⟩ := bind_eq_some h
    obtain ⟨-, -, hc, -⟩ := queneRb_inv hu
    rw [← hc] at hs
    split at h
    · cases h
      exact hs
    · obtain ⟨ok, v, hv, h⟩ := bind_eq_some h
      split at h
      · obtain ⟨_, w, hw, h⟩ := bind_eq_some h
        refine ih h ?_
        rw [(noteCall_inv hw).2.1]
        exact slcRestored_exit _
      · cases h
        exact (statusTry_slc chip _ hv).mpr hs

/-- The second loop after a mode was entered: it is left when the first chip is ready and its
status is right. -/
lemma checkStatus_open {chip : ℕ} {rest : List ℕ} {s t : BusSt} {r : ℤ}
    (h : checkStatus (noteCall .slcExit) (chip :: rest) s = (some r, t))
    (hs : ¬SlcRestored s.calls) :
    SlcRestored t.calls ↔ s.hw.rb chip (s.used (.rb chip)) = true ∧
      statusOk nandStatusMaxTry (s.statuses chip) = true := by
  obtain ⟨rb, u, hu, h⟩ := bind_eq_some h
  obtain ⟨hrb, -, hc, -⟩ := queneRb_inv hu
  have hstat : u.statuses chip = s.statuses chip :=
    ((keeps_queneRb s chip).returned (.refl _ s) hu).statuses List.not_mem_nil
  rw [← hc] at hs
  rw [← hrb]
  cases rb with
  | false =>
    rw [if_pos (by simp)] at h
    cases h
    exact iff_of_false hs nofun
  | true =>
    rw [if_neg (by simp)] at h
    obtain ⟨v, hv, -, -⟩ := statusTry_run chip nandStatusMaxTry u
    rw [bind_some hv, hstat] at h
    rw [hstat] at hv
    cases hok : statusOk nandStatusMaxTry (s.statuses chip) with
    | false =>
      rw [hok, if_neg (by simp)] at h
      cases h
      exact iff_of_false (fun h => hs ((statusTry_slc chip _ hv).mp h)) nofun
    | true =>
      rw [hok, if_pos rfl] at h
      obtain ⟨_, w, hw, h⟩ := bind_eq_some h
      refine iff_of_true (checkStatus_slc rest h ?_) ⟨rfl, rfl⟩
      rw [(noteCall_inv hw).2.1]
      exact slcRestored_exit _

/-- A write in the SLC mode of a Hynix flash. -/
lemma writePage_slc {hw : Hw} {dataBuf buf : Buf} (hslc : req.hynixSlc fl = true)
    (hm : req.para.option.multiPlane = false) {first : ℕ} {rest : List ℕ}
    (hchips : opChips fl req.para = first :: rest) {r : ℤ} {t : BusSt}
    (hd : req.withData = true)
    (h : writePage fl req false (startSt hw dataBuf buf) = (some r, t)) :
    SlcRestored t.calls ↔ (hw.rb first 0 = true →
      (∀ c ∈ opChips fl req.para, hw.rb c 0 = true ∧ hw.dma c 0 = true) ∧
        hw.rb first 2 = true ∧ statusOk nandStatusMaxTry (hw.status first) = true) := by
  have hs : req.slcMode fl = true := by
    simp only [PageReq.hynixSlc, Bool.and_eq_true] at hslc
    simp [PageReq.slcMode, NewType.slc, hslc]
  have hnd := opChips_nodup fl req.para
  rw [writePage, if_neg (by simp), if_neg (by simp [hd])] at h
  obtain ⟨o, u, hu, h⟩ := bind_eq_some h
  rw [hchips] at hu h hnd ⊢
  have hstatus := startSt_statuses hw dataBuf buf first
  obtain ⟨o', v, hv, hu⟩ := bind_eq_some hu
  obtain ⟨hother, hcase⟩ := programChip_slc hm hs hv rfl rfl
  have hframe := ((starts_programChip _ first).returned (.refl _ (startSt hw dataBuf buf)) hv).1
  rcases hcase with ⟨hrb, ho, hc⟩ | ⟨hrb, hdma, ho, hc⟩ | ⟨hrb, hdma, rfl, hc, hused⟩
  · -- the first chip is busy: nothing was entered
    cases o' with
    | none => exact absurd rfl ho
    | some code =>
      cases hu
      cases h
      rw [hc]
      refine iff_of_true answered_nil fun hrb' => ?_
      exact absurd (hrb.symm.trans hrb') nofun
  · -- the first page did not get through
    cases o' with
    | none => exact absurd rfl ho
    | some code =>
      cases hu
      cases h
      rw [hc]
      refine iff_of_false (fun h => ?_) fun h => ?_
      · exact ((slcRestored_cons (x := .slcEnter) nofun).mp h).1 rfl
      · exact absurd (hdma.symm.trans ((h hrb).1 first List.mem_cons_self).2) nofun
  · have hopen : ¬SlcRestored v.calls := by
      rw [hc]
      intro h
      have h' := ((slcRestored_cons (x := .program first) nofun).mp h).2
      exact ((slcRestored_cons (x := .slcEnter) nofun).mp h').1 rfl
    have hnotin := (List.nodup_cons.mp hnd).1
    obtain ⟨hiff, husedu, hopenu⟩ := startAll_slc hm hs rest (List.nodup_cons.mp hnd).2 hu
      fun c hc => by
        have hne : c ≠ first := fun he => hnotin (he ▸ hc)
        exact hother c hne
    have hhw : v.hw = hw := hframe.hw
    rw [hhw] at hiff
    have hall : (∀ c ∈ first :: rest, hw.rb c 0 = true ∧ hw.dma c 0 = true) ↔ o = none := by
      rw [hiff, List.forall_mem_cons]
      exact and_iff_right ⟨hrb, hdma⟩
    rw [hall]
    cases o with
    | some code =>
      cases h
      exact iff_of_false (hopenu hopen) fun h => absurd (h hrb).1 nofun
    | none =>
      have hframe' := (startAll_run starts_programChip rest hu).1
      rw [Act.when, if_pos hslc] at h
      rw [checkStatus_open h (hopenu hopen), hframe'.hw, hhw, husedu first hnotin, hused,
        hframe'.statuses List.not_mem_nil, hframe.statuses List.not_mem_nil, hstatus]
      exact ⟨fun h _ => ⟨rfl, h⟩, fun h => (h hrb).2⟩

/-- What holds of every call a write makes. -/
lemma keeps_calls_writePage {P : ChipCall → Prop} (hprog : ∀ c, P (.program c))
    (hstat : ∀ c b, P (.status c b))
    (henter : req.para.option.multiPlane = false → req.slcMode fl = true → P .slcEnter)
    (hexit : P .slcExit) (readonly : Bool) :
    Keeps (fun s => ∀ x ∈ s.calls, P x) (writePage fl req readonly) := by
  have hnote : ∀ x, P x → Keeps (fun s : BusSt => ∀ y ∈ s.calls, P y) (noteCall x) :=
    fun x hx => .modify fun s hs => List.forall_mem_cons.mpr ⟨hx, hs⟩
  have hrb : ∀ c, Keeps (fun s : BusSt => ∀ y ∈ s.calls, P y) (queneRb c) := fun c s hs => hs
  have hdma : ∀ c, Keeps (fun s : BusSt => ∀ y ∈ s.calls, P y) (dmaWrite c) := fun c s hs => hs
  have hread : ∀ c, Keeps (fun s : BusSt => ∀ y ∈ s.calls, P y) (readbyte c) :=
    fun c s hs => List.forall_mem_cons.mpr ⟨hstat _ _, hs⟩
  have hfifo : Keeps (fun s : BusSt => ∀ y ∈ s.calls, P y) checkCmdfifoSize := by
    intro s hs
    unfold checkCmdfifoSize
    cases s.hw.fifo (s.used .fifo) <;> exact hs
  have hsend : ∀ c, Keeps (fun s : BusSt => ∀ y ∈ s.calls, P y)
      (do noteCall (.program c); checkCmdfifoSize; pure none : Act BusSt (Option ℤ)) :=
    fun c => .bind (hnote _ (hprog c)) fun _ => .bind hfifo fun _ => .pure _
  have hchip : ∀ c, Keeps (fun s : BusSt => ∀ y ∈ s.calls, P y) (programChip fl req c) := by
    intro c
    refine .bind (hrb c) fun _ => .ite (fun _ => .pure _) fun _ => .ite (fun _ => ?_) fun hm => ?_
    · refine .bind (hdma c) fun _ => .ite (fun _ => .pure _) fun _ => ?_
      refine .bind (hrb c) fun _ => .ite (fun _ => .pure _) fun _ => ?_
      exact .bind (hdma c) fun _ => .ite (fun _ => .pure _) fun _ => hsend c
    · refine .bind (.when fun hs => hnote _ (henter (by simpa using hm) hs)) fun _ => ?_
      refine .bind (hrb c) fun _ => .bind (hdma c) fun _ => ?_
      exact .ite (fun _ => .pure _) fun _ => hsend c
  have hstart : ∀ chips, Keeps (fun s : BusSt => ∀ y ∈ s.calls, P y)
      (startAll (programChip fl req) chips) := by
    intro chips
    induction chips with
    | nil => exact .pure _
    | cons c rest ih =>
      refine .bind (hchip c) fun o => ?_
      cases o with
      | none => exact ih
      | some code => exact .pure _
  have htry : ∀ c n, Keeps (fun s : BusSt => ∀ y ∈ s.calls, P y) (statusTry c n) := by
    intro c n
    induction n with
    | zero => exact .bind (hread c) fun _ => .pure _
    | succ n ih =>
      refine .bind (hread c) fun _ => .ite (fun _ => .pure _) fun _ => ?_
      exact .ite (fun _ => ih) fun _ => .pure _
  have hcheck : ∀ chips, Keeps (fun s : BusSt => ∀ y ∈ s.calls, P y)
      (checkStatus (when (req.hynixSlc fl) (noteCall .slcExit)) chips) := by
    intro chips
    induction chips with
    | nil => exact .pure _
    | cons c rest ih =>
      refine .bind (hrb c) fun _ => .ite (fun _ => .pure _) fun _ => .bind (htry c _) fun _ => ?_
      exact .ite (fun _ => .bind (.when fun _ => hnote _ hexit) fun _ => ih) fun _ => .pure _
  refine .ite (fun _ => .pure _) fun _ => .ite (fun _ => .pure _) fun _ => ?_
  refine .bind (hstart _) fun o => ?_
  cases o with
  | none => exact hcheck _
  | some code => exact .pure _

/-- An operation is about one chip at least. -/
lemma opChips_cons (fl : Flash) (p : ChipOpsPara) : ∃ c rest, opChips fl p = c :: rest := by
  refine List.exists_cons_of_ne_nil ?_
  have h := fl.chipNum_pos
  unfold opChips
  split
  · simpa using h.ne'
  · simp

/-- A write that is refused, or not in SLC mode, or over two planes enters no mode. -/
lemma writePage_no_slc {readonly : Bool} {hw : Hw} {dataBuf buf : Buf} {r : ℤ} {t : BusSt}
    (h : writePage fl req readonly (startSt hw dataBuf buf) = (some r, t))
    (hno : req.slcMode fl = false ∨ req.para.option.multiPlane = true ∨ readonly = true ∨
      req.withData = false) : SlcRestored t.calls := by
  by_cases henter : req.para.option.multiPlane = false ∧ req.slcMode fl = true
  · have hrefused : readonly = true ∨ req.withData = false := by
      rcases hno with hno | hno | hno
      · simp [hno] at henter
      · simp [hno] at henter
      · exact hno
    have ht : t.calls = [] := by
      rcases hrefused with hro | hd
      · rw [writePage, if_pos hro] at h
        cases h
        rfl
      · rw [writePage, if_pos (show ¬req.withData = true by simp [hd])] at h
        split at h <;> (cases h; rfl)
    rw [ht]
    exact answered_nil
  · refine answered_of_forall_not ((keeps_calls_writePage (P := (· ≠ .slcEnter)) (fun _ => nofun)
      (fun _ _ => nofun) (fun hm hs => absurd ⟨hm, hs⟩ henter) nofun readonly).returned ?_ h)
    exact fun x hx => absurd hx List.not_mem_nil

/-- When a write restores the modes. -/
lemma writePage_restored_iff {readonly : Bool} {hw : Hw} {dataBuf buf : Buf} {r : ℤ} {t : BusSt}
    (h : writePage fl req readonly (startSt hw dataBuf buf) = (some r, t)) :
    ModesRestored fl t.calls ↔ WriteSettles fl req readonly hw := by
  have hhandle : ∀ c, Answered (IsHandle c) (IsExit c) t.calls := by
    intro c
    refine answered_of_forall_not ((keeps_calls_writePage (P := fun x => ¬IsHandle c x)
      (fun _ => nofun) (fun _ _ => nofun) (fun _ _ => nofun) nofun readonly).returned ?_ h)
    exact fun x hx => absurd hx List.not_mem_nil
  rw [ModesRestored, and_iff_right hhandle]
  by_cases hact : req.hynixSlc fl = true ∧ req.para.option.multiPlane = false ∧
      readonly = false ∧ req.withData = true
  · obtain ⟨hslc, hm, rfl, hd⟩ := hact
    obtain ⟨first, rest, hchips⟩ := opChips_cons fl req.para
    have hhynix : fl.newType.isHynix = true := by
      simp only [PageReq.hynixSlc, Bool.and_eq_true] at hslc
      exact hslc.2
    rw [imp_iff_right hhynix]
    refine (writePage_slc hslc hm hchips hd h).trans ⟨fun hc _ _ _ _ c hf => ?_, fun hc => ?_⟩
    · rw [hchips] at hf
      obtain rfl : first = c := by simpa using hf
      exact hc
    · exact hc hslc hm rfl hd first (by simp [hchips])
  · refine iff_of_true (fun hhynix => writePage_no_slc h ?_) fun hslc hm hro hd =>
      absurd ⟨hslc, hm, hro, hd⟩ hact
    have hsame : req.slcMode fl = req.hynixSlc fl := by
      simp [PageReq.slcMode, PageReq.hynixSlc, NewType.slc, hhynix]
    rw [hsame]
    by_contra hno
    simp only [not_or, Bool.not_eq_false, Bool.not_eq_true] at hno
    exact hact ⟨hno.1, hno.2.1, hno.2.2.1, hno.2.2.2⟩

end Write

/-- **When are the modes of the chips restored?** When `read_page` returns, exactly when the
failures of every chip since its last correct page come in whole groups of `maxRetry + 1`; when
`write_page` returns, exactly when the write is not in the SLC mode of a Hynix flash, did not get
to its first chip, or started its command on every chip and found the first of them right. -/
theorem modesRestored_iff (fl : Flash) (ctl : Controller) (req : PageReq) (readonly : Bool)
    (hw : Hw) (dataBuf buf : Buf) :
    (∀ r t, readPage fl ctl req (startSt hw dataBuf buf) = (some r, t) →
      (ModesRestored fl t.calls ↔ ReadSettles fl ctl req t.fetched)) ∧
    (∀ r t, writePage fl req readonly (startSt hw dataBuf buf) = (some r, t) →
      (ModesRestored fl t.calls ↔ WriteSettles fl req readonly hw)) :=
  ⟨fun _ _ h => readPage_restored_iff h, fun _ _ h => writePage_restored_iff h⟩

/-- A chip that no page came from has no failure open. -/
lemma openFails_of_chip_ne {ctl : Controller} {req : PageReq} {chip : ℕ} {fs : List Fetch}
    (h : ∀ f ∈ fs, f.chip ≠ chip) : openFails ctl req chip fs = 0 := by
  induction fs with
  | nil => rfl
  | cons f fs ih =>
    obtain ⟨hf, hfs⟩ := List.forall_mem_cons.mp h
    rw [openFails_cons_of_ne hf]
    exact ih hfs

/-- Hardware that fails to deliver a page once and then delivers it corrected. -/
def hwSecond : Hw :=
  { Hw.steady (.uniform 0x05000000 0) 0xe0 with
    page := fun _ _ n => .uniform (if n = 0 then 0x3f3f0000 else 0x05000000) 0 }

/-- A read of a page that comes right at the first retry, and a write in SLC mode to a chip that
answers `NAND_STATUS_RIGHT`. -/
theorem modesRestored_right :
    (∃ t, readPage .h27ucg8t2a ctl8k { para := {}, withData := true, withOob := false }
        (startSt hwSecond (fun _ => 0) fun _ => 0) = (some 0, t) ∧
      .handle 0 ∈ t.calls ∧ ModesRestored .h27ucg8t2a t.calls) ∧
    ∃ t, writePage .h27ucg8t2a
        { para := { option := { slc := true } }, withData := true, withOob := false } false
        (startSt (.steady (.uniform 0x05000000 0) 0xe0) (fun _ => 0) fun _ => 0) = (some 0, t) ∧
      .slcEnter ∈ t.calls ∧ ModesRestored .h27ucg8t2a t.calls := by
  obtain ⟨t, ht, hhandle, hchip, hopen⟩ := exists_of_run
    (x := readPage .h27ucg8t2a ctl8k { para := {}, withData := true, withOob := false })
    (s := startSt hwSecond (fun _ => 0) fun _ => 0) (a := 0)
    (P := fun t => .handle 0 ∈ t.calls ∧ (∀ f ∈ t.fetched, f.chip = 0) ∧
      openFails ctl8k { para := {}, withData := true, withOob := false } 0 t.fetched = 0)
    (by decide +kernel) (by decide +kernel)
  obtain ⟨u, hu, henter⟩ := exists_of_run
    (x := writePage .h27ucg8t2a
      { para := { option := { slc := true } }, withData := true, withOob := false } false)
    (s := startSt (.steady (.uniform 0x05000000 0) 0xe0) (fun _ => 0) fun _ => 0) (a := 0)
    (P := fun u => .slcEnter ∈ u.calls) (by decide +kernel) (by decide +kernel)
  refine ⟨⟨t, ht, hhandle, ((modesRestored_iff _ _ _ false _ _ _).1 0 t ht).mpr fun c => ?_⟩,
    u, hu, henter, ((modesRestored_iff _ ctl8k _ _ _ _ _).2 0 u hu).mpr ?_⟩
  · by_cases hc : c = 0
    · rw [hc, hopen, Nat.zero_mod]
    · rw [openFails_of_chip_ne fun f hf => by rw [hchip f hf]; exact Ne.symm hc, Nat.zero_mod]
  · have hright : statusOk nandStatusMaxTry (fun _ => 0xe0) = true := by decide
    exact fun _ _ _ _ c _ _ => ⟨fun _ _ => ⟨rfl, rfl⟩, rfl, hright⟩

/-- A page that fails once and is then found blank leaves the retry levels in the chip; a
program that fails leaves the chip in SLC mode. -/
theorem not_modesRestored_blank :
    (∃ t, readPage .h27ucg8t2a ctl8k { para := {}, withData := true, withOob := false }
        (startSt { Hw.steady (.uniform 0 0) 0xe0 with
          page := fun _ _ n => if n = 0 then .uniform 0x3f3f0000 0 else .uniform 0x3f000000 0 }
          (fun _ => 0) fun _ => 0) = (some 0, t) ∧
      ¬ModesRestored .h27ucg8t2a t.calls) ∧
    ∃ t, writePage .h27ucg8t2a
        { para := { option := { slc := true } }, withData := true, withOob := false } false
        (startSt (.steady (.uniform 0 0) 0xe1) (fun _ => 0) fun _ => 0) =
          (some (-nandWriteFailed), t) ∧
      ¬ModesRestored .h27ucg8t2a t.calls := by
  obtain ⟨t, ht, hcalls⟩ := exists_of_run
    (x := readPage .h27ucg8t2a ctl8k { para := {}, withData := true, withOob := false })
    (s := startSt { Hw.steady (.uniform 0 0) 0xe0 with
      page := fun _ _ n => if n = 0 then .uniform 0x3f3f0000 0 else .uniform 0x3f000000 0 }
      (fun _ => 0) fun _ => 0) (a := 0)
    (P := fun t => t.calls = [.handle 0]) (by decide +kernel) (by decide +kernel)
  obtain ⟨u, hu, hcalls'⟩ := exists_of_run
    (x := writePage .h27ucg8t2a
      { para := { option := { slc := true } }, withData := true, withOob := false } false)
    (s := startSt (.steady (.uniform 0 0) 0xe1) (fun _ => 0) fun _ => 0) (a := -nandWriteFailed)
    (P := fun t => t.calls = [.status 0 0xe1, .program 0, .slcEnter])
    (by decide +kernel) (by decide +kernel)
  refine ⟨⟨t, ht, fun h => ?_⟩, u, hu, fun h => ?_⟩
  · obtain ⟨x, hx, -⟩ := h.1 0 [] (.handle 0) [] hcalls rfl
    cases hx
  · obtain ⟨x, hx, hexit⟩ := h.2 (by decide) [.status 0 0xe1, .program 0] .slcEnter [] hcalls' rfl
    simp [hexit] at hx

end Amlnf.Bus
