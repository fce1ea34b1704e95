import Amlnf.Phy.PageTransfer

set_option relaxedAutoImplicit false
set_option autoImplicit false

/-!
# Do program and erase report success only when the chip did?

The status loop of `write_page` and `erase_block` compares with two values. A byte that is
neither is read again six times at most, and the last of the seven counts as success.

## Main definitions

* `Bus.statusReads`, `Bus.statusOk` — the bytes the status loop reads of a sequence, and its
  result.
* `Bus.GoodStatus`, `Bus.Confirmed` — ready, not write-protected and not failed; every chip got
  the command and its last status is good.
* `Bus.StuckBad` — seven bytes that are neither right nor failed, the last of them not good.

## Main results

* `Bus.statusTry_run` — what the status loop reads and returns.
* `Bus.confirmed_iff` — when a success of `write_page` or `erase_block` is confirmed by the chips.
-/

namespace Amlnf.Bus

open Act

/-! ## The bytes of one chip -/

/-- The bytes the status loop reads of a sequence with `n` more tries. -/
def statusReads : ℕ → (ℕ → UInt8) → List UInt8
  | 0, st => [st 0]
  | n + 1, st =>
    if st 0 = nandStatusFailed ∨ st 0 = nandStatusRight then [st 0]
    else st 0 :: statusReads n fun i => st (i + 1)

/-- The status is read once at least. -/
lemma statusReads_ne_nil (n : ℕ) (st : ℕ → UInt8) : statusReads n st ≠ [] := by
  cases n <;> rw [statusReads]
  · exact nofun
  · split <;> exact nofun

/-- A byte that is neither right nor failed is not the last one. -/
lemma getLast?_statusReads_succ (n : ℕ) {st : ℕ → UInt8}
    (h : ¬(st 0 = nandStatusFailed ∨ st 0 = nandStatusRight)) :
    (statusReads (n + 1) st).getLast? = (statusReads n fun i => st (i + 1)).getLast? := by
  rw [statusReads, if_neg h, List.getLast?_cons_of_ne_nil (statusReads_ne_nil _ _)]

/-- The result of the status loop: the last byte read is not `NAND_STATUS_FAILED`. -/
def statusOk (n : ℕ) (st : ℕ → UInt8) : Bool :=
  (statusReads n st).getLast? != some nandStatusFailed

/-- The newest status byte of a chip. -/
def lastStatus (calls : List ChipCall) (chip : ℕ) : Option UInt8 :=
  calls.findSome? fun
    | .status c b => if c = chip then some b else none
    | _ => none

/-- What an operation leaves of the status bytes of the other chips, and of its calls. -/
structure StatusFrame (chips : List ℕ) (s t : BusSt) : Prop where
  hw : t.hw = s.hw
  used : ∀ c ∉ chips, t.used (.status c) = s.used (.status c)
  last : ∀ c ∉ chips, lastStatus t.calls c = lastStatus s.calls c
  calls : ∀ x ∈ s.calls, x ∈ t.calls

/-- Nothing has changed. -/
lemma StatusFrame.refl (chips : List ℕ) (s : BusSt) : StatusFrame chips s s :=
  ⟨rfl, fun _ _ => rfl, fun _ _ => rfl, fun _ h => h⟩

/-- One after the other. -/
lemma StatusFrame.trans {chips chips' : List ℕ} {s t u : BusSt} (h : StatusFrame chips s t)
    (h' : StatusFrame chips' t u) (hsub : ∀ c ∉ chips', c ∉ chips) : StatusFrame chips' s u where
  hw := h'.hw.trans h.hw
  used c hc := (h'.used c hc).trans (h.used c (hsub c hc))
  last c hc := (h'.last c hc).trans (h.last c (hsub c hc))
  calls x hx := h'.calls x (h.calls x hx)

/-- Reading the status of a chip is about that chip only. -/
lemma readStatus_frame (s : BusSt) (chip : ℕ) : StatusFrame [chip] s (s.readStatus chip) where
  hw := rfl
  used c hc := Function.update_of_ne (by simpa using hc) _ _
  last c hc := by
    have hne : chip ≠ c := fun h => hc (by simp [h])
    simp [lastStatus, BusSt.readStatus, Bench.call, hne]
  calls x hx := List.mem_cons_of_mem _ hx

/-- The byte just read is the last one. -/
lemma readStatus_last (s : BusSt) (chip : ℕ) :
    lastStatus (s.readStatus chip).calls chip = some (s.nextStatus chip) := by
  simp [lastStatus, BusSt.readStatus, Bench.call]

/-- The bytes a chip will answer from now on. -/
def BusSt.statuses (s : BusSt) (chip : ℕ) : ℕ → UInt8 := fun i =>
  s.hw.status chip (s.used (.status chip) + i)

/-- The bytes to come are one fewer. -/
lemma readStatus_statuses (s : BusSt) (chip : ℕ) :
    (s.readStatus chip).statuses chip = fun i => s.statuses chip (i + 1) := by
  funext i
  have hused : (s.readStatus chip).used (.status chip) = s.used (.status chip) + 1 :=
    Function.update_self _ _ _
  rw [BusSt.statuses, hused, Nat.add_right_comm]
  rfl

/-- The status loop reads what `statusReads` says, and returns what `statusOk` says. -/
lemma statusTry_run (chip n : ℕ) (s : BusSt) :
    ∃ t, statusTry chip n s = (some (statusOk n (s.statuses chip)), t) ∧
      StatusFrame [chip] s t ∧
      lastStatus t.calls chip = (statusReads n (s.statuses chip)).getLast? := by
  induction n generalizing s with
  | zero =>
    refine ⟨s.readStatus chip, ?_, readStatus_frame s chip, readStatus_last s chip⟩
    simp [statusTry, statusOk, statusReads, bind_some (show readbyte chip s = _ from rfl),
      BusSt.statuses, BusSt.nextStatus, bne]
  | succ n ih =>
    have h0 : s.statuses chip 0 = s.nextStatus chip := rfl
    rw [statusTry, bind_some (show readbyte chip s = _ from rfl)]
    by_cases hf : s.nextStatus chip = nandStatusFailed
    · have hreads : statusReads (n + 1) (s.statuses chip) = [s.nextStatus chip] := by
        rw [statusReads, if_pos (.inl (h0.trans hf)), h0]
      refine ⟨s.readStatus chip, ?_, readStatus_frame s chip, ?_⟩
      · simp [statusOk, hreads, hf]
      · rw [hreads]
        exact readStatus_last s chip
    · by_cases hr : s.nextStatus chip = nandStatusRight
      · have hreads : statusReads (n + 1) (s.statuses chip) = [s.nextStatus chip] := by
          rw [statusReads, if_pos (.inr (h0.trans hr)), h0]
        refine ⟨s.readStatus chip, ?_, readStatus_frame s chip, ?_⟩
        · rw [if_neg hf, if_neg (not_not.mpr hr), statusOk, hreads, hr]
          rfl
        · rw [hreads]
          exact readStatus_last s chip
      · obtain ⟨t, ht, hframe, hlast⟩ := ih (s.readStatus chip)
        rw [readStatus_statuses] at ht hlast
        have hmore : ¬(s.statuses chip 0 = nandStatusFailed ∨
            s.statuses chip 0 = nandStatusRight) := by simp [h0, hf, hr]
        have hreads := getLast?_statusReads_succ n hmore
        refine ⟨t, ?_, (readStatus_frame s chip).trans hframe fun _ h => h, ?_⟩
        · rw [if_neg hf, if_pos hr, ht, statusOk, statusOk, hreads]
        · rw [hlast, hreads]

/-! ## Good and bad bytes -/

/-- Ready, not write-protected, and the last operation did not fail. -/
def GoodStatus (b : UInt8) : Prop := b &&& 0x40 ≠ 0 ∧ b &&& 0x80 ≠ 0 ∧ b &&& 0x01 = 0

instance (b : UInt8) : Decidable (GoodStatus b) := inferInstanceAs (Decidable (_ ∧ _ ∧ _))

/-- The first `n + 1` bytes are neither right nor failed, and the last of them is not good. -/
def StuckBad (n : ℕ) (st : ℕ → UInt8) : Prop :=
  (∀ i ≤ n, st i ≠ nandStatusRight ∧ st i ≠ nandStatusFailed) ∧ ¬GoodStatus (st n)

/-- A chip is stuck when it is after the first byte. -/
lemma stuckBad_succ (n : ℕ) (st : ℕ → UInt8) :
    StuckBad (n + 1) st ↔ (st 0 ≠ nandStatusRight ∧ st 0 ≠ nandStatusFailed) ∧
      StuckBad n fun i => st (i + 1) := by
  constructor
  · rintro ⟨h, hg⟩
    exact ⟨h 0 (by omega), fun i hi => h (i + 1) (by omega), hg⟩
  · rintro ⟨h0, h, hg⟩
    refine ⟨fun i hi => ?_, hg⟩
    cases i with
    | zero => exact h0
    | succ i => exact h i (by omega)

/-- When the status loop reports success, the last byte is good unless the chip was stuck. -/
lemma good_iff_not_stuckBad (n : ℕ) (st : ℕ → UInt8) (hok : statusOk n st = true) :
    (∃ b, (statusReads n st).getLast? = some b ∧ GoodStatus b) ↔ ¬StuckBad n st := by
  induction n generalizing st with
  | zero =>
    have hf : st 0 ≠ nandStatusFailed := by simpa [statusOk, statusReads] using hok
    constructor
    · rintro ⟨b, hb, hg⟩ ⟨-, hbad⟩
      obtain rfl := Option.some.inj hb
      exact hbad hg
    · intro h
      refine ⟨st 0, rfl, ?_⟩
      by_contra hg
      refine h ⟨fun i hi => ?_, hg⟩
      obtain rfl : i = 0 := by omega
      refine ⟨fun hr => hg ?_, hf⟩
      rw [hr]
      decide
  | succ n ih =>
    rw [stuckBad_succ]
    by_cases hend : st 0 = nandStatusFailed ∨ st 0 = nandStatusRight
    · have hreads : statusReads (n + 1) st = [st 0] := if_pos hend
      have hright : st 0 = nandStatusRight := by
        refine hend.resolve_left fun hf => ?_
        simp [statusOk, hreads, hf] at hok
      rw [hreads]
      refine iff_of_true ⟨st 0, rfl, ?_⟩ fun h => h.1.1 hright
      rw [hright]
      decide
    · have hreads := getLast?_statusReads_succ n hend
      rw [statusOk, hreads] at hok
      rw [hreads, ih _ hok]
      have h0 : st 0 ≠ nandStatusRight ∧ st 0 ≠ nandStatusFailed :=
        ⟨fun h => hend (.inr h), fun h => hend (.inl h)⟩
      exact not_congr (and_iff_right h0).symm

/-! ## All chips -/

/-- The bytes to come of the other chips are the same. -/
lemma StatusFrame.statuses {chips : List ℕ} {s t : BusSt} (h : StatusFrame chips s t) {c : ℕ}
    (hc : c ∉ chips) : t.statuses c = s.statuses c := by
  unfold BusSt.statuses
  rw [h.hw, h.used c hc]

/-- A question at another port touches no status byte. -/
lemma ask_frame {p : Port} (hp : ∀ c, p ≠ .status c) (s : BusSt) : StatusFrame [] s (s.ask p) :=
  ⟨rfl, fun c _ => s.ask_used_of_ne (hp c).symm, fun _ _ => rfl, fun _ h => h⟩

section Frame

variable (s₀ : BusSt)

/-- Asking the ready line reads no status. -/
lemma keeps_queneRb (chip : ℕ) : Keeps (StatusFrame [] s₀) (queneRb chip) := fun s hs =>
  hs.trans (ask_frame (p := .rb chip) (fun _ => nofun) s) fun _ h => h

/-- Nor does a transfer. -/
lemma keeps_dmaWrite (chip : ℕ) : Keeps (StatusFrame [] s₀) (dmaWrite chip) := fun s hs =>
  hs.trans (ask_frame (p := .dma chip) (fun _ => nofun) s) fun _ h => h

/-- Nor does the wait for the command FIFO. -/
lemma keeps_checkCmdfifoSize : Keeps (StatusFrame [] s₀) checkCmdfifoSize := by
  intro s hs
  have h := hs.trans (ask_frame (p := .fifo) (fun _ => nofun) s) fun _ h => h
  unfold checkCmdfifoSize
  cases s.hw.fifo (s.used .fifo) <;> exact h

/-- A call that is no status byte. -/
lemma keeps_noteCall {x : ChipCall} (hx : ∀ c b, x ≠ .status c b) :
    Keeps (StatusFrame [] s₀) (noteCall x) := by
  refine .modify fun s hs => hs.trans ⟨rfl, fun _ _ => rfl, fun c _ => ?_,
    fun _ h => List.mem_cons_of_mem _ h⟩ fun _ h => h
  cases x with
  | status c b => exact absurd rfl (hx c b)
  | _ => rfl

/-- The end of a start: the command goes out and the FIFO drains. -/
lemma spec_noteCall_fifo {x : ChipCall} (hx : ∀ c b, x ≠ .status c b) :
    Spec (StatusFrame [] s₀) (do noteCall x; checkCmdfifoSize; pure none : Act BusSt (Option ℤ))
      (fun o t => StatusFrame [] s₀ t ∧ (o = none → x ∈ t.calls) ∧ o ≠ some 0) fun _ => True := by
  refine Spec.of_returned fun s o t hs h => ?_
  obtain ⟨_, u, hu, h⟩ := bind_eq_some h
  obtain ⟨_, v, hv, h⟩ := bind_eq_some h
  cases h
  have hsu := (keeps_noteCall s₀ hx).returned hs hu
  refine ⟨(keeps_checkCmdfifoSize s₀).returned hsu hv, fun _ => ?_, nofun⟩
  refine ((keeps_checkCmdfifoSize u).returned (.refl _ u) hv).calls _ ?_
  obtain rfl := (Prod.mk.inj hu).2
  exact List.mem_cons_self

end Frame

/-- The second loop: when it returns 0, the status loop reported success for every chip. -/
lemma checkStatus_run {after : Act BusSt Unit}
    (hafter : ∀ s₀, Keeps (StatusFrame [] s₀) after) (chips : List ℕ)
    (hnd : chips.Nodup) {s t : BusSt} (h : checkStatus after chips s = (some 0, t)) :
    StatusFrame chips s t ∧ ∀ c ∈ chips, statusOk nandStatusMaxTry (s.statuses c) = true ∧
      lastStatus t.calls c = (statusReads nandStatusMaxTry (s.statuses c)).getLast? := by
  induction chips generalizing s with
  | nil =>
    cases h
    exact ⟨.refl _ _, nofun⟩
  | cons chip rest ih =>
    obtain ⟨rb, u, hu, h⟩ := bind_eq_some h
    have hsu := (keeps_queneRb s chip).returned (.refl _ s) hu
    cases rb with
    | false =>
      rw [if_pos (by simp)] at h
      cases h
    | true =>
      rw [if_neg (by simp)] at h
      obtain ⟨v, hv, huv, hlast⟩ := statusTry_run chip nandStatusMaxTry u
      rw [bind_some hv] at h
      rw [hsu.statuses (List.not_mem_nil)] at hv hlast h
      cases hok : statusOk nandStatusMaxTry (s.statuses chip) with
      | false =>
        rw [hok, if_neg (by simp)] at h
        cases h
      | true =>
        rw [hok, if_pos rfl] at h
        obtain ⟨_, w, hw, h⟩ := bind_eq_some h
        have hvw := (hafter v).returned (.refl _ v) hw
        obtain ⟨hwt, hrest⟩ := ih (List.nodup_cons.mp hnd).2 h
        have hsw : StatusFrame [chip] s w :=
          (hsu.trans huv fun _ _ => List.not_mem_nil).trans
            ⟨hvw.hw, fun c _ => hvw.used c List.not_mem_nil,
              fun c _ => hvw.last c List.not_mem_nil, hvw.calls⟩ fun _ h => h
        have hchip := (List.nodup_cons.mp hnd).1
        refine ⟨⟨hwt.hw.trans hsw.hw, fun c hc => ?_, fun c hc => ?_, fun x hx =>
          hwt.calls x (hsw.calls x hx)⟩, fun c hc => ?_⟩
        · rw [hwt.used c fun h => hc (List.mem_cons_of_mem _ h),
            hsw.used c fun h => hc (List.mem_singleton.mp h ▸ List.mem_cons_self)]
        · rw [hwt.last c fun h => hc (List.mem_cons_of_mem _ h),
            hsw.last c fun h => hc (List.mem_singleton.mp h ▸ List.mem_cons_self)]
        · by_cases hcc : c = chip
          · subst hcc
            refine ⟨hok, ?_⟩
            rw [hwt.last c hchip, hvw.last c List.not_mem_nil, hlast]
          · have hr := hrest c ((List.mem_cons.mp hc).resolve_left hcc)
            rwa [hsw.statuses (by simpa using hcc)] at hr

/-- `start` sends the command `cmd`, or returns a code that is not success. -/
def Starts (cmd : ℕ → ChipCall) (start : ℕ → Act BusSt (Option ℤ)) : Prop :=
  ∀ s₀ chip, Spec (StatusFrame [] s₀) (start chip)
    (fun o t => StatusFrame [] s₀ t ∧ (o = none → cmd chip ∈ t.calls) ∧ o ≠ some 0) fun _ => True

/-- The first loop: it ends with a code that is not success, or every chip got its command. -/
lemma startAll_run {cmd : ℕ → ChipCall} {start : ℕ → Act BusSt (Option ℤ)}
    (hstart : Starts cmd start) (chips : List ℕ) {s t : BusSt} {o : Option ℤ}
    (h : startAll start chips s = (some o, t)) :
    StatusFrame [] s t ∧ (o = none → ∀ c ∈ chips, cmd c ∈ t.calls) ∧ o ≠ some 0 := by
  induction chips generalizing s with
  | nil =>
    cases h
    exact ⟨.refl _ _, fun _ => nofun, nofun⟩
  | cons chip rest ih =>
    obtain ⟨o', u, hu, h⟩ := bind_eq_some h
    obtain ⟨hsu, hchip, hne⟩ := (hstart s chip).returned (.refl _ s) hu
    cases o' with
    | some code =>
      cases h
      exact ⟨hsu, nofun, hne⟩
    | none =>
      obtain ⟨hut, hrest, hne'⟩ := ih h
      refine ⟨hsu.trans hut fun _ h => h, fun ho c hc => ?_, hne'⟩
      rcases List.mem_cons.mp hc with rfl | hc
      · exact hut.calls _ (hchip rfl)
      · exact hrest ho c hc

section Start

variable {fl : Flash} {ctl : Controller} {req : PageReq}

/-- `write_page` starts the program command. -/
lemma starts_programChip : Starts .program (programChip fl req) := by
  intro s₀ chip
  have hcode : ∀ code : ℤ, code ≠ 0 → Spec (StatusFrame [] s₀)
      (pure (some code) : Act BusSt (Option ℤ)) (fun o t => StatusFrame [] s₀ t ∧
        (o = none → .program chip ∈ t.calls) ∧ o ≠ some 0) fun _ => True :=
    fun code hc => .pure fun s hs => ⟨hs, nofun, fun h => hc (Option.some.inj h)⟩
  have hrb := (keeps_queneRb s₀ chip).spec
  have hdma := (keeps_dmaWrite s₀ chip).spec
  have hsend := spec_noteCall_fifo s₀ (x := .program chip) fun _ _ => nofun
  have henter : Spec (StatusFrame [] s₀) (when (req.slcMode fl) (noteCall .slcEnter))
      (fun _ => StatusFrame [] s₀) fun _ => True :=
    (Keeps.when fun _ => keeps_noteCall s₀ (x := .slcEnter) fun _ _ => nofun).spec
  refine Spec.bind hrb fun rb => .ite (fun _ => hcode _ (by decide)) fun _ => .ite (fun _ => ?_) fun _ => ?_
  · refine Spec.bind hdma fun _ => .ite (fun _ => hcode _ (by decide)) fun _ => ?_
    refine Spec.bind hrb fun _ => .ite (fun _ => hcode _ (by decide)) fun _ => ?_
    exact Spec.bind hdma fun _ => .ite (fun _ => hcode _ (by decide)) fun _ => hsend
  · refine Spec.bind henter fun _ => Spec.bind hrb fun _ => ?_
    exact Spec.bind hdma fun _ => .ite (fun _ => hcode _ (by decide)) fun _ => hsend

/-- `erase_block` starts the erase command. -/
lemma starts_eraseChip : Starts .erase (eraseChip fl ctl req) := by
  intro s₀ chip
  have hcode : ∀ code : ℤ, code ≠ 0 → Spec (StatusFrame [] s₀)
      (pure (some code) : Act BusSt (Option ℤ)) (fun o t => StatusFrame [] s₀ t ∧
        (o = none → .erase chip ∈ t.calls) ∧ o ≠ some 0) fun _ => True :=
    fun code hc => .pure fun s hs => ⟨hs, nofun, fun h => hc (Option.some.inj h)⟩
  have hrb := (keeps_queneRb s₀ chip).spec
  have hsend := spec_noteCall_fifo s₀ (x := .erase chip) fun _ _ => nofun
  have henter : Spec (StatusFrame [] s₀)
      (when (req.para.option.slc ∧ fl.newType = .sandisk19nm) (noteCall .slcEnter))
      (fun _ => StatusFrame [] s₀) fun _ => True :=
    (Keeps.when fun _ => keeps_noteCall s₀ (x := .slcEnter) fun _ _ => nofun).spec
  refine Spec.bind hrb fun rb => .ite (fun _ => hcode _ (by decide)) fun _ => .ite (fun _ => ?_) fun _ => ?_
  · refine .ite (fun _ => ?_) fun _ => hsend
    exact Spec.bind hrb fun _ => .ite (fun _ => hcode _ (by decide)) fun _ => hsend
  · exact Spec.bind henter fun _ => hsend

end Start

/-! ## Success -/

/-- Every chip got the command, and the last status byte read from it is good. -/
def Confirmed (cmd : ℕ → ChipCall) (chips : List ℕ) (calls : List ChipCall) : Prop :=
  ∀ c ∈ chips, cmd c ∈ calls ∧ ∃ b, lastStatus calls c = some b ∧ GoodStatus b

/-- An operation that starts its command on all chips and then checks their status. -/
lemma confirmed_of_started {cmd : ℕ → ChipCall} {start : ℕ → Act BusSt (Option ℤ)}
    (hstart : Starts cmd start) {after : Act BusSt Unit}
    (hafter : ∀ s₀, Keeps (StatusFrame [] s₀) after) {chips : List ℕ} (hnd : chips.Nodup)
    {s u t : BusSt} (hu : startAll start chips s = (some none, u))
    (ht : checkStatus after chips u = (some 0, t)) :
    Confirmed cmd chips t.calls ↔ ∀ c ∈ chips, ¬StuckBad nandStatusMaxTry (s.statuses c) := by
  obtain ⟨hsu, hcmd, -⟩ := startAll_run hstart chips hu
  obtain ⟨hut, hstat⟩ := checkStatus_run hafter chips hnd ht
  refine forall₂_congr fun c hc => ?_
  obtain ⟨hok, hlast⟩ := hstat c hc
  rw [hsu.statuses List.not_mem_nil] at hok hlast
  rw [hlast, good_iff_not_stuckBad _ _ hok]
  exact and_iff_right (hut.calls _ (hcmd rfl c hc))

/-- An operation goes to each chip once. -/
lemma opChips_nodup (fl : Flash) (p : ChipOpsPara) : (opChips fl p).Nodup := by
  unfold opChips
  split
  · exact List.nodup_range
  · simp

/-- At the start all status bytes are to come. -/
lemma startSt_statuses (hw : Hw) (dataBuf buf : Buf) (c : ℕ) :
    (startSt hw dataBuf buf).statuses c = hw.status c := by
  funext i
  exact congrArg (hw.status c) (Nat.zero_add i)

/-- **When is a reported success the chips' own?** When `write_page` or `erase_block` returns
`NAND_SUCCESS`, every chip got the command and left a good status, exactly when no chip answered
seven bytes that are neither right nor failed with the last of them not good. -/
theorem confirmed_iff (fl : Flash) (ctl : Controller) (req : PageReq) (readonly : Bool) (hw : Hw)
    (dataBuf buf : Buf) :
    (∀ t, writePage fl req readonly (startSt hw dataBuf buf) = (some 0, t) →
      (Confirmed .program (opChips fl req.para) t.calls ↔
        ∀ c ∈ opChips fl req.para, ¬StuckBad nandStatusMaxTry (hw.status c))) ∧
    (∀ t, eraseBlock fl ctl req readonly (startSt hw dataBuf buf) = (some 0, t) →
      (Confirmed .erase (opChips fl req.para) t.calls ↔
        ∀ c ∈ opChips fl req.para, ¬StuckBad nandStatusMaxTry (hw.status c))) := by
  have hafter : ∀ s₀, Keeps (StatusFrame [] s₀) (when (req.hynixSlc fl) (noteCall .slcExit)) :=
    fun s₀ => .when fun _ => keeps_noteCall s₀ fun _ _ => nofun
  have hnd := opChips_nodup fl req.para
  constructor
  · intro t h
    unfold writePage at h
    split at h
    · cases h
    · split at h
      · cases h
      · obtain ⟨o, u, hu, h⟩ := bind_eq_some h
        cases o with
        | some code =>
          obtain rfl := Option.some.inj (Prod.mk.inj h).1
          exact absurd rfl (startAll_run starts_programChip _ hu).2.2
        | none =>
          have := confirmed_of_started starts_programChip hafter hnd hu h
          simpa only [startSt_statuses] using this
  · intro t h
    unfold eraseBlock at h
    split at h
    · cases h
    · obtain ⟨o, u, hu, h⟩ := bind_eq_some h
      cases o with
      | some code =>
        obtain rfl := Option.some.inj (Prod.mk.inj h).1
        exact absurd rfl (startAll_run starts_eraseChip _ hu).2.2
      | none =>
        have := confirmed_of_started starts_eraseChip (fun s₀ => .pure _) hnd hu h
        simpa only [startSt_statuses] using this

/-- A chip that answers `NAND_STATUS_RIGHT` at once. -/
theorem confirmed_right :
    ∃ t, writePage .oneChip { para := {}, withData := true, withOob := false } false
        (startSt (.steady (.uniform 0 0) 0xe0) (fun _ => 0) fun _ => 0) = (some 0, t) ∧
      Confirmed .program [0] t.calls := by
  obtain ⟨t, ht⟩ := exists_of_returned
    (x := writePage .oneChip { para := {}, withData := true, withOob := false } false)
    (s := startSt (.steady (.uniform 0 0) 0xe0) (fun _ => 0) fun _ => 0) (a := 0)
    (by decide +kernel)
  refine ⟨t, ht, ((confirmed_iff _ ctl8k _ _ _ _ _).1 t ht).mpr fun c _ hstuck => ?_⟩
  exact (hstuck.1 0 (by decide)).1 rfl

/-- A chip that answers `0xc1` to every status command, ready and failed but with another bit 5
than `NAND_STATUS_FAILED`: `write_page` and `erase_block` return `NAND_SUCCESS`. -/
theorem not_confirmed_failed :
    (∃ t, writePage .oneChip { para := {}, withData := true, withOob := false } false
        (startSt (.steady (.uniform 0 0) 0xc1) (fun _ => 0) fun _ => 0) = (some 0, t) ∧
      ¬Confirmed .program [0] t.calls) ∧
    ∃ t, eraseBlock .oneChip ctl8k { para := {}, withData := false, withOob := false } false
        (startSt (.steady (.uniform 0 0) 0xc1) (fun _ => 0) fun _ => 0) = (some 0, t) ∧
      ¬Confirmed .erase [0] t.calls := by
  have hbad : ∀ cmd calls, lastStatus calls 0 = some 0xc1 → ¬Confirmed cmd [0] calls := by
    intro cmd calls hlast h
    obtain ⟨-, b, hb, hg⟩ := h 0 (by decide)
    obtain rfl : 0xc1 = b := Option.some.inj (hlast.symm.trans hb)
    revert hg
    decide
  obtain ⟨t, ht, hlast⟩ := exists_of_run
    (x := writePage .oneChip { para := {}, withData := true, withOob := false } false)
    (s := startSt (.steady (.uniform 0 0) 0xc1) (fun _ => 0) fun _ => 0) (a := 0)
    (P := fun t => lastStatus t.calls 0 = some 0xc1) (by decide +kernel) (by decide +kernel)
  obtain ⟨u, hu, hlast'⟩ := exists_of_run
    (x := eraseBlock .oneChip ctl8k { para := {}, withData := false, withOob := false } false)
    (s := startSt (.steady (.uniform 0 0) 0xc1) (fun _ => 0) fun _ => 0) (a := 0)
    (P := fun t => lastStatus t.calls 0 = some 0xc1) (by decide +kernel) (by decide +kernel)
  exact ⟨⟨t, ht, hbad _ _ hlast⟩, u, hu, hbad _ _ hlast'⟩

end Amlnf.Bus
