import Amlnf.Phy.PageSteps

set_option relaxedAutoImplicit false
set_option autoImplicit false

/-!
# Is a page reported erased only if it is erased?

A page whose ECC failed is delivered as `0xff` when the zero bits were few. The failure of
`hwecc_correct` is that of the first step the engine gave up, so this step alone decides.

## Main definitions

* `Bus.BlankSound` — every page delivered as `0xff` was given up in all its steps with few zero
  bits.
* `Bus.FirstBlank` — the first step that was given up has few zero bits.

## Main results

* `Bus.verdict_blank_iff` — the verdict looks at the first step that was given up.
* `Bus.blankSound_iff` — when the pages delivered as `0xff` are erased.
-/

namespace Amlnf.Bus

open Act

variable {fl : Flash} {ctl : Controller} {req : PageReq}

/-- Every page delivered as `0xff` was given up in all its steps with few zero bits. -/
def BlankSound (ctl : Controller) (b : Bench) : Prop :=
  ∀ d ∈ b.delivered, d.allFf = true → ∀ step < ctl.eccSteps, ctl.StepBlank d.fetch.page step

/-- The first of the steps of a page that was given up has few zero bits. -/
def FirstBlank (ctl : Controller) (x : Transfer) : Prop :=
  ∃ step < ctl.eccSteps, ctl.StepBlank x step ∧
    ∀ i < step, nandEccCnt (ctl.record x i) ≠ 0x3f

/-! ## The verdict -/

/-- The loop over the steps ends at the first that was given up, with its zero bits. -/
lemma hweccLoop_failure_iff (ctl : Controller) (x : Transfer) (n step cur z : ℕ) :
    hweccLoop ctl x n step cur = .failure z ↔
      ∃ k < n, nandEccCnt (ctl.record x (step + k)) = 0x3f ∧
        nandZeroCnt (ctl.record x (step + k)) = z ∧
        ∀ i < k, nandEccCnt (ctl.record x (step + i)) ≠ 0x3f := by
  induction n generalizing step cur with
  | zero => simp [hweccLoop]
  | succ n ih =>
    by_cases h : nandEccCnt (ctl.record x step) = 0x3f
    · rw [hweccLoop, if_pos h]
      constructor
      · intro hz
        exact ⟨0, by omega, h, EccEnd.failure.inj hz, fun i hi => absurd hi (by omega)⟩
      · rintro ⟨k, -, -, hz, hk⟩
        have hk0 : k = 0 := Nat.eq_zero_of_not_pos fun hpos => hk 0 hpos h
        subst hk0
        exact congrArg _ hz
    · rw [hweccLoop, if_neg h, ih]
      constructor
      · rintro ⟨k, hk, hc, hz, hi⟩
        refine ⟨k + 1, by omega, ?_, ?_, fun i hik => ?_⟩
        · rwa [← Nat.add_right_comm, Nat.add_assoc] at hc
        · rwa [← Nat.add_right_comm, Nat.add_assoc] at hz
        · cases i with
          | zero => exact h
          | succ i =>
            have := hi i (by omega)
            rwa [Nat.add_right_comm, Nat.add_assoc] at this
      · rintro ⟨k, hk, hc, hz, hi⟩
        cases k with
        | zero => exact absurd hc h
        | succ k =>
          refine ⟨k, by omega, ?_, ?_, fun i hik => ?_⟩
          · rwa [Nat.add_right_comm, Nat.add_assoc]
          · rwa [Nat.add_right_comm, Nat.add_assoc]
          · have := hi (i + 1) (by omega)
            rwa [Nat.add_right_comm, Nat.add_assoc]

/-- A page is found blank when the first step that was given up has few zero bits. -/
lemma verdict_blank_iff (hd : req.withData = true) (x : Transfer) :
    req.verdict ctl x = .blank ↔ req.soft ctl = false ∧ FirstBlank ctl x := by
  cases hs : req.soft ctl with
  | true => simp [verdict_soft hs]
  | false =>
    have hsize : req.pageSize ctl = ctl.eccSteps * ctl.eccUnit := by
      simp [PageReq.pageSize, PageReq.newOob, hd, hs]
    have hcorr : hweccCorrect ctl (req.pageSize ctl) x = hweccLoop ctl x ctl.eccSteps 0 0 := by
      rw [hweccCorrect, if_neg (by simp [pageSize_mod hs]), hsize,
        Nat.mul_div_cancel _ ctl.eccUnit_pos]
    have hloop := hweccLoop_failure_iff ctl x ctl.eccSteps 0 0
    simp only [Nat.zero_add] at hloop
    rw [verdict_hard hs, hcorr]
    constructor
    · intro h
      refine ⟨rfl, ?_⟩
      cases he : hweccLoop ctl x ctl.eccSteps 0 0 with
      | failure z =>
        rw [he] at h
        dsimp only at h
        have hz : z < ctl.eccMax := by
          by_contra hz
          rw [if_neg hz] at h
          cases h
        obtain ⟨k, hk, hc, hzk, hi⟩ := (hloop z).mp he
        exact ⟨k, hk, ⟨hc, hzk ▸ hz⟩, hi⟩
      | argument =>
        rw [he] at h
        cases h
      | corrected _ =>
        rw [he] at h
        cases h
    · rintro ⟨-, k, hk, ⟨hc, hz⟩, hi⟩
      rw [(hloop _).mpr ⟨k, hk, hc, rfl, hi⟩]
      exact if_pos hz

/-! ## The pages delivered as `0xff` -/

/-- The pages delivered as `0xff`, newest first. -/
def Bench.ffPages (b : Bench) : List Fetch := (b.delivered.filter (·.allFf)).map (·.fetch)

/-- The pages found blank, newest first. -/
def blankPages (ctl : Controller) (req : PageReq) (b : Bench) : List Fetch :=
  b.fetched.filter fun f => req.verdict ctl f.page = .blank

/-- With a buffer, the pages delivered as `0xff` are the pages found blank. -/
def BlankLog (ctl : Controller) (req : PageReq) (b : Bench) : Prop :=
  b.ffPages = if req.withData then blankPages ctl req b else []

/-- A page keeps the two lists in step. -/
lemma PageStep.blankLog {chip plane n n' : ℕ} {resets : Bool} {b b' : Bench} {r : AttemptEnd}
    (h : PageStep fl ctl req chip plane resets b n b' r n') (hb : BlankLog ctl req b) :
    BlankLog ctl req b' := by
  unfold BlankLog Bench.ffPages blankPages at hb ⊢
  cases hd : req.withData with
  | false =>
    simp only [hd, Bool.false_eq_true, if_false] at hb ⊢
    cases h <;> simpa [dlv_delivered, hd, Bench.call, Bench.note, Bench.err] using hb
  | true =>
    simp only [hd, if_true] at hb ⊢
    cases h with
    | again x hv hr hn => simpa [Bench.call, hv] using hb
    | blank x hv => simpa [dlv_delivered, hd, hv] using hb
    | ok x hv => simpa [dlv_delivered, Bench.note, hd, hv] using hb
    | given x hv hn => simpa [dlv_delivered, Bench.err, Bench.note, hd, hv] using hb

/-- **The pages delivered as `0xff` are the pages found blank**, over a whole read. -/
lemma readPage_blankLog {hw : Hw} {dataBuf buf : Buf} {r : ℤ} {t : BusSt}
    (h : readPage fl ctl req (startSt hw dataBuf buf) = (some r, t)) :
    BlankLog ctl req t.toBench := by
  obtain ⟨k, T, hT, hb, -⟩ := readPage_steps h
  rw [← hb]
  refine hT.bench (I := BlankLog ctl req) (fun hp hI => hp.blankLog hI) ?_
  unfold BlankLog
  split <;> rfl

/-- **When is a page delivered as `0xff` erased?** In a read that returns, all of them are
exactly when, of the pages that came over the bus, none has a first failed step with few zero
bits beside a step that was corrected or has more of them. -/
theorem blankSound_iff {hw : Hw} {dataBuf buf : Buf} {r : ℤ} {t : BusSt}
    (h : readPage fl ctl req (startSt hw dataBuf buf) = (some r, t)) :
    BlankSound ctl t.toBench ↔ (req.withData = true → req.soft ctl = false →
      ∀ f ∈ t.fetched, FirstBlank ctl f.page →
        ∀ step < ctl.eccSteps, ctl.StepBlank f.page step) := by
  have hlog := readPage_blankLog h
  have hsound : BlankSound ctl t.toBench ↔
      ∀ f ∈ t.toBench.ffPages, ∀ step < ctl.eccSteps, ctl.StepBlank f.page step := by
    simp only [BlankSound, Bench.ffPages, List.mem_map, List.mem_filter]
    constructor
    · rintro hs f ⟨d, ⟨hd, hff⟩, rfl⟩
      exact hs d hd hff
    · intro hs d hd hff
      exact hs _ ⟨d, ⟨hd, hff⟩, rfl⟩
  rw [hsound, hlog]
  cases hd : req.withData with
  | false => simp
  | true =>
    simp only [if_true, blankPages, List.mem_filter, decide_eq_true_eq, verdict_blank_iff hd]
    constructor
    · intro hs _ hsoft f hf hfirst
      exact hs f ⟨hf, hsoft, hfirst⟩
    · rintro hs f ⟨hf, hsoft, hfirst⟩
      exact hs trivial hsoft f hf hfirst

/-- A page whose steps were all corrected: the condition holds, and nothing is delivered as
`0xff`. -/
theorem blankSound_corrected :
    ∃ t, readPage .oneChip ctl8k { para := {}, withData := true, withOob := false }
        (startSt (.steady (.uniform 0x05000000 0) 0xe0) (fun _ => 0) fun _ => 0) = (some 0, t) ∧
      BlankSound ctl8k t.toBench := by
  obtain ⟨t, ht, hall⟩ := exists_of_run
    (x := readPage .oneChip ctl8k { para := {}, withData := true, withOob := false })
    (s := startSt (.steady (.uniform 0x05000000 0) 0xe0) (fun _ => 0) fun _ => 0) (a := 0)
    (P := fun t => (t.fetched.all fun f =>
      (List.range 8).all fun k => nandEccCnt (ctl8k.record f.page k) != 0x3f) = true)
    (by decide +kernel) (by decide +kernel)
  refine ⟨t, ht, (blankSound_iff ht).mpr ?_⟩
  rintro - - f hf ⟨k, hk, ⟨hc, -⟩, -⟩
  have hk' := List.all_eq_true.mp (List.all_eq_true.mp hall f hf) k (List.mem_range.mpr hk)
  simp [hc] at hk'

/-- A page with one failed step whose bits are nearly all ones, and seven corrected steps, is
delivered as `0xff`, without an ECC error. -/
theorem not_blankSound_firstStep :
    ∃ t, readPage .oneChip ctl8k { para := {}, withData := true, withOob := false }
        (startSt (.steady ⟨fun k => if k = 0 then 0x3f000000 else 0x05000000, fun _ => 0⟩ 0xe0)
          (fun _ => 0) fun _ => 0) = (some 0, t) ∧
      t.eccErr = 0 ∧ ¬BlankSound ctl8k t.toBench := by
  obtain ⟨t, ht, hecc, hany⟩ := exists_of_run
    (x := readPage .oneChip ctl8k { para := {}, withData := true, withOob := false })
    (s := startSt (.steady ⟨fun k => if k = 0 then 0x3f000000 else 0x05000000, fun _ => 0⟩ 0xe0)
      (fun _ => 0) fun _ => 0) (a := 0)
    (P := fun t => t.eccErr = 0 ∧
      (t.delivered.any fun d => d.allFf && !decide (ctl8k.StepBlank d.fetch.page 1)) = true)
    (by decide +kernel) (by decide +kernel)
  obtain ⟨d, hd, hbad⟩ := List.any_eq_true.mp hany
  simp only [Bool.and_eq_true, Bool.not_eq_true', decide_eq_false_iff_not] at hbad
  exact ⟨t, ht, hecc, fun hs => hbad.2 (hs d hd hbad.1 1 (by decide))⟩

end Amlnf.Bus
