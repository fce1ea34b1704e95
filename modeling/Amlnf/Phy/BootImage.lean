import Amlnf.Phy.BootOperation

set_option relaxedAutoImplicit false
set_option autoImplicit false

/-!
# What the boot copies carry

The commands `roomboot_nand_write` issues for the types without SLC pages, and when they carry
the caller's image: exactly when the image takes one page less than a block has. The length
handed to `write_uboot` is at least a block, so a shorter image is followed by whatever the
memory behind the buffer holds, and the test for the end of the block cuts a longer one.

## Main definitions

* `bootOp`, `bootOps` — the command for one page of a copy and for a whole copy.
* `Wrote` — some of a list of commands were issued, all of them when nothing failed.
* `CopiesLog` — the commands issued for several copies.
* `CopyHolds`, `CopiesCarry` — a copy holds the image; every copy written without a failure
  does.

## Main results

* `bootCopy_wrote` — one copy issues the commands of that copy.
* `roombootNandWrite_run` — what an accepted request issues.
* `copiesCarry_iff` — when the copies carry the image.
-/

namespace Amlnf

open Act

/-! ## Programming one page after another -/

/-- What writing the copies leaves alone. -/
def St.bootView (s : St) : (ℕ → Outcome) × Bool × OpsOption × ℕ :=
  (s.plan, s.readonly, s.opsPara.option, s.opsPara.chipnr)

/-- No program command fails. -/
def St.ProgFine (s : St) : Prop := s.readonly = false ∧ ∀ n, (s.plan n).prog = .done

/-- Whether programs succeed is a matter of the view. -/
lemma progFine_of_view {s t : St} (h : t.bootView = s.bootView) (hs : s.ProgFine) :
    t.ProgFine := by
  simp only [St.bootView, Prod.mk.injEq] at h
  exact ⟨h.2.1.trans hs.1, fun n => by rw [h.1, hs.2 n]⟩

/-- From `s` to `t` the commands `ops` were issued in order, up to one that failed if there was
a failure. -/
structure Wrote (ops : List FlashOp) (failed : Bool) (s t : St) : Prop where
  view : t.bootView = s.bootView
  log : ∃ l, l <+: ops ∧ t.log = s.log ++ l ∧ (failed = false → l = ops)
  fine : s.ProgFine → failed = false

/-- One more command in front. -/
lemma Wrote.cons {op : FlashOp} {ops : List FlashOp} {failed : Bool} {s t u : St}
    (h : Wrote [op] false s t) (h' : Wrote ops failed t u) : Wrote (op :: ops) failed s u := by
  obtain ⟨l, -, hl, hall⟩ := h.log
  obtain ⟨l', hpre, hl', hall'⟩ := h'.log
  rw [hall rfl] at hl
  refine ⟨h'.view.trans h.view, ⟨op :: l', ?_, ?_, ?_⟩, ?_⟩
  · simpa using hpre
  · rw [hl', hl]
    simp
  · intro hf
    rw [hall' hf]
  · intro hs
    exact h'.fine (progFine_of_view h.view hs)

/-- A failure ends the sequence. -/
lemma Wrote.stop {op : FlashOp} {s t : St} (h : Wrote [op] true s t) (ops : List FlashOp) :
    Wrote (op :: ops) true s t := by
  obtain ⟨l, hpre, hl, -⟩ := h.log
  refine ⟨h.view, ⟨l, hpre.trans ?_, hl, nofun⟩, h.fine⟩
  simp

/-- On the first chip and in no mode, `write_page` issues one command. -/
lemma writePage_wrote (fl : Flash) (d : Buf) {s : St} (ho : s.opsPara.option = {})
    (hc : s.opsPara.chipnr = 0) :
    ∃ ret t, writePage fl (some d) none s = (some ret, t) ∧
      Wrote [.program 0 s.opsPara.pageAddr d none] (decide (ret < 0)) s t := by
  have hp : opPages fl s.opsPara = [(0, s.opsPara.pageAddr)] := by
    simp [opPages, opBlocks, opChips, opRows, ho, hc, Nat.div_add_mod']
  have hops : programOps fl (opPages fl s.opsPara) d none =
      [.program 0 s.opsPara.pageAddr d none] := by
    simp [hp, programOps]
  rw [writePage, get_bind]
  by_cases hro : s.readonly = true
  · rw [if_pos hro]
    refine ⟨_, s, rfl, rfl, ⟨[], by simp, by simp, ?_⟩, ?_⟩
    · simp [eROFS]
    · intro hs
      rw [hs.1] at hro
      cases hro
  · rw [if_neg hro]
    dsimp only
    rw [hops, issue]
    cases hr : (s.plan s.tick).prog with
    | done => exact ⟨_, _, rfl, rfl, ⟨_, List.prefix_rfl, rfl, fun _ => rfl⟩, fun _ => rfl⟩
    | failed code left =>
      refine ⟨_, _, rfl, rfl, ⟨_, List.prefix_rfl, rfl, fun _ => rfl⟩, fun hs => ?_⟩
      rw [hs.2] at hr
      cases hr

/-! ## One copy -/

section Copy

variable (fl : Flash) (info datbuf : Buf) (i : ℕ)

/-- The command for page `j` of copy `i`: the info page, then the pages of the buffer. -/
def bootOp (j : ℕ) : FlashOp :=
  .program 0 (bootPagesPerCopy * i + j)
    (if j = 0 then info else fun x => datbuf (fl.pagesize * (j - 1) + x)) none

/-- The loop variables before page `j` of copy `i`. -/
def copyAt (j : ℕ) : CopyLocals where
  addr := fl.pagesize * (bootPagesPerCopy * i + j)
  writelen := fl.pagesize * (j - 1)
  datbuf := fun x => datbuf (fl.pagesize * (j - 1) + x)

/-- Addresses of the boot area fit 32 bits. -/
lemma pagesize_mul_lt {p : ℕ} (h : p ≤ 2048) : fl.pagesize * p < 2 ^ 32 := by
  have h1 : fl.pagesize * 2048 ≤ 2 ^ 31 := by
    rw [Flash.pagesize, show (2048 : ℕ) = 2 ^ 11 by norm_num, ← pow_add]
    have := fl.shift_lt
    exact Nat.pow_le_pow_right (by omega) (by omega)
  have h2 := Nat.mul_le_mul_left fl.pagesize h
  omega

/-- The page of a page address. -/
lemma bootPage_mul {p : ℕ} (h : p ≤ 1024) : bootPage fl (fl.pagesize * p) = p := by
  rw [bootPage, Nat.mod_eq_of_lt (pagesize_mul_lt fl (by omega)), Nat.mul_div_cancel_left _ fl.pagesize_pos]

/-- The page of a position in a copy. -/
lemma bootPage_copyAt {j : ℕ} (hi : i < bootCopyNum) (hj : j < bootPagesPerCopy) :
    bootPage fl (copyAt fl datbuf i j).addr = bootPagesPerCopy * i + j := by
  unfold bootCopyNum at hi
  unfold bootPagesPerCopy at hj
  refine bootPage_mul fl ?_
  unfold bootPagesPerCopy
  omega

/-- Its number inside the copy. -/
lemma copyAt_mod {j : ℕ} (hi : i < bootCopyNum) (hj : j < bootPagesPerCopy) :
    bootPage fl (copyAt fl datbuf i j).addr % bootPagesPerCopy = j := by
  rw [bootPage_copyAt fl datbuf i hi hj, Nat.mul_add_mod, Nat.mod_eq_of_lt hj]

/-- Is page `j` the last page of copy `i` when `m` pages are to be written? -/
def LastPage (m j : ℕ) : Prop :=
  m ≤ j + 1 ∨ (bootPagesPerCopy * i + j + 1) % fl.ppb = 0

/-- The test of the source, in pages. -/
lemma leaves_iff {m j : ℕ} (hm : 0 < m) (hm' : m ≤ bootPagesPerCopy) (hi : i < bootCopyNum)
    (hj : j < bootPagesPerCopy) :
    ((fl.pagesize * m + 2 ^ 64 - fl.pagesize) % 2 ^ 64 ≤ fl.pagesize * j ∨
      fl.pagesize * (bootPagesPerCopy * i + j + 1) % 2 ^ 32 % fl.blocksize = 0) ↔
      LastPage fl i m j := by
  unfold bootPagesPerCopy bootCopyNum at *
  have hlen : (fl.pagesize * m + 2 ^ 64 - fl.pagesize) % 2 ^ 64 = fl.pagesize * (m - 1) := by
    have h1 : fl.pagesize * m < 2 ^ 32 := pagesize_mul_lt fl (by omega)
    have h2 : fl.pagesize * m = fl.pagesize * (m - 1) + fl.pagesize := by
      rw [← Nat.mul_succ]
      congr 1
      omega
    omega
  have hmod : fl.pagesize * (256 * i + j + 1) % 2 ^ 32 % fl.blocksize =
      fl.pagesize * ((256 * i + j + 1) % fl.ppb) := by
    rw [Nat.mod_eq_of_lt (pagesize_mul_lt fl (by omega)), fl.blocksize_eq, Nat.mul_mod_mul_left]
  have hps := fl.pagesize_pos
  rw [hlen, hmod, LastPage, Nat.mul_le_mul_left_iff hps, Nat.mul_eq_zero]
  unfold bootPagesPerCopy
  omega

section

variable {fl datbuf i}

/-- The info page is followed by the first page of the image. -/
lemma bootNext_info {len : ℕ} (hi : i < bootCopyNum) :
    bootNext fl len (copyAt fl datbuf i 0) = Sum.inl (copyAt fl datbuf i 1) := by
  have h := copyAt_mod fl datbuf i hi (show 0 < bootPagesPerCopy by decide)
  rw [bootNext, if_pos h]
  simp [copyAt, Nat.mul_add]

/-- A page behind the first of a copy is no info page. -/
lemma copyAt_not_info {j : ℕ} (hi : i < bootCopyNum) (hj : j + 1 < bootPagesPerCopy) :
    ¬bootPage fl (copyAt fl datbuf i (j + 1)).addr % bootPagesPerCopy = 0 := by
  rw [copyAt_mod fl datbuf i hi hj]
  omega

/-- What is written of the image with page `j + 1` of a copy. -/
lemma copyAt_writelen (j : ℕ) :
    (copyAt fl datbuf i (j + 1)).writelen + fl.pagesize = fl.pagesize * (j + 1) := by
  simp [copyAt, Nat.mul_succ]

/-- The address behind page `j` of a copy. -/
lemma copyAt_addr (j : ℕ) :
    (copyAt fl datbuf i j).addr + fl.pagesize = fl.pagesize * (bootPagesPerCopy * i + j + 1) :=
  (Nat.mul_succ _ _).symm

/-- Behind a page of the image that is not the last comes the next page of the buffer. -/
lemma bootNext_image {m j : ℕ} (hslc : fl.newType.slc = false) (hm : 0 < m)
    (hm' : m ≤ bootPagesPerCopy) (hi : i < bootCopyNum) (hj : j + 1 < bootPagesPerCopy)
    (h : ¬LastPage fl i m (j + 1)) :
    bootNext fl (fl.pagesize * m) (copyAt fl datbuf i (j + 1)) =
      Sum.inl (copyAt fl datbuf i (j + 2)) := by
  have hfill : ¬(fl.pagesize * m ≤ fl.pagesize * (j + 1) ∧
      fl.pagesize * (j + 1) < fl.blocksize) := by
    rintro ⟨hle, -⟩
    have := Nat.le_of_mul_le_mul_left hle fl.pagesize_pos
    exact h (Or.inl (by omega))
  rw [bootNext, if_neg (copyAt_not_info hi hj)]
  dsimp only
  rw [copyAt_writelen, copyAt_addr, if_neg hfill, hslc, if_neg Bool.false_ne_true,
    if_neg ((leaves_iff fl i hm hm' hi hj).not.2 h)]
  refine congrArg Sum.inl ?_
  simp only [copyAt, CopyLocals.mk.injEq]
  refine ⟨by ring, by simp, ?_⟩
  funext x
  refine congrArg datbuf ?_
  simp only [Nat.add_sub_cancel, Nat.add_succ_sub_one]
  ring

/-- Behind the last page the copy ends. -/
lemma bootNext_last {m j : ℕ} (hslc : fl.newType.slc = false) (hm : 0 < m)
    (hm' : m ≤ bootPagesPerCopy) (hi : i < bootCopyNum) (hj : j + 1 < bootPagesPerCopy)
    (h : LastPage fl i m (j + 1)) :
    bootNext fl (fl.pagesize * m) (copyAt fl datbuf i (j + 1)) =
      Sum.inr (false, fl.pagesize * (j + 1)) := by
  rw [bootNext, if_neg (copyAt_not_info hi hj)]
  dsimp only
  rw [copyAt_writelen, copyAt_addr, hslc, if_neg Bool.false_ne_true, if_pos ((leaves_iff fl i hm hm' hi hj).2 h)]

/-- One page of a copy, for a type without SLC pages. -/
lemma bootRound_wrote (datbuf : Buf) (len : ℕ) {j : ℕ} {s : St} (hslc : fl.newType.slc = false)
    (hi : i < bootCopyNum) (hj : j < bootPagesPerCopy) (ho : s.opsPara.option = {})
    (hc : s.opsPara.chipnr = 0) :
    ∃ failed t, Wrote [bootOp fl info datbuf i j] failed s t ∧
      bootRound fl info len (copyAt fl datbuf i j) s =
        (some (if failed then Sum.inr (true, fl.pagesize * (j - 1))
          else bootNext fl len (copyAt fl datbuf i j)), t) := by
  have hnoslc : fl.newType.isHynix = false ∧ fl.newType ≠ .sandisk19nm := by
    rw [NewType.slc, Bool.or_eq_false_iff] at hslc
    exact ⟨hslc.1, by simpa using hslc.2⟩
  have hp := bootPage_copyAt fl datbuf i hi hj
  have hseek : ∀ p, fl.slcAddr p = p := by
    intro p
    rw [Flash.slcAddr, hnoslc.1, if_neg Bool.false_ne_true, if_neg hnoslc.2]
  have hfill : fillBetween fl (bootPagesPerCopy * i + j) = pure () := by
    refine if_neg ?_
    rintro ⟨h1, -⟩
    rw [h1] at hnoslc
    exact absurd hnoslc.1 (by decide)
  let u : St := { s with opsPara := { s.opsPara with pageAddr := bootPagesPerCopy * i + j } }
  obtain ⟨ret, t, hret, hw⟩ := writePage_wrote fl
    (if j = 0 then info else (copyAt fl datbuf i j).datbuf) (s := u) ho hc
  refine ⟨decide (ret < 0), t, ⟨hw.view, hw.log, hw.fine⟩, ?_⟩
  rw [bootRound, copyAt_mod fl datbuf i hi hj, hp, hseek, hfill, seekBoot, modify_bind, pure_bind,
    bind_some hret]
  by_cases hneg : ret < 0
  · rw [if_pos hneg, decide_eq_true hneg, if_pos rfl, pure_apply, copyAt]
  · rw [if_neg hneg, decide_eq_false hneg, if_neg Bool.false_ne_true, pure_apply]

/-- The commands of copy `i` from page `j` on, `w` being the last page.

**Proof sketch.** Induction on the number of pages left. A page that fails ends the copy, the
info page and the pages before the last go on, and the last page ends it. -/
lemma bootCopy_wrote_from (datbuf : Buf) {m w : ℕ} (hslc : fl.newType.slc = false) (hm : 0 < m)
    (hm' : m ≤ bootPagesPerCopy) (hi : i < bootCopyNum) (hw0 : 0 < w) (hw : w < bootPagesPerCopy)
    (hlast : LastPage fl i m w) (hgo : ∀ j, 0 < j → j < w → ¬LastPage fl i m j) :
    ∀ k j n, j + k = w → k < n → ∀ s : St, s.opsPara.option = {} → s.opsPara.chipnr = 0 →
      ∃ r t, loopUntil (bootRound fl info (fl.pagesize * m)) n (copyAt fl datbuf i j) s =
          (some r, t) ∧
        Wrote ((List.range' j (k + 1)).map (bootOp fl info datbuf i)) r.1 s t := by
  intro k
  induction k with
  | zero =>
    intro j n hj hn s ho hc
    obtain ⟨n, rfl⟩ : ∃ n', n = n' + 1 := ⟨n - 1, by omega⟩
    obtain ⟨j, rfl⟩ : ∃ j', j = j' + 1 := ⟨j - 1, by omega⟩
    obtain rfl : j + 1 = w := by omega
    obtain ⟨failed, t, hwrote, hround⟩ := bootRound_wrote info datbuf
      (fl.pagesize * m) hslc hi hw ho hc
    rw [bootNext_last hslc hm hm' hi hw hlast] at hround
    cases failed with
    | true => exact ⟨_, t, loopUntil_inr n hround, hwrote⟩
    | false => exact ⟨_, t, loopUntil_inr n hround, hwrote⟩
  | succ k ih =>
    intro j n hj hn s ho hc
    obtain ⟨n, rfl⟩ : ∃ n', n = n' + 1 := ⟨n - 1, by omega⟩
    have hjw : j < bootPagesPerCopy := by omega
    obtain ⟨failed, t, hwrote, hround⟩ := bootRound_wrote info datbuf
      (fl.pagesize * m) hslc hi hjw ho hc
    rw [List.range'_succ, List.map_cons]
    cases failed with
    | true => exact ⟨_, t, loopUntil_inr n hround, hwrote.stop _⟩
    | false =>
      have hnext : bootNext fl (fl.pagesize * m) (copyAt fl datbuf i j) =
          Sum.inl (copyAt fl datbuf i (j + 1)) := by
        cases j with
        | zero => exact bootNext_info hi
        | succ j => exact bootNext_image hslc hm hm' hi hjw (hgo _ (by omega) (by omega))
      rw [hnext] at hround
      have hview := hwrote.view
      simp only [St.bootView, Prod.mk.injEq] at hview
      obtain ⟨r, u, hrun, hrest⟩ := ih (j + 1) n (by omega) (by omega) t
        (hview.2.2.1.trans ho) (hview.2.2.2.trans hc)
      exact ⟨r, u, (loopUntil_inl n hround).trans hrun, hwrote.cons hrest⟩

/-- The pages of the buffer that copy `i` writes when `m` pages are to be written: one at least,
one less than asked for, and no further than the end of the block. -/
def copyLen (fl : Flash) (m i : ℕ) : ℕ :=
  min (max (m - 1) 1) (fl.ppb - 1 - bootPagesPerCopy * i % fl.ppb)

/-- The commands of copy `i`. -/
def bootOps (fl : Flash) (info datbuf : Buf) (m i : ℕ) : List FlashOp :=
  (List.range (copyLen fl m i + 1)).map (bootOp fl info datbuf i)

/-- A copy starts at a block or in the middle of one. -/
lemma copyStart_mod_le (fl : Flash) (i : ℕ) : bootPagesPerCopy * i % fl.ppb + 32 ≤ fl.ppb := by
  have h5 : 32 ∣ fl.ppb := by
    rw [show 32 = 2 ^ 5 by norm_num, Flash.ppb]
    exact Nat.pow_dvd_pow 2 fl.ppbShift_ge
  have hstart : 32 ∣ bootPagesPerCopy * i := Dvd.dvd.mul_right (by decide) i
  have hmod : 32 ∣ bootPagesPerCopy * i % fl.ppb := (Nat.dvd_mod_iff h5).2 hstart
  have hlt : bootPagesPerCopy * i % fl.ppb < fl.ppb := Nat.mod_lt _ fl.ppb_pos
  omega

/-- A copy has an image page at least and fits its place. -/
lemma copyLen_bounds (fl : Flash) {m : ℕ} (hm' : m ≤ bootPagesPerCopy) (i : ℕ) :
    0 < copyLen fl m i ∧ copyLen fl m i < bootPagesPerCopy ∧ copyLen fl m i < fl.ppb := by
  have h := copyStart_mod_le fl i
  unfold copyLen
  unfold bootPagesPerCopy at *
  omega

/-- The last page of a copy, and that none before it is. -/
lemma lastPage_copyLen (fl : Flash) {m : ℕ} (hm : 0 < m) (i : ℕ) :
    LastPage fl i m (copyLen fl m i) ∧
      ∀ j, 0 < j → j < copyLen fl m i → ¬LastPage fl i m j := by
  have h := copyStart_mod_le fl i
  have hadd : ∀ x, (bootPagesPerCopy * i + x) % fl.ppb =
      (bootPagesPerCopy * i % fl.ppb + x) % fl.ppb := fun x => by simp
  constructor
  · by_cases hle : m - 1 ≤ copyLen fl m i
    · exact Or.inl (by omega)
    · refine Or.inr ?_
      have heq : bootPagesPerCopy * i % fl.ppb + (copyLen fl m i + 1) = fl.ppb := by
        unfold copyLen at *
        omega
      rw [Nat.add_assoc, hadd, heq, Nat.mod_self]
  · intro j hj0 hj hlast
    rcases hlast with hlast | hlast
    · unfold copyLen at hj
      omega
    · have hlt : bootPagesPerCopy * i % fl.ppb + (j + 1) < fl.ppb := by
        unfold copyLen at hj
        omega
      rw [Nat.add_assoc, hadd, Nat.mod_eq_of_lt hlt] at hlast
      omega

/-- **One copy** issues the commands of that copy. -/
lemma bootCopy_wrote (datbuf : Buf) {m : ℕ} (hslc : fl.newType.slc = false) (hm : 0 < m)
    (hm' : m ≤ bootPagesPerCopy) (hi : i < bootCopyNum) {s : St} (ho : s.opsPara.option = {})
    (hc : s.opsPara.chipnr = 0) :
    ∃ r t, bootCopy fl info (fl.pagesize * m) datbuf i s = (some r, t) ∧
      Wrote (bootOps fl info datbuf m i) r.1 s t := by
  obtain ⟨h0, h256, hppb⟩ := copyLen_bounds fl hm' i
  obtain ⟨hlast, hgo⟩ := lastPage_copyLen fl hm i
  have h := bootCopy_wrote_from info datbuf hslc hm hm' hi h0 h256 hlast hgo
    (copyLen fl m i) 0 (fl.ppb + 1) (by omega) (by omega) s ho hc
  rw [← List.range_eq_range'] at h
  have hat : copyAt fl datbuf i 0 =
      { addr := fl.pagesize * (bootPagesPerCopy * i), datbuf := datbuf } := by
    simp [copyAt]
  rw [hat] at h
  exact h

end

end Copy

/-! ## All copies -/

/-- The commands issued for several copies, one after the other: of each copy the first ones,
and all of them when the copy did not fail. -/
inductive CopiesLog (P : ℕ → List FlashOp) : List ℕ → List Bool → List FlashOp → Prop
  | nil : CopiesLog P [] [] []
  | cons {i : ℕ} {failed : Bool} {l : List FlashOp} {is : List ℕ} {status : List Bool}
      {ls : List FlashOp} (hl : l <+: P i) (hall : failed = false → l = P i)
      (hls : CopiesLog P is status ls) : CopiesLog P (i :: is) (failed :: status) (l ++ ls)

section Log

variable {P : ℕ → List FlashOp} {is : List ℕ} {status : List Bool} {ls : List FlashOp}

/-- Nothing is issued that belongs to no copy. -/
lemma CopiesLog.mem_copy (h : CopiesLog P is status ls) {op : FlashOp} (hop : op ∈ ls) :
    ∃ i ∈ is, op ∈ P i := by
  induction h with
  | nil => simp at hop
  | @cons i failed l is status ls hl hall hls ih =>
    rcases List.mem_append.1 hop with hop | hop
    · exact ⟨i, List.mem_cons_self, hl.mem hop⟩
    · obtain ⟨j, hj, hop⟩ := ih hop
      exact ⟨j, List.mem_cons_of_mem _ hj, hop⟩

/-- A copy that did not fail was issued as a whole. -/
lemma CopiesLog.mem_of_done (h : CopiesLog P is status ls) {c i : ℕ} (hi : is[c]? = some i)
    (hc : status[c]? = some false) {op : FlashOp} (hop : op ∈ P i) : op ∈ ls := by
  induction h generalizing c with
  | nil => simp at hi
  | @cons i' failed l is status ls hl hall hls ih =>
    cases c with
    | zero =>
      simp only [List.getElem?_cons_zero, Option.some.injEq] at hi hc
      rw [← hi, ← hall hc] at hop
      exact List.mem_append_left _ hop
    | succ c =>
      simp only [List.getElem?_cons_succ] at hi hc
      exact List.mem_append_right _ (ih hi hc)

/-- Copies without commands. -/
lemma CopiesLog.empty (is : List ℕ) :
    CopiesLog (fun _ => []) is (List.replicate is.length false) [] := by
  induction is with
  | nil => exact .nil
  | cons i is ih => exact CopiesLog.cons (l := []) List.prefix_rfl (fun _ => rfl) ih

end Log

/-- The copies of a list, one after the other. -/
lemma bootCopies_log {fl : Flash} (info datbuf : Buf) {m : ℕ} (hslc : fl.newType.slc = false)
    (hm : 0 < m) (hm' : m ≤ bootPagesPerCopy) (is : List ℕ) (his : ∀ i ∈ is, i < bootCopyNum) :
    ∀ s : St, s.opsPara.option = {} → s.opsPara.chipnr = 0 →
      ∃ rs t ls, bootCopies fl info (fl.pagesize * m) datbuf is s = (some rs, t) ∧
        t.log = s.log ++ ls ∧ CopiesLog (bootOps fl info datbuf m) is (rs.map Prod.fst) ls ∧
        (s.ProgFine → rs.map Prod.fst = List.replicate is.length false) := by
  induction is with
  | nil =>
    intro s ho hc
    exact ⟨[], s, [], rfl, (List.append_nil _).symm, .nil, fun _ => rfl⟩
  | cons i is ih =>
    intro s ho hc
    obtain ⟨r, t, hrun, hw⟩ := bootCopy_wrote info datbuf hslc hm hm'
      (his i List.mem_cons_self) ho hc
    have hview := hw.view
    simp only [St.bootView, Prod.mk.injEq] at hview
    obtain ⟨rs, u, ls, hruns, hlog, hls, hfine⟩ := ih
      (fun j hj => his j (List.mem_cons_of_mem _ hj)) t (hview.2.2.1.trans ho)
      (hview.2.2.2.trans hc)
    obtain ⟨l, hl, hlt, hall⟩ := hw.log
    refine ⟨r :: rs, u, l ++ ls, ?_, ?_, .cons hl hall hls, ?_⟩
    · rw [bootCopies, bind_some hrun]
      exact (bind_some hruns).trans rfl
    · rw [hlog, hlt, List.append_assoc]
    · intro hs
      rw [List.map_cons, hw.fine hs, hfine (progFine_of_view hw.view hs)]
      rfl

/-! ## The request -/

/-- Only erase commands were issued from `s` to `t`. -/
def OnlyErased (s t : St) : Prop :=
  (∃ l : List FlashOp, t.log = s.log ++ l ∧ ∀ op ∈ l, ∃ c b, op = .erase c b) ∧
    t.plan = s.plan ∧ t.readonly = s.readonly

/-- One after the other. -/
lemma OnlyErased.trans {s t u : St} (h : OnlyErased s t) (h' : OnlyErased t u) :
    OnlyErased s u := by
  obtain ⟨⟨l, hl, he⟩, hp, hr⟩ := h
  obtain ⟨⟨l', hl', he'⟩, hp', hr'⟩ := h'
  refine ⟨⟨l ++ l', by rw [hl', hl, List.append_assoc], ?_⟩, hp'.trans hp, hr'.trans hr⟩
  intro op hop
  rcases List.mem_append.1 hop with hop | hop
  · exact he op hop
  · exact he' op hop

/-- Without a command nothing was erased. -/
lemma OnlyErased.of_eq {s t : St} (hl : t.log = s.log) (hp : t.plan = s.plan)
    (hr : t.readonly = s.readonly) : OnlyErased s t :=
  ⟨⟨[], by rw [hl, List.append_nil], by simp⟩, hp, hr⟩

/-- An erase erases only. -/
lemma eraseBlock_onlyErased (fl : Flash) (s : St) :
    ∃ ret t, eraseBlock fl s = (some ret, t) ∧ OnlyErased s t := by
  rw [eraseBlock, get_bind]
  by_cases hro : s.readonly = true
  · rw [if_pos hro]
    exact ⟨_, s, rfl, .of_eq rfl rfl rfl⟩
  · have hops : ∀ op ∈ eraseOps (opBlocks fl s.opsPara), ∃ c b, op = FlashOp.erase c b := by
      intro op hop
      obtain ⟨x, -, rfl⟩ := List.mem_map.1 hop
      exact ⟨_, _, rfl⟩
    rw [if_neg hro, issue]
    cases (s.plan s.tick).erase with
    | done => exact ⟨_, _, rfl, ⟨_, rfl, hops⟩, rfl, rfl⟩
    | failed code left => exact ⟨_, _, rfl, ⟨_, rfl, hops⟩, rfl, rfl⟩

/-- So does a round of the erase loop, which goes on block by block. -/
lemma eraseBootRound_onlyErased (fl : Flash) (addr : ℕ) (s : St) :
    ∃ t, eraseBootRound fl addr s = (some (if addr + fl.blocksize < 1024 * fl.pagesize then
      Sum.inl (addr + fl.blocksize) else Sum.inr ()), t) ∧ OnlyErased s t := by
  have hend : ∀ u : St, (if addr + fl.blocksize < 1024 * fl.pagesize then
      pure (Sum.inl (addr + fl.blocksize)) else pure (Sum.inr ()) : Act St (ℕ ⊕ Unit)) u =
      (some (if addr + fl.blocksize < 1024 * fl.pagesize then
      Sum.inl (addr + fl.blocksize) else Sum.inr ()), u) := by
    intro u
    split <;> rfl
  let u : St := { s with opsPara := { s.opsPara with pageAddr := bootPage fl addr } }
  have hu : OnlyErased s u := .of_eq rfl rfl rfl
  have hlook : blockIsbad fl u = (some (isbadVal fl u.blkStatus u.opsPara), u) := rfl
  rw [eraseBootRound, seekBoot, modify_bind, bind_some hlook]
  by_cases hbad : isbadVal fl u.blkStatus u.opsPara = 2
  · refine ⟨u, ?_, hu⟩
    rw [Act.when, if_neg (not_not.2 hbad), pure_bind, hend]
  · have herase : ∀ v : St, ∃ t, (eraseBlock fl >>= fun _ => pure ()) v = (some (), t) ∧
        OnlyErased v t := by
      intro v
      obtain ⟨ret, t, hrun, ht⟩ := eraseBlock_onlyErased fl v
      exact ⟨t, (bind_some hrun).trans rfl, ht⟩
    rw [Act.when, if_pos hbad]
    by_cases hsd : fl.newType = .sandisk19nm
    · obtain ⟨t, hrun, ht⟩ := herase
        { u with opsPara := { u.opsPara with pageAddr := fl.slcAddr (bootPage fl addr) } }
      refine ⟨t, ?_, hu.trans (.trans (.of_eq rfl rfl rfl) ht)⟩
      rw [Act.when, if_pos hsd]
      exact (bind_some hrun).trans (hend t)
    · obtain ⟨t, hrun, ht⟩ := herase u
      refine ⟨t, ?_, hu.trans ht⟩
      rw [Act.when, if_neg hsd]
      exact (bind_some hrun).trans (hend t)

/-- The erase loop passes over every block of the boot area. -/
lemma eraseBoot_onlyErased (fl : Flash) : ∀ k b n, b + k + 1 = fl.startBlk → k < n → ∀ s : St,
    ∃ t, loopUntil (eraseBootRound fl) n (b * fl.blocksize) s = (some (), t) ∧
      OnlyErased s t := by
  have harea : 1024 * fl.pagesize = fl.startBlk * fl.blocksize := by
    rw [← fl.startBlk_mul_ppb, fl.blocksize_eq]
    ring
  have hbs : 0 < fl.blocksize := Nat.two_pow_pos _
  intro k
  induction k with
  | zero =>
    intro b n hb hn s
    obtain ⟨n, rfl⟩ : ∃ n', n = n' + 1 := ⟨n - 1, by omega⟩
    obtain ⟨t, hrun, ht⟩ := eraseBootRound_onlyErased fl (b * fl.blocksize) s
    have hstop : ¬b * fl.blocksize + fl.blocksize < 1024 * fl.pagesize := by
      rw [harea, ← Nat.succ_mul, Nat.mul_lt_mul_right hbs]
      omega
    rw [if_neg hstop] at hrun
    exact ⟨t, loopUntil_inr n hrun, ht⟩
  | succ k ih =>
    intro b n hb hn s
    obtain ⟨n, rfl⟩ : ∃ n', n = n' + 1 := ⟨n - 1, by omega⟩
    obtain ⟨t, hrun, ht⟩ := eraseBootRound_onlyErased fl (b * fl.blocksize) s
    have hgo : b * fl.blocksize + fl.blocksize < 1024 * fl.pagesize := by
      rw [harea, ← Nat.succ_mul, Nat.mul_lt_mul_right hbs]
      omega
    rw [if_pos hgo, ← Nat.succ_mul] at hrun
    obtain ⟨u, hrest, hu⟩ := ih (b + 1) n (by omega) (by omega) t
    exact ⟨u, (loopUntil_inl n hrun).trans hrest, ht.trans hu⟩

/-- The pages `write_uboot` is asked to write. -/
def bootWritePages (fl : Flash) (len : ℕ) : ℕ := bootWriteLen fl len / fl.pagesize

/-- The length written is a number of pages. -/
lemma bootWriteLen_eq (fl : Flash) (len : ℕ) :
    bootWriteLen fl len = fl.pagesize * bootWritePages fl len := by
  rw [bootWritePages, bootWriteLen, Nat.mul_div_cancel _ fl.pagesize_pos, Nat.mul_comm]

/-- A length is accepted when it fits one copy. -/
lemma bootAccepts_iff (fl : Flash) (len : ℕ) :
    bootAccepts fl 0 len ↔ bootWritePages fl len ≤ bootPagesPerCopy := by
  have hsize : (bootDev fl).size / bootCopyNum = fl.pagesize * bootPagesPerCopy := by
    rw [bootDev, bootCopyNum, bootPagesPerCopy]
    dsimp only
    omega
  rw [bootAccepts, hsize, bootWriteLen_eq, Nat.mul_mod_right,
    Nat.mul_le_mul_left_iff fl.pagesize_pos]
  simp

/-- The commands of copy `i` of an accepted request; none when the length came out as zero. -/
def requestOps (fl : Flash) (cfg : BootCfg) (buffer : Buf) (len i : ℕ) : List FlashOp :=
  if bootWritePages fl len = 0 then []
  else bootOps fl (nandBootInfoPrepare fl cfg) buffer (bootWritePages fl len) i

/-- **An accepted request** erases blocks and then issues the commands of the four copies. -/
lemma roombootNandWrite_run {fl : Flash} (cfg : BootCfg) (buffer : Buf) {len : ℕ}
    (hslc : fl.newType.slc = false) (hacc : bootAccepts fl 0 len) (s : St) :
    ∃ r t es ls, roombootNandWrite fl cfg 0 len buffer s = (some r, t) ∧
      t.log = s.log ++ (es ++ ls) ∧ (∀ op ∈ es, ∃ c b, op = FlashOp.erase c b) ∧
      CopiesLog (requestOps fl cfg buffer len) (List.range bootCopyNum) r.status ls ∧
      (s.ProgFine → r.status = List.replicate bootCopyNum false) := by
  have hm := (bootAccepts_iff fl len).1 hacc
  obtain ⟨-, hmod, hsize⟩ := hacc
  have hstart := fl.startBlk_pos
  obtain ⟨u, herase, ⟨es, hes, hall⟩, hplan, hro⟩ := eraseBoot_onlyErased fl
    (fl.startBlk - 1) 0 (fl.startBlk + 1) (by omega) (by omega)
    { s with opsPara := { option := { slc := decide (fl.newType = .sandisk19nm) } } }
  rw [Nat.zero_mul] at herase
  have hroom : roombootNandWrite fl cfg 0 len buffer s =
      writeUboot fl cfg 0 (bootWriteLen fl len) buffer u := by
    rw [roombootNandWrite, if_neg (not_not.2 rfl), if_neg (not_not.2 hmod),
      if_neg (not_lt.2 hsize), modify_bind, bind_some herase]
  have hfits : ¬(bootDev fl).size < (0 + bootWriteLen fl len) % 2 ^ 64 := by
    have h1 : (bootDev fl).size / bootCopyNum ≤ (bootDev fl).size := Nat.div_le_self _ _
    have h2 := Nat.mod_le (0 + bootWriteLen fl len) (2 ^ 64)
    omega
  rw [hroom, writeUboot, if_neg hfits]
  by_cases hzero : bootWritePages fl len = 0
  · have hlen : bootWriteLen fl len = 0 := by rw [bootWriteLen_eq, hzero, Nat.mul_zero]
    have hops : requestOps fl cfg buffer len = fun _ => [] := by
      funext i
      exact if_pos hzero
    rw [if_pos (Or.inl hlen), hops]
    exact ⟨_, u, es, [], rfl, by rw [hes, List.append_nil], hall, .empty _, fun _ => rfl⟩
  · have hlen : ¬(bootWriteLen fl len = 0 ∨ (0 : ℕ) ≠ 0) := by
      rw [bootWriteLen_eq, Nat.mul_eq_zero]
      have := fl.pagesize_pos
      omega
    have hops : requestOps fl cfg buffer len =
        bootOps fl (nandBootInfoPrepare fl cfg) buffer (bootWritePages fl len) := by
      funext i
      exact if_neg hzero
    rw [if_neg hlen, modify_bind, hslc, hops, bootWriteLen_eq]
    obtain ⟨rs, t, ls, hrun, hlog, hcopies, hfine⟩ := bootCopies_log
      (nandBootInfoPrepare fl cfg) buffer hslc (Nat.pos_of_ne_zero hzero) hm
      (List.range bootCopyNum) (fun i hi => List.mem_range.1 hi)
      { u with opsPara := { option := { slc := false } } } rfl rfl
    refine ⟨_, t, es, ls, (bind_some hrun).trans rfl, ?_, hall, hcopies, fun hs => ?_⟩
    · rw [hlog]
      exact (congrArg (· ++ ls) hes).trans (List.append_assoc _ _ _)
    · refine hfine ⟨hro.trans hs.1, fun n => ?_⟩
      change (u.plan n).prog = _
      rw [hplan]
      exact hs.2 n

/-- Every program command of an accepted request is one of a copy. -/
lemma mem_requestOps {fl : Flash} {cfg : BootCfg} {buffer : Buf} {len i : ℕ} {op : FlashOp}
    (h : op ∈ requestOps fl cfg buffer len i) :
    ∃ j ≤ copyLen fl (bootWritePages fl len) i,
      op = bootOp fl (nandBootInfoPrepare fl cfg) buffer i j := by
  unfold requestOps at h
  split at h
  · simp at h
  · obtain ⟨j, hj, rfl⟩ := List.mem_map.1 h
    exact ⟨j, Nat.le_of_lt_succ (List.mem_range.1 hj), rfl⟩

/-! ## The image -/

/-- Pages an image of `len` bytes takes. -/
def imagePages (fl : Flash) (len : ℕ) : ℕ := (len + fl.pagesize - 1) / fl.pagesize

/-- Page `p` of the first chip was programmed, and only with data of which `D` holds. -/
def Programmed (ops : List FlashOp) (p : ℕ) (D : Buf → Prop) : Prop :=
  (∃ d o, FlashOp.program 0 p d o ∈ ops) ∧ ∀ d o, FlashOp.program 0 p d o ∈ ops → D d

/-- Copy `c` holds the info page, then the image, and besides them padding only. -/
structure CopyHolds (fl : Flash) (cfg : BootCfg) (len : ℕ) (image : Buf) (ops : List FlashOp)
    (c : ℕ) : Prop where
  info : Programmed ops (256 * c) fun d => ∀ x < fl.pagesize, d x = nandBootInfoPrepare fl cfg x
  image : ∀ k < imagePages fl len, Programmed ops (256 * c + 1 + k) fun d =>
    ∀ x < fl.pagesize, fl.pagesize * k + x < len → d x = image (fl.pagesize * k + x)
  padding : ∀ chip p d o, FlashOp.program chip p d o ∈ ops → p / 256 = c →
    256 * c + 1 + imagePages fl len ≤ p → ∀ x < fl.pagesize, d x = 0xff

/-- Every boot copy whose page writes all succeed carries the image of `len` bytes, whatever the
memory behind the caller's buffer holds, whatever the state before and however the chips
behave. -/
def CopiesCarry (fl : Flash) (cfg : BootCfg) (len : ℕ) (image : Buf) : Prop :=
  ∀ buffer : Buf, (∀ i < len, buffer i = image i) → ∀ s : St,
    ∃ r t ops, roombootNandWrite fl cfg 0 len buffer s = (some r, t) ∧ t.log = s.log ++ ops ∧
      ∀ c < bootCopyNum, r.status[c]? = some false → CopyHolds fl cfg len image ops c

section Image

variable {fl : Flash} {len : ℕ}

/-- An image shorter than a block is handed on as one block. -/
lemma bootWritePages_of_short (hslc : fl.newType.slc = false) (h : imagePages fl len < fl.ppb) :
    bootWritePages fl len = fl.ppb := by
  have hps := fl.pagesize_pos
  have hlen : len < fl.blocksize := by
    rw [imagePages, Nat.div_lt_iff_lt_mul hps] at h
    rw [fl.blocksize_eq, Nat.mul_comm]
    omega
  have hlt : fl.blocksize + fl.pagesize - 1 < 2 ^ 32 := by
    have h1 : fl.pagesize * (fl.ppb + 1) < 2 ^ 32 := by
      have := fl.ppb_le
      exact pagesize_mul_lt fl (by omega)
    rw [Nat.mul_succ, ← fl.blocksize_eq] at h1
    omega
  rw [bootWritePages, bootWriteLen, Nat.mul_div_cancel _ hps, if_pos hlen, hslc,
    if_neg Bool.false_ne_true, Nat.mod_eq_of_lt hlt, fl.blocksize_eq, Nat.add_sub_assoc hps,
    Nat.mul_add_div hps, Nat.div_eq_of_lt (by omega), Nat.add_zero]

/-- The copies of a block each start at a block. -/
lemma copyLen_block (h : fl.ppb ≤ bootPagesPerCopy) (i : ℕ) :
    copyLen fl fl.ppb i = fl.ppb - 1 := by
  have hdvd : fl.ppb ∣ bootPagesPerCopy := by
    rw [bootPagesPerCopy, Flash.ppb] at *
    rw [show 256 = 2 ^ 8 by norm_num] at *
    exact Nat.pow_dvd_pow 2 ((Nat.pow_le_pow_iff_right (by norm_num)).1 h)
  have hmod : bootPagesPerCopy * i % fl.ppb = 0 := Nat.mod_eq_zero_of_dvd (hdvd.mul_right i)
  have h32 := copyStart_mod_le fl i
  rw [copyLen, hmod]
  omega

/-- The image of one page less than a block is carried. -/
lemma copiesCarry_of_eq (cfg : BootCfg) (image : Buf) (hslc : fl.newType.slc = false)
    (hacc : bootAccepts fl 0 len) (h : imagePages fl len = fl.ppb - 1) :
    CopiesCarry fl cfg len image := by
  have hppb := fl.ppb_pos
  have hm : bootWritePages fl len = fl.ppb := bootWritePages_of_short hslc (by omega)
  have hle : fl.ppb ≤ bootPagesPerCopy := hm ▸ (bootAccepts_iff fl len).1 hacc
  intro buffer hbuf s
  obtain ⟨r, t, es, ls, hrun, hlog, hes, hls, -⟩ :=
    roombootNandWrite_run cfg buffer hslc hacc s
  refine ⟨r, t, es ++ ls, hrun, hlog, fun c hc hdone => ?_⟩
  -- the program commands are those of the copies, and those of copy `c` are all there
  have honly : ∀ {chip p d o}, FlashOp.program chip p d o ∈ es ++ ls → ∃ i j, j ≤ fl.ppb - 1 ∧
      FlashOp.program chip p d o = bootOp fl (nandBootInfoPrepare fl cfg) buffer i j := by
    intro chip p d o hop
    rcases List.mem_append.1 hop with hop | hop
    · obtain ⟨_, _, he⟩ := hes _ hop
      cases he
    · obtain ⟨i, -, hop⟩ := hls.mem_copy hop
      obtain ⟨j, hj, heq⟩ := mem_requestOps hop
      rw [hm, copyLen_block hle] at hj
      exact ⟨i, j, hj, heq⟩
  have hthere : ∀ j ≤ fl.ppb - 1,
      bootOp fl (nandBootInfoPrepare fl cfg) buffer c j ∈ es ++ ls := by
    intro j hj
    have hget : (List.range bootCopyNum)[c]? = some c := by
      rw [List.getElem?_range hc]
    refine List.mem_append_right _ (hls.mem_of_done hget hdone ?_)
    rw [requestOps, hm, if_neg (by omega), bootOps, copyLen_block hle]
    exact List.mem_map_of_mem (List.mem_range.2 (by omega))
  unfold bootPagesPerCopy at hle
  constructor
  · refine ⟨⟨_, _, hthere 0 (by omega)⟩, fun d o hop x hx => ?_⟩
    obtain ⟨i, j, hj, heq⟩ := honly hop
    simp only [bootOp, bootPagesPerCopy, FlashOp.program.injEq] at heq
    obtain rfl : j = 0 := by omega
    rw [heq.2.2.1, if_pos rfl]
  · intro k hk
    have hk1 := hthere (k + 1) (by omega)
    rw [bootOp, bootPagesPerCopy, Nat.add_comm k 1, ← Nat.add_assoc] at hk1
    refine ⟨⟨_, _, hk1⟩, fun d o hop x hx hlt => ?_⟩
    obtain ⟨i, j, hj, heq⟩ := honly hop
    simp only [bootOp, bootPagesPerCopy, FlashOp.program.injEq] at heq
    obtain rfl : j = k + 1 := by omega
    rw [heq.2.2.1, if_neg (by omega), Nat.add_sub_cancel]
    exact hbuf _ hlt
  · intro chip p d o hop hpc hp
    -- no copy reaches a page behind the image
    obtain ⟨i, j, hj, heq⟩ := honly hop
    simp only [bootOp, bootPagesPerCopy, FlashOp.program.injEq] at heq
    omega

/-- A state in which every command succeeds. -/
lemma blank_progFine : St.blank.ProgFine := ⟨rfl, fun _ => rfl⟩

/-- The pages behind an image of fewer pages come from the memory behind the buffer. -/
lemma not_copiesCarry_of_short (cfg : BootCfg) (image : Buf) (hslc : fl.newType.slc = false)
    (hacc : bootAccepts fl 0 len) (h : imagePages fl len < fl.ppb - 1) :
    ¬CopiesCarry fl cfg len image := by
  have hm : bootWritePages fl len = fl.ppb := bootWritePages_of_short hslc (by omega)
  have hle : fl.ppb ≤ bootPagesPerCopy := hm ▸ (bootAccepts_iff fl len).1 hacc
  intro hcarry
  obtain ⟨r, t, es, ls, hrun, hlog, -, hls, hfine⟩ := roombootNandWrite_run cfg
    (fun i => if i < len then image i else 0) hslc hacc St.blank
  obtain ⟨r', t', ops, hrun', hlog', hcopies⟩ := hcarry (fun i => if i < len then image i else 0)
    (fun i hi => if_pos hi) St.blank
  rw [hrun] at hrun'
  obtain ⟨rfl, rfl⟩ : r = r' ∧ t = t' := by simpa using hrun'
  obtain rfl : es ++ ls = ops := List.append_cancel_left (hlog.symm.trans hlog')
  have hdone : r.status[0]? = some false := by
    rw [hfine blank_progFine]
    rfl
  have hop : bootOp fl (nandBootInfoPrepare fl cfg) (fun i => if i < len then image i else 0) 0
      (imagePages fl len + 1) ∈ es ++ ls := by
    refine List.mem_append_right _ (hls.mem_of_done (i := 0) rfl hdone ?_)
    rw [requestOps, hm, if_neg (by omega), bootOps, copyLen_block hle]
    exact List.mem_map_of_mem (List.mem_range.2 (by omega))
  unfold bootPagesPerCopy at hle
  have hpad := (hcopies 0 (by decide) hdone).padding _ _ _ _ hop
    (by rw [bootPagesPerCopy]; omega) (by rw [bootPagesPerCopy]; omega) 0 fl.pagesize_pos
  have hout : ¬fl.pagesize * imagePages fl len + 0 < len := by
    have h1 := Nat.lt_mul_div_succ (len + fl.pagesize - 1) fl.pagesize_pos
    have h2 := fl.pagesize_pos
    rw [Nat.mul_add, ← imagePages] at h1
    omega
  rw [if_neg (Nat.succ_ne_zero _), Nat.add_sub_cancel] at hpad
  exact absurd ((if_neg hout).symm.trans hpad) (by decide)

/-- The block ends before an image of more pages does. -/
lemma not_copiesCarry_of_long (cfg : BootCfg) (image : Buf) (hslc : fl.newType.slc = false)
    (hacc : bootAccepts fl 0 len) (h : fl.ppb ≤ imagePages fl len) :
    ¬CopiesCarry fl cfg len image := by
  have hm := (bootAccepts_iff fl len).1 hacc
  intro hcarry
  obtain ⟨r, t, es, ls, hrun, hlog, hes, hls, hfine⟩ :=
    roombootNandWrite_run cfg image hslc hacc St.blank
  obtain ⟨r', t', ops, hrun', hlog', hcopies⟩ := hcarry image (fun _ _ => rfl) St.blank
  rw [hrun] at hrun'
  obtain ⟨rfl, rfl⟩ : r = r' ∧ t = t' := by simpa using hrun'
  obtain rfl : es ++ ls = ops := List.append_cancel_left (hlog.symm.trans hlog')
  have hdone : r.status[3]? = some false := by
    rw [hfine blank_progFine]
    rfl
  -- in the last copy the page behind the block is not the first page of a copy either
  obtain ⟨⟨d, o, hop⟩, -⟩ := (hcopies 3 (by decide) hdone).image (fl.ppb - 1)
    (by have := fl.ppb_pos; omega)
  rcases List.mem_append.1 hop with hop | hop
  · obtain ⟨_, _, he⟩ := hes _ hop
    cases he
  · obtain ⟨i, hi, hop⟩ := hls.mem_copy hop
    obtain ⟨j, hj, heq⟩ := mem_requestOps hop
    obtain ⟨-, h256, hppb⟩ := copyLen_bounds fl hm i
    have hi' := List.mem_range.1 hi
    simp only [bootOp, FlashOp.program.injEq] at heq
    unfold bootPagesPerCopy bootCopyNum at *
    omega

end Image

/-- **Boot copies carry the image** of an accepted request, for a type without SLC pages,
exactly when the image takes one page less than a block.

**Proof sketch.** The commands of a request are those of four copies of `copyLen` pages behind
the info page. An image of fewer pages is handed on as one block, so the page behind it is
programmed from the memory behind the buffer; one of more pages is cut at the end of the
block. -/
theorem copiesCarry_iff (fl : Flash) (cfg : BootCfg) (len : ℕ) (image : Buf)
    (hslc : fl.newType.slc = false) (hacc : bootAccepts fl 0 len) :
    CopiesCarry fl cfg len image ↔ imagePages fl len = fl.ppb - 1 := by
  constructor
  · intro hcarry
    rcases Nat.lt_trichotomy (imagePages fl len) (fl.ppb - 1) with h | h | h
    · exact absurd hcarry (not_copiesCarry_of_short cfg image hslc hacc h)
    · exact h
    · exact absurd hcarry (not_copiesCarry_of_long cfg image hslc hacc (by omega))
  · exact copiesCarry_of_eq cfg image hslc hacc

/-- Pages of 8 KiB, 256 of them in a block: an image of 255 pages is carried. -/
theorem copiesCarry_oneBlock :
    Flash.oneChip.newType.slc = false ∧ bootAccepts Flash.oneChip 0 (255 * 8192) ∧
      CopiesCarry Flash.oneChip ⟨0, 1⟩ (255 * 8192) fun _ => 0x5a :=
  ⟨rfl, by decide, (copiesCarry_iff _ _ _ _ rfl (by decide)).2 (by decide)⟩

/-- An image of one page is accepted, and what lies behind the buffer is programmed behind it. -/
theorem not_copiesCarry_onePage :
    bootAccepts Flash.oneChip 0 8192 ∧ ¬CopiesCarry Flash.oneChip ⟨0, 1⟩ 8192 fun _ => 0x5a :=
  ⟨by decide, not_copiesCarry_of_short _ _ rfl (by decide) (by decide)⟩

end Amlnf
