import Amlnf.Phy.RecordBytes

set_option relaxedAutoImplicit false
set_option autoImplicit false

/-!
# Where a search for a record ends

`amlnand_check_info_by_name` under any outcomes of its page reads, for a record of the type
`FULL_BLK`. What the search settles on is a function of the flash image, the outcomes of the reads
to come, the status table and the `arg_info` it starts with: the reads follow each other in a fixed
order, and a page counts only when it is delivered.

## Main definitions

* `ReadWalk` — what a walk along pages has seen, the step of the plan it has come to and the code of
  its last read.
* `walkBlock`, `walkBlocks`, `walkCopies` — the walks along the first pages of one block, along the
  blocks, and along the copies in the block chosen.
* `searchEnd` — the copy the three designate.

## Main results

* `scanPageLoop_walk`, `scanBlockLoop_walk`, `scanCopyLoop_walk` — the loops of the driver that
  return have made these walks.
* `amlnandCheckInfoByName_end` — a search that returns with a valid `arg_info` ends at `searchEnd`.

## Design

The walks carry the fuel of the loops they describe, so that each of the three results is an
induction on it. A loop that returns does not use its fuel up.
-/

namespace Amlnf

open Act

/-! ## The walks -/

/-- A walk along pages. -/
structure ReadWalk (α : Type) where
  /-- What it has seen. -/
  seen : α
  /-- The step of the plan it has come to. -/
  moment : ℕ
  /-- The code of its last read. -/
  code : ℤ

/-- The code of a page read. -/
def readCode (o : Outcome) : ℤ :=
  match o.read with
  | .failed code => -(code + 1 : ℤ)
  | _ => 0

/-- From the scan position `k` of block `b` on, the tag of the first page that is delivered. Every
read takes the chip first. -/
def walkBlock (fl : Flash) (s : St) (size b : ℕ) : ℕ → ℕ → ℕ → ℤ → ReadWalk (Option Tag)
  | 0, _, m, c => ⟨none, m, c⟩
  | n + 1, k, m, c =>
    if scanPos fl size k < fl.pagesRead then
      if pageRead (s.plan (m + 1)) (s.image.recAt fl b (scanPos fl size k)) then
        ⟨(s.image.recAt fl b (scanPos fl size k)).oob, m + 2, 0⟩
      else
        walkBlock fl s size b n (k + 1) (m + 2) (readCode (s.plan (m + 1)))
    else
      ⟨none, m, c⟩

/-- From block `b` of the scan range on, the `arg_info` that the blocks leave: a block that is not
good is passed over, and the first record of the type `FULL_BLK` ends the walk. -/
def walkBlocks (fl : Flash) (s : St) (name : RecName) (size : ℕ) :
    ℕ → ℕ → ReadWalk ArgInfo → ReadWalk ArgInfo
  | 0, _, w => w
  | n + 1, b, w =>
    if b < fl.startBlk + reservedBlockCnt then
      if resStatus fl s.blkStatus b = blockGood then
        let p := walkBlock fl s size b scanRounds 0 w.moment 0
        let a := scanTag name b p.seen w.seen
        if a.argType = .fullBlk ∧ a.argValid ∧ a.validBlkAddr ≠ 0 then
          ⟨a, p.moment, p.code⟩
        else
          walkBlocks fl s name size n (b + 1) ⟨a, p.moment, p.code⟩
      else
        walkBlocks fl s name size n (b + 1)
          ⟨w.seen, w.moment, getBlcokStatus s.blkStatus (fl.resChip b) (fl.resRow b)⟩
    else
      w

/-- From page `i` of block `b` on, the first page of a copy that is delivered and carries the
name. -/
def walkCopies (fl : Flash) (s : St) (name : RecName) (size b : ℕ) :
    ℕ → ℕ → ℕ → ℤ → ReadWalk (Option ℕ)
  | 0, _, m, c => ⟨none, m, c⟩
  | n + 1, i, m, c =>
    if i < fl.pagesRead then
      if pageRead (s.plan (m + s.readSteps - 1)) (s.image.recAt fl b i) ∧
          tagged (s.image.recAt fl b i).oob name then
        ⟨some i, m + s.readSteps, 0⟩
      else
        walkCopies fl s name size b n (i + fl.argPages size) (m + s.readSteps)
          (readCode (s.plan (m + s.readSteps - 1)))
    else
      ⟨none, m, c⟩

/-- A copy of a record: its block and its first page. -/
structure Copy where
  blk : ℕ
  page : ℕ

/-- Page `j` of a copy. -/
def Copy.pageAt (q : Copy) (fl : Flash) (s : St) (j : ℕ) : Page :=
  s.image.recAt fl q.blk (q.page + j)

/-- The copy a search that starts in `s` designates. When none of the copies in the block chosen is
delivered under the name, the page address that `arg_info` had stays. -/
def searchEnd (fl : Flash) (s : St) (name : RecName) (size : ℕ) : Option (ReadWalk Copy) :=
  let w := walkBlocks fl s name size (reservedBlockCnt + 1) fl.startBlk ⟨s.info name, s.tick, 0⟩
  if w.seen.argValid then
    let c := walkCopies fl s name size w.seen.validBlkAddr (fl.pagesRead + 1) 0 w.moment 0
    some ⟨⟨w.seen.validBlkAddr, c.seen.getD w.seen.validPageAddr⟩, c.moment, c.code⟩
  else
    none

section

variable {fl : Flash}

/-! ## One page -/

/-- The code of a page read that came about. -/
lemma ReadEnd.ret_eq {o : Outcome} {pg : Page} {r : ReadBack} {p : ChipOpsPara}
    {oob : Option Tag} (h : ReadEnd fl o pg r p oob) : r.ret = readCode o := by
  unfold ReadEnd at h
  unfold readCode
  cases hr : o.read with
  | failed code =>
    rw [hr] at h
    exact h
  | uncorrectable =>
    rw [hr] at h
    exact h.1
  | clean flip =>
    rw [hr] at h
    exact h.1

/-- A page that is delivered reads with the code zero. -/
lemma readCode_of_pageRead {o : Outcome} {pg : Page} (h : pageRead o pg = true) :
    readCode o = 0 := by
  unfold pageRead at h
  unfold readCode
  cases hr : o.read with
  | failed code => simp [hr] at h
  | uncorrectable => rfl
  | clean flip => rfl

/-- Whether a page is delivered shows in `ecc_err` and in the code. -/
lemma ReadEnd.lost_iff {o : Outcome} {pg : Page} {r : ReadBack} {p : ChipOpsPara}
    {oob : Option Tag} (h : ReadEnd fl o pg r p oob) :
    (p.eccErr = true ∨ r.ret < 0) ↔ ¬pageRead o pg = true := by
  constructor
  · intro hlost hp
    obtain ⟨h0, he, -, -⟩ := h.delivered hp
    rcases hlost with hecc | hneg
    · rw [he] at hecc
      cases hecc
    · omega
  · intro hp
    exact h.lost (by simpa using hp)

/-- The part of the state that page reads depend on. -/
structure SameReads (s t : St) : Prop where
  image : t.image = s.image
  plan : t.plan = s.plan
  state : t.state = s.state

/-- The part of the state that the walks along the blocks read, their `arg_info` and the moment
apart. -/
structure SameFlash (s t : St) : Prop extends SameReads s t where
  table : t.blkStatus = s.blkStatus

lemma SameReads.trans {s t u : St} (h : SameReads s t) (h' : SameReads t u) : SameReads s u :=
  ⟨h'.image.trans h.image, h'.plan.trans h.plan, h'.state.trans h.state⟩

lemma SameFlash.trans {s t u : St} (h : SameFlash s t) (h' : SameFlash t u) : SameFlash s u :=
  ⟨h.toSameReads.trans h'.toSameReads, h'.table.trans h.table⟩

/-- The steps of a page read depend on the device operation under way only. -/
lemma SameReads.readSteps {s t : St} (h : SameReads s t) : t.readSteps = s.readSteps := by
  rw [St.readSteps, St.readSteps, h.state]

/-- A page read of the scan that returns. -/
lemma scanRead_returned {s t : St} {r : ReadBack} {b i : ℕ}
    (h : scanRead fl b i s = (some r, t)) :
    SameFlash s t ∧ t.info = s.info ∧ t.tick = s.tick + 2 ∧
      ReadEnd fl (s.plan (s.tick + 1)) (s.image.recAt fl b i) r t.opsPara t.userOob := by
  rw [scanRead, seekRec_bind] at h
  obtain ⟨_, u, hget, h⟩ := bind_eq_some h
  rw [nandGetChip_returned hget] at h
  obtain ⟨r', v, hread, h⟩ := bind_eq_some h
  obtain ⟨_, w, hrel, h⟩ := bind_eq_some h
  cases h
  obtain ⟨r'', p, oob, hrun, hend⟩ := readUserPage_end fl
    (s := { s.seekRec fl b i with
      mutex := true, idleflag := true, tick := (s.seekRec fl b i).tick + 1 }) rfl rfl rfl
  rw [hrun] at hread
  obtain ⟨m, k, f, heq⟩ := nandReleaseChip_returned v
  rw [heq] at hrel
  cases hrel
  cases hread
  exact ⟨⟨⟨rfl, rfl, rfl⟩, rfl⟩, rfl, rfl, hend⟩

/-! ## The three loops -/

/-- One page of the first pass: delivered, it decides; otherwise the scan goes on behind it. -/
lemma scanPageRound_returned {s u v : St} {name : RecName} {size b k : ℕ} {c : ℤ}
    {r : ((ℕ × ℕ × ℤ) × ℤ) ⊕ ℤ} (hu : SameFlash s u) (hpos : scanPos fl size k < fl.pagesRead)
    (h : scanPageRound fl name size b ((scanPos fl size k, k, scanFlag k), c) u = (some r, v)) :
    SameFlash s v ∧ v.tick = u.tick + 2 ∧
      ((pageRead (s.plan (u.tick + 1)) (s.image.recAt fl b (scanPos fl size k)) = true ∧
          r = Sum.inr 0 ∧ v.info name =
            scanTag name b (s.image.recAt fl b (scanPos fl size k)).oob (u.info name)) ∨
        (¬pageRead (s.plan (u.tick + 1)) (s.image.recAt fl b (scanPos fl size k)) = true ∧
          r = Sum.inl ((scanPos fl size (k + 1), k + 1, scanFlag (k + 1)),
            readCode (s.plan (u.tick + 1))) ∧ v.info name = u.info name)) := by
  rw [scanPageRound, if_pos hpos] at h
  obtain ⟨rb, w, hw, h⟩ := bind_eq_some h
  obtain ⟨hsame, hinfo, htick, hend⟩ := scanRead_returned hw
  rw [hu.plan, hu.image] at hend
  have hsw := hu.trans hsame
  rw [get_bind] at h
  by_cases hp : pageRead (s.plan (u.tick + 1)) (s.image.recAt fl b (scanPos fl size k)) = true
  · obtain ⟨h0, he, hoob, -⟩ := hend.delivered hp
    rw [if_neg (by rw [he, h0]; simp), hoob] at h
    cases ho : (s.image.recAt fl b (scanPos fl size k)).oob with
    | none =>
      rw [ho] at h
      cases h
      exact ⟨hsw, htick, .inl ⟨hp, by rw [h0], by rw [hinfo, scanTag]⟩⟩
    | some o =>
      rw [ho] at h
      dsimp only at h
      by_cases hname : o.name = name
      · rw [if_pos hname, modifyInfo_bind, pure_apply] at h
        cases h
        refine ⟨⟨⟨hsw.image, hsw.plan, hsw.state⟩, hsw.table⟩, htick, .inl ⟨hp, by rw [h0], ?_⟩⟩
        rw [setInfo_info_self, hinfo]
        simp only [scanTag, if_pos hname]
      · rw [if_neg hname, pure_apply] at h
        cases h
        refine ⟨hsw, htick, .inl ⟨hp, by rw [h0], ?_⟩⟩
        rw [hinfo]
        simp only [scanTag, if_neg hname]
  · rw [if_pos (hend.lost_iff.mpr hp), scanSkip_scanPos, hend.ret_eq] at h
    cases h
    exact ⟨hsw, htick, .inr ⟨hp, rfl, by rw [hinfo]⟩⟩

/-- The page loop of the first pass, when it returns, has walked along the block. -/
lemma scanPageLoop_walk {s : St} {name : RecName} {size b : ℕ} (n : ℕ) :
    ∀ (k : ℕ) (c : ℤ) (u t : St) (ret : ℤ), SameFlash s u →
      loopUntil (scanPageRound fl name size b) n ((scanPos fl size k, k, scanFlag k), c) u =
        (some ret, t) →
      SameFlash s t ∧
        t.info name = scanTag name b (walkBlock fl s size b n k u.tick c).seen (u.info name) ∧
        t.tick = (walkBlock fl s size b n k u.tick c).moment ∧
        ret = (walkBlock fl s size b n k u.tick c).code := by
  induction n with
  | zero =>
    intro k c u t ret _ h
    cases h
  | succ n ih =>
    intro k c u t ret hu h
    rw [walkBlock]
    by_cases hpos : scanPos fl size k < fl.pagesRead
    · rw [if_pos hpos]
      rcases loopUntil_eq_some h with hleft | ⟨v, w, hgo, h⟩
      · obtain ⟨hsame, htick, ⟨hp, hr, hinfo⟩ | ⟨-, hr, -⟩⟩ := scanPageRound_returned hu hpos hleft
        · cases hr
          rw [if_pos hp]
          exact ⟨hsame, hinfo, htick, rfl⟩
        · cases hr
      · obtain ⟨hsame, htick, ⟨-, hr, -⟩ | ⟨hp, hr, hinfo⟩⟩ := scanPageRound_returned hu hpos hgo
        · cases hr
        · cases hr
          rw [if_neg hp, ← htick, ← hinfo]
          exact ih _ _ w t ret hsame h
    · rw [if_neg hpos]
      have hout : scanPageRound fl name size b ((scanPos fl size k, k, scanFlag k), c) u =
          (some (Sum.inr c), u) := by
        rw [scanPageRound, if_neg hpos, pure_apply]
      rw [loopUntil_inr n hout] at h
      cases h
      exact ⟨hu, rfl, rfl, rfl⟩

variable (fl) in
/-- Looking a block up in the status table reads no page. -/
lemma lookBlock_same {s u : St} (hu : SameFlash s u) (b : ℕ) :
    ∃ v, lookBlock fl b u =
        (some (getBlcokStatus s.blkStatus (fl.resChip b) (fl.resRow b)), v) ∧
      SameFlash s v ∧ v.info = u.info ∧ v.tick = u.tick := by
  refine ⟨{ u with opsPara := blockPara fl b }, ?_, ⟨⟨hu.image, hu.plan, hu.state⟩, hu.table⟩,
    rfl, rfl⟩
  rw [← hu.table]
  exact lookBlock_apply fl b u

/-- A good block of the first pass: what its pages leave in `arg_info` decides whether to go on. -/
lemma scanBlockRound_returned {s u v : St} {name : RecName} {size b : ℕ} {c : ℤ}
    {r : (ℕ × ℤ) ⊕ ℤ} (hu : SameFlash s u) (hin : b < fl.startBlk + reservedBlockCnt)
    (hgood : resStatus fl s.blkStatus b = blockGood)
    (h : scanBlockRound fl name size (b, c) u = (some r, v)) :
    SameFlash s v ∧
      v.info name = scanTag name b (walkBlock fl s size b scanRounds 0 u.tick 0).seen
        (u.info name) ∧
      v.tick = (walkBlock fl s size b scanRounds 0 u.tick 0).moment ∧
      r = if (v.info name).argType = .fullBlk ∧ (v.info name).argValid = true ∧
          (v.info name).validBlkAddr ≠ 0 then
        Sum.inr (walkBlock fl s size b scanRounds 0 u.tick 0).code
      else Sum.inl (b + 1, (walkBlock fl s size b scanRounds 0 u.tick 0).code) := by
  have hz : getBlcokStatus s.blkStatus (fl.resChip b) (fl.resRow b) = 0 := by
    rw [getBlcokStatus_eq_zero_iff]
    exact hgood
  obtain ⟨u', hlook, hu', hinfo', htick'⟩ := lookBlock_same fl hu b
  rw [scanBlockRound, if_pos hin, bind_some hlook, if_neg (by rw [hz]; simp), hz] at h
  obtain ⟨ret, w, hw, h⟩ := bind_eq_some h
  have hstart : ((0, 0, 0) : ℕ × ℕ × ℤ) = (scanPos fl size 0, 0, scanFlag 0) := by
    simp [scanPos, scanFlag]
  rw [scanBlock, hstart] at hw
  obtain ⟨hsame, hinfo, htick, hret⟩ := scanPageLoop_walk scanRounds 0 0 u' w ret hu' hw
  rw [htick', hinfo'] at hinfo
  rw [htick'] at htick hret
  rw [get_bind] at h
  split at h
  · rename_i hstop
    cases h
    exact ⟨hsame, hinfo, htick, by rw [if_pos hstop, hret]⟩
  · rename_i hstop
    cases h
    exact ⟨hsame, hinfo, htick, by rw [if_neg hstop, hret]⟩

/-- The block loop of the first pass, when it returns, has walked along the blocks. -/
lemma scanBlockLoop_walk {s : St} {name : RecName} {size : ℕ} (n : ℕ) :
    ∀ (b : ℕ) (c : ℤ) (u t : St) (ret : ℤ), SameFlash s u →
      loopUntil (scanBlockRound fl name size) n (b, c) u = (some ret, t) →
      SameFlash s t ∧
        walkBlocks fl s name size n b ⟨u.info name, u.tick, c⟩ = ⟨t.info name, t.tick, ret⟩ := by
  induction n with
  | zero =>
    intro b c u t ret _ h
    cases h
  | succ n ih =>
    intro b c u t ret hu h
    rw [walkBlocks]
    by_cases hin : b < fl.startBlk + reservedBlockCnt
    swap
    · have hout : scanBlockRound fl name size (b, c) u = (some (Sum.inr c), u) := by
        rw [scanBlockRound, if_neg hin, pure_apply]
      rw [loopUntil_inr n hout] at h
      cases h
      rw [if_neg hin]
      exact ⟨hu, rfl⟩
    rw [if_pos hin]
    by_cases hgood : resStatus fl s.blkStatus b = blockGood
    · rw [if_pos hgood]
      dsimp only
      rcases loopUntil_eq_some h with hleft | ⟨v, w, hgo, h⟩
      · obtain ⟨hsame, hinfo, htick, hr⟩ := scanBlockRound_returned hu hin hgood hleft
        rw [← hinfo, ← htick]
        split at hr
        · rename_i hstop
          cases hr
          rw [if_pos hstop]
          exact ⟨hsame, rfl⟩
        · cases hr
      · obtain ⟨hsame, hinfo, htick, hr⟩ := scanBlockRound_returned hu hin hgood hgo
        rw [← hinfo, ← htick]
        split at hr
        · cases hr
        · rename_i hstop
          cases hr
          rw [if_neg hstop]
          exact ih (b + 1) _ w t ret hsame h
    · have hne : getBlcokStatus s.blkStatus (fl.resChip b) (fl.resRow b) ≠ 0 := by
        rw [Ne, getBlcokStatus_eq_zero_iff]
        exact hgood
      obtain ⟨v, hlook, hv, hinfo, htick⟩ := lookBlock_same fl hu b
      have hround : scanBlockRound fl name size (b, c) u =
          (some (Sum.inl (b + 1, getBlcokStatus s.blkStatus (fl.resChip b) (fl.resRow b))),
            v) := by
        rw [scanBlockRound, if_pos hin, bind_some hlook, if_pos hne, pure_apply]
      rw [loopUntil_inl n hround] at h
      rw [if_neg hgood, ← hinfo, ← htick]
      exact ih (b + 1) _ v t ret hv h

/-- One page of the second pass, for a record of the type `FULL_BLK`: the first page of a copy that
is delivered under the name ends it. -/
lemma scanCopyRound_returned {s u v : St} {name : RecName} {size i : ℕ} {c : ℤ}
    {r : (ℕ × ℤ) ⊕ ℤ} (hu : SameReads s u) (hty : (u.info name).argType = .fullBlk)
    (hi : i < fl.pagesRead) (h : scanCopyRound fl name size (i, c) u = (some r, v)) :
    SameReads s v ∧ v.tick = u.tick + s.readSteps ∧
      if pageRead (s.plan (u.tick + s.readSteps - 1))
            (s.image.recAt fl (u.info name).validBlkAddr i) ∧
          tagged (s.image.recAt fl (u.info name).validBlkAddr i).oob name then
        r = Sum.inr 0 ∧
          ∃ ts, v.info name = { u.info name with validPageAddr := i, timestamp := ts }
      else
        r = Sum.inl (i + fl.argPages size, readCode (s.plan (u.tick + s.readSteps - 1))) ∧
          ∃ flag, v.info name = { u.info name with updateFlag := flag } := by
  rw [scanCopyRound, if_pos hi, get_bind] at h
  obtain ⟨rb, w, hw, h⟩ := bind_eq_some h
  obtain ⟨hstored, htick, hend⟩ := readRecPage_returned hw
  simp only [St.stored, Prod.mk.injEq] at hstored
  obtain ⟨himg, hplan, hinfo, hstate⟩ := hstored
  have hsw : SameReads s w := hu.trans ⟨himg, hplan, hstate⟩
  rw [hu.plan, hu.image, hu.readSteps] at hend
  rw [hu.readSteps] at htick
  rw [scanCopyPage, get_bind, hinfo, hty] at h
  by_cases hp : pageRead (s.plan (u.tick + s.readSteps - 1))
      (s.image.recAt fl (u.info name).validBlkAddr i) = true
  · obtain ⟨h0, he, hoob, -⟩ := hend.delivered hp
    rw [if_neg (by rw [he, h0]; simp), hoob, hend.ret_eq] at h
    have hflag : u.info name = { u.info name with updateFlag := (u.info name).updateFlag } := rfl
    cases ho : (s.image.recAt fl (u.info name).validBlkAddr i).oob with
    | none =>
      rw [ho] at h
      cases h
      rw [if_neg (by simp [tagged])]
      exact ⟨hsw, htick, rfl, _, (congrFun hinfo name).trans hflag⟩
    | some o =>
      rw [ho] at h
      dsimp only at h
      by_cases hname : o.name = name
      · rw [if_pos hname, modifyInfo_bind, pure_apply, readCode_of_pageRead hp] at h
        cases h
        rw [if_pos ⟨hp, by simp [tagged, hname]⟩]
        refine ⟨⟨hsw.image, hsw.plan, hsw.state⟩, htick, rfl, o.timestamp, ?_⟩
        rw [setInfo_info_self, hinfo]
      · rw [if_neg hname, pure_apply] at h
        cases h
        rw [if_neg (by simp [tagged, hname])]
        exact ⟨hsw, htick, rfl, _, (congrFun hinfo name).trans hflag⟩
  · rw [if_pos (hend.lost_iff.mpr hp), modifyInfo_bind, pure_apply, hend.ret_eq] at h
    cases h
    rw [if_neg fun hnot => hp hnot.1]
    refine ⟨⟨hsw.image, hsw.plan, hsw.state⟩, htick, rfl, true, ?_⟩
    rw [setInfo_info_self, hinfo]

/-- The second pass, when it returns, has walked along the copies of the block. -/
lemma scanCopyLoop_walk {s : St} {name : RecName} {size b : ℕ} (n : ℕ) :
    ∀ (i : ℕ) (c : ℤ) (u t : St) (ret : ℤ), SameReads s u →
      (u.info name).argType = .fullBlk → (u.info name).validBlkAddr = b →
      loopUntil (scanCopyRound fl name size) n (i, c) u = (some ret, t) →
      SameReads s t ∧ (t.info name).argValid = (u.info name).argValid ∧
        (t.info name).validBlkAddr = b ∧
        (t.info name).validPageAddr =
          (walkCopies fl s name size b n i u.tick c).seen.getD (u.info name).validPageAddr ∧
        t.tick = (walkCopies fl s name size b n i u.tick c).moment ∧
        ret = (walkCopies fl s name size b n i u.tick c).code := by
  induction n with
  | zero =>
    intro i c u t ret _ _ _ h
    cases h
  | succ n ih =>
    intro i c u t ret hu hty hb h
    rw [walkCopies]
    by_cases hi : i < fl.pagesRead
    · rw [if_pos hi]
      rcases loopUntil_eq_some h with hleft | ⟨v, w, hgo, h⟩
      · obtain ⟨hsame, htick, hr⟩ := scanCopyRound_returned hu hty hi hleft
        rw [hb] at hr
        split at hr
        · rename_i hp
          obtain ⟨hr, ts, hinfo⟩ := hr
          cases hr
          rw [if_pos hp, hinfo]
          exact ⟨hsame, rfl, hb, rfl, htick, rfl⟩
        · cases hr.1
      · obtain ⟨hsame, htick, hr⟩ := scanCopyRound_returned hu hty hi hgo
        rw [hb] at hr
        split at hr
        · cases hr.1
        · rename_i hp
          obtain ⟨hr, flag, hinfo⟩ := hr
          cases hr
          have hnext := ih _ _ w t ret hsame (by rw [hinfo]; exact hty) (by rw [hinfo]; exact hb) h
          rw [hinfo, htick] at hnext
          rw [if_neg hp]
          exact hnext
    · rw [if_neg hi]
      have hout : scanCopyRound fl name size (i, c) u = (some (Sum.inr c), u) := by
        rw [scanCopyRound, if_neg hi, pure_apply]
      rw [loopUntil_inr n hout] at h
      cases h
      exact ⟨hu, rfl, hb, rfl, rfl, rfl⟩

/-! ## The search -/

/-- A page under the name does not change the type of the record. -/
lemma scanTag_argType (name : RecName) (b : ℕ) (o : Option Tag) (a : ArgInfo) :
    (scanTag name b o a).argType = a.argType := by
  unfold scanTag scanFound
  split
  · split
    · split
      · split <;> rfl
      · rfl
    · rfl
  · rfl

/-- The walk along the blocks keeps the type of the record. -/
lemma walkBlocks_argType {s : St} {name : RecName} {size : ℕ} (n : ℕ) :
    ∀ (b : ℕ) (w : ReadWalk ArgInfo),
      (walkBlocks fl s name size n b w).seen.argType = w.seen.argType := by
  induction n with
  | zero => intro b w; rfl
  | succ n ih =>
    intro b w
    rw [walkBlocks]
    split
    · split
      · have hkeep := scanTag_argType name b
          (walkBlock fl s size b scanRounds 0 w.moment 0).seen w.seen
        dsimp only
        split
        · exact hkeep
        · exact (ih _ _).trans hkeep
      · exact ih _ _
    · rfl

/-- **Where a search ends.** A search for a record of the type `FULL_BLK` that returns with a valid
`arg_info` has found what the walks designate. -/
lemma amlnandCheckInfoByName_end {s t : St} {name : RecName} {size : ℕ} {ret : ℤ}
    (hty : (s.info name).argType = .fullBlk)
    (h : amlnandCheckInfoByName fl name size s = (some ret, t))
    (hv : (t.info name).argValid = true) :
    ∃ q, searchEnd fl s name size = some q ∧ SameReads s t ∧
      (t.info name).validBlkAddr = q.seen.blk ∧ (t.info name).validPageAddr = q.seen.page ∧
      t.tick = q.moment ∧ ret = q.code := by
  rw [amlnandCheckInfoByName, modify_bind] at h
  obtain ⟨ret', u, hu, h⟩ := bind_eq_some h
  obtain ⟨hsame, hwalk⟩ := scanBlockLoop_walk (s := s) (reservedBlockCnt + 1) fl.startBlk 0
    { s with opsPara := { option := { slc := fl.newType.slc } } } u ret' ⟨⟨rfl, rfl, rfl⟩, rfl⟩ hu
  dsimp only at hwalk
  have htype : (u.info name).argType = .fullBlk := by
    have hkeeps : (walkBlocks fl s name size (reservedBlockCnt + 1) fl.startBlk
        ⟨s.info name, s.tick, 0⟩).seen.argType = (s.info name).argType :=
      walkBlocks_argType _ _ _
    rw [hwalk] at hkeeps
    exact hkeeps.trans hty
  rw [get_bind] at h
  by_cases ha : (u.info name).argValid = true
  · rw [if_pos ha] at h
    obtain ⟨ret'', w, hw, h⟩ := bind_eq_some h
    obtain ⟨hsw, -, hblk, hpage, htick, hret⟩ := scanCopyLoop_walk (s := s) (fl.pagesRead + 1) 0 0
      u w ret'' hsame.toSameReads htype rfl hw
    rw [modify_bind, pure_apply] at h
    cases h
    set c := walkCopies fl s name size (u.info name).validBlkAddr (fl.pagesRead + 1) 0 u.tick 0
      with hc
    have hend : searchEnd fl s name size = some
        ⟨⟨(u.info name).validBlkAddr, c.seen.getD (u.info name).validPageAddr⟩, c.moment,
          c.code⟩ := by
      simp only [searchEnd, hwalk, ha, if_true, hc]
    exact ⟨_, hend, ⟨hsw.image, hsw.plan, hsw.state⟩, hblk, hpage, htick, hret⟩
  · rw [if_neg ha, pure_apply] at h
    cases h
    exact absurd hv ha

end

end Amlnf
