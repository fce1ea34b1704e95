import Amlnf.Phy.Reserve

set_option relaxedAutoImplicit false
set_option autoImplicit false

/-!
# Allocator against scanner

`amlnand_get_free_block` returns the first block it can erase. A block whose erase fails is marked
bad, and a mark saves the bad-block table, which searches for a block itself. The nested search
marks blocks that the outer one has still ahead and takes without looking at the mark.

## Main definitions

* `FailsTo` — a run on a chip whose erases fail up to its end.
* `Searching` — a state in which such a run can be followed.
* `NoTableSave` — a mark does not save the table.
* `QuietSearch` — no save of the table comes between the rounds of the search.

## Main results

* `sweep` — the rounds of a search whose erases fail.
* `marksBad_markbadN` — a mark whose own searches fail marks every candidate.
* `exists_getFreeBlock` — every candidate is handed out in some run.
* `amlnandGetFreeBlock_quiet` — what a search without such a save hands out.
* `allocator_scanner_iff` — allocator and scanner agree exactly when every candidate is good
  and lies in the fixed range.
-/

namespace Amlnf

open Act

/-! ## Runs in which erases fail -/

section FailsTo

variable {fl : Flash} {α β : Type}

/-- A chip on which every erase before step `k` fails. -/
def failBelow (k i : ℕ) : Outcome :=
  { Outcome.fine with erase := if i < k then .failed 0 (fun _ _ => .erased) else .done }

/-- On a chip whose erases fail at least until then, `x` leads from `s` to `t` and returns `a`. -/
def FailsTo (x : Act St α) (s : St) (a : α) (t : St) : Prop :=
  s.tick ≤ t.tick ∧ ∀ k, t.tick ≤ k →
    x { s with plan := failBelow k } = (some a, { t with plan := failBelow k })

/-- Returning at once. -/
lemma FailsTo.pure (a : α) (s : St) : FailsTo (Pure.pure a : Act St α) s a s :=
  ⟨le_refl _, fun _ _ => rfl⟩

/-- Such runs compose. -/
lemma FailsTo.bind {x : Act St α} {f : α → Act St β} {s t u : St} {a : α} {b : β}
    (hx : FailsTo x s a t) (hf : FailsTo (f a) t b u) : FailsTo (x >>= f) s b u :=
  ⟨hx.1.trans hf.1, fun k hk => by rw [bind_some (hx.2 k (hf.1.trans hk)), hf.2 k hk]⟩

/-- A beginning that does not depend on the plan can be run ahead. -/
lemma FailsTo.of_eq {x y : Act St α} {s u t : St} {a : α} (hy : FailsTo y u a t)
    (htick : s.tick ≤ u.tick)
    (h : ∀ k, x { s with plan := failBelow k } = y { u with plan := failBelow k }) :
    FailsTo x s a t :=
  ⟨htick.trans hy.1, fun k hk => (h k).trans (hy.2 k hk)⟩

/-- A round of a loop that goes on. -/
lemma FailsTo.loopUntil {body : β → Act St (β ⊕ α)} {b b' : β} {s t : St}
    (h : FailsTo (body b) s (Sum.inl b') t) {k : ℕ} (hk : t.tick ≤ k) (m : ℕ) :
    Act.loopUntil body (m + 1) b { s with plan := failBelow k } =
      Act.loopUntil body m b' { t with plan := failBelow k } :=
  loopUntil_inl m (h.2 k hk)

/-- The state after an erase that failed. -/
def afterErase (fl : Flash) (s : St) : St :=
  { s with
    log := s.log ++ eraseOps (opBlocks fl s.opsPara)
    tick := s.tick + 1
    image := fun c p =>
      if (opBlocks fl s.opsPara).contains (c, p / fl.ppb) then .erased else s.image c p }

/-- An erase that fails under a device operation. -/
lemma eraseBlock_failsTo {s : St} (hst : s.state ≠ .ready) (hro : s.readonly = false) :
    FailsTo (withChip (eraseBlock fl)) s (-1) (afterErase fl s) := by
  refine ⟨Nat.le_succ _, fun k hk => ?_⟩
  refine withChip_busy hst ?_ hst
  rw [eraseBlock, get_bind, if_neg (by simp [hro])]
  have hlt : s.tick < k := hk
  simp only [issue, failBelow, if_pos hlt]
  rfl

/-- An erase that succeeds under a device operation. -/
lemma eraseBlock_done (fl : Flash) {s : St} (hst : s.state ≠ .ready) (hro : s.readonly = false)
    (hplan : (s.plan s.tick).erase = .done) :
    ∃ t : St, t.blkStatus = s.blkStatus ∧ withChip (eraseBlock fl) s = (some 0, t) := by
  let t : St := { s with
    log := s.log ++ eraseOps (opBlocks fl s.opsPara)
    tick := s.tick + 1
    image := s.image.replay fl (eraseOps (opBlocks fl s.opsPara)) }
  refine ⟨t, rfl, withChip_busy hst ?_ hst⟩
  rw [eraseBlock, get_bind, if_neg (by simp [hro])]
  simp only [issue, hplan, t]

/-- The state after the page of zeros was programmed. -/
def afterMarkPage (fl : Flash) (s : St) : St :=
  { s with
    log := s.log ++ programOps fl (opPages fl s.opsPara) (fun _ => 0) none
    tick := s.tick + 1
    image := s.image.replay fl (programOps fl (opPages fl s.opsPara) (fun _ => 0) none) }

/-- The page of zeros is programmed: only erases fail. -/
lemma markPage_failsTo {s : St} (hst : s.state ≠ .ready) (hro : s.readonly = false) :
    FailsTo (markPage fl) s 0 (afterMarkPage fl s) := by
  refine ⟨Nat.le_succ _, fun k _ => ?_⟩
  have hwrite : withChip (writePage fl (some fun _ => 0) none) { s with plan := failBelow k } =
      (some 0, { afterMarkPage fl s with plan := failBelow k }) := by
    refine withChip_busy hst ?_ hst
    rw [writePage, get_bind, if_neg (by simp [hro])]
    rfl
  rw [markPage, bind_some hwrite]
  rfl

end FailsTo

/-! ## A search in which erases fail -/

section Search

variable {fl : Flash} {tbl : BlkStatus} {rl : List UInt8} {excl n : ℕ} {mark : Bool}

/-- Reserved blocks before `n` that are good. -/
def goodCount (fl : Flash) (n : ℕ) (tbl : BlkStatus) : ℕ :=
  ((Finset.Ico fl.startBlk n).filter fun b => resStatus fl tbl b = blockGood).card

/-- No more blocks are good than there are. -/
lemma goodCount_le (tbl : BlkStatus) : goodCount fl n tbl ≤ n - fl.startBlk := by
  have h := Finset.card_filter_le (Finset.Ico fl.startBlk n)
    fun b => resStatus fl tbl b = blockGood
  rwa [Nat.card_Ico] at h

/-- A block that has become bad counts no more, and no other has become good. -/
lemma goodCount_mono {tbl tbl' : BlkStatus}
    (h : ∀ c b, tbl c b ≠ blockGood → tbl' c b ≠ blockGood) :
    goodCount fl n tbl' ≤ goodCount fl n tbl := by
  refine Finset.card_le_card fun b hb => ?_
  rw [Finset.mem_filter] at hb ⊢
  exact ⟨hb.1, by_contra fun hbad => h _ _ hbad hb.2⟩

/-- One block less is good. -/
lemma goodCount_lt {tbl tbl' : BlkStatus} {b : ℕ}
    (h : ∀ c b, tbl c b ≠ blockGood → tbl' c b ≠ blockGood) (hb : fl.startBlk ≤ b) (hbn : b < n)
    (hgood : resStatus fl tbl b = blockGood) (hbad : resStatus fl tbl' b ≠ blockGood) :
    goodCount fl n tbl' < goodCount fl n tbl := by
  refine Finset.card_lt_card ((Finset.ssubset_iff_of_subset ?_).2 ⟨b, ?_, ?_⟩)
  · intro x hx
    rw [Finset.mem_filter] at hx ⊢
    exact ⟨hx.1, by_contra fun hx' => h _ _ hx' hx.2⟩
  · exact Finset.mem_filter.2 ⟨Finset.mem_Ico.2 ⟨hb, hbn⟩, hgood⟩
  · exact fun hmem => hbad (Finset.mem_filter.1 hmem).2

/-- A state in which the search can be followed: a device operation is under way, writing is
allowed, marking is or is not, the table is loaded and its record is due to move to another
block. The factory-bad blocks are those of `tbl`. -/
structure Searching (fl : Flash) (tbl : BlkStatus) (rl : List UInt8) (mark : Bool) (s : St) :
    Prop where
  state : s.state = .writing
  readonly : s.readonly = false
  markbad : s.allowMarkbad = mark
  records : s.allowMeta = true
  loaded : (s.info .nbbt).argValid = true
  due : (s.info .nbbt).updateFlag = true
  list : s.reservedBlk = rl
  factory : ∀ k, NotFactory fl s.blkStatus k ↔ NotFactory fl tbl k

/-- A device operation is under way. -/
lemma Searching.busy {s : St} (h : Searching fl tbl rl mark s) : s.state ≠ .ready := by
  rw [h.state]
  decide

/-- The address the chip commands work at does not matter. -/
lemma Searching.setPara {s : St} (h : Searching fl tbl rl mark s) (p : ChipOpsPara) :
    Searching fl tbl rl mark { s with opsPara := p } :=
  ⟨h.state, h.readonly, h.markbad, h.records, h.loaded, h.due, h.list, h.factory⟩

/-- Nor does an erase that fails. -/
lemma Searching.afterErase {s : St} (h : Searching fl tbl rl mark s) :
    Searching fl tbl rl mark (afterErase fl s) :=
  ⟨h.state, h.readonly, h.markbad, h.records, h.loaded, h.due, h.list, h.factory⟩

/-- Nor does a page of zeros. -/
lemma Searching.afterMarkPage {s : St} (h : Searching fl tbl rl mark s) :
    Searching fl tbl rl mark (afterMarkPage fl s) :=
  ⟨h.state, h.readonly, h.markbad, h.records, h.loaded, h.due, h.list, h.factory⟩

/-- What happens to the table between `s` and `t`: no block has become good, and either nothing has
changed or no candidate is good any more. -/
structure Darker (fl : Flash) (tbl : BlkStatus) (rl : List UInt8) (s t : St) : Prop where
  bad : ∀ c b, s.blkStatus c b ≠ blockGood → t.blkStatus c b ≠ blockGood
  table : t.blkStatus = s.blkStatus ∨
    ∀ b, Candidate fl tbl rl 0 b → resStatus fl t.blkStatus b ≠ blockGood

/-- The same table. -/
lemma Darker.of_eq {s t : St} (h : t.blkStatus = s.blkStatus) : Darker fl tbl rl s t :=
  ⟨fun c b hb => by rwa [h], Or.inl h⟩

/-- One piece of a run after another. -/
lemma Darker.trans {s t u : St} (h1 : Darker fl tbl rl s t) (h2 : Darker fl tbl rl t u) :
    Darker fl tbl rl s u := by
  refine ⟨fun c b hb => h2.bad c b (h1.bad c b hb), ?_⟩
  rcases h2.table with h | h
  · exact h1.table.imp (fun h' => h.trans h') fun h' b hb => by rw [h]; exact h' b hb
  · exact Or.inr h

/-- In a run whose erases fail `markbad` returns, keeps `Searching` and leaves the block bad it was
called for, if marking is allowed. `m` bounds the blocks that are good before. -/
def MarksBad (fl : Flash) (tbl : BlkStatus) (rl : List UInt8) (n : ℕ) (mark : Bool) (m : ℕ)
    (markbad : Act St ℤ) : Prop :=
  ∀ s b, Searching fl tbl rl mark s → goodCount fl n s.blkStatus ≤ m →
    s.opsPara = blockPara fl b → fl.startBlk ≤ b → b < n →
    ∃ ret t, FailsTo markbad s ret t ∧ Searching fl tbl rl mark t ∧ Darker fl tbl rl s t ∧
      (mark = true → resStatus fl t.blkStatus b ≠ blockGood)

/-- **A round of a search whose erases fail** goes on to the next block; a candidate is bad
afterwards, if marking is allowed. -/
lemma round_failsTo (excl : ℕ) {m : ℕ} {markbad : Act St ℤ}
    (hmark : MarksBad fl tbl rl n mark m markbad)
    (hn : ReserveEnd fl tbl n) {s : St} (hs : Searching fl tbl rl mark s)
    (hm : goodCount fl n s.blkStatus ≤ m) {b : ℕ} (hb : fl.startBlk ≤ b) (hbn : b < n) :
    ∃ t, FailsTo (freeBlockRound fl markbad excl n b) s (Sum.inl (b + 1)) t ∧
      Searching fl tbl rl mark t ∧ Darker fl tbl rl s t ∧
      (mark = true → Candidate fl tbl rl excl b → resStatus fl t.blkStatus b ≠ blockGood) := by
  have hend : ReserveEnd fl s.blkStatus n := hn.congr hs.factory
  by_cases hc : Candidate fl tbl rl excl b
  · have hc' := (candidate_congr hs.factory b).2 hc
    have hs' := hs.setPara (blockPara fl b)
    obtain ⟨ret, t, hrun, ht, hdark, hbad⟩ := hmark (afterErase fl { s with opsPara := blockPara fl b })
      b hs'.afterErase hm rfl hb hbn
    refine ⟨t, ?_, ht, ⟨hdark.bad, hdark.table⟩, fun h _ => hbad h⟩
    refine FailsTo.of_eq (u := { s with opsPara := blockPara fl b }) ?_ (le_refl _)
      fun k => freeBlockRound_candidate hend rfl hs.list hc'
    refine (eraseBlock_failsTo hs'.busy hs'.readonly).bind ?_
    rw [if_pos (by decide)]
    exact hrun.bind (.pure _ _)
  · have hc' := mt (candidate_congr hs.factory b).1 hc
    refine ⟨{ s with opsPara := skipPara fl excl b s }, ⟨le_refl _, fun k _ => ?_⟩,
      hs.setPara _, .of_eq rfl, fun _ h => absurd h hc⟩
    exact freeBlockRound_skip markbad hend hb hbn rfl hs.list hc'

/-- **The rounds of a search whose erases fail**, up to block `cur + j`: every candidate passed is bad
afterwards, if marking is allowed.

**Proof sketch.** Induction on `j`, one round at a time. -/
lemma sweep (excl : ℕ) {m : ℕ} {markbad : Act St ℤ} (hmark : MarksBad fl tbl rl n mark m markbad)
    (hn : ReserveEnd fl tbl n) (j : ℕ) :
    ∀ (cur : ℕ) (s : St), cur + j ≤ n → fl.startBlk ≤ cur → Searching fl tbl rl mark s →
      goodCount fl n s.blkStatus ≤ m →
      ∃ t, Searching fl tbl rl mark t ∧ Darker fl tbl rl s t ∧
        (mark = true → ∀ b, cur ≤ b → b < cur + j → Candidate fl tbl rl excl b →
          resStatus fl t.blkStatus b ≠ blockGood) ∧
        s.tick ≤ t.tick ∧ ∀ N k, t.tick ≤ k →
          loopUntil (freeBlockRound fl markbad excl n) (N + j) cur { s with plan := failBelow k } =
            loopUntil (freeBlockRound fl markbad excl n) N (cur + j)
              { t with plan := failBelow k } := by
  induction j with
  | zero =>
    intro cur s _ _ hs _
    exact ⟨s, hs, .of_eq rfl, fun _ b h1 h2 => absurd h2 (by omega), le_refl _, fun N k _ => rfl⟩
  | succ j ih =>
    intro cur s hle hcur hs hm
    obtain ⟨u, hround, hu, hdu, hbadu⟩ :=
      round_failsTo excl hmark hn hs hm hcur (show cur < n by omega)
    obtain ⟨t, ht, hdt, hbadt, htick, hrest⟩ := ih (cur + 1) u (by omega) (by omega) hu
      ((goodCount_mono hdu.bad).trans hm)
    refine ⟨t, ht, hdu.trans hdt, fun h b h1 h2 hb => ?_, hround.1.trans htick, fun N k hk => ?_⟩
    · by_cases hbc : b = cur
      · rw [hbc] at hb ⊢
        exact hdt.bad _ _ (hbadu h hb)
      · exact hbadt h b (by omega) (by omega) hb
    · rw [← Nat.add_assoc, hround.loopUntil (htick.trans hk), hrest N k hk,
        show cur + 1 + j = cur + (j + 1) by omega]

/-- **A search whose erases all fail finds no block**, and leaves every candidate bad, if marking is
allowed. -/
lemma amlnandGetFreeBlock_failsTo (excl : ℕ) {m : ℕ} {markbad : Act St ℤ}
    (hmark : MarksBad fl tbl rl n mark m markbad) (hn : ReserveEnd fl tbl n)
    (hfuel : n < fl.startBlk + scanFuel) {s : St} (hs : Searching fl tbl rl mark s)
    (hm : goodCount fl n s.blkStatus ≤ m) :
    ∃ t, FailsTo (amlnandGetFreeBlock fl markbad excl) s none t ∧ Searching fl tbl rl mark t ∧
      Darker fl tbl rl s t ∧ (mark = true → ∀ b, Candidate fl tbl rl excl b →
        resStatus fl t.blkStatus b ≠ blockGood) := by
  have h0 := hn.1
  obtain ⟨t, ht, hdark, hbad, htick, hrun⟩ := sweep excl hmark hn (n - fl.startBlk)
    fl.startBlk { s with opsPara := blockPara fl (n - 1) } (by omega) (le_refl _)
    (hs.setPara _) hm
  refine ⟨t, ⟨htick, fun k hk => ?_⟩, ht, ⟨hdark.bad, hdark.table⟩,
    fun h b hb => hbad h b hb.1.1 ?_ hb⟩
  · have hlast := getLastReserveBlock_eq fl (s := { s with plan := failBelow k, opsPara := {} })
      (hn.congr hs.factory) hfuel
    rw [amlnandGetFreeBlock, modify_bind, bind_some hlast,
      show n + 1 = fl.startBlk + 1 + (n - fl.startBlk) by omega]
    refine (hrun (fl.startBlk + 1) k hk).trans ?_
    rw [show fl.startBlk + (n - fl.startBlk) = n by omega]
    refine loopUntil_inr _ ?_
    rw [freeBlockRound, if_neg (lt_irrefl n)]
    rfl
  · have := (hn.lt_iff hb.1.1).2 hb.1
    omega

/-- **A save of the table whose search fails** finds no block, and leaves every candidate bad, if
marking is allowed. -/
lemma amlnandUpdateBbt_failsTo {m : ℕ} {markbad : Act St ℤ}
    (hmark : MarksBad fl tbl rl n mark m markbad) (hn : ReserveEnd fl tbl n)
    (hfuel : n < fl.startBlk + scanFuel) {s : St} (hs : Searching fl tbl rl mark s)
    (hm : goodCount fl n s.blkStatus ≤ m) :
    ∃ ret t, FailsTo (amlnandUpdateBbt fl markbad) s ret t ∧ Searching fl tbl rl mark t ∧
      Darker fl tbl rl s t ∧ (mark = true → ∀ b, Candidate fl tbl rl 0 b →
        resStatus fl t.blkStatus b ≠ blockGood) := by
  -- the timestamp is counted up, then the search begins
  let u : St := { s with
    info := fun x => if x = .nbbt then
      { s.info x with timestamp := (s.info x).timestamp + 1 } else s.info x
    opsPara := {} }
  have hu : Searching fl tbl rl mark u :=
    ⟨hs.state, hs.readonly, hs.markbad, hs.records, hs.loaded, hs.due, hs.list, hs.factory⟩
  obtain ⟨t, hrun, ht, hdark, hbad⟩ := amlnandGetFreeBlock_failsTo 0 hmark hn hfuel hu hm
  refine ⟨-nandBadBlcokFailure, t, ⟨hrun.1, fun k hk => ?_⟩, ht, ⟨hdark.bad, hdark.table⟩, hbad⟩
  have hchoose : chooseBlock fl markbad .nbbt blockStatusSize {} { u with plan := failBelow k } =
      (some none, { t with plan := failBelow k }) := by
    rw [chooseBlock, get_bind, if_neg (fun h => h.2.1 hu.due), bind_some (hrun.2 k hk)]
    rfl
  have hattempts : ∀ tag buf, saveAttempts fl markbad .nbbt tag buf blockStatusSize {}
      { u with plan := failBelow k } = (some Attempt.noBlock, { t with plan := failBelow k }) := by
    intro tag buf
    refine loopUntil_inr 3 ?_
    rw [attemptRound, bind_some hchoose]
    rfl
  have hround : ∀ buf, saveRound fl markbad .nbbt buf blockStatusSize {}
      { s with plan := failBelow k } =
        (some (Sum.inl (-nandBadBlcokFailure)), { t with plan := failBelow k }) := by
    intro buf
    rw [saveRound, modifyInfo, modify_bind, get_bind, modify_bind, bind_some (hattempts _ buf)]
    rfl
  rw [amlnandUpdateBbt, get_bind, amlnandSaveInfoByName, get_bind, if_neg (by simp [hs.records]),
    bind_some (hround _)]
  rfl

/-- A mark that is refused. -/
lemma marksBad_refused (m : ℕ) : MarksBad fl tbl rl n false m (blockMarkbadOp fl) := by
  intro s b hs _ _ _ _
  refine ⟨-eROFS, s, ⟨le_refl _, fun k _ => ?_⟩, hs, .of_eq rfl, fun h => by cases h⟩
  rw [blockMarkbadOp, markbadN, blockMarkbad, get_bind, if_pos (by simp [hs.markbad]), pure_apply]

/-- The block `block_markbad` tests, when it is called for reserved block `b`. -/
lemma tested_blockPara {s : St} {b : ℕ} (hp : s.opsPara = blockPara fl b) :
    s.blkStatus s.opsPara.chipnr (s.opsPara.pageAddr >>> fl.ppbShift) = resStatus fl s.blkStatus b := by
  rw [pageAddr_shift, hp, resStatus, blockPara, resPage_div]

/-- The entries it sets are that of block `b`. -/
lemma setEntries_blockPara (fl : Flash) (tbl : BlkStatus) (b : ℕ) (c r : ℕ) :
    setEntries tbl blockUsedBad (markbadEntries fl (blockPara fl b)) c r =
      if c = fl.resChip b ∧ r = fl.resRow b then blockUsedBad else tbl c r := by
  have hmem : (c, r) ∈ markbadEntries fl (blockPara fl b) ↔ c = fl.resChip b ∧ r = fl.resRow b := by
    rw [mem_markbadEntries_iff fl _ (fl.resChip_lt b), mem_opBlocks_iff]
    simp [opChips, opRows, blockPara, resPage_div]
  rw [setEntries_apply]
  simp only [hmem]

/-- Setting the entry of a good block to used bad leaves the factory-bad blocks as they are. -/
lemma notFactory_setEntries {tbl : BlkStatus} {b : ℕ} (hgood : resStatus fl tbl b = blockGood) (k : ℕ) :
    NotFactory fl (setEntries tbl blockUsedBad (markbadEntries fl (blockPara fl b))) k ↔
      NotFactory fl tbl k := by
  unfold NotFactory resStatus
  rw [setEntries_blockPara]
  split
  · rename_i h
    rw [h.1, h.2]
    unfold resStatus at hgood
    rw [hgood]
    decide
  · rfl

/-- A mark of a block that is not good leaves the table alone. -/
lemma markbad_bad {m : ℕ} {s : St} {b : ℕ} (hs : Searching fl tbl rl true s)
    (hp : s.opsPara = blockPara fl b) (hbad : resStatus fl s.blkStatus b ≠ blockGood) :
    ∃ ret t, FailsTo (markbadN fl (m + 1)) s ret t ∧ Searching fl tbl rl true t ∧
      Darker fl tbl rl s t ∧ (true = true → resStatus fl t.blkStatus b ≠ blockGood) := by
  have hst := tested_blockPara hp
  rw [← hst] at hbad
  by_cases hkind : s.blkStatus s.opsPara.chipnr (s.opsPara.pageAddr >>> fl.ppbShift) = blockUsedBad ∨
      s.blkStatus s.opsPara.chipnr (s.opsPara.pageAddr >>> fl.ppbShift) = blockFactoryBad
  · refine ⟨0, s, ⟨le_refl _, fun k _ => ?_⟩, hs, .of_eq rfl, fun _ => hst ▸ hbad⟩
    rw [markbadN, blockMarkbad, get_bind, if_neg (by simp [hs.markbad])]
    exact congrFun (if_pos ⟨hs.loaded, hkind⟩) _
  · refine ⟨0, afterMarkPage fl s, FailsTo.of_eq (markPage_failsTo hs.busy hs.readonly) (le_refl _)
      fun k => ?_, hs.afterMarkPage, .of_eq rfl, fun _ => hst ▸ hbad⟩
    rw [markbadN, blockMarkbad, get_bind, if_neg (by simp [hs.markbad])]
    exact congrFun ((if_neg fun h => hkind h.2).trans (if_neg fun h => hbad h.2)) _

/-- **A mark whose own searches fail** marks the block, and every candidate with it unless the block
was bad before.

**Proof sketch.** Induction on the depth, which the number of good blocks bounds: a mark that
saves the table has turned a good block bad. -/
lemma marksBad_markbadN (hn : ReserveEnd fl tbl n) (hfuel : n < fl.startBlk + scanFuel) (m : ℕ) :
    MarksBad fl tbl rl n true m (markbadN fl (m + 1)) := by
  induction m with
  | zero =>
    intro s b hs hm hp hb hbn
    have hbad : resStatus fl s.blkStatus b ≠ blockGood := by
      intro hgood
      have hmem : b ∈ (Finset.Ico fl.startBlk n).filter fun b =>
          resStatus fl s.blkStatus b = blockGood :=
        Finset.mem_filter.2 ⟨Finset.mem_Ico.2 ⟨hb, hbn⟩, hgood⟩
      exact absurd (Finset.card_pos.2 ⟨b, hmem⟩) (by unfold goodCount at hm; omega)
    exact markbad_bad hs hp hbad
  | succ m ih =>
    intro s b hs hm hp hb hbn
    by_cases hgood : resStatus fl s.blkStatus b = blockGood
    swap
    · exact markbad_bad hs hp hgood
    let u : St := { s with
      blkStatus := setEntries s.blkStatus blockUsedBad (markbadEntries fl s.opsPara) }
    have hset : ∀ c r, u.blkStatus c r =
        if c = fl.resChip b ∧ r = fl.resRow b then blockUsedBad else s.blkStatus c r := by
      intro c r
      rw [← setEntries_blockPara, ← hp]
    have hbad : ∀ c r, s.blkStatus c r ≠ blockGood → u.blkStatus c r ≠ blockGood := by
      intro c r h
      rw [hset]
      split
      · decide
      · exact h
    have hself : resStatus fl u.blkStatus b ≠ blockGood := by
      rw [resStatus, hset, if_pos ⟨rfl, rfl⟩]
      decide
    have hu : Searching fl tbl rl true u := by
      refine ⟨hs.state, hs.readonly, hs.markbad, hs.records, hs.loaded, hs.due, hs.list, fun k => ?_⟩
      refine Iff.trans ?_ (hs.factory k)
      have h := notFactory_setEntries hgood k
      rwa [← hp] at h
    have hless : goodCount fl n u.blkStatus ≤ m := by
      have := goodCount_lt hbad hb hbn hgood hself
      omega
    obtain ⟨ret, t, hrun, ht, hdark, hall⟩ := amlnandUpdateBbt_failsTo ih hn hfuel hu hless
    refine ⟨0, afterMarkPage fl t, ?_, ht.afterMarkPage, ⟨fun c r h => hdark.bad c r (hbad c r h),
      Or.inr (hall rfl)⟩, fun _ => hdark.bad _ _ hself⟩
    refine FailsTo.of_eq (u := u) (hrun.bind (f := fun _ => markPage fl)
      (markPage_failsTo ht.busy ht.readonly)) (le_refl _)
      fun k => ?_
    exact blockMarkbad_reaches _ ⟨hs.markbad, hs.loaded, (tested_blockPara hp).trans hgood⟩

/-- **Every candidate is handed out in some run**: the one in which the erase of each candidate
before it fails. If marking is allowed, those are bad afterwards.

**Proof sketch.** `sweep` up to the candidate; the plan is chosen so that the erase there is the
first to succeed. -/
lemma exists_getFreeBlock {b : ℕ} (mark : Bool) (hn : ReserveEnd fl tbl n)
    (hfuel : n < fl.startBlk + scanFuel) (hb : Candidate fl tbl rl excl b) :
    ∃ s t : St, s.blkStatus = tbl ∧ s.reservedBlk = rl ∧ Searching fl tbl rl mark s ∧
      amlnandGetFreeBlock fl (blockMarkbadOp fl) excl s = (some (some b), t) ∧
      Darker fl tbl rl s t ∧ (mark = true → ∀ b' < b, Candidate fl tbl rl excl b' →
        resStatus fl t.blkStatus b' ≠ blockGood) := by
  have hbn : b < n := (hn.lt_iff hb.1.1).2 hb.1
  have h0 := hb.1.1
  have hdepth : n - fl.startBlk ≤ maxChipNum * maxChipBlks := by
    unfold scanFuel at hfuel
    omega
  have hmark : MarksBad fl tbl rl n mark (maxChipNum * maxChipBlks) (blockMarkbadOp fl) := by
    cases mark with
    | false => exact marksBad_refused _
    | true => exact marksBad_markbadN hn hfuel _
  let u : St := { St.blank with
    blkStatus := tbl
    reservedBlk := rl
    state := .writing
    allowMarkbad := mark
    info := fun x => { argType := argTypeOf x, argValid := true, updateFlag := true } }
  have hu : Searching fl tbl rl mark u := ⟨rfl, rfl, rfl, rfl, rfl, rfl, rfl, fun _ => Iff.rfl⟩
  obtain ⟨t, ht, hdark, hbad, -, hrun⟩ := sweep excl hmark hn (b - fl.startBlk)
    fl.startBlk { u with opsPara := blockPara fl (n - 1) } (by omega) (le_refl _)
    (hu.setPara _) ((goodCount_le tbl).trans hdepth)
  rw [show fl.startBlk + (b - fl.startBlk) = b by omega] at hrun hbad
  let v : St := { t with plan := failBelow t.tick, opsPara := blockPara fl b }
  obtain ⟨w, hw, herase⟩ := eraseBlock_done fl (s := v) ht.busy ht.readonly
    (by simp [v, failBelow])
  refine ⟨{ u with plan := failBelow t.tick }, w, rfl, rfl, ⟨rfl, rfl, rfl, rfl, rfl, rfl, rfl,
    fun _ => Iff.rfl⟩, ?_, Darker.trans ⟨hdark.bad, hdark.table⟩ (.of_eq hw), fun h b' hb' hc => ?_⟩
  · have hlast := getLastReserveBlock_eq fl
      (s := { u with plan := failBelow t.tick, opsPara := {} }) hn hfuel
    rw [amlnandGetFreeBlock, modify_bind, bind_some hlast,
      show n + 1 = n + 1 - (b - fl.startBlk) + (b - fl.startBlk) by omega]
    refine (hrun (n + 1 - (b - fl.startBlk)) t.tick (le_refl _)).trans ?_
    rw [show n + 1 - (b - fl.startBlk) = n - (b - fl.startBlk) + 1 by omega]
    refine loopUntil_inr _ ?_
    rw [freeBlockRound_candidate (s := { t with plan := failBelow t.tick }) (hn.congr ht.factory)
      rfl ht.list ((candidate_congr ht.factory b).2 hb), bind_some herase, if_neg (by decide),
      pure_apply]
  · rw [hw]
    exact hbad h b' hc.1.1 hb' hc

end Search

/-! ## A search without a save of the table -/

section Quiet

variable {fl : Flash} {tbl : BlkStatus} {rl : List UInt8} {excl n : ℕ}

/-- A mark does not save the table: it is refused, records may not be saved, or the table is not
loaded. -/
def NoTableSave (s : St) : Prop :=
  s.allowMarkbad = false ∨ s.allowMeta = false ∨ (s.info .nbbt).argValid = false

/-- No save of the table comes between the rounds of the search: a mark does not save it, or no chip
operation fails. -/
def QuietSearch (s : St) : Prop := NoTableSave s ∨ s.Calm

/-- Chip commands do not change what a mark does. -/
lemma NoTableSave.same {s t : St} (h : NoTableSave s) (hst : SameTables s t) : NoTableSave t := by
  obtain ⟨-, -, -, hinfo, hmark, hmeta⟩ := hst
  unfold NoTableSave at h ⊢
  rwa [hinfo, hmark, hmeta]

/-- How a search has left the table when it comes to block `b`: the factory-bad blocks are those of
`tbl`, and the blocks from `b` on have the status `tbl` gives them. -/
structure Ahead (fl : Flash) (tbl : BlkStatus) (rl : List UInt8) (b : ℕ) (s : St) : Prop where
  start : fl.startBlk ≤ b
  list : s.reservedBlk = rl
  factory : ∀ k, NotFactory fl s.blkStatus k ↔ NotFactory fl tbl k
  rest : ∀ x, b ≤ x → resStatus fl s.blkStatus x = resStatus fl tbl x

/-- The next block comes. -/
lemma Ahead.succ {s : St} {b : ℕ} (h : Ahead fl tbl rl b s) : Ahead fl tbl rl (b + 1) s :=
  ⟨h.start.trans (Nat.le_succ b), h.list, h.factory, fun x hx => h.rest x (by omega)⟩

/-- Chip commands leave it so. -/
lemma Ahead.same {s t : St} {b : ℕ} (h : Ahead fl tbl rl b s) (hst : SameTables s t) :
    Ahead fl tbl rl b t :=
  ⟨h.start, hst.2.1.trans h.list, by rw [hst.1]; exact h.factory, by rw [hst.1]; exact h.rest⟩

/-- A mark that does not save the table changes the entry of its block at most. -/
lemma Ahead.markbad {s : St} {b : ℕ} (h : Ahead fl tbl rl b s) (hq : NoTableSave s)
    (hp : s.opsPara = blockPara fl b) :
    NoTableSave (blockMarkbadOp fl s).2 ∧ Ahead fl tbl rl (b + 1) (blockMarkbadOp fl s).2 := by
  have hpage := sameTables_markPage fl s
  unfold blockMarkbadOp markbadN blockMarkbad
  rw [get_bind]
  by_cases h1 : s.allowMarkbad = true
  swap
  · rw [if_pos (by simpa using h1)]
    exact ⟨hq, h.succ⟩
  rw [if_neg (by simpa using h1)]
  set status := s.blkStatus s.opsPara.chipnr (s.opsPara.pageAddr >>> fl.ppbShift) with hstatus
  by_cases h2 : (s.info .nbbt).argValid = true ∧ (status = blockUsedBad ∨ status = blockFactoryBad)
  · rw [if_pos h2]
    exact ⟨hq, h.succ⟩
  rw [if_neg h2]
  by_cases h3 : (s.info .nbbt).argValid = true ∧ status = blockGood
  swap
  · rw [if_neg h3]
    exact ⟨hq.same hpage, h.succ.same hpage⟩
  -- the entry is set; the save is refused, so only the page of zeros follows
  have hmeta : s.allowMeta = false := by
    rcases hq with hq | hq | hq
    · rw [h1] at hq
      cases hq
    · exact hq
    · rw [h3.1] at hq
      cases hq
  rw [if_pos h3, modify_bind]
  let u : St := { s with
    blkStatus := setEntries s.blkStatus blockUsedBad (markbadEntries fl s.opsPara) }
  have hsave : ∀ m, amlnandUpdateBbt fl (markbadN fl m) u = (some (-eROFS), u) := by
    intro m
    rw [amlnandUpdateBbt, get_bind, amlnandSaveInfoByName, get_bind, if_pos (by simp [u, hmeta])]
    rfl
  have hu : Ahead fl tbl rl (b + 1) u := by
    have hgood : resStatus fl s.blkStatus b = blockGood := (tested_blockPara hp).symm.trans h3.2
    refine ⟨h.succ.start, h.list, fun k => ?_, fun x hx => ?_⟩
    · refine Iff.trans ?_ (h.factory k)
      have hk := notFactory_setEntries hgood k
      rwa [← hp] at hk
    · have hne : ¬(fl.resChip x = fl.resChip b ∧ fl.resRow x = fl.resRow b) := by
        rintro ⟨hc, hr⟩
        have := fl.res_injective hc hr
        omega
      have hentry := setEntries_blockPara fl s.blkStatus b (fl.resChip x) (fl.resRow x)
      rw [if_neg hne, ← hp] at hentry
      exact hentry.trans (h.rest x (by omega))
  rw [show ({ s with blkStatus := setEntries s.blkStatus blockUsedBad (markbadEntries fl s.opsPara) } :
    St) = u from rfl, bind_some (hsave _)]
  have hpage := sameTables_markPage fl u
  have hno : NoTableSave u := Or.inr (Or.inl hmeta)
  exact ⟨hno.same hpage, hu.same hpage⟩

/-- **What a quiet search hands out** is a candidate of the table and list at the call, and its
entry is what it was.

**Proof sketch.** The rounds keep `Ahead`. In a calm run the erase at the first candidate
succeeds; otherwise a failed erase marks the block it leaves behind and no other. -/
lemma amlnandGetFreeBlock_quiet {s t : St} {b : ℕ} (hq : QuietSearch s)
    (h : amlnandGetFreeBlock fl (blockMarkbadOp fl) excl s = (some (some b), t)) :
    Candidate fl s.blkStatus s.reservedBlk excl b ∧
      resStatus fl t.blkStatus b = resStatus fl s.blkStatus b := by
  rw [amlnandGetFreeBlock, modify_bind] at h
  obtain ⟨n, u, hn, h⟩ := bind_eq_some h
  obtain ⟨hend, p, rfl⟩ := getLastReserveBlock_spec fl hn
  simp only at hend
  let I : ℕ → St → Prop := fun b u =>
    QuietSearch u ∧ Ahead fl s.blkStatus s.reservedBlk b u
  have hround : ∀ b, Spec (I b) (freeBlockRound fl (blockMarkbadOp fl) excl n b)
      (fun r u => Sum.elim (fun b' => I b' u) (fun o => ∀ b, o = some b →
        Candidate fl s.blkStatus s.reservedBlk excl b ∧
          resStatus fl u.blkStatus b = resStatus fl s.blkStatus b) r)
      (fun _ => True) := by
    rintro b u ⟨hq, hu⟩
    by_cases hbn : b < n
    swap
    · rw [freeBlockRound, if_neg hbn]
      intro b' hb'
      cases hb'
    have hend' := hend.congr hu.factory
    by_cases hc : Candidate fl s.blkStatus s.reservedBlk excl b
    swap
    · rw [freeBlockRound_skip (blockMarkbadOp fl) hend' hu.start hbn rfl hu.list
        (mt (candidate_congr hu.factory b).1 hc)]
      exact ⟨hq, hu.succ.start, hu.succ.list, hu.succ.factory, hu.succ.rest⟩
    rw [freeBlockRound_candidate hend' rfl hu.list ((candidate_congr hu.factory b).2 hc)]
    let v : St := { u with opsPara := blockPara fl b }
    have hv : Ahead fl s.blkStatus s.reservedBlk b v := ⟨hu.start, hu.list, hu.factory, hu.rest⟩
    have herase := sameTables_withChip (sameTables_eraseBlock fl) v
    rcases hx : withChip (eraseBlock fl) v with ⟨o, w⟩
    rw [hx] at herase
    cases o with
    | none => rw [bind_none hx]; trivial
    | some ret =>
      rw [bind_some hx]
      by_cases hret : ret < 0
      swap
      · rw [if_neg hret]
        intro b' hb'
        obtain rfl : b = b' := by simpa using hb'
        exact ⟨hc, (hv.same herase).rest b (le_refl b)⟩
      rw [if_pos hret]
      rcases hq with hno | hcalm
      swap
      · have hzero := (withChip_calm (eraseBlock_calm fl)).returned
          (⟨hcalm, rfl⟩ : CalmAt u.blkStatus v) hx
        exact absurd hret (by have := hzero.1; omega)
      have hnov : NoTableSave v := hno
      have hmark := (hv.same herase).markbad (hnov.same herase) herase.2.2.1
      rcases hy : blockMarkbadOp fl w with ⟨o, z⟩
      rw [hy] at hmark
      cases o with
      | none => rw [bind_none hy]; trivial
      | some _ =>
        rw [bind_some hy]
        exact ⟨Or.inl hmark.1, hmark.2⟩
  have hinit : I fl.startBlk { s with opsPara := p } :=
    ⟨hq, le_refl _, rfl, fun _ => Iff.rfl, fun _ _ => rfl⟩
  exact (Spec.loopUntil (I := I) hround (fun _ _ _ => trivial) _ _).returned hinit h b rfl

end Quiet

/-! ## Allocator and scanner -/

section Agree

variable {fl : Flash} {tbl : BlkStatus} {rl : List UInt8} {excl n : ℕ}

/-- **Allocator and scanner agree** on a table and a list, in every search that no save of the table
disturbs, **if and only if** every block the allocator may take is good and lies among the first 48
of the reserved area. Where a mark does save the table they agree in every search only if, in
addition, there are no two such blocks. -/
theorem allocator_scanner_iff (hn : ReserveEnd fl tbl n) (hfuel : n < fl.startBlk + scanFuel) :
    ((∀ (s t : St) (b : ℕ), s.blkStatus = tbl → s.reservedBlk = rl → QuietSearch s →
        amlnandGetFreeBlock fl (blockMarkbadOp fl) excl s = (some (some b), t) →
        ScanVisits fl t.blkStatus b) ↔
      ∀ b, Candidate fl tbl rl excl b →
        b < fl.startBlk + reservedBlockCnt ∧ resStatus fl tbl b = blockGood) ∧
    ((∀ (s t : St) (b : ℕ), s.blkStatus = tbl → s.reservedBlk = rl → ¬NoTableSave s →
        amlnandGetFreeBlock fl (blockMarkbadOp fl) excl s = (some (some b), t) →
        ScanVisits fl t.blkStatus b) →
      (∀ b, Candidate fl tbl rl excl b →
        b < fl.startBlk + reservedBlockCnt ∧ resStatus fl tbl b = blockGood) ∧
      ∀ b b', Candidate fl tbl rl excl b → Candidate fl tbl rl excl b' → b = b') := by
  have hgood : ∀ {s t : St} {b : ℕ}, s.blkStatus = tbl → Darker fl tbl rl s t →
      ScanVisits fl t.blkStatus b →
      b < fl.startBlk + reservedBlockCnt ∧ resStatus fl tbl b = blockGood := by
    intro s t b hs hdark hv
    obtain ⟨-, h2, h3⟩ := (scanVisits_iff b).1 hv
    refine ⟨h2, by_contra fun hbad => ?_⟩
    rw [← hs] at hbad
    exact hdark.bad _ _ hbad h3
  refine ⟨⟨fun h b hb => ?_, ?_⟩, fun h => ?_⟩
  · obtain ⟨s, t, hs, hr, hsearch, hrun, hdark, -⟩ := exists_getFreeBlock false hn hfuel hb
    exact hgood hs hdark (h s t b hs hr (Or.inl (Or.inl hsearch.markbad)) hrun)
  · rintro h s t b rfl rfl hq hrun
    obtain ⟨hb, hsame⟩ := amlnandGetFreeBlock_quiet hq hrun
    rw [scanVisits_iff, hsame]
    exact ⟨hb.1.1, h b hb⟩
  · have hloud : ∀ {s : St}, Searching fl tbl rl true s → ¬NoTableSave s := by
      rintro s hs (h | h | h)
      · rw [hs.markbad] at h
        cases h
      · rw [hs.records] at h
        cases h
      · rw [hs.loaded] at h
        cases h
    have hall : ∀ b, Candidate fl tbl rl excl b →
        b < fl.startBlk + reservedBlockCnt ∧ resStatus fl tbl b = blockGood := by
      intro b hb
      obtain ⟨s, t, hs, hr, hsearch, hrun, hdark, -⟩ := exists_getFreeBlock true hn hfuel hb
      exact hgood hs hdark (h s t b hs hr (hloud hsearch) hrun)
    refine ⟨hall, ?_⟩
    -- of two candidates the second is handed out with the mark the search left on it
    have hlt : ∀ b b', Candidate fl tbl rl excl b → Candidate fl tbl rl excl b' → ¬b < b' := by
      intro b b' hb hb' hlt
      obtain ⟨s, t, hs, hr, hsearch, hrun, hdark, hbad⟩ := exists_getFreeBlock true hn hfuel hb'
      have hv := (scanVisits_iff b').1 (h s t b' hs hr (hloud hsearch) hrun)
      rcases hdark.table with hsame | hmarked
      · exact hbad rfl b hlt hb (by rw [hsame, hs]; exact (hall b hb).2)
      · exact hmarked b' ⟨hb'.1, hb'.2.1, by omega, hb'.2.2.2⟩ hv.2.2
    intro b b' hb hb'
    rcases lt_trichotomy b b' with hlt' | heq | hgt
    · exact absurd hlt' (hlt b b' hb hb')
    · exact heq
    · exact absurd hgt (hlt b' b hb' hb)

/-- On a chip without bad blocks the two agree. -/
theorem allocator_scanner_good :
    ReserveEnd (.h27ubg8t2a 2 (by decide) (by decide)) (fun _ _ => blockGood) 52 ∧
    ∀ (s t : St) (b : ℕ), s.blkStatus = (fun _ _ => blockGood) →
      s.reservedBlk = List.replicate reservedBlockCnt 0xff → QuietSearch s →
      amlnandGetFreeBlock (.h27ubg8t2a 2 (by decide) (by decide))
        (blockMarkbadOp (.h27ubg8t2a 2 (by decide) (by decide))) 0 s = (some (some b), t) →
      ScanVisits (.h27ubg8t2a 2 (by decide) (by decide)) t.blkStatus b := by
  have hend : ReserveEnd (.h27ubg8t2a 2 (by decide) (by decide)) (fun _ _ => blockGood) 52 :=
    reserveEnd_of_notFactory fun k => show blockGood ≠ blockFactoryBad by decide
  refine ⟨hend, (allocator_scanner_iff hend (by decide)).1.2 fun b hb => ⟨?_, rfl⟩⟩
  exact (hend.lt_iff hb.1.1).2 hb.1

/-- A table whose first reserved block went bad in use. -/
def usedBadFirst : BlkStatus := fun c b => if c = 0 ∧ b = 4 then blockUsedBad else blockGood

/-- The allocator hands out the block that went bad in use, the scan does not look at it. -/
theorem getFreeBlock_usedBadFirst :
    ¬∀ (s t : St) (b : ℕ), s.blkStatus = usedBadFirst → QuietSearch s →
      amlnandGetFreeBlock (.h27ubg8t2a 1 (by decide) (by decide))
        (blockMarkbadOp (.h27ubg8t2a 1 (by decide) (by decide))) 0 s = (some (some b), t) →
      ScanVisits (.h27ubg8t2a 1 (by decide) (by decide)) t.blkStatus b := by
  intro h
  let s : St := { St.blank with blkStatus := usedBadFirst }
  let fl : Flash := .h27ubg8t2a 1 (by decide) (by decide)
  have hval : (amlnandGetFreeBlock fl (blockMarkbadOp fl) 0 s).1 = some (some 4) := by
    decide +kernel
  have htbl : CalmAt usedBadFirst (amlnandGetFreeBlock fl (blockMarkbadOp fl) 0 s).2 :=
    Spec.final (keepsCalm_amlnandGetFreeBlock _ _) ⟨⟨fun _ => Outcome.fine_fine, rfl⟩, rfl⟩
  have hv := h s _ 4 rfl (Or.inr ⟨fun _ => Outcome.fine_fine, rfl⟩) (Prod.ext hval rfl)
  rw [htbl.2] at hv
  exact absurd hv.2.2 (by decide)

end Agree

end Amlnf
