import Amlnf.Phy.Stored

set_option relaxedAutoImplicit false
set_option autoImplicit false

/-!
# Between saves

On chips that report no failure the driver keeps one invariant for each record: either no block
carries the name, or `arg_info` designates the one block that does. It is kept by every save whose
payload fits, and a save that succeeds leaves its own payload behind. Payloads of a `FULL_PAGE`
record are appended at a distance that depends on their size, so they must take the same number of
pages.

## Main definitions

* `CopiesFit` — the copies the next save writes stay on the record pages.
* `Storable` — a payload of this size can be saved any number of times.
* `Stable` — what holds between saves.

## Main results

* `Stable.round`, `Stable.saves` — a round and a save keep it.
-/

namespace Amlnf

open Act

/-- Appended copies, with their dummy pages, stay on the record pages of the block. This is so on
every type but `HYNIX_1YNM_8GB`, where the test for room does not count the dummy pages. -/
def NoSpill (fl : Flash) (size : ℕ) : Prop :=
  ∀ k, k * copyStep fl size + 2 * fl.argPages size ≤ fl.pagesRead →
    k * copyStep fl size + 2 * copyStep fl size ≤ fl.pagesRead

/-- Other types put no dummy page behind a copy. -/
lemma copyStep_of_ne {fl : Flash} (h : fl.newType ≠ .hynix1ynm8gb) (size : ℕ) :
    copyStep fl size = fl.argPages size := by
  simp [copyStep, h]

/-- Without dummy pages nothing spills. -/
lemma noSpill_of_ne {fl : Flash} (h : fl.newType ≠ .hynix1ynm8gb) (size : ℕ) : NoSpill fl size := by
  intro k hk
  rwa [copyStep_of_ne h] at hk ⊢

/-- The page at which the next round writes its copy. -/
def nextPage (fl : Flash) (size : ℕ) (a : ArgInfo) : ℕ :=
  if Appends fl a size then a.validPageAddr + copyStep fl size else 0

/-- The copy the next round writes fits: its pages fit a block, and a `FULL_PAGE` copy with its dummy
pages ends on the record pages of the block. -/
def CopyFits (fl : Flash) (size : ℕ) (a : ArgInfo) : Prop :=
  fl.argPages size ≤ fl.pagesRead ∧
    (a.argType = .fullPage → nextPage fl size a + copyStep fl size ≤ fl.pagesRead)

/-- `arg_info` after a round that has written a copy at page `v`, as far as the choice of the next
page goes. -/
def placedAt (a : ArgInfo) (v : ℕ) : ArgInfo :=
  { a with validPageAddr := v, argValid := true, updateFlag := false }

/-- The copies the next save writes fit. A save of a `FULL_PAGE` record writes two. -/
def CopiesFit (fl : Flash) (size : ℕ) (a : ArgInfo) : Prop :=
  CopyFits fl size a ∧ CopyFits fl size (placedAt a (nextPage fl size a))

/-- A payload of this size can be saved any number of times: it fits a block, and for a `FULL_PAGE`
record it takes `pages` pages and no appended copy runs past the record pages. -/
def Storable (fl : Flash) (type : ArgType) (pages size : ℕ) : Prop :=
  Fits fl type size ∧ (type = .fullPage → fl.argPages size = pages ∧ NoSpill fl size)

/-- What holds between saves: no step fails, the allocator picks only blocks the scan visits, the
reserved area ends inside the table, and there is no record or the state holds one. The list of
reserved blocks has a free place for the next block of the record. -/
structure Stable (fl : Flash) (name : RecName) (type : ArgType) (pages : ℕ) (s : St) : Prop where
  ready : Ready s
  argType : (s.info name).argType = type
  agree : ∀ b excl, Candidate fl s.blkStatus s.reservedBlk excl b → ScanVisits fl s.blkStatus b
  area : ∃ n, ReserveEnd fl s.blkStatus n ∧ n < fl.startBlk + scanFuel
  record : (NoRecord fl s name ∧ 2 ≤ s.reservedBlk.count 0xff) ∨
    ((0xff : UInt8) ∈ s.reservedBlk ∧
      ∃ size P, Holds fl s name size P ∧ (type = .fullPage → fl.argPages size = pages))

section

variable {fl : Flash} {name : RecName} {type : ArgType} {pages size excl b : ℕ} {s t : St} {P Q : Buf}

/-- The list has a free place. -/
lemma Stable.free (h : Stable fl name type pages s) : (0xff : UInt8) ∈ s.reservedBlk := by
  rcases h.record with ⟨-, h⟩ | ⟨h, -⟩
  · exact List.count_pos_iff.1 (by omega)
  · exact h

/-- There is no record, or one that holds a payload. -/
lemma Stable.noRecord_or_holds (h : Stable fl name type pages s) :
    NoRecord fl s name ∨ ∃ size P, Holds fl s name size P := by
  rcases h.record with ⟨h, -⟩ | ⟨-, size, P, h, -⟩
  · exact Or.inl h
  · exact Or.inr ⟨size, P, h⟩

/-- A `FULL_PAGE` payload takes the pages it should. -/
lemma Storable.samePages (h : Storable fl type pages size) (hty : type = .fullPage) :
    fl.argPages size = pages := (h.2 hty).1

/-- What holds between saves does not depend on the scratch fields. -/
lemma Stable.of_kept (h : Stable fl name type pages s) (hk : t.kept = s.kept) :
    Stable fl name type pages t := by
  have hrec := h.record
  constructor
  · exact h.ready.of_kept hk
  · rw [kept_info hk]
    exact h.argType
  · rw [kept_blkStatus hk, kept_reservedBlk hk]
    exact h.agree
  · rw [kept_blkStatus hk]
    exact h.area
  · rw [kept_reservedBlk hk]
    rcases hrec with ⟨h1, h2⟩ | ⟨h1, size, P, h2, h3⟩
    · exact Or.inl ⟨h1.of_kept hk, h2⟩
    · exact Or.inr ⟨h1, size, P, h2.of_kept hk, h3⟩

/-- The copies the next save writes fit if those of any number of saves do: the copies so far lie at
equal distances. -/
lemma Stable.copiesFit (h : Stable fl name type pages s) (hsz : Storable fl type pages size) :
    CopiesFit fl size (s.info name) := by
  have hfirst : copyStep fl size ≤ fl.pagesRead ∨ (s.info name).argType ≠ .fullPage := by
    by_cases hty : (s.info name).argType = .fullPage
    · exact Or.inl (hsz.1.2 (h.argType.symm.trans hty))
    · exact Or.inr hty
  -- behind a copy at a multiple of the distance there is room whenever the test for room says so
  have hbehind : ∀ a : ArgInfo, a.argType = (s.info name).argType →
      (Appends fl a size → ∃ k, a.validPageAddr = k * copyStep fl size) → CopyFits fl size a := by
    intro a hty hk
    refine ⟨hsz.1.1, fun hpage => ?_⟩
    rw [nextPage]
    split
    · rename_i ha
      obtain ⟨k, hk⟩ := hk ha
      have hle := (hsz.2 (h.argType.symm.trans (hty.symm.trans hpage))).2 k (hk ▸ ha.2.2.2)
      omega
    · rw [Nat.zero_add]
      exact hfirst.resolve_right (not_not.2 (hty.symm.trans hpage))
  have hnow : Appends fl (s.info name) size →
      ∃ k, (s.info name).validPageAddr = k * copyStep fl size := by
    intro ha
    rcases h.record with ⟨h1, -⟩ | ⟨-, size₀, P, hh, hp⟩
    · exact absurd ha.1 (by simp [h1.invalid])
    have hty : type = .fullPage := h.argType.symm.trans ha.2.2.1
    have hA := (hsz.2 hty).1.trans (hp hty).symm
    obtain ⟨k, hk, -⟩ := ((hh.log ha.2.2.1 ha.2.1).congr_size hA).copies
    exact ⟨k, hk⟩
  refine ⟨hbehind _ rfl hnow, hbehind _ rfl fun _ => ?_⟩
  change ∃ k, nextPage fl size (s.info name) = k * copyStep fl size
  rw [nextPage]
  split
  · rename_i ha
    obtain ⟨k, hk⟩ := hnow ha
    exact ⟨k + 1, by rw [hk, Nat.succ_mul]⟩
  · exact ⟨0, (Nat.zero_mul _).symm⟩

/-- A payload whose copy fits a fresh block. -/
lemma CopyFits.fits (h : CopyFits fl size (s.info name)) (hty : (s.info name).argType = type)
    (hn : ¬Appends fl (s.info name) size) : Fits fl type size := by
  refine ⟨h.1, fun hpage => ?_⟩
  have hle := h.2 (hty.trans hpage)
  rw [nextPage, if_neg hn] at hle
  omega

/-- Whether a copy fits depends on the type, on the validity and on the page of the last one. -/
lemma CopyFits.congr {a a' : ArgInfo} (h : CopyFits fl size a) (hty : a'.argType = a.argType)
    (hv : a'.argValid = a.argValid) (hu : a'.updateFlag = a.updateFlag)
    (hp : a'.validPageAddr = a.validPageAddr) : CopyFits fl size a' := by
  have ha : Appends fl a' size ↔ Appends fl a size := by
    unfold Appends
    rw [hty, hv, hu, hp]
  simp only [CopyFits, nextPage, ha, hty, hp] at h ⊢
  exact h

/-- An appended copy stays on the record pages. -/
lemma Stable.room (h : Stable fl name type pages s)
    (hp : type = .fullPage → fl.argPages size = pages) (hfit : CopyFits fl size (s.info name))
    (ha : Appends fl (s.info name) size) :
    (s.info name).validPageAddr + 2 * copyStep fl size ≤ fl.pagesRead ∧
      ∃ size₀ P, Holds fl s name size₀ P ∧ fl.argPages size = fl.argPages size₀ := by
  rcases h.record with ⟨h1, -⟩ | ⟨-, size₀, P, hh, hp₀⟩
  · exact absurd ha.1 (by simp [h1.invalid])
  have hty : type = .fullPage := h.argType.symm.trans ha.2.2.1
  refine ⟨?_, size₀, P, hh, (hp hty).trans (hp₀ hty).symm⟩
  have hle := hfit.2 ha.2.2.1
  rw [nextPage, if_pos ha] at hle
  omega

/-- A round that appends keeps it. -/
lemma Stable.appended (h : Stable fl name type pages s)
    (hp : type = .fullPage → fl.argPages size = pages) (hfit : CopyFits fl size (s.info name))
    (ha : Appends fl (s.info name) size) :
    Saved fl (s.appended fl name Q size) name size Q ∧
      Stable fl name type pages (s.appended fl name Q size) := by
  obtain ⟨hroom, size₀, P, hh, hA⟩ := h.room hp hfit ha
  have hsaved : Saved fl (s.appended fl name Q size) name size Q := hh.appended ha hA hroom
  refine ⟨hsaved, ⟨h.ready.calm, h.ready.lock⟩, ?_, h.agree, h.area,
    Or.inr ⟨h.free, size, Q, hsaved.1, hp⟩⟩
  rw [appended_info_self]
  exact h.argType

/-- A round that moves the record keeps it: only the block the record has left becomes a new
candidate for the allocator. -/
lemma Stable.moved (h : Stable fl name type pages s) (hfit : Fits fl type size)
    (hp : type = .fullPage → fl.argPages size = pages)
    (hb : Candidate fl s.blkStatus s.reservedBlk excl b) :
    Saved fl (s.moved fl name Q size b) name size Q ∧
      Stable fl name type pages (s.moved fl name Q size b) := by
  have hvis := h.agree b excl hb
  have hsaved : Saved fl (s.moved fl name Q size b) name size Q :=
    saved_moved h.noRecord_or_holds (by rw [h.argType]; exact hfit) hb hvis h.free
  have hfree : (0xff : UInt8) ∈ moveList (s.info name) b s.reservedBlk := by
    unfold moveList
    split
    · rename_i hc
      rcases h.record with ⟨h1, -⟩ | ⟨-, size₀, P, hh, -⟩
      · exact absurd hc.1 (by simp [h1.invalid])
      · have := hh.visits.bounds
        exact mem_delist_of_listed (listed_enlist_of_listed b (by omega) hh.listed)
    · rename_i hc
      rcases h.record with ⟨-, hcount⟩ | ⟨-, size₀, P, hh, -⟩
      · exact mem_enlist_of_count b hcount
      · exact absurd ⟨hh.valid, Nat.ne_of_gt hh.visits.bounds.1⟩ hc
  have hagree : ∀ x excl', Candidate fl s.blkStatus (moveList (s.info name) b s.reservedBlk) excl' x →
      ScanVisits fl s.blkStatus x := by
    intro x excl' hx
    have h255 : x ≠ 255 := by
      rintro rfl
      have hl := hx.2.1
      rw [listed_of_free hfree] at hl
      cases hl
    by_cases hold : (s.info name).argValid = true ∧ x = (s.info name).validBlkAddr
    · rcases h.record with ⟨h1, -⟩ | ⟨-, size₀, P, hh, -⟩
      · exact absurd hold.1 (by simp [h1.invalid])
      · rw [hold.2]
        exact hh.visits
    · refine h.agree x excl' ⟨hx.1, ?_, hx.2.2⟩
      by_contra hl
      have hkeep := listed_enlist_of_listed b h255 (show listed s.reservedBlk x = true by simpa using hl)
      have hkeep' : listed (moveList (s.info name) b s.reservedBlk) x = true := by
        unfold moveList
        split
        · rename_i hc
          exact listed_delist_of_ne (fun hxo => hold ⟨hc.1, hxo⟩) hkeep
        · exact hkeep
      rw [hx.2.1] at hkeep'
      cases hkeep'
  refine ⟨hsaved, ⟨h.ready.calm, h.ready.lock⟩, ?_, hagree, h.area,
    Or.inr ⟨hfree, size, Q, hsaved.1, hp⟩⟩
  rw [moved_info_self]
  exact h.argType

/-- The timestamp does not matter. -/
lemma Stable.stamped (h : Stable fl name type pages s) : Stable fl name type pages (s.stamped name) := by
  refine ⟨⟨h.ready.calm, h.ready.lock⟩, ?_, h.agree, h.area, ?_⟩
  · rw [St.stamped, setInfo_info_self]
    exact h.argType
  · rcases h.record with ⟨h1, h2⟩ | ⟨h1, size, P, h2, h3⟩
    · exact Or.inl ⟨h1.stamped, h2⟩
    · exact Or.inr ⟨h1, size, P, h2.stamped, h3⟩

/-- Neither does `update_flag` once a round has written the record. -/
lemma Stable.settled (h : Stable fl name type pages s) (hs : Saved fl s name size Q)
    (hp : type = .fullPage → fl.argPages size = pages) :
    Stable fl name type pages (s.setInfo name settled) := by
  refine ⟨⟨h.ready.calm, h.ready.lock⟩, ?_, h.agree, h.area, Or.inr ⟨h.free, size, Q, hs.settled, hp⟩⟩
  rw [setInfo_info_self]
  exact h.argType

/-- **One round of a save** keeps what holds between saves, and stores the payload if it succeeds. -/
lemma Stable.round {r : ℤ ⊕ ℤ × SaveLocals} (h : Stable fl name type pages s)
    (hp : type = .fullPage → fl.argPages size = pages) (hfit : CopyFits fl size (s.info name))
    (hr : Round fl name Q size excl s r t) :
    Stable fl name type pages t ∧
      ((∃ ret, r = Sum.inl ret ∧ ret < 0) ∨ (∃ l, r = Sum.inr (0, l)) ∧
        Saved fl t name size Q) := by
  cases hr with
  | append ha _ _ ht =>
    obtain ⟨h1, h2⟩ := h.appended (Q := Q) hp hfit ha
    exact ⟨h2.of_kept ht, Or.inr ⟨⟨_, rfl⟩, h1.of_kept ht⟩⟩
  | move hn _ hb _ ht =>
    obtain ⟨h1, h2⟩ := h.moved (Q := Q) (hfit.fits h.argType hn) hp hb
    exact ⟨h2.of_kept ht, Or.inr ⟨⟨_, rfl⟩, h1.of_kept ht⟩⟩
  | full _ _ ht => exact ⟨h.stamped.of_kept ht, Or.inl ⟨_, rfl, by decide⟩⟩

/-- The copy of the second round fits if it does behind the place of the first. -/
lemma Round.second_fits {l : SaveLocals} (hr : Round fl name Q size excl s (Sum.inr (0, l)) t)
    (hfit : CopiesFit fl size (s.info name))
    (hpage : (s.info name).argValid = false → (s.info name).validPageAddr = 0) :
    CopyFits fl size ((t.setInfo name Amlnf.settled).info name) := by
  rw [setInfo_info_self]
  cases hr with
  | append ha _ _ ht =>
    have hnext : nextPage fl size (s.info name) =
        (s.info name).validPageAddr + copyStep fl size := if_pos ha
    have hlow : fl.pagesRead ≤ 1024 := fl.pagesRead_le.trans fl.ppb_le
    have hle := hfit.1.2 ha.2.2.1
    have hi : t.info name = appendInfo fl size (s.info name) :=
      (congrFun (kept_info ht) name).trans (appended_info_self s name Q size)
    refine hfit.2.congr ?_ ?_ rfl ?_
    · rw [hi]
      rfl
    · rw [hi]
      exact ha.1
    · rw [hi]
      exact (Nat.mod_eq_of_lt (by omega)).trans hnext.symm
  | @move l _ hn _ _ _ ht =>
    have hnext : nextPage fl size (s.info name) = 0 := if_neg hn
    have hi : t.info name = moveInfo l.blkAddr (s.info name) :=
      (congrFun (kept_info ht) name).trans (moved_info_self s name Q size l.blkAddr)
    refine hfit.2.congr ?_ ?_ rfl ?_
    · rw [hi]
      rfl
    · rw [hi]
      rfl
    · rw [hi]
      change (if (s.info name).argValid = true then 0 else (s.info name).validPageAddr) =
        nextPage fl size (s.info name)
      rw [hnext]
      split
      · rfl
      · rename_i hv
        exact hpage (by simpa using hv)

/-- It does between saves: a driver without a record starts at page 0. -/
lemma Stable.second_fits {l : SaveLocals} (h : Stable fl name type pages s)
    (hfit : CopiesFit fl size (s.info name)) (hr : Round fl name Q size excl s (Sum.inr (0, l)) t) :
    CopyFits fl size ((t.setInfo name Amlnf.settled).info name) := by
  refine hr.second_fits hfit fun hv => ?_
  rcases h.noRecord_or_holds with hno | ⟨size₀, P, hh⟩
  · exact hno.page
  · rw [hh.valid] at hv
    cases hv

/-- **A save** keeps what holds between saves, and stores the payload if it succeeds. -/
lemma Stable.saves {ret : ℤ} (h : Stable fl name type pages s)
    (hp : type = .fullPage → fl.argPages size = pages) (hfit : CopiesFit fl size (s.info name))
    (hs : Saves fl name Q size s ret t) :
    Stable fl name type pages t ∧ (0 ≤ ret → Saved fl t name size Q) := by
  cases hs with
  | refused _ => exact ⟨h, fun hret => absurd hret (by decide)⟩
  | failed _ hr =>
    obtain ⟨h1, ⟨ret, hret, hneg⟩ | ⟨⟨l, hl⟩, -⟩⟩ := h.round hp hfit.1 hr
    · obtain rfl := Sum.inl.inj hret
      exact ⟨h1, fun h0 => absurd h0 (by omega)⟩
    · cases hl
  | once _ _ hr =>
    obtain ⟨h1, ⟨ret, hret, -⟩ | ⟨-, h2⟩⟩ := h.round hp hfit.1 hr
    · cases hret
    · exact ⟨h1, fun _ => h2⟩
  | half _ _ hr hr' =>
    obtain ⟨h1, ⟨ret, hret, -⟩ | ⟨-, h2⟩⟩ := h.round hp hfit.1 hr
    · cases hret
    obtain ⟨h3, ⟨ret, hret, hneg⟩ | ⟨⟨l, hl⟩, -⟩⟩ :=
      (h1.settled h2 hp).round hp (h.second_fits hfit hr) hr'
    · obtain rfl := Sum.inl.inj hret
      exact ⟨h3, fun h0 => absurd h0 (by omega)⟩
    · cases hl
  | twice _ _ hr hr' =>
    obtain ⟨h1, ⟨ret, hret, -⟩ | ⟨-, h2⟩⟩ := h.round hp hfit.1 hr
    · cases hret
    obtain ⟨h3, ⟨ret, hret, -⟩ | ⟨-, h4⟩⟩ :=
      (h1.settled h2 hp).round hp (h.second_fits hfit hr) hr'
    · cases hret
    · exact ⟨h3, fun _ => h4⟩

/-- A save keeps the chip state. -/
lemma Saves.state_eq {ret : ℤ} (h : Saves fl name Q size s ret t) : t.state = s.state := by
  cases h with
  | refused _ => rfl
  | failed _ hr => exact hr.keeps.2.1
  | once _ _ hr => exact hr.keeps.2.1
  | half _ _ hr hr' => exact hr'.keeps.2.1.trans hr.keeps.2.1
  | twice _ _ hr hr' => exact hr'.keeps.2.1.trans hr.keeps.2.1

/-- And the bad-block table. -/
lemma Saves.blkStatus_eq {ret : ℤ} (h : Saves fl name Q size s ret t) :
    t.blkStatus = s.blkStatus := by
  cases h with
  | refused _ => rfl
  | failed _ hr => exact hr.keeps.1
  | once _ _ hr => exact hr.keeps.1
  | half _ _ hr hr' => exact hr'.keeps.1.trans hr.keeps.1
  | twice _ _ hr hr' => exact hr'.keeps.1.trans hr.keeps.1

/-- Every save whose copies fit returns. -/
lemma Stable.saveInfo_run (h : Stable fl name type pages s)
    (hp : type = .fullPage → fl.argPages size = pages) (hfit : CopiesFit fl size (s.info name))
    (Q : Buf) :
    ∃ ret t, saveInfo fl name Q size s = (some ret, t) ∧ Saves fl name Q size s ret t ∧
      Stable fl name type pages t ∧ (0 ≤ ret → Saved fl t name size Q) := by
  obtain ⟨n, hn, hfuel⟩ := h.area
  obtain ⟨ret, t, ht, hs⟩ := amlnandSaveInfoByName_run fl (blockMarkbadOp fl) name Q size h.ready hn
    hfuel
  exact ⟨ret, t, ht, hs, h.saves hp hfit hs⟩

end

/-! ## A driver without records -/

/-- `St.blank` with one type for all records. -/
def St.blankOf (type : ArgType) : St := { St.blank with info := fun _ => { argType := type } }

/-- On a table without bad blocks the reserved area is the scan range. -/
lemma visits_of_good {fl : Flash} {b : ℕ} (h1 : fl.startBlk ≤ b)
    (h2 : b < fl.startBlk + reservedBlockCnt) : ScanVisits fl St.blank.blkStatus b :=
  (scanVisits_iff b).2 ⟨h1, h2, rfl⟩

/-- Without bad blocks the reserved area has 48 blocks. -/
lemma reserveEnd_good (fl : Flash) :
    ReserveEnd fl St.blank.blkStatus (fl.startBlk + reservedBlockCnt) :=
  reserveEnd_of_notFactory fun _ => show blockGood ≠ blockFactoryBad by decide

/-- Blank chips without a record. -/
lemma stable_blankOf (fl : Flash) (name : RecName) (type : ArgType) (pages : ℕ) :
    Stable fl name type pages (St.blankOf type) := by
  have hend := reserveEnd_good fl
  refine ⟨⟨⟨fun _ => Outcome.fine_fine, rfl⟩, fun _ => ⟨rfl, rfl⟩⟩, rfl, fun b excl hb => ?_,
    ⟨_, hend, ?_⟩, Or.inl ⟨⟨rfl, rfl, fun _ _ _ _ => rfl⟩,
      show 2 ≤ St.blank.reservedBlk.count 0xff by decide⟩⟩
  · exact visits_of_good hb.1.1 ((hend.lt_iff hb.1.1).2 hb.1)
  · have h : reservedBlockCnt < scanFuel := by decide
    omega

end Amlnf
