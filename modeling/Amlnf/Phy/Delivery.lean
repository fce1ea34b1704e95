import Amlnf.Phy.RecordRead

set_option relaxedAutoImplicit false
set_option autoImplicit false

/-!
# What a scan delivers

A block is either passed over by the scan for a name or delivers whatever copy the second pass
arrives at. Which block is chosen among several depends on their order and their timestamps, what
can be delivered does not.

## Main definitions

* `HasCopy` — a copy of a payload starts at a page of a block.
* `Delivers`, `Silent` — what a scan makes of a block.
* `AppendLog` — the block of a `FULL_PAGE` record between saves: copies at equal distances, erased
  pages behind the last one.

## Main results

* `readCopy_of_hasCopy` — reading a copy gives the payload.
* `checkInfo_delivers` — a scan finds a copy in one of the blocks that deliver.
* `AppendLog.copyPage_eq` — the second pass arrives at the last copy.
-/

namespace Amlnf

open Act

section Block

variable {fl : Flash} {name : RecName} {size v : ℕ} {blk : ℕ → Page} {P : Buf}

/-! ## Copies -/

/-- A copy of the payload `P` of `size` bytes starts at page `v` of a block. -/
def HasCopy (fl : Flash) (name : RecName) (size : ℕ) (blk : ℕ → Page) (v : ℕ) (P : Buf) : Prop :=
  ∀ j, j * fl.pagesize < size → (blk (v + j)).isBad = false ∧ tagged (blk (v + j)).oob name = true ∧
    ∀ i < min fl.pagesize (size - j * fl.pagesize), (blk (v + j)).data i = P (j * fl.pagesize + i)

/-- The read from piece `i` on. -/
lemma readCopy_eq (h : HasCopy fl name size blk v P) :
    ∀ n i (buf : Buf), i ≤ size → size < i + n → ∀ k,
      readCopy fl name size blk v n i buf k =
        if i * fl.pagesize ≤ k ∧ k < size then P k else buf k := by
  intro n
  induction n with
  | zero =>
    intro i buf hi hn
    omega
  | succ n ih =>
    intro i buf hi hn k
    have hpos := fl.pagesize_pos
    by_cases hlt : i * fl.pagesize < size
    swap
    · rw [readCopy, if_neg hlt, if_neg]
      omega
    have hlt' : i < size := lt_of_le_of_lt (Nat.le_mul_of_pos_right i hpos) hlt
    obtain ⟨hbad, htag, hdata⟩ := h i hlt
    rw [readCopy, if_pos hlt, if_neg (by simp [hbad]), if_pos htag, ih (i + 1) _ (by omega) (by omega),
      Nat.succ_mul]
    by_cases h1 : i * fl.pagesize + fl.pagesize ≤ k ∧ k < size
    · rw [if_pos h1, if_pos (by omega)]
    rw [if_neg h1]
    unfold blit
    by_cases h2 : i * fl.pagesize ≤ k ∧ k < size
    · rw [if_pos h2, if_pos (by omega), hdata _ (by omega)]
      congr 1
      omega
    · rw [if_neg h2, if_neg (by omega)]

/-- **Reading a copy gives the payload**, whatever the buffer held. -/
lemma readCopy_of_hasCopy (h : HasCopy fl name size blk v P) (buf : Buf) :
    ∀ k < size, readCopy fl name size blk v (size + 1) 0 buf k = P k := by
  intro k hk
  rw [readCopy_eq h (size + 1) 0 buf (by omega) (by omega), if_pos (by omega)]

/-- A copy as a save writes it. -/
lemma hasCopy_of_written {tag : Tag} (hn : tag.name = name)
    (h : ∀ j < fl.argPages size, blk (v + j) = .written (recSlice fl P size j) (some tag)) :
    HasCopy fl name size blk v P := by
  intro j hj
  have hle : j < fl.argPages size := by
    rw [fl.argPages_eq, Nat.lt_succ_iff, Nat.le_div_iff_mul_le fl.pagesize_pos]
    exact hj.le
  rw [h j hle]
  refine ⟨rfl, by simp [Page.oob, tagged, hn], fun i hi => ?_⟩
  change recSlice fl P size j i = _
  rw [recSlice, if_pos (by omega)]

/-- A copy depends on its own pages only. -/
lemma HasCopy.congr {blk' : ℕ → Page} (h : HasCopy fl name size blk v P)
    (hc : ∀ j, j * fl.pagesize < size → blk' (v + j) = blk (v + j)) :
    HasCopy fl name size blk' v P := by
  intro j hj
  rw [hc j hj]
  exact h j hj

/-- The read from piece `i` on leaves the bytes before that piece alone. -/
lemma readCopy_below : ∀ n i (buf : Buf) {k : ℕ}, k < i * fl.pagesize →
    readCopy fl name size blk v n i buf k = buf k := by
  intro n
  induction n with
  | zero =>
    intro i buf k _
    rfl
  | succ n ih =>
    intro i buf k hk
    have hnext : k < (i + 1) * fl.pagesize := by
      rw [Nat.succ_mul]
      omega
    rw [readCopy]
    split
    · split
      · rfl
      · split
        · rw [ih _ _ hnext]
          exact if_neg (by omega)
        · exact ih _ _ hnext
    · rfl

/-- A copy of which the first page has been written and the second has not. -/
lemma readCopy_first (hsz : fl.pagesize < size) (hb : (blk v).isBad = false)
    (ht : tagged (blk v).oob name = true) (h : tagged (blk (v + 1)).oob name = false) (buf : Buf) :
    readCopy fl name size blk v (size + 1) 0 buf 0 = (blk v).data 0 ∧
      readCopy fl name size blk v (size + 1) 0 buf fl.pagesize = buf fl.pagesize := by
  have hpos := fl.pagesize_pos
  obtain ⟨n, rfl⟩ : ∃ n, size = n + 1 := ⟨size - 1, by omega⟩
  set d := blit buf 0 (min fl.pagesize (n + 1)) (blk v).data with hd
  have hstep : readCopy fl name (n + 1) blk v (n + 1 + 1) 0 buf = d ∨
      readCopy fl name (n + 1) blk v (n + 1 + 1) 0 buf = readCopy fl name (n + 1) blk v n 2 d := by
    rw [readCopy, if_pos (by omega), Nat.add_zero, if_neg (by simp [hb]), if_pos ht, Nat.zero_mul,
      Nat.sub_zero, ← hd, readCopy, if_pos (by omega), h]
    by_cases hbad : (blk (v + (0 + 1))).isBad = true
    · exact Or.inl (if_pos hbad)
    · exact Or.inr (if_neg hbad)
  have hd0 : d 0 = (blk v).data 0 := if_pos (by omega)
  have hd1 : d fl.pagesize = buf fl.pagesize := if_neg (by omega)
  rcases hstep with hr | hr
  · rw [hr]
    exact ⟨hd0, hd1⟩
  · rw [hr, readCopy_below n 2 d (by omega), readCopy_below n 2 d (by omega)]
    exact ⟨hd0, hd1⟩

/-! ## What a scan makes of a block -/

/-- A scan passes over the block: the first page that can be read is not under the name. -/
def Silent (fl : Flash) (name : RecName) (size : ℕ) (blk : ℕ → Page) : Prop :=
  tagged (blockTag fl size blk) name = false

/-- The page the second pass arrives at. -/
def copyPage (fl : Flash) (type : ArgType) (name : RecName) (size : ℕ) (blk : ℕ → Page) : ℕ :=
  (copyScan fl name size blk (fl.pagesRead + 1) 0 { argType := type }).validPageAddr

/-- A scan that takes the block, followed by a read, delivers the payload. -/
def Delivers (fl : Flash) (type : ArgType) (name : RecName) (size : ℕ) (blk : ℕ → Page) (P : Buf) :
    Prop :=
  HasCopy fl name size blk (copyPage fl type name size blk) P

/-- The page the second pass arrives at depends on the type and the starting page only. -/
lemma copyScan_page_congr (fl : Flash) (name : RecName) (size : ℕ) (blk : ℕ → Page) :
    ∀ n i (a a' : ArgInfo), a.argType = a'.argType → a.validPageAddr = a'.validPageAddr →
      (copyScan fl name size blk n i a).validPageAddr =
        (copyScan fl name size blk n i a').validPageAddr := by
  intro n
  induction n with
  | zero =>
    intro i a a' _ hp
    exact hp
  | succ n ih =>
    intro i a a' ht hp
    unfold copyScan
    split
    · split
      · exact ih _ _ _ ht hp
      · rw [ht]
        split
        · split
          · rfl
          · exact ih _ _ _ ht hp
        · exact ih _ _ _ ht hp
        · split
          · exact ih _ _ _ rfl rfl
          · exact hp
        · exact hp
    · exact hp

/-- The page it arrives at is a record page. -/
lemma copyScan_page_lt (fl : Flash) (name : RecName) (size : ℕ) (blk : ℕ → Page) :
    ∀ n i (a : ArgInfo), a.validPageAddr < fl.pagesRead →
      (copyScan fl name size blk n i a).validPageAddr < fl.pagesRead := by
  intro n
  induction n with
  | zero =>
    intro i a ha
    exact ha
  | succ n ih =>
    intro i a ha
    unfold copyScan
    split
    · rename_i hi
      split
      · exact ih _ _ ha
      · split
        · split
          · exact hi
          · exact ih _ _ ha
        · exact ih _ _ ha
        · split
          · exact ih _ _ hi
          · exact ha
        · exact ha
    · exact ha

/-- The copy that is taken starts on a page the scan reads. -/
lemma copyPage_lt (fl : Flash) (type : ArgType) (name : RecName) (size : ℕ) (blk : ℕ → Page) :
    copyPage fl type name size blk < fl.pagesRead :=
  copyScan_page_lt fl name size blk _ _ _ fl.pagesRead_pos

/-- The scan of a block depends on its record pages only. -/
lemma copyPage_congr {blk' : ℕ → Page} (type : ArgType) (h : ∀ i < fl.pagesRead, blk' i = blk i) :
    copyPage fl type name size blk' = copyPage fl type name size blk := by
  have key : ∀ n i (a : ArgInfo),
      copyScan fl name size blk' n i a = copyScan fl name size blk n i a := by
    intro n
    induction n with
    | zero =>
      intro i a
      rfl
    | succ n ih =>
      intro i a
      by_cases hi : i < fl.pagesRead
      · simp only [copyScan, h i hi, ih]
      · rw [copyScan_end hi, copyScan_end hi]
  rw [copyPage, key, copyPage]

/-- The tag of a block depends on the pages the scan reads. -/
lemma blockTag_congr {blk' : ℕ → Page} (h : ∀ i < fl.pagesRead, blk' i = blk i) :
    blockTag fl size blk' = blockTag fl size blk := by
  have key : ∀ ps, firstTag fl blk' ps = firstTag fl blk ps := by
    intro ps
    induction ps with
    | nil => rfl
    | cons p ps ih =>
      by_cases hp : p < fl.pagesRead
      · simp only [firstTag, h p hp, ih]
      · simp only [firstTag, if_neg hp]
  rw [blockTag, blockTag, key]

/-- So does whether a block is silent. -/
lemma silent_congr {blk' : ℕ → Page} (h : ∀ i < fl.pagesRead, blk' i = blk i) :
    Silent fl name size blk' ↔ Silent fl name size blk := by
  rw [Silent, Silent, blockTag_congr h]

/-- A `FULL_BLK` record is read from the first page if that page is under the name. -/
lemma copyPage_fullBlk_first (hb : (blk 0).isBad = false) (ht : tagged (blk 0).oob name = true) :
    copyPage fl .fullBlk name size blk = 0 := by
  cases ho : (blk 0).oob with
  | none => simp [ho, tagged] at ht
  | some t =>
    rw [ho] at ht
    rw [copyPage, copyScan_found_fullBlk fl.pagesRead_pos hb ho (by simpa [tagged] using ht) rfl]

/-- A block no page of which is under the name is passed over. -/
lemma silent_of_untagged (h : ∀ i < fl.pagesRead, tagged (blk i).oob name = false) :
    Silent fl name size blk := by
  have key : ∀ ps, tagged (firstTag fl blk ps) name = false := by
    intro ps
    induction ps with
    | nil => rfl
    | cons p ps ih =>
      rw [firstTag]
      split
      · rename_i hp
        split
        · exact ih
        · exact h p hp
      · rfl
  exact key _

/-- A first page that can be read is what the scan sees of the block. -/
lemma blockTag_of_first (hb : (blk 0).isBad = false) : blockTag fl size blk = (blk 0).oob := by
  have h0 : scanPos fl size 0 = 0 := by simp [scanPos]
  rw [blockTag, List.range_succ_eq_map, List.map_cons, firstTag, h0, if_pos fl.pagesRead_pos,
    if_neg (by simp [hb])]

/-- A block whose first page is erased is passed over. -/
lemma silent_of_erased (h : blk 0 = .erased) : Silent fl name size blk := by
  rw [Silent, blockTag_of_first (by rw [h]; rfl), h]
  rfl

/-- A block whose first page is under the name is not passed over. -/
lemma not_silent_of_first (hb : (blk 0).isBad = false) (ht : tagged (blk 0).oob name = true) :
    ¬Silent fl name size blk := by
  rw [Silent, blockTag_of_first hb, ht]
  simp

end Block

/-! ## What a scan makes of the chips -/

section Scan

variable {fl : Flash} {name : RecName} {size : ℕ} {tbl : BlkStatus} {r : ℕ → ℕ → Page}

/-- A silent block changes nothing. -/
lemma scanTag_of_silent {b : ℕ} {a : ArgInfo} (h : Silent fl name size (r b)) :
    scanTag name b (blockTag fl size (r b)) a = a := by
  unfold Silent tagged at h
  unfold scanTag
  cases ht : blockTag fl size (r b) with
  | none => rfl
  | some t =>
    rw [ht] at h
    exact if_neg (by simpa using h)

/-- A block that is not passed over leaves a valid `arg_info` that points to it or to the block
found before. -/
lemma scanTag_of_not_silent {b : ℕ} {a : ArgInfo} (h : ¬Silent fl name size (r b)) :
    let a' := scanTag name b (blockTag fl size (r b)) a
    a'.argValid = true ∧
      (a'.validBlkAddr = b ∨ a.argValid = true ∧ a'.validBlkAddr = a.validBlkAddr) := by
  unfold Silent tagged at h
  split at h
  · rename_i t ht
    rw [ht]
    simp only [scanTag, if_pos (show t.name = name by simpa using h), scanFound]
    by_cases hv : a.argValid = true
    · rw [if_pos hv]
      by_cases hlt : a.timestamp < t.timestamp
      · rw [if_pos hlt]
        exact ⟨hv, Or.inl rfl⟩
      · rw [if_neg hlt]
        exact ⟨hv, Or.inr ⟨hv, rfl⟩⟩
    · rw [if_neg hv]
      exact ⟨rfl, Or.inl rfl⟩
  · exact absurd rfl h

/-- The scan of a block keeps the type and the page. -/
lemma scanTag_keeps (name : RecName) (b : ℕ) (t : Option Tag) (a : ArgInfo) :
    (scanTag name b t a).argType = a.argType ∧
      (scanTag name b t a).validPageAddr = a.validPageAddr := by
  unfold scanTag scanFound
  split
  · split
    · split
      · split <;> exact ⟨rfl, rfl⟩
      · exact ⟨rfl, rfl⟩
    · exact ⟨rfl, rfl⟩
  · exact ⟨rfl, rfl⟩

/-- The first pass: type and page address are kept; a valid result points to a good block that is
not passed over, or to the block known before; and it is valid if there is such a block. -/
lemma scanInfo_spec (fl : Flash) (tbl : BlkStatus) (name : RecName) (size : ℕ) (r : ℕ → ℕ → Page) :
    ∀ (bs : List ℕ) (a : ArgInfo),
      let a' := scanInfo fl tbl name size r bs a
      (a'.argType = a.argType ∧ a'.validPageAddr = a.validPageAddr) ∧
      (a'.argValid = true → (a.argValid = true ∧ a'.validBlkAddr = a.validBlkAddr) ∨
        (a'.validBlkAddr ∈ bs ∧ resStatus fl tbl a'.validBlkAddr = blockGood ∧
          ¬Silent fl name size (r a'.validBlkAddr))) ∧
      ((a.argValid = true ∨ ∃ b ∈ bs, resStatus fl tbl b = blockGood ∧
        ¬Silent fl name size (r b)) → a'.argValid = true) := by
  intro bs
  induction bs with
  | nil =>
    intro a
    refine ⟨⟨rfl, rfl⟩, fun h => Or.inl ⟨h, rfl⟩, ?_⟩
    rintro (h | ⟨b, hb, -⟩)
    · exact h
    · cases hb
  | cons b bs ih =>
    intro a
    dsimp only
    rw [scanInfo]
    by_cases hgood : resStatus fl tbl b = blockGood
    swap
    · rw [if_neg hgood]
      obtain ⟨h1, h2, h3⟩ := ih a
      refine ⟨h1, fun h => ?_, ?_⟩
      · rcases h2 h with h | ⟨hm, h⟩
        · exact Or.inl h
        · exact Or.inr ⟨List.mem_cons_of_mem _ hm, h⟩
      · rintro (h | ⟨b', hb', hg, hs⟩)
        · exact h3 (Or.inl h)
        · rcases List.mem_cons.1 hb' with rfl | hb'
          · exact absurd hg hgood
          · exact h3 (Or.inr ⟨b', hb', hg, hs⟩)
    rw [if_pos hgood]
    dsimp only
    set a' := scanTag name b (blockTag fl size (r b)) a with ha'
    obtain ⟨hty, hpg⟩ := scanTag_keeps name b (blockTag fl size (r b)) a
    -- what the block contributes
    have hblock : a'.argValid = true → (a.argValid = true ∧ a'.validBlkAddr = a.validBlkAddr) ∨
        (a'.validBlkAddr = b ∧ ¬Silent fl name size (r b)) := by
      intro h
      by_cases hs : Silent fl name size (r b)
      · rw [ha', scanTag_of_silent hs] at h ⊢
        exact Or.inl ⟨h, rfl⟩
      · rcases (scanTag_of_not_silent (a := a) hs).2 with hb | hb
        · exact Or.inr ⟨hb, hs⟩
        · exact Or.inl hb
    have hvalid : (a.argValid = true ∨ ¬Silent fl name size (r b)) → a'.argValid = true := by
      intro h
      by_cases hs : Silent fl name size (r b)
      · rw [ha', scanTag_of_silent hs]
        exact h.resolve_right (not_not.2 hs)
      · exact (scanTag_of_not_silent hs).1
    by_cases hstop : a'.argType = .fullBlk ∧ a'.argValid = true ∧ a'.validBlkAddr ≠ 0
    · rw [if_pos hstop]
      refine ⟨⟨hty, hpg⟩, fun h => ?_, fun _ => hstop.2.1⟩
      rcases hblock h with h | ⟨h1, h2⟩
      · exact Or.inl h
      · rw [h1]
        exact Or.inr ⟨List.mem_cons_self, hgood, h2⟩
    · rw [if_neg hstop]
      obtain ⟨h1, h2, h3⟩ := ih a'
      refine ⟨⟨h1.1.trans hty, h1.2.trans hpg⟩, fun h => ?_, ?_⟩
      · rcases h2 h with ⟨hv, heq⟩ | ⟨hm, h⟩
        · rw [heq]
          rcases hblock hv with h | ⟨h1, h2⟩
          · exact Or.inl h
          · rw [h1]
            exact Or.inr ⟨List.mem_cons_self, hgood, h2⟩
        · exact Or.inr ⟨List.mem_cons_of_mem _ hm, h⟩
      · rintro (h | ⟨b', hb', hg, hs⟩)
        · exact h3 (Or.inl (hvalid (Or.inl h)))
        · rcases List.mem_cons.1 hb' with rfl | hb'
          · exact h3 (Or.inl (hvalid (Or.inr hs)))
          · exact h3 (Or.inr ⟨b', hb', hg, hs⟩)

/-- **A fresh scan finds a copy** in one of the blocks that deliver a payload, provided every block
of the scan is passed over or delivers one, and not all are passed over. -/
lemma checkInfo_delivers {type : ArgType} {S : Buf → Prop}
    (hall : ∀ b, ScanVisits fl tbl b → ¬Silent fl name size (r b) →
      ∃ P, S P ∧ Delivers fl type name size (r b) P)
    (hex : ∃ b, ScanVisits fl tbl b ∧ ¬Silent fl name size (r b)) :
    let a := checkInfo fl tbl name size r { argType := type }
    a.argValid = true ∧ ∃ P, S P ∧ HasCopy fl name size (r a.validBlkAddr) a.validPageAddr P := by
  intro a
  obtain ⟨⟨hty, hpg⟩, hfrom, hto⟩ := scanInfo_spec fl tbl name size r
    (List.range' fl.startBlk reservedBlockCnt) { argType := type }
  set a' := scanInfo fl tbl name size r (List.range' fl.startBlk reservedBlockCnt)
    { argType := type } with ha'
  have hmem : ∀ b, b ∈ List.range' fl.startBlk reservedBlockCnt ↔
      fl.startBlk ≤ b ∧ b < fl.startBlk + reservedBlockCnt := by
    intro b
    rw [List.mem_range'_1]
  have hv : a'.argValid = true := by
    obtain ⟨b, hb, hs⟩ := hex
    rw [scanVisits_iff] at hb
    exact hto (Or.inr ⟨b, (hmem b).2 ⟨hb.1, hb.2.1⟩, hb.2.2, hs⟩)
  rcases hfrom hv with ⟨h, -⟩ | ⟨hb, hg, hs⟩
  · cases h
  have hvisit : ScanVisits fl tbl a'.validBlkAddr := by
    rw [scanVisits_iff]
    exact ⟨((hmem _).1 hb).1, ((hmem _).1 hb).2, hg⟩
  obtain ⟨P, hP, hd⟩ := hall _ hvisit hs
  have ha : a = copyScan fl name size (r a'.validBlkAddr) (fl.pagesRead + 1) 0 a' := by
    change checkInfo fl tbl name size r { argType := type } = _
    rw [checkInfo, ← ha']
    exact if_pos hv
  obtain ⟨hkb, hkv⟩ := copyScan_keeps fl name size (r a'.validBlkAddr) (fl.pagesRead + 1) 0 a'
  rw [← ha] at hkb hkv
  refine ⟨hkv.trans hv, P, hP, ?_⟩
  have hpage : a.validPageAddr = copyPage fl type name size (r a'.validBlkAddr) := by
    rw [ha]
    exact copyScan_page_congr fl name size _ _ _ _ _ hty hpg
  rw [hkb, hpage]
  exact hd

/-- Blocks that are passed over do not change an `arg_info` that is not valid yet. -/
lemma scanInfo_silent {bs : List ℕ} {a : ArgInfo} (ha : a.argValid = false)
    (h : ∀ x ∈ bs, resStatus fl tbl x = blockGood → Silent fl name size (r x)) (ys : List ℕ) :
    scanInfo fl tbl name size r (bs ++ ys) a = scanInfo fl tbl name size r ys a := by
  induction bs with
  | nil => rfl
  | cons x bs ih =>
    have ih' := ih fun y hy => h y (List.mem_cons_of_mem _ hy)
    rw [List.cons_append, scanInfo]
    split
    · rename_i hg
      dsimp only
      rw [scanTag_of_silent (h x List.mem_cons_self hg), if_neg (by simp [ha])]
      exact ih'
    · exact ih'

/-- A valid `arg_info` keeps its block as long as no newer record turns up. -/
lemma scanInfo_settled {ts : UInt16} (bs : List ℕ)
    (h : ∀ x ∈ bs, resStatus fl tbl x = blockGood → Silent fl name size (r x) ∨
      ∃ t, blockTag fl size (r x) = some t ∧ ¬ts < t.timestamp) :
    ∀ a : ArgInfo, a.argValid = true → a.timestamp = ts →
      (scanInfo fl tbl name size r bs a).validBlkAddr = a.validBlkAddr := by
  induction bs with
  | nil =>
    intro a _ _
    rfl
  | cons x bs ih =>
    intro a ha hts
    have ih' := ih fun y hy => h y (List.mem_cons_of_mem _ hy)
    rw [scanInfo]
    split
    · rename_i hg
      have hstep : ∃ free, scanTag name x (blockTag fl size (r x)) a = { a with freeBlkAddr := free } := by
        rcases h x List.mem_cons_self hg with hs | ⟨t, ht, hlt⟩
        · exact ⟨a.freeBlkAddr, scanTag_of_silent hs⟩
        · rw [ht, scanTag]
          split
          · exact ⟨x, by rw [scanFound, if_pos ha, hts, if_neg hlt]⟩
          · exact ⟨a.freeBlkAddr, rfl⟩
      obtain ⟨free, hfree⟩ := hstep
      dsimp only
      rw [hfree]
      split
      · rfl
      · exact ih' _ ha hts
    · exact ih' a ha hts

/-- **Which block a fresh scan takes**: the first one that is not passed over, unless a `FULL_PAGE`
record with a newer timestamp follows. -/
lemma checkInfo_of_first (type : ArgType) {b : ℕ} {t : Tag} (hb : ScanVisits fl tbl b)
    (ht : blockTag fl size (r b) = some t) (hn : t.name = name)
    (hbefore : ∀ x < b, ScanVisits fl tbl x → Silent fl name size (r x))
    (hafter : ∀ x, b < x → ScanVisits fl tbl x → Silent fl name size (r x) ∨
      ∃ t', blockTag fl size (r x) = some t' ∧ ¬t.timestamp < t'.timestamp) :
    let a := checkInfo fl tbl name size r { argType := type }
    a.argValid = true ∧ a.validBlkAddr = b ∧
      a.validPageAddr = copyPage fl type name size (r b) := by
  intro a
  rw [scanVisits_iff] at hb
  obtain ⟨h1, h2, hgood⟩ := hb
  set a' := scanInfo fl tbl name size r (List.range' fl.startBlk reservedBlockCnt)
    { argType := type } with ha'
  have hsplit : List.range' fl.startBlk reservedBlockCnt = List.range' fl.startBlk (b - fl.startBlk) ++
      b :: List.range' (b + 1) (fl.startBlk + reservedBlockCnt - b - 1) := by
    rw [← List.range'_succ, show fl.startBlk + reservedBlockCnt - b - 1 + 1 =
      fl.startBlk + reservedBlockCnt - b by omega]
    conv_rhs => rw [show b = fl.startBlk + (b - fl.startBlk) by omega, Nat.add_sub_cancel_left]
    rw [List.range'_append_1]
    congr 1
    omega
  have hblk : a'.validBlkAddr = b ∧ a'.argValid = true := by
    rw [ha', hsplit, scanInfo_silent rfl, scanInfo, if_pos hgood]
    · dsimp only
      have hfound : scanTag name b (some t) { argType := type } =
          { argType := type, argValid := true, validBlkAddr := b, timestamp := t.timestamp } :=
        if_pos hn
      rw [ht, hfound]
      split
      · exact ⟨rfl, rfl⟩
      · refine ⟨scanInfo_settled _ (fun x hx hg => ?_) _ rfl rfl, ?_⟩
        · rw [List.mem_range'_1] at hx
          exact hafter x (by omega) ((scanVisits_iff x).2 ⟨by omega, by omega, hg⟩)
        · exact (scanInfo_spec fl tbl name size r _ _).2.2 (Or.inl rfl)
    · intro x hx hg
      rw [List.mem_range'_1] at hx
      exact hbefore x (by omega) ((scanVisits_iff x).2 ⟨by omega, by omega, hg⟩)
  obtain ⟨⟨hty, hpg⟩, -, -⟩ := scanInfo_spec fl tbl name size r
    (List.range' fl.startBlk reservedBlockCnt) { argType := type }
  have ha : a = copyScan fl name size (r a'.validBlkAddr) (fl.pagesRead + 1) 0 a' := by
    change checkInfo fl tbl name size r { argType := type } = _
    rw [checkInfo, ← ha']
    exact if_pos hblk.2
  obtain ⟨hkb, hkv⟩ := copyScan_keeps fl name size (r a'.validBlkAddr) (fl.pagesRead + 1) 0 a'
  rw [← ha] at hkb hkv
  refine ⟨hkv.trans hblk.2, hkb.trans hblk.1, ?_⟩
  rw [ha, hblk.1]
  exact copyScan_page_congr fl name size _ _ _ _ _ hty hpg

end Scan

/-! ## The block of a `FULL_PAGE` record -/

section Log

variable {fl : Flash} {name : RecName} {size : ℕ} {blk : ℕ → Page} {v : ℕ}

/-- Copies under the name start at equal distances up to page `v`, and all pages behind the last
copy are erased. -/
structure AppendLog (fl : Flash) (name : RecName) (size : ℕ) (blk : ℕ → Page) (v : ℕ) : Prop where
  lt : v < fl.pagesRead
  copies : ∃ k, v = k * copyStep fl size ∧ ∀ j ≤ k, (blk (j * copyStep fl size)).isBad = false ∧
    tagged (blk (j * copyStep fl size)).oob name = true
  erased : ∀ i, v + copyStep fl size ≤ i → i < fl.pagesRead → blk i = .erased

lemma copyStep_pos (fl : Flash) (size : ℕ) : 0 < copyStep fl size :=
  Nat.lt_of_lt_of_le (argPages_pos fl size) (Nat.le_add_right _ _)

/-- The second pass over copies at equal distances arrives at the last one if nothing behind it is
taken for a copy. -/
lemma copyPage_of_copies {k : ℕ} (hlt : k * copyStep fl size < fl.pagesRead)
    (hk : ∀ j ≤ k, (blk (j * copyStep fl size)).isBad = false ∧
      tagged (blk (j * copyStep fl size)).oob name = true)
    (hstop : k * copyStep fl size + copyStep fl size < fl.pagesRead → ∀ n (a : ArgInfo),
      a.argType = .fullPage → (copyScan fl name size blk (n + 2)
        (k * copyStep fl size + copyStep fl size) a).validPageAddr = a.validPageAddr) :
    copyPage fl .fullPage name size blk = k * copyStep fl size := by
  have hC := copyStep_pos fl size
  -- behind the last copy
  have hend : ∀ n (a : ArgInfo), a.argType = .fullPage → k + n = fl.pagesRead →
      (copyScan fl name size blk n (k * copyStep fl size + copyStep fl size) a).validPageAddr =
        a.validPageAddr := by
    intro n a ha hn
    have hle : k ≤ k * copyStep fl size := Nat.le_mul_of_pos_right k hC
    by_cases hi : k * copyStep fl size + copyStep fl size < fl.pagesRead
    · obtain ⟨n, rfl⟩ : ∃ m, n = m + 2 := ⟨n - 2, by omega⟩
      exact hstop hi n a ha
    · obtain ⟨n, rfl⟩ : ∃ m, n = m + 1 := ⟨n - 1, by omega⟩
      rw [copyScan_end hi]
  -- from copy `k - d` on, the pass goes to copy `k`
  have key : ∀ d n (a : ArgInfo), d ≤ k → k - d + n = fl.pagesRead + 1 → a.argType = .fullPage →
      (copyScan fl name size blk n ((k - d) * copyStep fl size) a).validPageAddr =
        k * copyStep fl size := by
    intro d
    induction d with
    | zero =>
      intro n a _ hn ha
      have hle : k ≤ k * copyStep fl size := Nat.le_mul_of_pos_right k hC
      obtain ⟨n, rfl⟩ : ∃ m, n = m + 1 := ⟨n - 1, by omega⟩
      obtain ⟨hb, ht⟩ := hk k (le_refl _)
      rw [Nat.sub_zero]
      cases ho : (blk (k * copyStep fl size)).oob with
      | none => simp [ho, tagged] at ht
      | some t =>
        rw [ho] at ht
        rw [copyScan_found_fullPage hlt hb ho (by simpa [tagged] using ht) ha]
        exact hend n _ ha (by omega)
    | succ d ih =>
      intro n a hd hn ha
      have hle : k ≤ k * copyStep fl size := Nat.le_mul_of_pos_right k hC
      obtain ⟨n, rfl⟩ : ∃ m, n = m + 1 := ⟨n - 1, by omega⟩
      obtain ⟨hb, ht⟩ := hk (k - (d + 1)) (by omega)
      have hlt' : (k - (d + 1)) * copyStep fl size < fl.pagesRead :=
        lt_of_le_of_lt (Nat.mul_le_mul_right _ (by omega)) hlt
      have hnext : (k - (d + 1)) * copyStep fl size + copyStep fl size =
          (k - d) * copyStep fl size := by
        rw [← Nat.succ_mul]
        congr 1
        omega
      cases ho : (blk ((k - (d + 1)) * copyStep fl size)).oob with
      | none => simp [ho, tagged] at ht
      | some t =>
        rw [ho] at ht
        rw [copyScan_found_fullPage hlt' hb ho (by simpa [tagged] using ht) ha, hnext]
        exact ih n _ (by omega) (by omega) ha
  have := key k (fl.pagesRead + 1) { argType := .fullPage } (le_refl _) (by omega) rfl
  rwa [Nat.sub_self, Nat.zero_mul] at this

/-- An erased page ends the second pass. -/
lemma copyScan_erased {n i : ℕ} {a : ArgInfo} (h : blk i = .erased) (ha : a.argType = .fullPage) :
    (copyScan fl name size blk (n + 1) i a).validPageAddr = a.validPageAddr := by
  by_cases hi : i < fl.pagesRead
  · rw [copyScan_stop_fullPage hi (by rw [h]; rfl) (by rw [h]; rfl) ha]
  · rw [copyScan_end hi]

/-- It arrives at the first page of a block with a copy there and, for a `FULL_PAGE` record, nothing
behind it. -/
lemma copyPage_first {type : ArgType} (hb : (blk 0).isBad = false)
    (ht : tagged (blk 0).oob name = true)
    (her : type = .fullPage → copyStep fl size < fl.pagesRead → blk (copyStep fl size) = .erased) :
    copyPage fl type name size blk = 0 := by
  cases type with
  | fullBlk => exact copyPage_fullBlk_first hb ht
  | fullPage =>
    have h : copyPage fl .fullPage name size blk = 0 * copyStep fl size := by
      refine copyPage_of_copies ?_ (fun j hj => ?_) fun hi n a ha => ?_
      · rw [Nat.zero_mul]
        exact fl.pagesRead_pos
      · obtain rfl : j = 0 := by omega
        rw [Nat.zero_mul]
        exact ⟨hb, ht⟩
      · rw [Nat.zero_mul, Nat.zero_add] at hi ⊢
        exact copyScan_erased (her rfl hi) ha
    rwa [Nat.zero_mul] at h

/-- The second pass arrives at the last copy. -/
lemma AppendLog.copyPage_eq (h : AppendLog fl name size blk v) :
    copyPage fl .fullPage name size blk = v := by
  have hlt := h.lt
  have her := h.erased
  obtain ⟨k, rfl, hk⟩ := h.copies
  exact copyPage_of_copies hlt hk fun hi n a ha => copyScan_erased (her _ (le_refl _) hi) ha

/-- The first page of a block that can be appended to. -/
lemma AppendLog.first (h : AppendLog fl name size blk v) :
    (blk 0).isBad = false ∧ tagged (blk 0).oob name = true := by
  obtain ⟨k, -, hk⟩ := h.copies
  simpa using hk 0 (Nat.zero_le _)

/-- The layout depends on the size through the number of pages only. -/
lemma AppendLog.congr_size {size' : ℕ} (h : AppendLog fl name size blk v)
    (hA : fl.argPages size' = fl.argPages size) : AppendLog fl name size' blk v := by
  have hC : copyStep fl size' = copyStep fl size := by rw [copyStep, copyStep, hA]
  refine ⟨h.lt, ?_, ?_⟩
  · rw [hC]
    exact h.copies
  · rw [hC]
    exact h.erased

end Log

end Amlnf
