import Amlnf.Lib.Cut
import Amlnf.Phy.Stable

set_option relaxedAutoImplicit false
set_option autoImplicit false

/-!
# Power cuts during a save

A save is a sequence of page programs and block erases. When the power is cut a prefix of it has
reached the chips, and the page or block under way may read as uncorrectable.

A copy under the name is taken as soon as its first page can be read, so nothing is lost exactly
when the data of a copy lie in one page.

## Main definitions

* `Image.tear` — the page or block a command was working on reads as uncorrectable.
* `CutState` — where a save starts that may be cut off.
* `SurvivesCut` — a power cut during a save loses nothing.

## Main results

* `survivesCut_iff` — exactly when this is so.
-/

namespace Amlnf

open Act

/-- What a command leaves that was interrupted: the pages it works on read as uncorrectable. -/
def Image.tear (fl : Flash) (m : Image) (op : FlashOp) : Image := fun c p =>
  if op.Hits fl c p then .bad else m c p

/-- A payload whose checksum, where the name has one, is right whatever follows it in a buffer. -/
def Checks (name : RecName) (size : ℕ) (P : Buf) : Prop :=
  ∀ X : Buf, (∀ i < size, X i = P i) → amlInfoCheckDatasum X name = 0

/-- Where a save starts that may be cut off: chips that report no failure; an allocator that picks
only blocks the scan visits; a free place in the list of reserved blocks; a record in one block of
this list, with no other block under its name; and copies that stay on the record pages. -/
structure CutState (fl : Flash) (name : RecName) (type : ArgType) (size : ℕ) (P : Buf) (s : St) :
    Prop where
  ready : Ready s
  argType : (s.info name).argType = type
  agree : ∀ b excl, Candidate fl s.blkStatus s.reservedBlk excl b → ScanVisits fl s.blkStatus b
  area : ∃ n, ReserveEnd fl s.blkStatus n ∧ n < fl.startBlk + scanFuel
  free : (0xff : UInt8) ∈ s.reservedBlk
  holds : Holds fl s name size P
  fits : CopiesFit fl size (s.info name)

/-- A power cut during a save loses nothing: from every such state, wherever the commands of a save
of another payload are cut off, a fresh `amlnand_info_init` succeeds and delivers the old payload or
the new one. -/
def SurvivesCut (fl : Flash) (type : ArgType) (size : ℕ) : Prop :=
  ∀ (name : RecName) (P Q : Buf) (s t u : St) (ret : ℤ) (buf : Buf),
    CutState fl name type size P s → Checks name size P → Checks name size Q →
    saveInfo fl name Q size s = (some ret, t) →
    Cut (Image.apply fl) (Image.tear fl) s.image (t.log.drop s.log.length) u.image →
    u.blkStatus = s.blkStatus → u.info name = { argType := type } → Ready u → u.state = .ready →
    ∃ out w, amlnandInfoInit fl name buf size u = (some (0, out), w) ∧
      (w.info name).argValid = true ∧ ((∀ i < size, out i = P i) ∨ ∀ i < size, out i = Q i)

section

variable {fl : Flash} {name : RecName} {type : ArgType} {size : ℕ} {tbl : BlkStatus} {m : Image}
  {X Q : Buf}

/-- Every block of the scan is passed over or delivers one of two payloads, and one delivers. -/
def Recoverable (fl : Flash) (tbl : BlkStatus) (name : RecName) (type : ArgType) (size : ℕ)
    (X Q : Buf) (m : Image) : Prop :=
  (∀ b, ScanVisits fl tbl b → ¬Silent fl name size (m.recAt fl b) →
    Delivers fl type name size (m.recAt fl b) X ∨ Delivers fl type name size (m.recAt fl b) Q) ∧
  ∃ b, ScanVisits fl tbl b ∧ ¬Silent fl name size (m.recAt fl b)

/-- From a recoverable image a fresh `amlnand_info_init` delivers one of the two payloads. -/
lemma Recoverable.infoInit {u : St} (h : Recoverable fl u.blkStatus name type size X Q u.image)
    (hX : Checks name size X) (hQ : Checks name size Q) (hi : u.info name = { argType := type })
    (hr : Ready u) (hst : u.state = .ready) (buf : Buf) :
    ∃ out w, amlnandInfoInit fl name buf size u = (some (0, out), w) ∧
      (w.info name).argValid = true ∧ ((∀ i < size, out i = X i) ∨ ∀ i < size, out i = Q i) := by
  have hall : ∀ b, ScanVisits fl u.blkStatus b → ¬Silent fl name size (u.image.recAt fl b) →
      ∃ P, (P = X ∨ P = Q) ∧ Delivers fl type name size (u.image.recAt fl b) P := by
    intro b hb hs
    rcases h.1 b hb hs with h | h
    · exact ⟨X, Or.inl rfl, h⟩
    · exact ⟨Q, Or.inr rfl, h⟩
  obtain ⟨hv, P, hP, hcopy⟩ := checkInfo_delivers hall h.2
  rw [← hi] at hv hcopy
  obtain ⟨w, hw, hwk⟩ := amlnandInfoInit_run fl name buf size hr hst hv
  have hout := readCopy_of_hasCopy hcopy buf
  set a := checkInfo fl u.blkStatus name size (u.image.recAt fl) (u.info name) with ha
  set out := readCopy fl name size (u.image.recAt fl a.validBlkAddr) a.validPageAddr (size + 1) 0 buf
    with houtdef
  have hsum : amlInfoCheckDatasum out name = 0 := by
    rcases hP with rfl | rfl
    · exact hX out hout
    · exact hQ out hout
  rw [hsum] at hw
  refine ⟨out, w, hw, ?_, ?_⟩
  · rw [kept_info hwk, checked_info_self]
    exact hv
  · rcases hP with rfl | rfl
    · exact Or.inl hout
    · exact Or.inr hout

/-! ## Where a command reaches -/

/-- Two images agree on the record pages outside a region of blocks and pages. -/
def AgreeOff (fl : Flash) (ρ : ℕ → ℕ → Prop) (m m' : Image) : Prop :=
  ∀ b i, i < fl.pagesRead → ¬ρ b i → m'.recAt fl b i = m.recAt fl b i

/-- Commands that only reach into a region, completed or torn, keep the rest: a property of all
images that agree outside the region holds throughout. -/
lemma cuts_of_region {ρ : ℕ → ℕ → Prop} {ops : List FlashOp} {Φ : Image → Prop}
    (hρ : ∀ op ∈ ops, ∀ b i, i < fl.pagesRead → op.Hits fl (fl.resChip b) (fl.recPage b i) → ρ b i)
    (hΦ : ∀ m', AgreeOff fl ρ m m' → Φ m') :
    Cuts (Image.apply fl) (Image.tear fl) Φ m ops := by
  refine Cuts.of_inv (I := AgreeOff fl ρ m) hΦ (fun op hop m' hm' => ?_) fun _ _ _ _ => rfl
  constructor
  · intro b i hi hb
    rw [← hm' b i hi hb]
    exact Image.apply_of_not_hits fl m' fun hhit => hb (hρ op hop b i hi hhit)
  · intro b i hi hb
    rw [← hm' b i hi hb]
    exact if_neg fun hhit => hb (hρ op hop b i hi hhit)

/-- What commands outside a region leave. -/
lemma agreeOff_replay {ρ : ℕ → ℕ → Prop} {ops : List FlashOp}
    (hρ : ∀ op ∈ ops, ∀ b i, i < fl.pagesRead → op.Hits fl (fl.resChip b) (fl.recPage b i) → ρ b i) :
    AgreeOff fl ρ m (m.replay fl ops) := by
  intro b i hi hb
  exact Image.recAt_replay m fun op hop hhit => hb (hρ op hop b i hi hhit)

/-- A torn command leaves the record pages of other blocks alone. -/
lemma recAt_tear_of_not_hits {op : FlashOp} {b i : ℕ}
    (h : ¬op.Hits fl (fl.resChip b) (fl.recPage b i)) :
    (m.tear fl op).recAt fl b i = m.recAt fl b i := if_neg h

/-- A page under way reads as uncorrectable. -/
lemma recAt_tear_of_hits {op : FlashOp} {b i : ℕ} (h : op.Hits fl (fl.resChip b) (fl.recPage b i)) :
    (m.tear fl op).recAt fl b i = .bad := if_pos h

/-! ## Records of one page -/

section OnePage

variable {blk blk' : ℕ → Page} {tag : Tag} {v : ℕ}

/-- With its data in one page a copy depends on that page only. -/
lemma HasCopy.congr_page (h1 : size ≤ fl.pagesize) (h : HasCopy fl name size blk v X)
    (hc : blk' v = blk v) : HasCopy fl name size blk' v X := by
  refine h.congr fun j hj => ?_
  obtain rfl : j = 0 := by
    by_contra hne
    have := Nat.le_mul_of_pos_left fl.pagesize (Nat.pos_of_ne_zero hne)
    omega
  exact hc

/-- What is delivered depends on the pages the scan reads. -/
lemma Delivers.congr (h1 : size ≤ fl.pagesize) (h : Delivers fl type name size blk X)
    (hc : ∀ i < fl.pagesRead, blk' i = blk i) : Delivers fl type name size blk' X := by
  rw [Delivers, copyPage_congr type hc]
  exact HasCopy.congr_page h1 h (hc _ (copyPage_lt fl type name size blk))

/-- The first page of a copy is enough. -/
lemma hasCopy_of_first (h1 : size ≤ fl.pagesize) (hn : tag.name = name)
    (h : blk v = .written (recSlice fl Q size 0) (some tag)) : HasCopy fl name size blk v Q := by
  intro j hj
  obtain rfl : j = 0 := by
    by_contra hne
    have := Nat.le_mul_of_pos_left fl.pagesize (Nat.pos_of_ne_zero hne)
    omega
  rw [Nat.add_zero, h]
  refine ⟨rfl, by simp [Page.oob, tagged, hn], fun i hi => ?_⟩
  change recSlice fl Q size 0 i = _
  rw [recSlice, if_pos (by omega)]

/-- A block with a copy at its start delivers it, if the scan of a `FULL_PAGE` record finds an
erased page behind it. -/
lemma delivers_of_first (tag : Tag) (h1 : size ≤ fl.pagesize) (hn : tag.name = name)
    (h0 : blk 0 = .written (recSlice fl Q size 0) (some tag))
    (her : type = .fullPage → copyStep fl size < fl.pagesRead → blk (copyStep fl size) = .erased) :
    ¬Silent fl name size blk ∧ Delivers fl type name size blk Q := by
  have hfirst : (blk 0).isBad = false ∧ tagged (blk 0).oob name = true := by
    rw [h0]
    exact ⟨rfl, by simp [Page.oob, tagged, hn]⟩
  refine ⟨not_silent_of_first hfirst.1 hfirst.2, ?_⟩
  rw [Delivers, copyPage_first hfirst.1 hfirst.2 her]
  exact hasCopy_of_first h1 hn h0

end OnePage

/-- An image is recoverable if only two blocks have pages under the name, each is passed over or
delivers, and one of them is not passed over. -/
lemma recoverable_of_blocks {B b : ℕ}
    (ho : ∀ x, x ≠ B → x ≠ b → ScanVisits fl tbl x → ∀ i < fl.pagesRead,
      tagged (m.recAt fl x i).oob name = false)
    (hB : Silent fl name size (m.recAt fl B) ∨ Delivers fl type name size (m.recAt fl B) X ∨
      Delivers fl type name size (m.recAt fl B) Q)
    (hb : Silent fl name size (m.recAt fl b) ∨ Delivers fl type name size (m.recAt fl b) X ∨
      Delivers fl type name size (m.recAt fl b) Q)
    (hex : ∃ x, ScanVisits fl tbl x ∧ ¬Silent fl name size (m.recAt fl x)) :
    Recoverable fl tbl name type size X Q m := by
  refine ⟨fun x hx hs => ?_, hex⟩
  by_cases hxB : x = B
  · subst hxB
    exact hB.resolve_left hs
  · by_cases hxb : x = b
    · subst hxb
      exact hb.resolve_left hs
    · exact absurd (silent_of_untagged (ho x hxB hxb hx)) hs

section Rounds

variable {s t : St} {excl b : ℕ}

/-- Before anything is written the record is there. -/
lemma Holds.recoverable (h : Holds fl s name size X) (Q : Buf) :
    Recoverable fl s.blkStatus name (s.info name).argType size X Q s.image :=
  recoverable_of_blocks (B := (s.info name).validBlkAddr) (b := (s.info name).validBlkAddr)
    (fun x hxB _ => h.others x hxB) (Or.inr (Or.inl h.delivers)) (Or.inr (Or.inl h.delivers))
    ⟨_, h.visits, h.found⟩

/-- **Cutting off a round that appends.** -/
lemma Holds.append_cuts (h : Holds fl s name size X) (ha : Appends fl (s.info name) size)
    (hroom : (s.info name).validPageAddr + 2 * copyStep fl size ≤ fl.pagesRead)
    (h1 : size ≤ fl.pagesize) (Q : Buf) :
    Cuts (Image.apply fl) (Image.tear fl)
      (Recoverable fl s.blkStatus name (s.info name).argType size X Q) s.image
      (appendOps fl s name Q size) := by
  obtain ⟨-, hup, hty, -⟩ := ha
  have hlog := h.log hty hup
  have hA := argPages_pos fl size
  have hAC : fl.argPages size ≤ copyStep fl size := Nat.le_add_right _ _
  have hcopy := h.copy
  have hothers := h.others
  have hlt := hlog.lt
  have her := hlog.erased
  obtain ⟨k, hk, hcopies⟩ := hlog.copies
  rw [appendOps, hty]
  set v := (s.info name).validPageAddr with hv
  set B := (s.info name).validBlkAddr with hB
  set C := copyStep fl size with hCdef
  obtain ⟨rest, hrest, hhits⟩ := fullPageOps_cons fl (nextTag s name) Q size B (v + C) (by omega)
  rw [hrest]
  -- what is common to all images on the way: the copies up to page `v` stay
  have key : ∀ m', AgreeOff fl (fun b i => b = B ∧ v + C ≤ i) s.image m' →
      (Delivers fl .fullPage name size (m'.recAt fl B) X ∨
        Delivers fl .fullPage name size (m'.recAt fl B) Q) →
      Recoverable fl s.blkStatus name .fullPage size X Q m' := by
    intro m' hm hd
    refine recoverable_of_blocks (B := B) (b := B) (fun x hxB _ hvis i hi => ?_) (Or.inr hd)
      (Or.inr hd) ⟨B, h.visits, ?_⟩
    · rw [hm x i hi fun hc => hxB hc.1]
      exact hothers x hxB hvis i hi
    · have h0 := hm B 0 fl.pagesRead_pos (by omega)
      refine not_silent_of_first ?_ ?_
      · rw [h0]
        exact hlog.first.1
      · rw [h0]
        exact hlog.first.2
  have hold : ∀ m', AgreeOff fl (fun b i => b = B ∧ v + C ≤ i) s.image m' → ∀ j ≤ k,
      (m'.recAt fl B (j * C)).isBad = false ∧ tagged (m'.recAt fl B (j * C)).oob name = true := by
    intro m' hm j hj
    have hle : j * C ≤ v := by
      rw [hk]
      exact Nat.mul_le_mul_right _ hj
    rw [hm B (j * C) (by omega) (by omega)]
    exact hcopies j hj
  have hlast : ∀ m', AgreeOff fl (fun b i => b = B ∧ v + C ≤ i) s.image m' →
      copyPage fl .fullPage name size (m'.recAt fl B) = k * C →
      Delivers fl .fullPage name size (m'.recAt fl B) X := by
    intro m' hm hp
    rw [Delivers, hp, ← hk]
    exact hcopy.congr_page h1 (hm B v hlt (by omega))
  have hnotB : ∀ {b i}, i < fl.pagesRead → ((recOp fl (nextTag s name) B (v + C)
      (recSlice fl Q size 0)).Hits fl (fl.resChip b) (fl.recPage b i) ↔ b = B ∧ i = v + C) :=
    fun hi => hits_recPage_iff (by omega) hi _ _
  refine ⟨key _ (fun _ _ _ _ => rfl) (Or.inl (hlast _ (fun _ _ _ _ => rfl) ?_)), ?_, ?_⟩
  · rw [← hk]
    exact hlog.copyPage_eq
  · -- the page under way cannot be read, and the scan goes on behind it
    have hagree : AgreeOff fl (fun b i => b = B ∧ v + C ≤ i) s.image (s.image.tear fl
        (recOp fl (nextTag s name) B (v + C) (recSlice fl Q size 0))) := by
      intro b i hi hne
      refine recAt_tear_of_not_hits fun hhit => hne ?_
      obtain ⟨rfl, rfl⟩ := (hnotB hi).1 hhit
      exact ⟨rfl, le_refl _⟩
    refine key _ hagree (Or.inl (hlast _ hagree (copyPage_of_copies (by rw [← hCdef]; omega)
      (hold _ hagree) ?_)))
    intro hi n a hta
    rw [← hk] at hi ⊢
    rw [copyScan_bad hi (by rw [recAt_tear_of_hits ((hnotB hi).2 ⟨rfl, rfl⟩)]; rfl)]
    by_cases hend : v + C + fl.argPages size < fl.pagesRead
    · refine copyScan_erased ?_ hta
      rw [recAt_tear_of_not_hits (fun hhit => ?_)]
      · exact her _ (by omega) hend
      · have := ((hnotB hend).1 hhit).2
        omega
    · rw [copyScan_end hend]
  · -- from then on the first page of the new copy is there
    refine cuts_of_region (ρ := fun b i => b = B ∧ v + C < i ∧ i < v + C + C)
      (fun op hop b i hi hhit => hhits op hop b i hi hhit) fun m' hm => ?_
    set m1 := s.image.apply fl (recOp fl (nextTag s name) B (v + C) (recSlice fl Q size 0)) with hm1
    have hnew : m'.recAt fl B (v + C) = .written (recSlice fl Q size 0) (some (nextTag s name)) := by
      rw [hm B (v + C) (by omega) (by omega), hm1, recOp, Image.recAt_program_self,
        her _ (le_refl _) (by omega)]
      rfl
    have hsame : ∀ b i, i < fl.pagesRead → ¬(b = B ∧ v + C ≤ i ∧ i < v + C + C) →
        m'.recAt fl b i = s.image.recAt fl b i := by
      intro b i hi hne
      rw [hm b i hi (by omega), hm1]
      exact Image.apply_of_not_hits fl _ fun hhit => hne (by have := (hnotB hi).1 hhit; omega)
    have hagree : AgreeOff fl (fun b i => b = B ∧ v + C ≤ i) s.image m' :=
      fun b i hi hne => hsame b i hi (by omega)
    refine key m' hagree (Or.inr ?_)
    have hkC : (k + 1) * C = v + C := by rw [Nat.succ_mul, hk]
    have hpage : copyPage fl .fullPage name size (m'.recAt fl B) = (k + 1) * C := by
      refine copyPage_of_copies (by rw [← hCdef]; omega) (fun j hj => ?_) fun hi n a hta => ?_
      · rcases Nat.lt_or_ge j (k + 1) with hlt' | hge
        · exact hold m' hagree j (by omega)
        · obtain rfl : j = k + 1 := by omega
          rw [← hCdef, hkC, hnew]
          exact ⟨rfl, by simp [Page.oob, tagged, nextTag]⟩
      · rw [← hCdef, hkC] at hi ⊢
        refine copyScan_erased ?_ hta
        rw [hsame B _ hi (by omega)]
        exact her _ (by omega) hi
    rw [Delivers, hpage, hkC]
    exact hasCopy_of_first h1 rfl hnew

/-- **Cutting off a round that moves the record.** The old block delivers until the new one does. -/
lemma Holds.move_cuts (h : Holds fl s name size X) (hfit : Fits fl (s.info name).argType size)
    (hvis : ScanVisits fl s.blkStatus b) (hne : (s.info name).validBlkAddr ≠ b)
    (h1 : size ≤ fl.pagesize) (Q : Buf) :
    Cuts (Image.apply fl) (Image.tear fl)
      (Recoverable fl s.blkStatus name (s.info name).argType size X Q) s.image
      (moveOps fl s name Q size b) := by
  have hothers := h.others
  have hfound := h.found
  have hdel := h.delivers
  have hB0 : (s.info name).validBlkAddr ≠ 0 := Nat.ne_of_gt h.visits.bounds.1
  obtain ⟨rest, hrest, hhits⟩ := writeOps_cons fl (s.info name).argType (nextTag s name) Q size b hfit
  rw [moveOps, hrest, leaveOps, if_pos ⟨h.valid, hB0⟩, List.cons_append]
  set B := (s.info name).validBlkAddr with hB
  set type := (s.info name).argType with htype
  -- as long as the old block is as it was, the new one may be passed over or deliver
  have hkeep : ∀ m', (∀ x ≠ b, ∀ i < fl.pagesRead, m'.recAt fl x i = s.image.recAt fl x i) →
      (Silent fl name size (m'.recAt fl b) ∨ Delivers fl type name size (m'.recAt fl b) Q) →
      Recoverable fl s.blkStatus name type size X Q m' := by
    intro m' hm hb
    have hsame := hm B hne
    refine recoverable_of_blocks (B := B) (b := b) (fun x hxB hxb hv i hi => ?_)
      (Or.inr (Or.inl (hdel.congr h1 hsame))) (hb.imp_right Or.inr)
      ⟨B, h.visits, by rw [silent_congr hsame]; exact hfound⟩
    rw [hm x hxb i hi]
    exact hothers x hxB hv i hi
  -- once the new block delivers, the old one may be passed over
  have hleave : ∀ m', (∀ x ≠ b, x ≠ B → ∀ i < fl.pagesRead, m'.recAt fl x i = s.image.recAt fl x i) →
      Silent fl name size (m'.recAt fl B) → (¬Silent fl name size (m'.recAt fl b) ∧
        Delivers fl type name size (m'.recAt fl b) Q) →
      Recoverable fl s.blkStatus name type size X Q m' := by
    intro m' hm hB' hb
    refine recoverable_of_blocks (B := B) (b := b) (fun x hxB hxb hv i hi => ?_) (Or.inl hB')
      (Or.inr (Or.inr hb.2)) ⟨b, hvis, hb.1⟩
    rw [hm x hxb hxB i hi]
    exact hothers x hxB hv i hi
  have hwipe : ∀ {x i}, i < fl.pagesRead → x ≠ b →
      ¬(FlashOp.erase (fl.resChip b) (fl.resRow b)).Hits fl (fl.resChip x) (fl.recPage x i) :=
    fun hi hx hhit => hx ((hits_erase_iff hi).1 hhit)
  set m1 := s.image.apply fl (.erase (fl.resChip b) (fl.resRow b)) with hm1
  have hm1same : ∀ x ≠ b, ∀ i < fl.pagesRead, m1.recAt fl x i = s.image.recAt fl x i :=
    fun x hx i hi => Image.apply_of_not_hits fl _ (hwipe hi hx)
  have hm1b : ∀ i < fl.pagesRead, m1.recAt fl b i = .erased := fun i hi => Image.recAt_erase_self _ hi
  have hrec : ∀ {x i}, i < fl.pagesRead → ((recOp fl (nextTag s name) b 0 (recSlice fl Q size 0)).Hits
      fl (fl.resChip x) (fl.recPage x i) ↔ x = b ∧ i = 0) :=
    fun hi => hits_recPage_iff fl.pagesRead_pos hi _ _
  set m2 := m1.apply fl (recOp fl (nextTag s name) b 0 (recSlice fl Q size 0)) with hm2
  have hm2same : ∀ x i, i < fl.pagesRead → ¬(x = b ∧ i = 0) → m2.recAt fl x i = m1.recAt fl x i :=
    fun x i hi hx => Image.apply_of_not_hits fl _ fun hhit => hx ((hrec hi).1 hhit)
  have hm2b : m2.recAt fl b 0 = .written (recSlice fl Q size 0) (some (nextTag s name)) := by
    rw [hm2, recOp, Image.recAt_program_self, hm1b 0 fl.pagesRead_pos]
    rfl
  -- the region the rest of the record is written to
  set ρ : ℕ → ℕ → Prop := fun x i => x = b ∧ 0 < i ∧ (type = .fullPage → i < copyStep fl size) with hρ
  have hother : ∀ m', AgreeOff fl ρ m2 m' → ∀ x ≠ b, ∀ i < fl.pagesRead,
      m'.recAt fl x i = s.image.recAt fl x i := by
    intro m' hm x hx i hi
    rw [hm x i hi fun hc => hx hc.1, hm2same x i hi fun hc => hx hc.1, hm1same x hx i hi]
  have hnew : ∀ m', AgreeOff fl ρ m2 m' →
      ¬Silent fl name size (m'.recAt fl b) ∧ Delivers fl type name size (m'.recAt fl b) Q := by
    intro m' hm
    refine delivers_of_first (nextTag s name) h1 rfl ?_ fun hty hlt => ?_
    · rw [hm b 0 fl.pagesRead_pos fun hc => absurd hc.2.1 (lt_irrefl 0), hm2b]
    · have hpos := copyStep_pos fl size
      rw [hm b _ hlt fun hc => absurd (hc.2.2 hty) (lt_irrefl _), hm2same b _ hlt (by omega),
        hm1b _ hlt]
  refine ⟨hkeep _ (fun _ _ _ _ => rfl) ?_, hkeep _ (fun x hx i hi => ?_) (Or.inl ?_),
    hkeep m1 hm1same (Or.inl (silent_of_erased (hm1b 0 fl.pagesRead_pos))),
    hkeep _ (fun x hx i hi => ?_) (Or.inl ?_), (cuts_append _ _ _).2 ⟨?_, ?_⟩⟩
  · exact Or.inl (silent_of_untagged (hothers b hne.symm hvis))
  · exact recAt_tear_of_not_hits (hwipe hi hx)
  · refine silent_of_untagged fun i hi => ?_
    rw [recAt_tear_of_hits ((hits_erase_iff hi).2 rfl)]
    rfl
  · rw [recAt_tear_of_not_hits fun hhit => hx ((hrec hi).1 hhit).1]
    exact hm1same x hx i hi
  · refine silent_of_untagged fun i hi => ?_
    by_cases h0 : i = 0
    · rw [recAt_tear_of_hits ((hrec hi).2 ⟨rfl, h0⟩)]
      rfl
    · rw [recAt_tear_of_not_hits fun hhit => h0 ((hrec hi).1 hhit).2, hm1b i hi]
      rfl
  · exact cuts_of_region hhits fun m' hm => hkeep m' (hother m' hm) (Or.inr (hnew m' hm).2)
  · set m3 := rest.foldl (Image.apply fl) m2 with hm3
    have hag : AgreeOff fl ρ m2 m3 := agreeOff_replay hhits
    have hleft : ∀ {x i}, i < fl.pagesRead → ((FlashOp.erase (fl.resChip B) (fl.resRow B)).Hits fl
        (fl.resChip x) (fl.recPage x i) ↔ x = B) := fun hi => hits_erase_iff hi
    have hafter : ∀ m', (∀ x ≠ B, ∀ i < fl.pagesRead, m'.recAt fl x i = m3.recAt fl x i) →
        Silent fl name size (m'.recAt fl B) → Recoverable fl s.blkStatus name type size X Q m' := by
      intro m' hm hB'
      have hb := hnew m3 hag
      have hsame := hm b hne.symm
      refine hleave m' (fun x hxb hxB i hi => ?_) hB'
        ⟨by rw [silent_congr hsame]; exact hb.1, hb.2.congr h1 hsame⟩
      rw [hm x hxB i hi]
      exact hother m3 hag x hxb i hi
    refine ⟨hkeep m3 (hother m3 hag) (Or.inr (hnew m3 hag).2),
      hafter _ (fun x hx i hi => recAt_tear_of_not_hits fun hhit => hx ((hleft hi).1 hhit)) ?_,
      hafter _ (fun x hx i hi => Image.apply_of_not_hits fl _ fun hhit => hx ((hleft hi).1 hhit)) ?_⟩
    · refine silent_of_untagged fun i hi => ?_
      rw [recAt_tear_of_hits ((hleft hi).2 rfl)]
      rfl
    · exact silent_of_erased (Image.recAt_erase_self _ fl.pagesRead_pos)

/-- **Cutting off a round.** -/
lemma Stable.round_cuts {r : ℤ ⊕ ℤ × SaveLocals} {pages : ℕ} (h : Stable fl name type pages s)
    (hh : Holds fl s name size X) (hp : type = .fullPage → fl.argPages size = pages)
    (hfit : CopyFits fl size (s.info name)) (h1 : size ≤ fl.pagesize)
    (hr : Round fl name Q size excl s r t) :
    ∃ ops, t.log = s.log ++ ops ∧ t.image = s.image.replay fl ops ∧
      Cuts (Image.apply fl) (Image.tear fl) (Recoverable fl s.blkStatus name type size X Q) s.image
        ops := by
  have hty := h.argType
  cases hr with
  | append ha _ _ ht =>
    refine ⟨_, (kept_log ht).trans rfl, (kept_image ht).trans rfl, ?_⟩
    have hc := hh.append_cuts ha (h.room hp hfit ha).1 h1 Q
    rwa [hty] at hc
  | move hn _ hb _ ht =>
    refine ⟨_, (kept_log ht).trans rfl, (kept_image ht).trans rfl, ?_⟩
    have hne : (s.info name).validBlkAddr ≠ _ := fun heq => by
      have hl := hh.listed
      rw [heq, hb.2.1] at hl
      cases hl
    have hc := hh.move_cuts (by rw [hty]; exact hfit.fits hty hn) (h.agree _ _ hb) hne h1 Q
    rwa [hty] at hc
  | full _ _ ht =>
    refine ⟨[], ?_, (kept_image ht).trans rfl, ?_⟩
    · rw [List.append_nil]
      exact (kept_log ht).trans rfl
    · rw [← hty]
      exact hh.recoverable Q

/-- **Cutting off a save**: one or two rounds, the second on top of the new payload. -/
lemma Stable.saves_cuts {ret : ℤ} {pages : ℕ} (h : Stable fl name type pages s)
    (hh : Holds fl s name size X) (hp : type = .fullPage → fl.argPages size = pages)
    (hfit : CopiesFit fl size (s.info name)) (h1 : size ≤ fl.pagesize)
    (hs : Saves fl name Q size s ret t) :
    Cuts (Image.apply fl) (Image.tear fl) (Recoverable fl s.blkStatus name type size X Q) s.image
      (t.log.drop s.log.length) := by
  have hone : ∀ {r u}, Round fl name Q size 0 s r u → Cuts (Image.apply fl) (Image.tear fl)
      (Recoverable fl s.blkStatus name type size X Q) s.image (u.log.drop s.log.length) := by
    intro r u hr
    obtain ⟨ops, hlog, -, hc⟩ := h.round_cuts hh hp hfit.1 h1 hr
    rwa [hlog, List.drop_left]
  have htwo : ∀ {l : SaveLocals} {r u w} {x : ℕ}, Round fl name Q size 0 s (Sum.inr (0, l)) u →
      Round fl name Q size x (u.setInfo name Amlnf.settled) r w → Cuts (Image.apply fl) (Image.tear fl)
      (Recoverable fl s.blkStatus name type size X Q) s.image (w.log.drop s.log.length) := by
    intro l r u w x hr hr'
    obtain ⟨ops, hlog, himg, hc⟩ := h.round_cuts hh hp hfit.1 h1 hr
    obtain ⟨hst, ⟨ret, hret, -⟩ | ⟨-, hsaved⟩⟩ := h.round hp hfit.1 hr
    · cases hret
    obtain ⟨ops', hlog', -, hc'⟩ := (hst.settled hsaved hp).round_cuts hsaved.settled hp
      (h.second_fits hfit hr) h1 hr'
    have hl : w.log = s.log ++ (ops ++ ops') := by
      rw [hlog', ← List.append_assoc, ← hlog]
      rfl
    rw [hl, List.drop_left]
    refine (cuts_append _ _ _).2 ⟨hc, ?_⟩
    have himg' : (u.setInfo name Amlnf.settled).image = s.image.replay fl ops := himg
    have hblk : (u.setInfo name Amlnf.settled).blkStatus = s.blkStatus := hr.keeps.1
    rw [himg', hblk] at hc'
    exact hc'.mono fun m hm => ⟨fun b hb hs => Or.inr ((hm.1 b hb hs).elim id id), hm.2⟩
  cases hs with
  | refused _ =>
    rw [List.drop_length, ← h.argType]
    exact hh.recoverable Q
  | failed _ hr => exact hone hr
  | once _ _ hr => exact hone hr
  | half _ _ hr hr' => exact htwo hr hr'
  | twice _ _ hr hr' => exact htwo hr hr'

/-- What a cut starts from is what holds between saves. -/
lemma CutState.stable (h : CutState fl name type size X s) :
    Stable fl name type (fl.argPages size) s :=
  ⟨h.ready, h.argType, h.agree, h.area, Or.inr ⟨h.free, size, X, h.holds, fun _ => rfl⟩⟩

/-- **A power cut loses nothing** when the data of a copy lie in one page. -/
lemma survivesCut_of_onePage (h1 : size ≤ fl.pagesize) : SurvivesCut fl type size := by
  intro name P Q s t u ret buf hs hP hQ hsave hcut htbl hinfo hready hidle
  obtain ⟨ret', t', ht', hsv, -⟩ := hs.stable.saveInfo_run (fun _ => rfl) hs.fits Q
  rw [hsave] at ht'
  simp only [Prod.mk.injEq, Option.some.injEq] at ht'
  obtain ⟨rfl, rfl⟩ := ht'
  have hcuts := hs.stable.saves_cuts hs.holds (fun _ => rfl) hs.fits h1 hsv
  have hrec := (cuts_iff _ _).1 hcuts u.image hcut
  rw [← htbl] at hrec
  exact hrec.infoInit hP hQ hinfo hready hidle buf

end Rounds

/-! ## Where a cut loses the record -/

/-- What a fresh scan and a read deliver from an image is one of two payloads. -/
def Delivered (fl : Flash) (tbl : BlkStatus) (name : RecName) (type : ArgType) (size : ℕ)
    (P Q : Buf) (m : Image) : Prop :=
  let a := checkInfo fl tbl name size (m.recAt fl) { argType := type }
  a.argValid = true ∧ ∀ buf, ∃ out,
    out = readCopy fl name size (m.recAt fl a.validBlkAddr) a.validPageAddr (size + 1) 0 buf ∧
      ((∀ i < size, out i = P i) ∨ ∀ i < size, out i = Q i)

/-- A round appends to the log. -/
lemma Round.log_append {s t : St} {excl : ℕ} {r : ℤ ⊕ ℤ × SaveLocals}
    (h : Round fl name Q size excl s r t) : ∃ ops, t.log = s.log ++ ops := by
  cases h with
  | append _ _ _ ht => exact ⟨_, (kept_log ht).trans rfl⟩
  | move _ _ _ _ ht => exact ⟨_, (kept_log ht).trans rfl⟩
  | full _ _ ht =>
    refine ⟨[], ?_⟩
    rw [List.append_nil]
    exact (kept_log ht).trans rfl

/-- A save starts with a round. -/
lemma Saves.first_round {s t : St} {ret : ℤ} (h : Saves fl name Q size s ret t)
    (hm : s.allowMeta = true) :
    ∃ r u ops, Round fl name Q size 0 s r u ∧ t.log = u.log ++ ops := by
  cases h with
  | refused h =>
    rw [hm] at h
    cases h
  | failed _ hr => exact ⟨_, _, [], hr, (List.append_nil _).symm⟩
  | once _ _ hr => exact ⟨_, _, [], hr, (List.append_nil _).symm⟩
  | half _ _ hr hr' =>
    obtain ⟨ops, hops⟩ := hr'.log_append
    exact ⟨_, _, ops, hr, hops⟩
  | twice _ _ hr hr' =>
    obtain ⟨ops, hops⟩ := hr'.log_append
    exact ⟨_, _, ops, hr, hops⟩

/-- What surviving a cut says about the first round of a save of an environment. -/
lemma SurvivesCut.first_round {s : St} {P : Buf} (h : SurvivesCut fl type size)
    (hs : CutState fl .nenv type size P s) (hm : s.allowMeta = true) (hidle : s.state = .ready)
    (Q : Buf) :
    ∃ r u, Round fl .nenv Q size 0 s r u ∧
      ∀ m', Cut (Image.apply fl) (Image.tear fl) s.image (u.log.drop s.log.length) m' →
        Delivered fl s.blkStatus .nenv type size P Q m' := by
  obtain ⟨n, hn, hfuel⟩ := hs.area
  obtain ⟨ret, t, ht, hsv⟩ := amlnandSaveInfoByName_run fl (blockMarkbadOp fl) .nenv Q size hs.ready hn
    hfuel
  obtain ⟨r, u, ops, hr, hlog⟩ := hsv.first_round hm
  refine ⟨r, u, hr, fun m' hcut => ?_⟩
  have hcut' : Cut (Image.apply fl) (Image.tear fl) s.image (t.log.drop s.log.length) m' := by
    obtain ⟨ops', hops'⟩ := hr.log_append
    rw [hlog, hops', List.append_assoc, List.drop_left]
    rw [hops', List.drop_left] at hcut
    exact hcut.append_right ops
  let w : St := { s with image := m', info := fun _ => { argType := type } }
  have hw : Ready w := ⟨hs.ready.calm, hs.ready.lock⟩
  have hscan := fun buf => h .nenv P Q s t w ret buf hs (fun _ _ => rfl) (fun _ _ => rfl) ht hcut'
    rfl rfl hw hidle
  have hv : (checkInfo fl s.blkStatus .nenv size (m'.recAt fl) { argType := type }).argValid = true := by
    obtain ⟨out, x, hx, hval, -⟩ := hscan fun _ => 0
    obtain ⟨ret', y, hy, hyk, -⟩ := amlnandCheckInfoByName_run fl .nenv size hw hidle
    have hyi : y.info .nenv =
        checkInfo fl s.blkStatus .nenv size (m'.recAt fl) { argType := type } := by
      rw [kept_info hyk, checked_info_self]
    by_contra hinv
    have hxy : x = y := by
      rw [amlnandInfoInit, bind_some hy] at hx
      split at hx
      · exact (Prod.mk.inj hx).2.symm
      · rw [get_bind, hyi, if_neg hinv] at hx
        exact (Prod.mk.inj hx).2.symm
    rw [hxy, hyi] at hval
    exact hinv hval
  refine ⟨hv, fun buf => ?_⟩
  obtain ⟨out, x, hx, -, hout⟩ := hscan buf
  obtain ⟨y, hy, -⟩ := amlnandInfoInit_run fl .nenv buf size hw hidle hv
  rw [hy] at hx
  simp only [Prod.mk.injEq, Option.some.injEq] at hx
  exact ⟨out, hx.1.2.symm, hout⟩

/-- A copy of which only the first page has been written is neither payload. -/
lemma not_delivered_of_half {tag : Tag} {b v : ℕ} (hsz : fl.pagesize < size)
    (ha : let a := checkInfo fl tbl .nenv size (m.recAt fl) { argType := type }
      a.argValid = true ∧ a.validBlkAddr = b ∧ a.validPageAddr = v)
    (h0 : m.recAt fl b v = .written (recSlice fl (fun _ => 2) size 0) (some tag))
    (hn : tag.name = .nenv) (h1 : m.recAt fl b (v + 1) = .erased) :
    ¬Delivered fl tbl .nenv type size (fun _ => 1) (fun _ => 2) m := by
  have hpos := fl.pagesize_pos
  rintro ⟨-, hd⟩
  obtain ⟨out, hout, hor⟩ := hd fun _ => 0
  rw [ha.2.1, ha.2.2] at hout
  have hgood : (m.recAt fl b v).isBad = false ∧ tagged (m.recAt fl b v).oob .nenv = true := by
    rw [h0]
    exact ⟨rfl, by simp [Page.oob, tagged, hn]⟩
  have hnext : tagged (m.recAt fl b (v + 1)).oob .nenv = false := by
    rw [h1]
    rfl
  obtain ⟨hfirst, hsecond⟩ := readCopy_first hsz hgood.1 hgood.2 hnext fun _ => 0
  rw [← hout] at hfirst hsecond
  rcases hor with h | h
  · rw [h 0 (by omega), h0] at hfirst
    change 1 = recSlice fl (fun _ => 2) size 0 0 at hfirst
    rw [recSlice, if_pos (by omega)] at hfirst
    exact absurd hfirst (by decide)
  · rw [h fl.pagesize hsz] at hsecond
    exact absurd hsecond (show ¬(2 : UInt8) = 0 by decide)

/-- A driver that has saved one environment, in the last block of the reserved area. -/
def St.storedLast (fl : Flash) (type : ArgType) (P : Buf) (size : ℕ) : St :=
  (St.blankOf type).moved fl .nenv P size (fl.startBlk + 47)

section StoredLast

variable (fl type) (P : Buf)

/-- The state with the record in the last block is as after a save. -/
lemma storedLast_saved (hfit : Fits fl type size) :
    Saved fl (St.storedLast fl type P size) .nenv size P ∧
      Stable fl .nenv type (fl.argPages size) (St.storedLast fl type P size) := by
  have hb := startBlk_le_32 fl
  have hc : Candidate fl (St.blankOf type).blkStatus (St.blankOf type).reservedBlk 0
      (fl.startBlk + 47) := by
    refine ⟨((reserveEnd_good fl).lt_iff (by omega)).1 ?_, ?_, by omega, ?_⟩
    · have : reservedBlockCnt = 48 := rfl
      omega
    · simp [listed, St.blankOf, St.blank, reservedBlockCnt]
      omega
    · exact show blockGood ≠ blockFactoryBad by decide
  exact (stable_blankOf fl .nenv type _).moved hfit (fun _ => rfl) hc

/-- Where the record lies. -/
lemma storedLast_info (size : ℕ) : (St.storedLast fl type P size).info .nenv =
    { argType := type, validBlkAddr := fl.startBlk + 47, argValid := true, timestamp := 1 } := by
  have hb := startBlk_le_32 fl
  rw [St.storedLast, moved_info_self, moveInfo, Nat.mod_eq_of_lt (by omega)]
  rfl

/-- The first page of the record. -/
lemma storedLast_first (hfit : Fits fl type size) :
    (St.storedLast fl type P size).image.recAt fl (fl.startBlk + 47) 0 =
      .written (recSlice fl P size 0) (some ⟨.nenv, 1⟩) := by
  have hfit' : Fits fl ((St.blankOf type).info .nenv).argType size := hfit
  exact (recAt_moveOps hfit' fun h => by cases h).1 0 (argPages_pos fl size)

end StoredLast

/-- A cut behind the first page of a record that moves to an earlier block. -/
lemma Holds.lost_move {s : St} {P : Buf} {tag t : Tag} {b : ℕ} (h : Holds fl s .nenv size P)
    (hb : ScanVisits fl s.blkStatus b) (hlt : b < (s.info .nenv).validBlkAddr)
    (hB : blockTag fl size (s.image.recAt fl (s.info .nenv).validBlkAddr) = some t)
    (hts : ¬tag.timestamp < t.timestamp) (hA : 1 < fl.pagesRead) (hsz : fl.pagesize < size)
    (hn : tag.name = .nenv) :
    ¬Delivered fl s.blkStatus .nenv type size (fun _ => 1) (fun _ => 2)
      ((s.image.apply fl (.erase (fl.resChip b) (fl.resRow b))).apply fl
        (recOp fl tag b 0 (recSlice fl (fun _ => 2) size 0))) := by
  have hothers := h.others
  set B := (s.info .nenv).validBlkAddr with hBdef
  set m1 := s.image.apply fl (.erase (fl.resChip b) (fl.resRow b)) with hm1
  set m' := m1.apply fl (recOp fl tag b 0 (recSlice fl (fun _ => 2) size 0)) with hm'
  have herase : ∀ i < fl.pagesRead, m1.recAt fl b i = .erased := fun i hi =>
    Image.recAt_erase_self _ hi
  have hsame : ∀ x i, i < fl.pagesRead → ¬(x = b ∧ i = 0) → m'.recAt fl x i = m1.recAt fl x i :=
    fun x i hi hne => Image.apply_of_not_hits fl _ fun hhit =>
      hne ((hits_recPage_iff fl.pagesRead_pos hi _ _).1 hhit)
  have hother : ∀ x ≠ b, ∀ i < fl.pagesRead, m'.recAt fl x i = s.image.recAt fl x i := by
    intro x hx i hi
    rw [hsame x i hi fun hc => hx hc.1]
    exact Image.apply_of_not_hits fl _ fun hhit => hx ((hits_erase_iff hi).1 hhit)
  have hnew : m'.recAt fl b 0 = .written (recSlice fl (fun _ => 2) size 0) (some tag) := by
    rw [hm', recOp, Image.recAt_program_self, herase 0 fl.pagesRead_pos]
    rfl
  have hgood : (m'.recAt fl b 0).isBad = false ∧ tagged (m'.recAt fl b 0).oob .nenv = true := by
    rw [hnew]
    exact ⟨rfl, by simp [Page.oob, tagged, hn]⟩
  have htag : blockTag fl size (m'.recAt fl b) = some tag := by
    rw [blockTag_of_first hgood.1, hnew]
    rfl
  have hpage : copyPage fl type .nenv size (m'.recAt fl b) = 0 := by
    refine copyPage_first hgood.1 hgood.2 fun _ hi => ?_
    have hpos := copyStep_pos fl size
    rw [hsame b _ hi (by omega), herase _ hi]
  have hsil : ∀ x, x ≠ b → x ≠ B → ScanVisits fl s.blkStatus x →
      Silent fl .nenv size (m'.recAt fl x) := by
    intro x hxb hxB hxv
    refine silent_of_untagged fun i hi => ?_
    rw [hother x hxb i hi]
    exact hothers x hxB hxv i hi
  have ha := checkInfo_of_first type hb htag hn
    (fun x hx hxv => hsil x (by omega) (by omega) hxv) fun x hx hxv => by
      by_cases hxB : x = B
      · refine Or.inr ⟨t, ?_, hts⟩
        rw [hxB, blockTag_congr (hother B (by omega)), hB]
      · exact Or.inl (hsil x (by omega) hxB hxv)
  refine not_delivered_of_half hsz ⟨ha.1, ha.2.1, ha.2.2.trans hpage⟩ hnew hn ?_
  rw [hsame b _ hA (by omega), herase _ hA]

/-- `arg_info` after a scan that met a page it could not read. -/
def flagged (a : ArgInfo) : ArgInfo := { a with updateFlag := true }

/-- The next save of such a record moves it, so that its block need not be one to append to. -/
lemma Holds.flagged {s : St} {P : Buf} (h : Holds fl s name size P) :
    Holds fl (s.setInfo name Amlnf.flagged) name size P := by
  constructor
  all_goals rw [setInfo_info_self]
  · exact h.valid
  · exact h.visits
  · exact h.listed
  · exact h.others
  · exact h.copy
  · exact h.found
  · exact h.delivers
  · intro _ hup
    cases hup

/-- The copies of a save that moves the record fit if those of its first save do. -/
lemma copiesFit_flagged {a : ArgInfo} (h : CopiesFit fl size { argType := type })
    (hty : a.argType = type) : CopiesFit fl size (flagged a) := by
  have hfirst : nextPage fl size { argType := type } = 0 := if_neg fun h => by cases h.1
  have hnext : nextPage fl size (flagged a) = 0 := if_neg fun h => by cases h.2.1
  refine ⟨⟨h.1.1, fun hpage => ?_⟩, h.2.congr hty rfl rfl (hnext.trans hfirst.symm)⟩
  have hle := h.1.2 (hty.symm.trans hpage)
  rwa [hfirst, ← hnext] at hle

/-- A driver that has saved one environment, in the last block of the reserved area, and whose next
save moves it. -/
def St.movesNext (fl : Flash) (type : ArgType) (P : Buf) (size : ℕ) : St :=
  (St.storedLast fl type P size).setInfo .nenv flagged

/-- The next save starts as it should. -/
lemma movesNext_cutState (P : Buf) (hfit : CopiesFit fl size { argType := type }) :
    CutState fl .nenv type size P (St.movesNext fl type P size) := by
  have hfits : Fits fl type size := (show CopyFits fl size
    ((St.blankOf type).info .nenv) from hfit.1).fits rfl fun h => by cases h.1
  obtain ⟨⟨hh, -⟩, hst⟩ := storedLast_saved fl type P hfits
  have hinfo : ((St.movesNext fl type P size)).info .nenv =
      flagged ((St.storedLast fl type P size).info .nenv) := setInfo_info_self _ _ _
  refine ⟨⟨hst.ready.calm, hst.ready.lock⟩, ?_, hst.agree, hst.area, hst.free, hh.flagged, ?_⟩
  · rw [hinfo]
    exact hst.argType
  · rw [hinfo]
    exact copiesFit_flagged hfit hst.argType

/-- **A record of several pages does not survive every cut.** -/
lemma SurvivesCut.onePage (h : SurvivesCut fl type size)
    (hfit : CopiesFit fl size { argType := type }) : size ≤ fl.pagesize := by
  by_contra hgt
  have hsz : fl.pagesize < size := by omega
  have hA : 2 ≤ fl.argPages size := by
    have := Nat.div_pos hsz.le fl.pagesize_pos
    rw [fl.argPages_eq]
    omega
  have hAle := hfit.1.1
  have hfits : Fits fl type size := (show CopyFits fl size
    ((St.blankOf type).info .nenv) from hfit.1).fits rfl fun h => by cases h.1
  have hs := movesNext_cutState (fun _ => 1) hfit
  have hinfo : (St.movesNext fl type (fun _ => 1) size).info .nenv = flagged
      { argType := type, validBlkAddr := fl.startBlk + 47, argValid := true, timestamp := 1 } := by
    rw [St.movesNext, setInfo_info_self, storedLast_info]
  have hfirst : (St.movesNext fl type (fun _ => 1) size).image.recAt fl (fl.startBlk + 47) 0 =
      .written (recSlice fl (fun _ => 1) size 0) (some ⟨.nenv, 1⟩) :=
    storedLast_first fl type (fun _ => 1) hfits
  have hlist : (St.movesNext fl type (fun _ => 1) size).reservedBlk =
      moveList { argType := type } (fl.startBlk + 47) (List.replicate reservedBlockCnt 0xff) := rfl
  set s := St.movesNext fl type (fun _ => 1) size with hsdef
  have hblk : (s.info .nenv).validBlkAddr = fl.startBlk + 47 := by
    rw [hinfo]
    rfl
  have hpos := fl.startBlk_pos
  have hle := startBlk_le_32 fl
  have hend := reserveEnd_good fl
  have hcnt : reservedBlockCnt = 48 := rfl
  obtain ⟨r, u, hr, hcut⟩ := h.first_round hs rfl rfl fun _ => 2
  cases hr with
  | append ha _ _ _ =>
    have hup := ha.2.1
    rw [hinfo] at hup
    cases hup
  | @move l _ _ _ hb _ ht =>
    have hvis := hs.agree _ _ hb
    have hlt : l.blkAddr < (s.info .nenv).validBlkAddr := by
      have hne : l.blkAddr ≠ (s.info .nenv).validBlkAddr := fun heq => by
        have hl := hs.holds.listed
        rw [← heq, hb.2.1] at hl
        cases hl
      have := hvis.2.1
      omega
    obtain ⟨rest, hrest, -⟩ := writeOps_cons fl (s.info .nenv).argType (nextTag s .nenv) (fun _ => 2)
      size l.blkAddr (by rw [hs.argType]; exact hfits)
    have htag : blockTag fl size (s.image.recAt fl (s.info .nenv).validBlkAddr) =
        some ⟨.nenv, 1⟩ := by
      rw [hblk, blockTag_of_first (by rw [hfirst]; rfl), hfirst]
      rfl
    have hts : ¬(nextTag s .nenv).timestamp < 1 := by
      rw [nextTag, hinfo]
      exact show ¬(1 + 1 : UInt16) < 1 by decide
    refine hs.holds.lost_move hvis hlt htag hts (by omega) hsz rfl (hcut _ ?_)
    have hl : u.log = s.log ++ moveOps fl s .nenv (fun _ => 2) size l.blkAddr :=
      (kept_log ht).trans rfl
    rw [hl, List.drop_left, moveOps, hrest]
    exact .between [_, _] _ rfl
  | full _ hb _ =>
    refine hb fl.startBlk ⟨(hend.lt_iff (le_refl _)).1 (by omega), ?_, by omega,
      show blockGood ≠ blockFactoryBad by decide⟩
    rw [hlist, moveList, if_neg (fun h => by cases h.1), hcnt, List.replicate_succ, enlist,
      if_pos rfl]
    simp [listed]
    omega

end

end Amlnf
