import Mathlib.Data.List.Perm.Basic
import Amlnf.Phy.Stable

set_option relaxedAutoImplicit false
set_option autoImplicit false

/-!
# The last free place

A record that moves is entered in the list of reserved blocks before the block it leaves is taken
off. When the record has taken the last free place its next block is not entered. Nothing is lost by
this: the search for a free block starts at the lowest block, which is the one the record has just
left, and so passes the block of the record by. A driver with one free place therefore does what a
driver with one more place does, whose list always has the block of the record.

## Main definitions

* `LastPlace` — a list with one more place, next to the list of a state.

## Main results

* `enlist_perm`, `delist_perm` — what the two operations make of the list, up to its order.
* `Saves.setList` — a save does the same with one more place.
-/

namespace Amlnf

open Act

/-! ## The list up to its order -/

section ListOrder

variable {l l' : List UInt8} {b : ℕ}

/-- A block below 256 is listed when its byte is. -/
lemma listed_iff (hb : b < 256) : listed l b = true ↔ UInt8.ofNat b ∈ l := by
  rw [listed, List.any_eq_true]
  constructor
  · rintro ⟨e, he, heq⟩
    have hval : e.toNat = b := by simpa using heq
    rwa [← hval, UInt8.ofNat_toNat]
  · intro h
    refine ⟨_, h, ?_⟩
    simp [Nat.mod_eq_of_lt hb]

lemma listed_cons (e : UInt8) : listed (e :: l) b = (decide (e.toNat = b) || listed l b) :=
  List.any_cons

/-- The order of the list does not matter. -/
lemma listed_perm (h : l.Perm l') : listed l b = listed l' b := by
  rw [Bool.eq_iff_iff, listed, listed, List.any_eq_true, List.any_eq_true]
  simp only [h.mem_iff]

/-- A block that is entered takes one free place. -/
lemma enlist_perm (h : (0xff : UInt8) ∈ l) (b : ℕ) :
    (enlist l b).Perm (UInt8.ofNat b :: l.erase 0xff) := by
  induction l with
  | nil => cases h
  | cons e l ih =>
    rw [enlist]
    by_cases he : e = 0xff
    · rw [if_pos he, he, List.erase_cons_head]
    · rw [if_neg he, List.erase_cons_tail (by simpa using he)]
      have hl := ih (List.mem_of_ne_of_mem (Ne.symm he) h)
      exact (hl.cons e).trans (.swap _ _ _)

/-- Without a free place it is not entered. -/
lemma enlist_full (h : (0xff : UInt8) ∉ l) (b : ℕ) : enlist l b = l := by
  induction l with
  | nil => rfl
  | cons e l ih =>
    rw [List.mem_cons, not_or] at h
    obtain ⟨he, hl⟩ := h
    rw [enlist, if_neg (Ne.symm he), ih hl]

/-- A block that is taken off leaves a free place. -/
lemma delist_perm (hb : b < 256) (h : UInt8.ofNat b ∈ l) :
    (delist l b).Perm (0xff :: l.erase (UInt8.ofNat b)) := by
  induction l with
  | nil => cases h
  | cons e l ih =>
    rw [delist]
    by_cases he : e.toNat = b
    · rw [if_pos he, ← he, UInt8.ofNat_toNat, List.erase_cons_head]
    · have hne : e ≠ UInt8.ofNat b := by
        rintro rfl
        simp [Nat.mod_eq_of_lt hb] at he
      rw [if_neg he, List.erase_cons_tail (by simpa using hne)]
      have hl := ih (List.mem_of_ne_of_mem (Ne.symm hne) h)
      exact (hl.cons e).trans (.swap _ _ _)

/-- A block that is not on the list is not taken off. -/
lemma delist_of_not_mem (h : UInt8.ofNat b ∉ l) : delist l b = l := by
  induction l with
  | nil => rfl
  | cons e l ih =>
    rw [List.mem_cons, not_or] at h
    obtain ⟨he, hl⟩ := h
    have hne : e.toNat ≠ b := by
      rintro rfl
      exact he (UInt8.ofNat_toNat)
    rw [delist, if_neg hne, ih hl]

/-- A block below 255 is not the mark of a free place. -/
lemma ofNat_ne_free (hb : b < 255) : UInt8.ofNat b ≠ 0xff := by
  intro h
  have hval := congrArg UInt8.toNat h
  rw [UInt8.toNat_ofNat', Nat.mod_eq_of_lt (by omega)] at hval
  have hfree : (0xff : UInt8).toNat = 255 := rfl
  omega

/-- A block is taken off the longer of two lists as it is off the shorter. -/
lemma delist_longer {e : UInt8} (hb : b < 256) (h : l.Perm (e :: l')) (hne : e ≠ UInt8.ofNat b)
    (hmem : UInt8.ofNat b ∈ l') : (delist l b).Perm (e :: delist l' b) := by
  have hl : UInt8.ofNat b ∈ l := h.mem_iff.2 (List.mem_cons_of_mem _ hmem)
  have herase : (l.erase (UInt8.ofNat b)).Perm (e :: l'.erase (UInt8.ofNat b)) := by
    rw [← List.erase_cons_tail (by simpa using hne)]
    exact h.erase _
  exact ((delist_perm hb hl).trans (herase.cons _)).trans
    ((List.Perm.swap _ _ _).trans ((delist_perm hb hmem).symm.cons _))

/-- A block enters the longer of two lists at a free place of the shorter. -/
lemma enlist_longer {e : UInt8} (h : l.Perm (e :: l')) (hne : e ≠ 0xff) (hmem : (0xff : UInt8) ∈ l')
    (b : ℕ) : (enlist l b).Perm (e :: enlist l' b) := by
  have hl : (0xff : UInt8) ∈ l := h.mem_iff.2 (List.mem_cons_of_mem _ hmem)
  have herase : (l.erase 0xff).Perm (e :: l'.erase 0xff) := by
    rw [← List.erase_cons_tail (by simpa using hne)]
    exact h.erase _
  exact ((enlist_perm hl b).trans (herase.cons _)).trans
    ((List.Perm.swap _ _ _).trans ((enlist_perm hmem b).symm.cons _))

/-- Or at the free place that makes it longer. -/
lemma enlist_spare (h : l.Perm (0xff :: l')) (b : ℕ) : (enlist l b).Perm (UInt8.ofNat b :: l') := by
  have hl : (0xff : UInt8) ∈ l := h.mem_iff.2 List.mem_cons_self
  have herase := h.erase 0xff
  rw [List.erase_cons_head] at herase
  exact (enlist_perm hl b).trans (herase.cons _)

/-- With two free places it makes no difference which. -/
lemma enlist_free (h : l.Perm (0xff :: l')) (hmem : (0xff : UInt8) ∈ l') (b : ℕ) :
    (enlist l b).Perm (0xff :: enlist l' b) :=
  ((enlist_spare h b).trans ((List.perm_cons_erase hmem).cons _)).trans
    ((List.Perm.swap _ _ _).trans ((enlist_perm hmem b).symm.cons _))

lemma ofNat_inj {b b' : ℕ} (hb : b < 256) (hb' : b' < 256)
    (h : UInt8.ofNat b = UInt8.ofNat b') : b = b' := by
  have hval := congrArg UInt8.toNat h
  rwa [UInt8.toNat_ofNat', UInt8.toNat_ofNat', Nat.mod_eq_of_lt hb, Nat.mod_eq_of_lt hb'] at hval

end ListOrder

/-! ## One more place -/

/-- The list `rl` has the places of the list of the state and one more. Either that is a free place,
and then the state has a free place itself or its record is in front of all blocks the allocator may
take. Or it has the block of the record, which the state has not entered, and the allocator may take
a block in front of it. -/
inductive LastPlace (fl : Flash) (name : RecName) (s : St) (rl : List UInt8) : Prop
  | spare (h : rl.Perm (0xff :: s.reservedBlk)) (hfree : (0xff : UInt8) ∈ s.reservedBlk)
  | full (h : rl.Perm (0xff :: s.reservedBlk)) (hfull : (0xff : UInt8) ∉ s.reservedBlk)
      (hvalid : (s.info name).argValid = true)
      (honce : UInt8.ofNat (s.info name).validBlkAddr ∉
        s.reservedBlk.erase (UInt8.ofNat (s.info name).validBlkAddr))
      (hlow : ∀ b, Candidate fl s.blkStatus s.reservedBlk 0 b → (s.info name).validBlkAddr < b)
  | unlisted (h : rl.Perm (UInt8.ofNat (s.info name).validBlkAddr :: s.reservedBlk))
      (hfree : (0xff : UInt8) ∈ s.reservedBlk) (hvalid : (s.info name).argValid = true)
      (hnot : UInt8.ofNat (s.info name).validBlkAddr ∉ s.reservedBlk)
      (hlow : ∃ b < (s.info name).validBlkAddr, Candidate fl s.blkStatus s.reservedBlk 0 b)

/-- Block 255, whose number marks a free place, is none the allocator may take. -/
def NoBlock255 (fl : Flash) (tbl : BlkStatus) : Prop :=
  ¬(InReserve fl tbl 255 ∧ resStatus fl tbl 255 ≠ blockFactoryBad)

section

variable {fl : Flash} {name : RecName} {type : ArgType} {pages size excl b : ℕ} {s t : St}
  {rl : List UInt8} {Q : Buf}

/-- What the longer list has depends on these fields only. -/
lemma LastPlace.congr (h : LastPlace fl name s rl) (hl : t.reservedBlk = s.reservedBlk)
    (ht : t.blkStatus = s.blkStatus) (hv : (t.info name).argValid = (s.info name).argValid)
    (hb : (t.info name).validBlkAddr = (s.info name).validBlkAddr) : LastPlace fl name t rl := by
  cases h with
  | spare h hfree => exact .spare (hl ▸ h) (hl ▸ hfree)
  | full h hfull hvalid honce hlow =>
    refine .full (hl ▸ h) (hl ▸ hfull) (hv.trans hvalid) ?_ ?_
    · rw [hb, hl]
      exact honce
    · rw [hb, hl, ht]
      exact hlow
  | unlisted h hfree hvalid hnot hlow =>
    refine .unlisted ?_ (hl ▸ hfree) (hv.trans hvalid) ?_ ?_
    · rw [hb, hl]
      exact h
    · rw [hb, hl]
      exact hnot
    · rw [hb, hl, ht]
      exact hlow

/-- A block on the list of the state is on the longer one. -/
lemma LastPlace.listed (h : LastPlace fl name s rl) (hb : Amlnf.listed s.reservedBlk b = true) :
    Amlnf.listed rl b = true := by
  cases h with
  | spare h _ => rw [listed_perm h, listed_cons, hb, Bool.or_true]
  | full h _ _ _ _ => rw [listed_perm h, listed_cons, hb, Bool.or_true]
  | unlisted h _ _ _ _ => rw [listed_perm h, listed_cons, hb, Bool.or_true]

/-- The allocator may take fewer blocks with the longer list. -/
lemma LastPlace.candidate (h : LastPlace fl name s rl)
    (hb : Candidate fl s.blkStatus rl excl b) : Candidate fl s.blkStatus s.reservedBlk excl b := by
  refine ⟨hb.1, ?_, hb.2.2⟩
  by_contra hl
  have hlong := h.listed (b := b) (by simpa using hl)
  rw [hb.2.1] at hlong
  cases hlong

/-- A search starts with nothing excluded but the block of the record. -/
def Excludes (name : RecName) (s : St) (excl : ℕ) : Prop :=
  excl = 0 ∨ (s.info name).argValid = true ∧ excl = (s.info name).validBlkAddr

/-- The allocator takes the same block with the longer list. -/
lemma LastPlace.picks (h : LastPlace fl name s rl) (hex : Excludes name s excl)
    (h255 : NoBlock255 fl s.blkStatus)
    (hB : (s.info name).argValid = true → (s.info name).validBlkAddr < 255)
    (hb : Candidate fl s.blkStatus s.reservedBlk excl b)
    (hlow : ∀ b' < b, ¬Candidate fl s.blkStatus s.reservedBlk excl b') :
    Candidate fl s.blkStatus rl excl b := by
  have hne : b ≠ 255 := by
    rintro rfl
    exact h255 ⟨hb.1, hb.2.2.2⟩
  have hfree : (0xff : UInt8).toNat = 255 := rfl
  refine ⟨hb.1, ?_, hb.2.2⟩
  cases h with
  | spare h _ =>
    rw [listed_perm h, listed_cons, hb.2.1, Bool.or_false, decide_eq_false_iff_not]
    omega
  | full h _ _ _ _ =>
    rw [listed_perm h, listed_cons, hb.2.1, Bool.or_false, decide_eq_false_iff_not]
    omega
  | unlisted h _ hvalid _ hbelow =>
    obtain ⟨c, hc, hcand⟩ := hbelow
    have hBlt := hB hvalid
    have hcexcl : c ≠ excl := by
      rcases hex with rfl | ⟨-, rfl⟩
      · exact hcand.2.2.1
      · omega
    have hle : b ≤ c := by
      by_contra hgt
      exact hlow c (by omega) ⟨hcand.1, hcand.2.1, hcexcl, hcand.2.2.2⟩
    rw [listed_perm h, listed_cons, hb.2.1, Bool.or_false, decide_eq_false_iff_not,
      UInt8.toNat_ofNat', Nat.mod_eq_of_lt (by omega)]
    omega

/-- **A round that moves the record.** -/
lemma LastPlace.moved (h : LastPlace fl name s rl) (hex : Excludes name s excl)
    (h255 : NoBlock255 fl s.blkStatus)
    (hrec : (s.info name).argValid = true → (ScanVisits fl s.blkStatus (s.info name).validBlkAddr ∧
      InReserve fl s.blkStatus (s.info name).validBlkAddr) ∧
        Amlnf.listed rl (s.info name).validBlkAddr = true)
    (hvis : ScanVisits fl s.blkStatus b)
    (hb : Candidate fl s.blkStatus s.reservedBlk excl b)
    (hlow : ∀ b' < b, ¬Candidate fl s.blkStatus s.reservedBlk excl b')
    (hlist : t.reservedBlk = moveList (s.info name) b s.reservedBlk)
    (htbl : t.blkStatus = s.blkStatus) (hvalid : (t.info name).argValid = true)
    (hblk : (t.info name).validBlkAddr = b) :
    LastPlace fl name t (moveList (s.info name) b rl) := by
  obtain ⟨hb0, hb255⟩ := hvis.bounds
  have hbe : UInt8.ofNat b ≠ 0xff := ofNat_ne_free hb255
  have hbnot : UInt8.ofNat b ∉ s.reservedBlk := by
    rw [← listed_iff (by omega), hb.2.1]
    exact Bool.false_ne_true
  -- once the last free place is taken, all blocks the allocator may take are behind `b`
  have hfull : ∀ l : List UInt8, l.Perm (UInt8.ofNat b :: s.reservedBlk.erase 0xff) →
      t.reservedBlk = l → (0xff : UInt8) ∉ l →
      ((s.info name).argValid = true → UInt8.ofNat (s.info name).validBlkAddr ∉ s.reservedBlk ∧
        b < (s.info name).validBlkAddr) →
      UInt8.ofNat (t.info name).validBlkAddr ∉
          t.reservedBlk.erase (UInt8.ofNat (t.info name).validBlkAddr) ∧
        ∀ x, Candidate fl t.blkStatus t.reservedBlk 0 x → (t.info name).validBlkAddr < x := by
    intro l hl htl hnone hold
    rw [hblk, htl]
    constructor
    · rw [((hl.erase _).trans (by rw [List.erase_cons_head])).mem_iff]
      exact fun hmem => hbnot (List.mem_of_mem_erase hmem)
    · intro x hx
      rw [htbl] at hx
      have hx255 : x ≠ 255 := by
        rintro rfl
        exact h255 ⟨hx.1, hx.2.2.2⟩
      have hxl := hx.2.1
      rw [listed_perm hl, listed_cons, Bool.or_eq_false_iff, decide_eq_false_iff_not,
        UInt8.toNat_ofNat', Nat.mod_eq_of_lt (by omega)] at hxl
      -- apart from `b` it could have been taken before
      have hxrl : Amlnf.listed s.reservedBlk x = false := by
        by_contra hin
        rw [Bool.not_eq_false, Amlnf.listed, List.any_eq_true] at hin
        obtain ⟨e, he, hex'⟩ := hin
        have hval : e.toNat = x := by simpa using hex'
        have hne : e ≠ 0xff := by
          rintro rfl
          exact hx255 (hval.symm.trans rfl)
        have hin' : Amlnf.listed (s.reservedBlk.erase 0xff) x = true :=
          List.any_eq_true.2 ⟨e, (List.mem_erase_of_ne hne).2 he, hex'⟩
        rw [hxl.2] at hin'
        cases hin'
      by_contra hge
      have hxlt : x < b := by omega
      refine hlow x hxlt ⟨hx.1, hxrl, ?_, hx.2.2.2⟩
      rcases hex with rfl | ⟨hv, rfl⟩
      · exact hx.2.2.1
      · have := (hold hv).2
        omega
  by_cases hv : (s.info name).argValid = true
  · obtain ⟨⟨hBvis, hBres⟩, hBlisted⟩ := hrec hv
    obtain ⟨hB0, hB255⟩ := hBvis.bounds
    set B := (s.info name).validBlkAddr with hBdef
    have hBe : UInt8.ofNat B ≠ 0xff := ofNat_ne_free hB255
    have hmove : ∀ l : List UInt8, moveList (s.info name) b l = delist (enlist l b) B := fun l =>
      if_pos ⟨hv, by omega⟩
    rw [hmove] at hlist ⊢
    have hBmem : UInt8.ofNat B ∈ rl := (listed_iff (by omega)).1 hBlisted
    have hBb : B ≠ b → UInt8.ofNat b ≠ UInt8.ofNat B := fun hne heq =>
      hne (ofNat_inj (by omega) (by omega) heq).symm
    cases h with
    | spare h hfree =>
      have hBold : UInt8.ofNat B ∈ s.reservedBlk :=
        (List.mem_cons.1 (h.mem_iff.1 hBmem)).resolve_left hBe
      have hBnew : UInt8.ofNat B ∈ enlist s.reservedBlk b :=
        (enlist_perm hfree b).mem_iff.2 (List.mem_cons_of_mem _ ((List.mem_erase_of_ne hBe).2 hBold))
      refine .spare ?_ ?_
      · rw [hlist]
        exact delist_longer (by omega) (enlist_free h hfree b) (Ne.symm hBe) hBnew
      · rw [hlist]
        exact (delist_perm (by omega) hBnew).mem_iff.2 List.mem_cons_self
    | full h hnone _ honce hbehind =>
      have hBold : UInt8.ofNat B ∈ s.reservedBlk :=
        (List.mem_cons.1 (h.mem_iff.1 hBmem)).resolve_left hBe
      have hBlt : B < b := hbehind b ⟨hb.1, hb.2.1, by omega, hb.2.2.2⟩
      have hleft := delist_perm (show B < 256 by omega) hBold
      rw [enlist_full hnone] at hlist
      -- the block the record has left is in front of the one it has gone to
      refine .unlisted ?_ ?_ hvalid ?_ ⟨B, by omega, ?_⟩
      · rw [hblk, hlist]
        exact delist_longer (by omega) (enlist_spare h b) (hBb (by omega)) hBold
      · rw [hlist]
        exact hleft.mem_iff.2 List.mem_cons_self
      · rw [hblk, hlist, hleft.mem_iff, List.mem_cons, not_or]
        exact ⟨hbe, fun hmem => hbnot (List.mem_of_mem_erase hmem)⟩
      · rw [htbl]
        refine ⟨hBres, ?_, by omega, ?_⟩
        · rw [hlist, ← Bool.not_eq_true, listed_iff (by omega), hleft.mem_iff, List.mem_cons, not_or]
          exact ⟨hBe, honce⟩
        · rw [((scanVisits_iff B).1 hBvis).2.2]
          decide
    | unlisted h hfree _ hnot hbelow =>
      obtain ⟨c, hc, hcand⟩ := hbelow
      have hcexcl : c ≠ excl := by
        rcases hex with rfl | ⟨-, rfl⟩
        · exact hcand.2.2.1
        · omega
      have hbB : b < B := by
        by_contra hge
        exact hlow c (by omega) ⟨hcand.1, hcand.2.1, hcexcl, hcand.2.2.2⟩
      have hshort := enlist_perm hfree b
      have hBnew : UInt8.ofNat B ∉ enlist s.reservedBlk b := by
        rw [hshort.mem_iff, List.mem_cons, not_or]
        exact ⟨(hBb (by omega)).symm, fun hmem => hnot (List.mem_of_mem_erase hmem)⟩
      rw [delist_of_not_mem hBnew] at hlist
      have hlong : (delist (enlist rl b) B).Perm (0xff :: t.reservedBlk) := by
        have henter := enlist_longer h hBe hfree b
        have herase := henter.erase (UInt8.ofNat B)
        rw [List.erase_cons_head] at herase
        rw [hlist]
        exact (delist_perm (by omega) (henter.mem_iff.2 List.mem_cons_self)).trans (herase.cons _)
      by_cases hmore : (0xff : UInt8) ∈ t.reservedBlk
      · exact .spare hlong hmore
      · obtain ⟨h1, h2⟩ := hfull _ hshort hlist (hlist ▸ hmore) fun _ => ⟨hnot, hbB⟩
        exact .full hlong hmore hvalid h1 h2
  · have hmove : ∀ l : List UInt8, moveList (s.info name) b l = enlist l b := fun l =>
      if_neg fun hc => hv hc.1
    rw [hmove] at hlist ⊢
    cases h with
    | spare h hfree =>
      have hlong : (enlist rl b).Perm (0xff :: t.reservedBlk) := by
        rw [hlist]
        exact enlist_free h hfree b
      by_cases hmore : (0xff : UInt8) ∈ t.reservedBlk
      · exact .spare hlong hmore
      · obtain ⟨h1, h2⟩ := hfull _ (enlist_perm hfree b) hlist (hlist ▸ hmore) fun hc => absurd hc hv
        exact .full hlong hmore hvalid h1 h2
    | full _ _ hv' _ _ => exact absurd hv' hv
    | unlisted _ _ hv' _ _ => exact absurd hv' hv

/-! ## Rounds and saves -/

/-- **A round** does the same with one more place. -/
lemma Round.setList {r : ℤ ⊕ ℤ × SaveLocals} (hr : Round fl name Q size excl s r t)
    (h : LastPlace fl name s rl) (hst : Stable fl name type pages (s.setList rl))
    (hex : Excludes name s excl) (h255 : NoBlock255 fl s.blkStatus) :
    ∃ rl', Round fl name Q size excl (s.setList rl) r (t.setList rl') ∧ LastPlace fl name t rl' ∧
      ∀ l : SaveLocals, r = Sum.inr (0, l) → Excludes name t l.blkAddr := by
  have hrec : (s.info name).argValid = true → (ScanVisits fl s.blkStatus (s.info name).validBlkAddr ∧
      InReserve fl s.blkStatus (s.info name).validBlkAddr) ∧
        Amlnf.listed rl (s.info name).validBlkAddr = true := by
    intro hv
    rcases hst.noRecord_or_holds with hno | ⟨size₀, P, hh⟩
    · exact absurd (hv.symm.trans hno.invalid) (by decide)
    · obtain ⟨n, hn, -⟩ := hst.area
      have hvis := hh.visits
      have hle := hn.le
      exact ⟨⟨hvis, (hn.lt_iff hvis.1).1 (lt_of_lt_of_le hvis.2.1 hle)⟩, hh.listed⟩
  have hB : (s.info name).argValid = true → (s.info name).validBlkAddr < 255 :=
    fun hv => (hrec hv).1.1.bounds.2
  cases hr with
  | append ha hl hb ht =>
    have hinfo : t.info name = appendInfo fl size (s.info name) :=
      (congrFun (kept_info ht) name).trans (appended_info_self s name Q size)
    have hblk : (t.info name).validBlkAddr = (s.info name).validBlkAddr := by
      have := hB ha.1
      rw [hinfo]
      exact Nat.mod_eq_of_lt (by omega)
    have hvalid : (t.info name).argValid = (s.info name).argValid := by
      rw [hinfo]
      rfl
    refine ⟨rl, .append ha hl hb (setList_congr ht rl), h.congr ((kept_reservedBlk ht).trans rfl)
      ((kept_blkStatus ht).trans rfl) hvalid hblk, fun l' hl' => ?_⟩
    obtain ⟨-, rfl⟩ := Prod.mk.inj (Sum.inr.inj hl')
    exact Or.inr ⟨hvalid.trans ha.1, hb.trans hblk.symm⟩
  | @move l _ ha hl hb hlow ht =>
    have hlong := h.picks hex h255 hB hb hlow
    have hvis := hst.agree _ _ hlong
    obtain ⟨-, hlt⟩ := hvis.bounds
    have hinfo : t.info name = moveInfo l.blkAddr (s.info name) :=
      (congrFun (kept_info ht) name).trans (moved_info_self s name Q size l.blkAddr)
    have hblk : (t.info name).validBlkAddr = l.blkAddr := by
      rw [hinfo]
      exact Nat.mod_eq_of_lt (by omega)
    have hvalid : (t.info name).argValid = true := by
      rw [hinfo]
      rfl
    refine ⟨_, .move ha hl hlong (fun x hx hc => hlow x hx (h.candidate hc)) (setList_congr ht _),
      h.moved hex h255 hrec hvis hb hlow ((kept_reservedBlk ht).trans rfl)
        ((kept_blkStatus ht).trans rfl) hvalid hblk, fun l' hl' => ?_⟩
    obtain ⟨-, rfl⟩ := Prod.mk.inj (Sum.inr.inj hl')
    exact Or.inr ⟨hvalid, hblk.symm⟩
  | full ha hb ht =>
    have hinfo : t.info name = stampInfo (s.info name) :=
      (congrFun (kept_info ht) name).trans (setInfo_info_self s name stampInfo)
    refine ⟨rl, .full ha (fun x hc => hb x (h.candidate hc)) (setList_congr ht rl),
      h.congr ((kept_reservedBlk ht).trans rfl) ((kept_blkStatus ht).trans rfl) ?_ ?_, fun l' hl' => ?_⟩
    · rw [hinfo]
      rfl
    · rw [hinfo]
      rfl
    · cases hl'

/-- **A save** does the same with one more place. -/
lemma Saves.setList {ret : ℤ} (hs : Saves fl name Q size s ret t) (h : LastPlace fl name s rl)
    (hst : Stable fl name type pages (s.setList rl))
    (hp : type = .fullPage → fl.argPages size = pages) (hfit : CopiesFit fl size (s.info name))
    (h255 : NoBlock255 fl s.blkStatus) :
    ∃ rl', Saves fl name Q size (s.setList rl) ret (t.setList rl') ∧ LastPlace fl name t rl' := by
  -- the second of two rounds starts behind the block of the first
  have htwo : ∀ {l r u} (_ : Round fl name Q size 0 s (Sum.inr (0, l)) u)
      (_ : Round fl name Q size l.blkAddr (u.setInfo name settled) r t),
      ∃ rl₁ rl₂, Round fl name Q size 0 (s.setList rl) (Sum.inr (0, l)) (u.setList rl₁) ∧
        Round fl name Q size l.blkAddr ((u.setList rl₁).setInfo name settled) r (t.setList rl₂) ∧
        LastPlace fl name t rl₂ := by
    intro l r u hr hr'
    obtain ⟨rl₁, h1, h2, h3⟩ := hr.setList h hst (Or.inl rfl) h255
    obtain ⟨hst₁, ⟨ret, hret, -⟩ | ⟨-, hsaved⟩⟩ := hst.round hp hfit.1 h1
    · cases hret
    have hinfo : (u.setInfo name settled).info name = settled (u.info name) :=
      setInfo_info_self u name settled
    have hlast : LastPlace fl name (u.setInfo name settled) rl₁ :=
      h2.congr rfl rfl (by rw [hinfo]; rfl) (by rw [hinfo]; rfl)
    have hex : Excludes name (u.setInfo name settled) l.blkAddr := by
      refine (h3 l rfl).imp_right fun h => ?_
      rw [hinfo]
      exact h
    have h255' : NoBlock255 fl (u.setInfo name settled).blkStatus := by
      change NoBlock255 fl u.blkStatus
      rw [hr.keeps.1]
      exact h255
    obtain ⟨rl₂, h4, h5, -⟩ := hr'.setList hlast (hst₁.settled hsaved hp) hex h255'
    exact ⟨rl₁, rl₂, h1, h4, h5⟩
  cases hs with
  | refused hm => exact ⟨rl, .refused hm, h⟩
  | failed hm hr =>
    obtain ⟨rl', h1, h2, -⟩ := hr.setList h hst (Or.inl rfl) h255
    exact ⟨rl', .failed hm h1, h2⟩
  | once hm hty hr =>
    obtain ⟨rl', h1, h2, -⟩ := hr.setList h hst (Or.inl rfl) h255
    exact ⟨rl', .once hm hty h1, h2⟩
  | half hm hty hr hr' =>
    obtain ⟨rl₁, rl₂, h1, h2, h3⟩ := htwo hr hr'
    exact ⟨rl₂, .half hm hty h1 h2, h3⟩
  | twice hm hty hr hr' =>
    obtain ⟨rl₁, rl₂, h1, h2, h3⟩ := htwo hr hr'
    exact ⟨rl₂, .twice hm hty h1 h2, h3⟩

end

end Amlnf
