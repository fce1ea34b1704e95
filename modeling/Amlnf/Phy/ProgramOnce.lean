import Mathlib.Data.Set.Insert
import Amlnf.Phy.RecordPages
import Amlnf.Phy.Stable

set_option relaxedAutoImplicit false
set_option autoImplicit false

/-!
# Saves program each page once

On chips that report no failure, saves of any records in any order keep one invariant: every record
that has a block has it for itself, and the block of a `FULL_PAGE` record is erased behind its last
copy. So a save programs erased pages only, in its own block or in one it has erased before. The one
exception is the `HYNIX_1YNM_8GB` type: the test for room does not count the dummy pages, and for
some record sizes the last copy that is appended runs past the page list of the block.

## Main definitions

* `saveIdx` — the record pages a save programs, as numbers in its block.
* `Tidy` — what saves keep.
* `SaveInside`, `ProgramsOnce` — what a save and a sequence of saves may program.
* `DummiesFit` — the copies never run past the list.

## Main results

* `Tidy.round`, `Tidy.saves`, `Tidy.saveSeq` — a round, a save and a sequence of saves.
* `AtCopy.not_savesInside` — saves that run past the list.
* `saves_program_once_iff` — when saves program each page once and inside the block.

## Design

`slc_info->pagelist` has 128 entries, and `Flash.slcAddr` reads the memory behind it for numbers past
its end. So the numbers are looked at before the list is: `saveIdx` has them as the source computes
them, and `SaveInside` says besides that these are the record pages a save programs.
-/

namespace Amlnf

open Act

/-! ## The list of reserved blocks -/

section Places

variable {rl : List UInt8} {b : ℕ}

/-- Entering a block takes one free place. -/
lemma count_enlist (hb : b < 255) (h : (0xff : UInt8) ∈ rl) :
    (enlist rl b).count 0xff + 1 = rl.count 0xff := by
  induction rl with
  | nil => cases h
  | cons e l ih =>
    rw [enlist]
    by_cases he : e = 0xff
    · have hne : UInt8.ofNat b ≠ 0xff := by
        intro hx
        have h255 : (UInt8.ofNat b).toNat = 255 := by
          rw [hx]
          rfl
        rw [UInt8.toNat_ofNat', Nat.mod_eq_of_lt (by omega)] at h255
        omega
      rw [if_pos he, List.count_cons_of_ne hne, he, List.count_cons_self]
    · rw [if_neg he, List.count_cons_of_ne he, List.count_cons_of_ne he]
      exact ih (List.mem_of_ne_of_mem (Ne.symm he) h)

/-- Taking a block off the list gives one back. -/
lemma count_delist (hb : b < 255) (h : listed rl b = true) :
    (delist rl b).count 0xff = rl.count 0xff + 1 := by
  induction rl with
  | nil => cases h
  | cons e l ih =>
    rw [delist]
    simp only [listed, List.any_cons, Bool.or_eq_true, decide_eq_true_eq] at h ih
    by_cases he : e.toNat = b
    · have hne : e ≠ 0xff := by
        rintro rfl
        simp at he
        omega
      rw [if_pos he, List.count_cons_self, List.count_cons_of_ne hne]
    · rw [if_neg he, List.count_cons, List.count_cons, ih (h.resolve_left he)]
      omega

end Places

/-! ## Rounds -/

/-- The record pages a round of a save programs. -/
def roundIdx (fl : Flash) (a : ArgInfo) (size : ℕ) : List ℕ :=
  if Appends fl a size then writeIdx fl .fullPage size (a.validPageAddr + copyStep fl size)
  else writeIdx fl a.argType size 0

/-- The `arg_info` after a round that wrote block `b`. -/
def roundInfo (fl : Flash) (size b : ℕ) (a : ArgInfo) : ArgInfo :=
  if Appends fl a size then appendInfo fl size a else moveInfo b a

/-- The record pages a save programs; a `FULL_PAGE` record is written in two rounds. -/
def saveIdx (fl : Flash) (a : ArgInfo) (size : ℕ) : List ℕ :=
  roundIdx fl a size ++
    match a.argType with
    | .fullBlk => []
    | .fullPage => roundIdx fl (settled (roundInfo fl size a.validBlkAddr a)) size

/-- The names of the records. -/
def recNames : List RecName := [.nbbt, .fbbt, .ncnf, .nkey, .nsec, .nhix, .nenv]

/-- How many records have no block yet. -/
def St.unplaced (s : St) : ℕ := recNames.countP fun n => !(s.info n).argValid

/-- The copies of a `FULL_PAGE` record lie one after another, and the record pages behind the last
one are clean. -/
def Tail (fl : Flash) (m : Image) (size : ℕ) (a : ArgInfo) : Prop :=
  (∃ k, a.validPageAddr = k * copyStep fl size) ∧
    a.validPageAddr + copyStep fl size ≤ fl.pagesRead ∧
    CleanFrom fl m a.validBlkAddr (a.validPageAddr + copyStep fl size)

/-- What saves keep: no step fails, the blocks of the reserved area have numbers below 255, every
record that has a block has it for itself and in the list of reserved blocks, the list has a place
for each record that has none and one more, and the blocks of `FULL_PAGE` records are clean behind
the last copy. -/
structure Tidy (fl : Flash) (size : RecName → ℕ) (s : St) : Prop where
  ready : Ready s
  area : ∃ n, ReserveEnd fl s.blkStatus n ∧ n ≤ 255
  places : s.unplaced < s.reservedBlk.count 0xff
  empty : ∀ n, (s.info n).argValid = false → (s.info n).validPageAddr = 0
  small : ∀ n, (s.info n).argValid = true →
    0 < (s.info n).validBlkAddr ∧ (s.info n).validBlkAddr < 255
  listed : ∀ n, (s.info n).argValid = true → listed s.reservedBlk (s.info n).validBlkAddr = true
  apart : ∀ n n', (s.info n).argValid = true → (s.info n').argValid = true →
    (s.info n).validBlkAddr = (s.info n').validBlkAddr → n = n'
  tail : ∀ n, (s.info n).argValid = true → (s.info n).argType = .fullPage →
    (s.info n).updateFlag = false → Tail fl s.image (size n) (s.info n)

/-- The blocks a save may choose: the block of the record, or one that the search for a free block
can end with. -/
def Chosen (fl : Flash) (s : St) (name : RecName) (b : ℕ) : Prop :=
  (s.info name).argValid = true ∧ b = (s.info name).validBlkAddr ∨
    Candidate fl s.blkStatus s.reservedBlk 0 b

section Round

variable {fl : Flash} {size : RecName → ℕ} {name : RecName} {s t : St} {Q : Buf}

/-- Tidy is a matter of what is kept. -/
lemma Tidy.of_kept (h : Tidy fl size s) (hk : t.kept = s.kept) : Tidy fl size t := by
  have hi := kept_info hk
  have hl := kept_reservedBlk hk
  have hun : t.unplaced = s.unplaced := by rw [St.unplaced, hi, St.unplaced]
  constructor
  · exact h.ready.of_kept hk
  · rw [kept_blkStatus hk]
    exact h.area
  · rw [hun, hl]
    exact h.places
  all_goals simp only [hi, hl, kept_image hk]
  · exact h.empty
  · exact h.small
  · exact h.listed
  · exact h.apart
  · exact h.tail

/-- Numbers of the blocks the search for a free block can end with. -/
lemma Tidy.candidate_lt (h : Tidy fl size s) {b excl : ℕ}
    (hb : Candidate fl s.blkStatus s.reservedBlk excl b) : 0 < b ∧ b < 255 := by
  obtain ⟨n, hn, hle⟩ := h.area
  have h1 := (hn.lt_iff hb.1.1).2 hb.1
  have h2 := hb.1.1
  have h3 := fl.startBlk_pos
  omega

/-- A step that changes one record, after which it has a block, and leaves the others alone. -/
lemma Tidy.update (h : Tidy fl size s) (hready : Ready t) (htbl : t.blkStatus = s.blkStatus)
    (hother : ∀ n, n ≠ name → t.info n = s.info n)
    (hplaces : t.unplaced < t.reservedBlk.count 0xff)
    (hvalid : (t.info name).argValid = true)
    (hsmall : 0 < (t.info name).validBlkAddr ∧ (t.info name).validBlkAddr < 255)
    (hself : Amlnf.listed t.reservedBlk (t.info name).validBlkAddr = true)
    (hkeep : ∀ n, n ≠ name → (s.info n).argValid = true →
      Amlnf.listed t.reservedBlk (s.info n).validBlkAddr = true ∧
        (s.info n).validBlkAddr ≠ (t.info name).validBlkAddr ∧
        ∀ base, CleanFrom fl s.image (s.info n).validBlkAddr base →
          CleanFrom fl t.image (s.info n).validBlkAddr base)
    (htail : (t.info name).argType = .fullPage → Tail fl t.image (size name) (t.info name)) :
    Tidy fl size t := by
  constructor
  · exact hready
  · rw [htbl]
    exact h.area
  · exact hplaces
  · intro n hn
    by_cases hne : n = name
    · subst hne
      rw [hvalid] at hn
      cases hn
    · rw [hother n hne] at hn ⊢
      exact h.empty n hn
  · intro n hn
    by_cases hne : n = name
    · subst hne
      exact hsmall
    · rw [hother n hne] at hn ⊢
      exact h.small n hn
  · intro n hn
    by_cases hne : n = name
    · subst hne
      exact hself
    · rw [hother n hne] at hn ⊢
      exact (hkeep n hne hn).1
  · intro n n' hn hn' heq
    by_cases hne : n = name <;> by_cases hne' : n' = name
    · rw [hne, hne']
    · rw [hother n' hne'] at hn' heq
      rw [hne] at heq
      exact absurd heq.symm (hkeep n' hne' hn').2.1
    · rw [hother n hne] at hn heq
      rw [hne'] at heq
      exact absurd heq (hkeep n hne hn).2.1
    · rw [hother n hne] at hn heq
      rw [hother n' hne'] at hn' heq
      exact h.apart n n' hn hn' heq
  · intro n hn hty hup
    by_cases hne : n = name
    · subst hne
      exact htail hty
    · rw [hother n hne] at hn hty hup ⊢
      obtain ⟨h1, h2, h3⟩ := h.tail n hn hty hup
      exact ⟨h1, h2, (hkeep n hne hn).2.2 _ h3⟩

/-- Appending a copy is about one record. -/
lemma appended_info_of_ne {n : RecName} (hne : n ≠ name) (sz : ℕ) :
    (s.appended fl name Q sz).info n = s.info n := if_neg hne

/-- So is moving it. -/
lemma moved_info_of_ne {n : RecName} (hne : n ≠ name) (sz b : ℕ) :
    (s.moved fl name Q sz b).info n = s.info n := if_neg hne

/-- The room for an appended copy and its dummy page. -/
lemma Tail.room {m : Image} {sz : ℕ} {a : ArgInfo} (h : Tail fl m sz a) (hspill : NoSpill fl sz)
    (ha : Appends fl a sz) : a.validPageAddr + 2 * copyStep fl sz ≤ fl.pagesRead := by
  obtain ⟨⟨k, hk⟩, -⟩ := h
  have hle := ha.2.2.2
  rw [hk] at hle ⊢
  exact hspill k hle

/-- **A round that appends** programs clean pages and keeps the rest tidy. -/
lemma Tidy.appended (h : Tidy fl size s) (hspill : NoSpill fl (size name))
    (ha : Appends fl (s.info name) (size name)) :
    OnErased fl s.image (appendOps fl s name Q (size name)) ∧
      Tail fl (s.appended fl name Q (size name)).image (size name)
        ((s.appended fl name Q (size name)).info name) ∧
      Tidy fl size (s.appended fl name Q (size name)) := by
  have hva := ha.1
  have htail := h.tail name hva ha.2.2.1 ha.2.1
  have hroom := htail.room hspill ha
  obtain ⟨⟨k, hk⟩, -, hclean⟩ := htail
  have hstr : Striped fl (s.info name).validBlkAddr
      (List.range' ((s.info name).validPageAddr + copyStep fl (size name)) (copyStep fl (size name)))
      (appendOps fl s name Q (size name)) := striped_fullPageOps
  have hin : ∀ i ∈ List.range' ((s.info name).validPageAddr + copyStep fl (size name))
      (copyStep fl (size name)),
      (s.info name).validPageAddr + copyStep fl (size name) ≤ i ∧ i < fl.pagesRead := by
    intro i hi
    rw [List.mem_range'_1] at hi
    omega
  have hsmall := h.small name hva
  have hpr : fl.pagesRead ≤ 1024 := fl.pagesRead_le.trans fl.ppb_le
  have hinfo : (s.appended fl name Q (size name)).info name =
      appendInfo fl (size name) (s.info name) := appended_info_self s name Q (size name)
  have hblk : ((s.appended fl name Q (size name)).info name).validBlkAddr =
      (s.info name).validBlkAddr := by
    rw [hinfo]
    exact Nat.mod_eq_of_lt (by omega)
  have hpage : ((s.appended fl name Q (size name)).info name).validPageAddr =
      (s.info name).validPageAddr + copyStep fl (size name) := by
    rw [hinfo]
    exact Nat.mod_eq_of_lt (by omega)
  have htail' : Tail fl (s.appended fl name Q (size name)).image (size name)
      ((s.appended fl name Q (size name)).info name) := by
    rw [Tail, hblk, hpage]
    refine ⟨⟨k + 1, by rw [hk, Nat.succ_mul]⟩, by omega, ?_⟩
    refine CleanFrom.striped (fun i hi => hclean i (by omega)) hstr (fun i hi => (hin i hi).2) ?_
    intro _ i hi
    rw [List.mem_range'_1] at hi
    omega
  refine ⟨hstr.onErased List.nodup_range' hin hclean, htail', ?_⟩
  have hun : (s.appended fl name Q (size name)).unplaced = s.unplaced := by
    refine List.countP_congr fun n _ => ?_
    by_cases hne : n = name
    · rw [hne, hinfo]
      exact Iff.rfl
    · rw [appended_info_of_ne hne]
  refine h.update ⟨h.ready.calm, h.ready.lock⟩ rfl (fun n hne => appended_info_of_ne hne _) ?_ ?_ ?_ ?_
    ?_ fun _ => htail'
  · rw [hun]
    exact h.places
  · rw [hinfo]
    exact hva
  · rw [hblk]
    exact hsmall
  · rw [hblk]
    exact h.listed name hva
  · intro n hne hvn
    have hblkne : (s.info n).validBlkAddr ≠ (s.info name).validBlkAddr :=
      fun heq => hne (h.apart n name hvn hva heq)
    refine ⟨h.listed n hvn, by rw [hblk]; exact hblkne, fun base hc => ?_⟩
    exact hc.striped hstr (fun i hi => (hin i hi).2) fun heq => absurd heq hblkne

/-- A record that gets its first block is one less without. -/
lemma unplaced_moved (fl : Flash) (s : St) (name : RecName) (Q : Buf) (sz b : ℕ) :
    (s.moved fl name Q sz b).unplaced + (if (s.info name).argValid then 0 else 1) =
      s.unplaced := by
  have key : ∀ l : List RecName, l.Nodup →
      l.countP (fun n => !((s.moved fl name Q sz b).info n).argValid) +
        (if (s.info name).argValid ∨ name ∉ l then 0 else 1) =
      l.countP fun n => !(s.info n).argValid := by
    intro l
    induction l with
    | nil =>
      intro _
      simp
    | cons n l ih =>
      intro hnd
      obtain ⟨hn, hnd'⟩ := List.nodup_cons.1 hnd
      rw [List.countP_cons, List.countP_cons, ← ih hnd']
      by_cases hne : n = name
      · subst hne
        rw [moved_info_self]
        cases hv : (s.info n).argValid <;> simp [moveInfo, hv, hn]
      · rw [moved_info_of_ne hne]
        simp [Ne.symm hne]
        omega
  have hmem : name ∈ recNames := by cases name <;> decide
  have h := key recNames (by decide)
  simp only [hmem, not_true_eq_false, or_false] at h
  exact h

/-- The list of reserved blocks after a record has moved to the free block `b`. -/
lemma Tidy.moveList (h : Tidy fl size s) (name : RecName) {b excl : ℕ}
    (hb : Candidate fl s.blkStatus s.reservedBlk excl b) :
    (moveList (s.info name) b s.reservedBlk).count 0xff + (if (s.info name).argValid then 0 else 1) =
        s.reservedBlk.count 0xff ∧
      Amlnf.listed (moveList (s.info name) b s.reservedBlk) b = true ∧
      ∀ x, x ≠ 255 → ((s.info name).argValid = true → x ≠ (s.info name).validBlkAddr) →
        Amlnf.listed s.reservedBlk x = true →
        Amlnf.listed (moveList (s.info name) b s.reservedBlk) x = true := by
  have hlt := h.candidate_lt hb
  have hfree : (0xff : UInt8) ∈ s.reservedBlk :=
    List.count_pos_iff.1 (Nat.lt_of_le_of_lt (Nat.zero_le _) h.places)
  have henl := count_enlist hlt.2 hfree
  have hself := listed_enlist_self hfree (show b < 256 by omega)
  by_cases hva : (s.info name).argValid = true
  · have hsm := h.small name hva
    have hold := h.listed name hva
    have hne : b ≠ (s.info name).validBlkAddr := by
      rintro rfl
      have := hb.2.1
      rw [hold] at this
      cases this
    rw [Amlnf.moveList, if_pos ⟨hva, by omega⟩, if_pos hva]
    refine ⟨?_, listed_delist_of_ne hne hself, fun x hx hxo hl => ?_⟩
    · rw [count_delist hsm.2 (listed_enlist_of_listed b (by omega) hold)]
      omega
    · exact listed_delist_of_ne (hxo hva) (listed_enlist_of_listed b hx hl)
  · rw [Amlnf.moveList, if_neg fun hc => hva hc.1, if_neg hva]
    exact ⟨henl, hself, fun x hx _ hl => listed_enlist_of_listed b hx hl⟩

/-- **A round that moves the record** programs clean pages and keeps the rest tidy. -/
lemma Tidy.moved (h : Tidy fl size s) {b excl : ℕ}
    (hfit : Fits fl (s.info name).argType (size name))
    (hb : Candidate fl s.blkStatus s.reservedBlk excl b) :
    OnErased fl s.image (moveOps fl s name Q (size name) b) ∧
      ((s.info name).argType = .fullPage → Tail fl (s.moved fl name Q (size name) b).image
        (size name) ((s.moved fl name Q (size name) b).info name)) ∧
      Tidy fl size (s.moved fl name Q (size name) b) := by
  have hlt := h.candidate_lt hb
  have hinfo : (s.moved fl name Q (size name) b).info name = moveInfo b (s.info name) :=
    moved_info_self s name Q (size name) b
  have hblk : ((s.moved fl name Q (size name) b).info name).validBlkAddr = b := by
    rw [hinfo]
    exact Nat.mod_eq_of_lt (by omega)
  have hpage : ((s.moved fl name Q (size name) b).info name).validPageAddr = 0 := by
    rw [hinfo, moveInfo]
    cases hv : (s.info name).argValid with
    | true => rfl
    | false => exact h.empty name hv
  have hstr : Striped fl b (writeIdx fl (s.info name).argType (size name) 0)
      (writeOps fl (s.info name).argType (nextTag s name) Q (size name) b 0) :=
    striped_writeOps _ hfit.1
  have hin : ∀ i ∈ writeIdx fl (s.info name).argType (size name) 0, 0 ≤ i ∧ i < fl.pagesRead := by
    intro i hi
    refine ⟨Nat.zero_le i, ?_⟩
    cases hty : (s.info name).argType with
    | fullBlk =>
      rw [hty] at hi
      exact (mem_fullBlkIdx _ hi).2
    | fullPage =>
      rw [hty, writeIdx, List.mem_range'_1] at hi
      have := hfit.2 hty
      omega
  -- the block is erased, written from its first page on, and the old block is erased
  let m1 := s.image.apply fl (.erase (fl.resChip b) (fl.resRow b))
  have himg : (s.moved fl name Q (size name) b).image =
      (m1.replay fl (writeOps fl (s.info name).argType (nextTag s name) Q (size name) b 0)).replay fl
        (leaveOps fl (s.info name)) := by
    change s.image.replay fl (moveOps fl s name Q (size name) b) = _
    rw [moveOps, Image.replay_cons, Image.replay_append]
  have hleave : ∀ (m : Image) (x base : ℕ), CleanFrom fl m x base →
      CleanFrom fl (m.replay fl (leaveOps fl (s.info name))) x base := by
    intro m x base hc
    unfold leaveOps
    split
    · exact hc.erase _ _
    · exact hc
  have htail : (s.info name).argType = .fullPage → Tail fl (s.moved fl name Q (size name) b).image
      (size name) ((s.moved fl name Q (size name) b).info name) := by
    intro hty
    rw [Tail, hblk, hpage, himg]
    refine ⟨⟨0, by omega⟩, by have := hfit.2 hty; omega, hleave _ _ _ ?_⟩
    refine CleanFrom.striped (cleanFrom_erase _ _ _) hstr (fun i hi => (hin i hi).2) fun _ i hi => ?_
    rw [hty, writeIdx, List.mem_range'_1] at hi
    exact hi.2
  obtain ⟨hcount, hself, hothers⟩ := h.moveList name hb
  refine ⟨?_, htail, ?_⟩
  · change OnErased fl s.image ([.erase (fl.resChip b) (fl.resRow b)] ++ _)
    refine onErased_append.2 ⟨onErased_erase _ _ _ _, onErased_append.2 ⟨?_, ?_⟩⟩
    · exact hstr.onErased (nodup_writeIdx _) hin (cleanFrom_erase _ _ _)
    · unfold leaveOps
      split
      · exact onErased_erase _ _ _ _
      · trivial
  · refine h.update ⟨h.ready.calm, h.ready.lock⟩ rfl (fun n hne => moved_info_of_ne hne _ _) ?_ ?_ ?_
      ?_ ?_ fun hty => htail (by rw [hinfo] at hty; exact hty)
    · have hun := unplaced_moved fl s name Q (size name) b
      have hpl := h.places
      change _ < (Amlnf.moveList (s.info name) b s.reservedBlk).count 0xff
      omega
    · rw [hinfo]
      rfl
    · rw [hblk]
      exact hlt
    · rw [hblk]
      exact hself
    · intro n hne hvn
      have hl := h.listed n hvn
      have hbn : (s.info n).validBlkAddr ≠ b := by
        rintro rfl
        have := hb.2.1
        rw [hl] at this
        cases this
      refine ⟨hothers _ ?_ ?_ hl, by rw [hblk]; exact hbn, fun base hc => ?_⟩
      · have := h.small n hvn
        omega
      · exact fun hva heq => hne (h.apart n name hvn hva heq)
      · rw [himg]
        exact hleave _ _ _ ((hc.erase _ _).striped hstr (fun i hi => (hin i hi).2)
          fun heq => absurd heq hbn)

/-- Only the position of a record matters, and `update_flag` as far as it is clear. -/
lemma Tidy.setInfo (h : Tidy fl size s) {f : ArgInfo → ArgInfo}
    (hf : ∀ a, (f a).argValid = a.argValid ∧ (f a).validBlkAddr = a.validBlkAddr ∧
      (f a).validPageAddr = a.validPageAddr ∧ (f a).argType = a.argType)
    (htail : (s.info name).argValid = true → (s.info name).argType = .fullPage →
      (f (s.info name)).updateFlag = false → Tail fl s.image (size name) (s.info name)) :
    Tidy fl size (s.setInfo name f) := by
  have hfield : ∀ {α : Type} (g : ArgInfo → α), (∀ a, g (f a) = g a) →
      ∀ n, g ((s.setInfo name f).info n) = g (s.info n) := by
    intro α g hg n
    by_cases hne : n = name
    · rw [hne, setInfo_info_self, hg]
    · exact congrArg g (if_neg hne)
  have hv := hfield ArgInfo.argValid fun a => (hf a).1
  have hb := hfield ArgInfo.validBlkAddr fun a => (hf a).2.1
  have hp := hfield ArgInfo.validPageAddr fun a => (hf a).2.2.1
  have hty := hfield ArgInfo.argType fun a => (hf a).2.2.2
  have hun : (s.setInfo name f).unplaced = s.unplaced := List.countP_congr fun n _ => by rw [hv]
  refine ⟨⟨h.ready.calm, h.ready.lock⟩, h.area, ?_, ?_, ?_, ?_, ?_, ?_⟩
  · rw [hun]
    exact h.places
  all_goals simp only [Tail, hv, hb, hp, hty]
  · exact h.empty
  · exact h.small
  · exact h.listed
  · exact h.apart
  · intro n hn hfp hup
    by_cases hne : n = name
    · subst hne
      rw [setInfo_info_self] at hup
      exact htail hn hfp hup
    · have hkeep : (s.setInfo name f).info n = s.info n := if_neg hne
      rw [hkeep] at hup
      exact h.tail n hn hfp hup

/-- A new timestamp keeps the records tidy. -/
lemma Tidy.stamped (h : Tidy fl size s) : Tidy fl size (s.stamped name) :=
  h.setInfo (fun _ => ⟨rfl, rfl, rfl, rfl⟩) fun hv hty hup => h.tail name hv hty hup

/-- So does a settled record, if its copies lie one after another. -/
lemma Tidy.settled (h : Tidy fl size s)
    (htail : (s.info name).argType = .fullPage → Tail fl s.image (size name) (s.info name)) :
    Tidy fl size (s.setInfo name settled) :=
  h.setInfo (fun _ => ⟨rfl, rfl, rfl, rfl⟩) fun _ hty _ => htail hty

/-! ## Rounds and saves -/

/-- The commands between two states program erased pages only, each of them a page that goes with
one of the record pages `is` of a block the save may choose. -/
def Writes (fl : Flash) (name : RecName) (is : List ℕ) (s t : St) : Prop :=
  ∃ ops, t.log = s.log ++ ops ∧ t.image = s.image.replay fl ops ∧ OnErased fl s.image ops ∧
    ∀ op ∈ ops, ∀ x, op.Programs x →
      ∃ b, Chosen fl s name b ∧ x.1 = fl.resChip b ∧ ∃ i ∈ is, x.2 ∈ recPages fl b i

/-- What a save writes is a matter of what is kept. -/
lemma Writes.of_kept {u : St} {is : List ℕ} (h : Writes fl name is s t) (hk : u.kept = t.kept) :
    Writes fl name is s u := by
  rw [Writes, kept_log hk, kept_image hk]
  exact h

/-- Nothing is written. -/
lemma writes_refl (is : List ℕ) (h1 : t.log = s.log) (h2 : t.image = s.image) :
    Writes fl name is s t :=
  ⟨[], by rw [h1, List.append_nil], h2, trivial, fun _ hop => absurd hop List.not_mem_nil⟩

/-- Rounds behind one another, the second in a block the first one might have chosen. -/
lemma Writes.trans {u v : St} {is js : List ℕ} (h : Writes fl name is s u)
    (h1 : v.log = u.log) (h2 : v.image = u.image) (hch : ∀ b, Chosen fl v name b → Chosen fl s name b)
    (h' : Writes fl name js v t) : Writes fl name (is ++ js) s t := by
  obtain ⟨xs, hlog, himg, hon, hin⟩ := h
  obtain ⟨ys, hlog', himg', hon', hin'⟩ := h'
  refine ⟨xs ++ ys, ?_, ?_, ?_, fun op hop x hx => ?_⟩
  · rw [hlog', h1, hlog, List.append_assoc]
  · rw [himg', h2, himg, Image.replay_append]
  · rw [h2, himg] at hon'
    exact onErased_append.2 ⟨hon, hon'⟩
  · rcases List.mem_append.1 hop with hop | hop
    · obtain ⟨b, hb, hc, i, hi, hp⟩ := hin op hop x hx
      exact ⟨b, hb, hc, i, List.mem_append_left _ hi, hp⟩
    · obtain ⟨b, hb, hc, i, hi, hp⟩ := hin' op hop x hx
      exact ⟨b, hch b hb, hc, i, List.mem_append_right _ hi, hp⟩

/-- **One round of a save.** -/
lemma Tidy.round {r : ℤ ⊕ ℤ × SaveLocals} (h : Tidy fl size s)
    (hsz : Storable fl (s.info name).argType (fl.argPages (size name)) (size name)) {excl : ℕ}
    (hr : Round fl name Q (size name) excl s r t) :
    Tidy fl size t ∧ Writes fl name (roundIdx fl (s.info name) (size name)) s t ∧
      ((∃ ret, r = Sum.inl ret) ∨
        (∃ b, t.info name = roundInfo fl (size name) b (s.info name)) ∧
        ((s.info name).argType = .fullPage → Tail fl t.image (size name) (t.info name)) ∧
        ∀ b, Chosen fl t name b → Chosen fl s name b) := by
  cases hr with
  | append ha _ _ ht =>
    have hspill := (hsz.2 ha.2.2.1).2
    obtain ⟨hon, htail, htidy⟩ := h.appended (Q := Q) hspill ha
    refine ⟨htidy.of_kept ht, Writes.of_kept ⟨_, rfl, rfl, hon, fun op hop x hx => ?_⟩ ht, Or.inr ?_⟩
    · obtain ⟨hc, i, hi, hp⟩ := Striped.programs striped_fullPageOps hop hx
      refine ⟨_, Or.inl ⟨ha.1, rfl⟩, hc, i, ?_, hp⟩
      rw [roundIdx, if_pos ha]
      exact hi
    · have hinfo : t.info name = appendInfo fl (size name) (s.info name) := by
        rw [kept_info ht]
        exact appended_info_self s name Q (size name)
      refine ⟨⟨0, by rw [hinfo, roundInfo, if_pos ha]⟩, fun _ => ?_, fun b hb => ?_⟩
      · rw [kept_info ht, kept_image ht]
        exact htail
      · rw [Chosen, hinfo, kept_blkStatus ht, kept_reservedBlk ht] at hb
        refine hb.imp_left fun hb => ⟨ha.1, hb.2.trans ?_⟩
        have := h.small name ha.1
        exact Nat.mod_eq_of_lt (by omega)
  | @move l _ ha _ hb _ ht =>
    obtain ⟨hon, htail, htidy⟩ := h.moved (Q := Q) hsz.1 hb
    have hlt := h.candidate_lt hb
    have hcand : Candidate fl s.blkStatus s.reservedBlk 0 l.blkAddr :=
      ⟨hb.1, hb.2.1, by omega, hb.2.2.2⟩
    have hinfo : t.info name = moveInfo l.blkAddr (s.info name) := by
      rw [kept_info ht]
      exact moved_info_self s name Q (size name) l.blkAddr
    refine ⟨htidy.of_kept ht, Writes.of_kept ⟨_, rfl, rfl, hon, fun op hop x hx => ?_⟩ ht, Or.inr ?_⟩
    · rcases List.mem_cons.1 hop with rfl | hop
      · exact absurd hx id
      rcases List.mem_append.1 hop with hop | hop
      · obtain ⟨hc, i, hi, hp⟩ := Striped.programs (striped_writeOps _ hsz.1.1) hop hx
        refine ⟨_, Or.inr hcand, hc, i, ?_, hp⟩
        rw [roundIdx, if_neg ha]
        exact hi
      · unfold leaveOps at hop
        split at hop
        · obtain rfl := List.mem_singleton.1 hop
          exact absurd hx id
        · cases hop
    · refine ⟨⟨l.blkAddr, by rw [hinfo, roundInfo, if_neg ha]⟩, fun hty => ?_, fun b hb' => ?_⟩
      · rw [kept_info ht, kept_image ht]
        exact htail hty
      · rw [Chosen, hinfo, kept_blkStatus ht, kept_reservedBlk ht] at hb'
        rcases hb' with ⟨-, rfl⟩ | hb'
        · have hmod : (moveInfo l.blkAddr (s.info name)).validBlkAddr = l.blkAddr :=
            Nat.mod_eq_of_lt (by omega)
          rw [hmod]
          exact Or.inr hcand
        · by_cases hown : (s.info name).argValid = true ∧ b = (s.info name).validBlkAddr
          · exact Or.inl hown
          · refine Or.inr ⟨hb'.1, ?_, hb'.2.2⟩
            by_contra hl
            have h255 : b < 255 := by
              obtain ⟨n, hn, hle⟩ := h.area
              have := (hn.lt_iff hb'.1.1).2 hb'.1
              omega
            have hl' := (h.moveList name hb).2.2 b (by omega) (fun hv heq => hown ⟨hv, heq⟩)
              (by simpa using hl)
            have hno : Amlnf.listed (Amlnf.moveList (s.info name) l.blkAddr s.reservedBlk) b =
                false := hb'.2.1
            rw [hl'] at hno
            cases hno
  | full _ _ ht =>
    have hw : Writes fl name (roundIdx fl (s.info name) (size name)) s (s.stamped name) :=
      writes_refl _ rfl rfl
    exact ⟨h.stamped.of_kept ht, hw.of_kept ht, Or.inl ⟨_, rfl⟩⟩

/-- The second round of a save does not depend on the number of the block the first one wrote. -/
lemma roundIdx_roundInfo (sz b b' : ℕ) (a : ArgInfo) :
    roundIdx fl (settled (roundInfo fl sz b a)) sz = roundIdx fl (settled (roundInfo fl sz b' a)) sz := by
  unfold roundInfo
  split <;> rfl

/-- The record pages of a save, by type. -/
lemma saveIdx_fullPage {a : ArgInfo} (hty : a.argType = .fullPage) (sz b : ℕ) :
    saveIdx fl a sz = roundIdx fl a sz ++ roundIdx fl (settled (roundInfo fl sz b a)) sz := by
  rw [saveIdx, hty, roundIdx_roundInfo sz b a.validBlkAddr]

/-- At more record pages. -/
lemma Writes.mono {is js : List ℕ} (h : Writes fl name is s t) (hsub : ∀ i ∈ is, i ∈ js) :
    Writes fl name js s t := by
  obtain ⟨ops, h1, h2, h3, h4⟩ := h
  refine ⟨ops, h1, h2, h3, fun op hop x hx => ?_⟩
  obtain ⟨b, hb, hc, i, hi, hp⟩ := h4 op hop x hx
  exact ⟨b, hb, hc, i, hsub i hi, hp⟩

/-- **A save** programs erased pages of the blocks it chooses, and keeps the records tidy. -/
lemma Tidy.saves {ret : ℤ} (h : Tidy fl size s)
    (hsz : Storable fl (s.info name).argType (fl.argPages (size name)) (size name))
    (hs : Saves fl name Q (size name) s ret t) :
    Tidy fl size t ∧ Writes fl name (saveIdx fl (s.info name) (size name)) s t := by
  have hleft : ∀ i ∈ roundIdx fl (s.info name) (size name),
      i ∈ saveIdx fl (s.info name) (size name) := fun i hi => List.mem_append_left _ hi
  -- the first round of two, and the state the second one starts from
  have hfirst : ∀ {l u}, (s.info name).argType = .fullPage →
      Round fl name Q (size name) 0 s (Sum.inr (0, l)) u →
      ∀ {r w}, Round fl name Q (size name) l.blkAddr (u.setInfo name Amlnf.settled) r w →
        Tidy fl size w ∧ Writes fl name (saveIdx fl (s.info name) (size name)) s w := by
    intro l u hty hr r w hr'
    obtain ⟨hu, hwu, ⟨ret, hret⟩ | ⟨⟨b, hb⟩, htail, hch⟩⟩ := h.round hsz hr
    · cases hret
    have hinfo : (u.setInfo name Amlnf.settled).info name =
        Amlnf.settled (roundInfo fl (size name) b (s.info name)) := by
      rw [setInfo_info_self, hb]
    have hty' : ((u.setInfo name Amlnf.settled).info name).argType = (s.info name).argType := by
      rw [hinfo, roundInfo]
      split <;> rfl
    obtain ⟨hw, hww, -⟩ := (hu.settled fun _ => htail hty).round (by rw [hty']; exact hsz) hr'
    refine ⟨hw, ?_⟩
    rw [saveIdx_fullPage hty (size name) b, ← hinfo]
    refine hwu.trans (v := u.setInfo name Amlnf.settled) rfl rfl (fun x hx => hch x ?_) hww
    rw [Chosen, setInfo_info_self] at hx
    exact hx
  cases hs with
  | refused _ => exact ⟨h, writes_refl _ rfl rfl⟩
  | failed _ hr =>
    obtain ⟨h1, h2, -⟩ := h.round hsz hr
    exact ⟨h1, h2.mono hleft⟩
  | once _ _ hr =>
    obtain ⟨h1, h2, -⟩ := h.round hsz hr
    exact ⟨h1, h2.mono hleft⟩
  | half _ hty hr hr' => exact hfirst hty hr hr'
  | twice _ hty hr hr' => exact hfirst hty hr hr'

/-- Nothing is left out: a save that succeeds programs each of these record pages. -/
lemma Saves.covers {ret : ℤ} {sz : ℕ} (hfit : fl.argPages sz ≤ fl.pagesRead)
    (hs : Saves fl name Q sz s ret t) (h0 : 0 ≤ ret) :
    ∃ ops, t.log = s.log ++ ops ∧ ∀ i ∈ saveIdx fl (s.info name) sz,
      ∃ b d o, .program (fl.resChip b) (fl.recPage b i) d o ∈ ops := by
  have hround : ∀ {l excl} {s t : St}, Round fl name Q sz excl s (Sum.inr (0, l)) t →
      (∃ b, t.info name = roundInfo fl sz b (s.info name)) ∧
      ∃ ops, t.log = s.log ++ ops ∧ ∀ i ∈ roundIdx fl (s.info name) sz,
        ∃ b d o, .program (fl.resChip b) (fl.recPage b i) d o ∈ ops := by
    intro l excl s t hr
    cases hr with
    | append ha _ _ ht =>
      refine ⟨⟨0, ?_⟩, appendOps fl s name Q sz, (kept_log ht).trans rfl, fun i hi => ?_⟩
      · rw [kept_info ht, appended_info_self, roundInfo, if_pos ha]
      · rw [roundIdx, if_pos ha] at hi
        obtain ⟨d, o, hop⟩ := Striped.covers striped_fullPageOps hi
        exact ⟨_, d, o, hop⟩
    | move ha _ _ _ ht =>
      refine ⟨⟨l.blkAddr, ?_⟩, moveOps fl s name Q sz l.blkAddr, (kept_log ht).trans rfl,
        fun i hi => ?_⟩
      · rw [kept_info ht, moved_info_self, roundInfo, if_neg ha]
      · rw [roundIdx, if_neg ha] at hi
        obtain ⟨d, o, hop⟩ := Striped.covers (striped_writeOps _ hfit) hi
        exact ⟨_, d, o, List.mem_cons_of_mem _ (List.mem_append_left _ hop)⟩
  have hneg : ∀ {ret excl} {s t : St}, Round fl name Q sz excl s (Sum.inl ret) t → ret < 0 := by
    intro ret excl s t hr
    cases hr with
    | full _ _ _ => decide
  cases hs with
  | refused _ => exact absurd h0 (by decide)
  | failed _ hr => exact absurd (hneg hr) (by omega)
  | once _ hty hr =>
    obtain ⟨-, ops, hlog, hops⟩ := hround hr
    refine ⟨ops, hlog, fun i hi => hops i ?_⟩
    rw [saveIdx, hty, List.append_nil] at hi
    exact hi
  | half _ _ _ hr' => exact absurd (hneg hr') (by omega)
  | twice _ hty hr hr' =>
    obtain ⟨⟨b, hb⟩, xs, hlog, hxs⟩ := hround hr
    obtain ⟨-, ys, hlog', hys⟩ := hround hr'
    rw [setInfo_info_self, hb] at hys
    refine ⟨xs ++ ys, ?_, fun i hi => ?_⟩
    · rw [hlog', ← List.append_assoc, ← hlog]
      rfl
    · rw [saveIdx_fullPage hty sz b] at hi
      rcases List.mem_append.1 hi with hi | hi
      · obtain ⟨b', d, o, hop⟩ := hxs i hi
        exact ⟨b', d, o, List.mem_append_left _ hop⟩
      · obtain ⟨b', d, o, hop⟩ := hys i hi
        exact ⟨b', d, o, List.mem_append_right _ hop⟩

/-- The record pages of a round lie on the list. -/
lemma roundIdx_lt {sz : ℕ} {a : ArgInfo} (hsz : Storable fl a.argType (fl.argPages sz) sz)
    (hk : Appends fl a sz → ∃ k, a.validPageAddr = k * copyStep fl sz) :
    ∀ i ∈ roundIdx fl a sz, i < fl.pagesRead := by
  intro i hi
  unfold roundIdx at hi
  split at hi
  · rename_i ha
    obtain ⟨k, hk⟩ := hk ha
    have hle := ha.2.2.2
    rw [hk] at hle
    have := (hsz.2 ha.2.2.1).2 k hle
    rw [writeIdx, List.mem_range'_1, hk] at hi
    omega
  · cases hty : a.argType with
    | fullBlk =>
      rw [hty] at hi
      exact (mem_fullBlkIdx _ hi).2
    | fullPage =>
      have := hsz.1.2 hty
      rw [hty, writeIdx, List.mem_range'_1] at hi
      omega

/-- So do those of a save. -/
lemma Tidy.saveIdx_lt (h : Tidy fl size s)
    (hsz : Storable fl (s.info name).argType (fl.argPages (size name)) (size name)) :
    ∀ i ∈ saveIdx fl (s.info name) (size name), i < fl.pagesRead := by
  have hmul : Appends fl (s.info name) (size name) →
      ∃ k, (s.info name).validPageAddr = k * copyStep fl (size name) :=
    fun ha => (h.tail name ha.1 ha.2.2.1 ha.2.1).1
  intro i hi
  rcases List.mem_append.1 hi with hi | hi
  · exact roundIdx_lt hsz hmul i hi
  cases hty : (s.info name).argType with
  | fullBlk =>
    rw [hty] at hi
    cases hi
  | fullPage =>
    rw [hty] at hi
    refine roundIdx_lt ?_ (fun _ => ?_) i hi
    · have hty' : (Amlnf.settled (roundInfo fl (size name) (s.info name).validBlkAddr
          (s.info name))).argType = (s.info name).argType := by
        unfold roundInfo
        split <;> rfl
      rw [hty']
      exact hsz
    · unfold roundInfo
      split
      · rename_i ha
        obtain ⟨k, hk⟩ := hmul ha
        have hroom := (h.tail name ha.1 ha.2.2.1 ha.2.1).room (hsz.2 hty).2 ha
        have hpr : fl.pagesRead ≤ 1024 := fl.pagesRead_le.trans fl.ppb_le
        refine ⟨k + 1, ?_⟩
        rw [Nat.succ_mul, ← hk]
        exact Nat.mod_eq_of_lt (by omega)
      · refine ⟨0, ?_⟩
        rw [Nat.zero_mul]
        cases hv : (s.info name).argValid with
        | true => simp [Amlnf.settled, moveInfo, hv]
        | false => simp [Amlnf.settled, moveInfo, hv, h.empty name hv]

/-- A round leaves the types of the records as they are. -/
lemma Round.argType_eq {r : ℤ ⊕ ℤ × SaveLocals} {sz excl : ℕ}
    (hr : Round fl name Q sz excl s r t) (n : RecName) :
    (t.info n).argType = (s.info n).argType := by
  by_cases hne : n = name
  · rw [hne]
    exact hr.keeps.2.2.2.2
  cases hr with
  | append _ _ _ ht => rw [kept_info ht, appended_info_of_ne hne]
  | move _ _ _ _ ht => rw [kept_info ht, moved_info_of_ne hne]
  | full _ _ ht =>
    rw [kept_info ht]
    exact congrArg ArgInfo.argType (if_neg hne)

/-- A save keeps what it does not work on. -/
lemma Saves.keeps {ret : ℤ} {sz : ℕ} (h : Saves fl name Q sz s ret t) :
    t.blkStatus = s.blkStatus ∧ t.allowMeta = s.allowMeta ∧ (Ready s → Ready t) ∧
      ∀ n, (t.info n).argType = (s.info n).argType := by
  have hround : ∀ {r excl} {s t : St}, Round fl name Q sz excl s r t →
      t.blkStatus = s.blkStatus ∧ t.allowMeta = s.allowMeta ∧ (Ready s → Ready t) ∧
        ∀ n, (t.info n).argType = (s.info n).argType := fun hr =>
    ⟨hr.keeps.1, hr.keeps.2.2.1, hr.keeps.2.2.2.1, hr.argType_eq⟩
  have htwo : ∀ {r r' excl excl'} {u : St}, Round fl name Q sz excl s r u →
      Round fl name Q sz excl' (u.setInfo name Amlnf.settled) r' t →
      t.blkStatus = s.blkStatus ∧ t.allowMeta = s.allowMeta ∧ (Ready s → Ready t) ∧
        ∀ n, (t.info n).argType = (s.info n).argType := by
    intro r r' excl excl' u hr hr'
    obtain ⟨h1, h2, h3, h4⟩ := hround hr
    obtain ⟨h1', h2', h3', h4'⟩ := hround hr'
    refine ⟨h1'.trans h1, h2'.trans h2, fun hs => h3' ((h3 hs).setInfo name _), fun n => ?_⟩
    rw [h4', ← h4]
    by_cases hne : n = name
    · rw [hne, setInfo_info_self]
      rfl
    · exact congrArg ArgInfo.argType (if_neg hne)
  cases h with
  | refused _ => exact ⟨rfl, rfl, id, fun _ => rfl⟩
  | failed _ hr => exact hround hr
  | once _ _ hr => exact hround hr
  | half _ _ hr hr' => exact htwo hr hr'
  | twice _ _ hr hr' => exact htwo hr hr'

end Round

/-! ## Sequences of saves -/

/-- A page number inside the block and, for the Hynix types, inside the page list. -/
def InList (fl : Flash) (i : ℕ) : Prop :=
  i < fl.ppb ∧ (fl.newType.isHynix = true → i < fl.newType.pagelist.length)

/-- The record pages are on the list. -/
lemma inList_of_lt {fl : Flash} {i : ℕ} (h : i < fl.pagesRead) : InList fl i := by
  refine ⟨h.trans_le fl.pagesRead_le, fun hx => ?_⟩
  rw [(Flash.pagelist_facts fl.newType).1, ← fl.pagesRead_of_hynix hx]
  exact h

/-- What one save, with its result and the state it leaves, may program: the page numbers it
computes are inside the list, every page it programs lies in a block it may choose, at one of these
numbers or right behind it, and a save that succeeds programs a page at each of them. -/
structure SaveInside (fl : Flash) (name : RecName) (size : ℕ) (s : St) (r : Option ℤ × St) :
    Prop where
  idx : ∀ i ∈ saveIdx fl (s.info name) size, InList fl i
  pages : ∃ ops, r.2.log = s.log ++ ops ∧ ∀ c p d o, FlashOp.program c p d o ∈ ops →
    ∃ b, Chosen fl s name b ∧ c = fl.resChip b ∧ p / fl.ppb = fl.resRow b ∧
      ∃ i ∈ saveIdx fl (s.info name) size, p ∈ recPages fl b i
  covers : ∀ ret, r.1 = some ret → 0 ≤ ret → ∃ ops, r.2.log = s.log ++ ops ∧
    ∀ i ∈ saveIdx fl (s.info name) size,
      ∃ b d o, FlashOp.program (fl.resChip b) (fl.recPage b i) d o ∈ ops

/-- Save payloads one after another, each under its name and with the size of its record. -/
def saveSeq (fl : Flash) (size : RecName → ℕ) : List (RecName × Buf) → Act St Unit
  | [] => pure ()
  | p :: ps => do
    let _ ← saveInfo fl p.1 p.2 (size p.1)
    saveSeq fl size ps

/-- Every save of a sequence stays inside. -/
def SavesInside (fl : Flash) (size : RecName → ℕ) : List (RecName × Buf) → St → Prop
  | [], _ => True
  | p :: ps, s =>
    SaveInside fl p.1 (size p.1) s (saveInfo fl p.1 p.2 (size p.1) s) ∧
      SavesInside fl size ps (saveInfo fl p.1 p.2 (size p.1) s).2

/-- The sequence of saves returns, every save stays inside its block, and no page is programmed
twice between two erases of its block. -/
def ProgramsOnce (fl : Flash) (size : RecName → ℕ) (s : St) (ps : List (RecName × Buf)) : Prop :=
  ∃ t ops, saveSeq fl size ps s = (some (), t) ∧ t.log = s.log ++ ops ∧ OncePerErase fl ops ∧
    SavesInside fl size ps s

/-- On the `HYNIX_1YNM_8GB` type the copies of a `FULL_PAGE` record, each with its dummy page, do
not come to 129 or 130 record pages, one or two more than the 128 a block has. -/
def DummiesFit (fl : Flash) (type : ArgType) (size : ℕ) : Prop :=
  type = .fullPage → fl.newType = .hynix1ynm8gb →
    ¬fl.argPages size + 1 ∣ 129 ∧ ¬fl.argPages size + 1 ∣ 130

section Seq

variable {fl : Flash} {size : RecName → ℕ} {type : RecName → ArgType} {s : St}

/-- A block of the `HYNIX_1YNM_8GB` type has 128 record pages. -/
lemma pagesRead_1ynm (hx : fl.newType = .hynix1ynm8gb) : fl.pagesRead = 128 :=
  fl.pagesRead_of_hynix (by rw [hx]; rfl)

/-- There a copy takes one page more, that of its dummy. -/
lemma copyStep_1ynm (hx : fl.newType = .hynix1ynm8gb) (sz : ℕ) :
    copyStep fl sz = fl.argPages sz + 1 := by
  rw [copyStep, if_pos hx]

/-- Then appended copies never run past the record pages. -/
lemma storable_of_dummiesFit {ty : ArgType} {sz : ℕ} (hfit : fl.argPages sz ≤ fl.pagesRead)
    (h : DummiesFit fl ty sz) : Storable fl ty (fl.argPages sz) sz := by
  by_cases hx : fl.newType = .hynix1ynm8gb
  · have hpr := pagesRead_1ynm hx
    have hC := copyStep_1ynm hx sz
    refine ⟨⟨hfit, fun hty => ?_⟩, fun hty => ⟨rfl, fun k hk => ?_⟩⟩
    · obtain ⟨h1, -⟩ := h hty hx
      have hne : fl.argPages sz + 1 ≠ 129 := fun he => h1 (by rw [he])
      omega
    · obtain ⟨h1, h2⟩ := h hty hx
      by_contra hlt
      have hmul : (k + 2) * (fl.argPages sz + 1) = 129 ∨ (k + 2) * (fl.argPages sz + 1) = 130 := by
        rw [hC] at hk hlt
        rw [Nat.add_mul]
        omega
      rcases hmul with hm | hm
      · exact h1 ⟨k + 2, by rw [Nat.mul_comm, hm]⟩
      · exact h2 ⟨k + 2, by rw [Nat.mul_comm, hm]⟩
  · refine ⟨⟨hfit, fun _ => ?_⟩, fun _ => ⟨rfl, noSpill_of_ne hx sz⟩⟩
    rw [copyStep_of_ne hx]
    exact hfit

/-- A save from a tidy state returns. -/
lemma Tidy.saveInfo_run (h : Tidy fl size s) (name : RecName) (Q : Buf) :
    ∃ ret t, saveInfo fl name Q (size name) s = (some ret, t) ∧
      Saves fl name Q (size name) s ret t := by
  obtain ⟨n, hn, hle⟩ := h.area
  have hfuel : n < fl.startBlk + scanFuel := by
    have : 255 < scanFuel := by decide
    omega
  exact amlnandSaveInfoByName_run fl (blockMarkbadOp fl) name Q (size name) h.ready hn hfuel

/-- **A sequence of saves** programs erased pages only, inside the blocks it chooses. -/
lemma Tidy.saveSeq (ps : List (RecName × Buf)) (hps : ∀ p ∈ ps,
    fl.argPages (size p.1) ≤ fl.pagesRead ∧ DummiesFit fl (type p.1) (size p.1)) :
    ∀ s, Tidy fl size s → (∀ n, (s.info n).argType = type n) →
      ∃ t ops, Amlnf.saveSeq fl size ps s = (some (), t) ∧ t.log = s.log ++ ops ∧
        OnErased fl s.image ops ∧ SavesInside fl size ps s := by
  induction ps with
  | nil =>
    intro s _ _
    exact ⟨s, [], rfl, (List.append_nil _).symm, trivial, trivial⟩
  | cons p ps ih =>
    intro s h hty
    obtain ⟨hfit, hdum⟩ := hps p List.mem_cons_self
    have hsz : Storable fl (s.info p.1).argType (fl.argPages (size p.1)) (size p.1) := by
      rw [hty]
      exact storable_of_dummiesFit hfit hdum
    obtain ⟨ret, t, ht, hsv⟩ := h.saveInfo_run p.1 p.2
    obtain ⟨htidy, xs, hlog, himg, hon, hin⟩ := h.saves hsz hsv
    obtain ⟨u, ys, hu, hlog', hon', hrest⟩ := ih (fun q hq => hps q (List.mem_cons_of_mem _ hq)) t htidy
      fun n => (hsv.keeps.2.2.2 n).trans (hty n)
    refine ⟨u, xs ++ ys, (bind_some ht).trans hu, ?_, ?_, ?_⟩
    · rw [hlog', hlog, List.append_assoc]
    · rw [himg] at hon'
      exact onErased_append.2 ⟨hon, hon'⟩
    · have hlt := h.saveIdx_lt hsz
      rw [SavesInside, ht]
      refine ⟨⟨fun i hi => inList_of_lt (hlt i hi), ⟨xs, hlog, fun c q d o hop => ?_⟩,
        fun r hr h0 => ?_⟩, hrest⟩
      · obtain ⟨b, hb, hc, i, hi, hq⟩ := hin _ hop (c, q) rfl
        exact ⟨b, hb, hc, recPages_div (hlt i hi) hq, i, hi, hq⟩
      · cases hr
        exact hsv.covers hfit h0

/-! ## Copies that run past the list -/

/-- Both rounds of a save that finds the blocks it needs. -/
lemma Saves.info_of_room {name : RecName} {Q : Buf} {sz : ℕ} {ret : ℤ} {t : St}
    (hs : Saves fl name Q sz s ret t) (hm : s.allowMeta = true)
    (hty : (s.info name).argType = .fullPage)
    (h1 : Appends fl (s.info name) sz ∨ ∃ b, Candidate fl s.blkStatus s.reservedBlk 0 b)
    (h2 : ∀ b, Appends fl (settled (roundInfo fl sz b (s.info name))) sz) :
    ∃ b, t.info name = appendInfo fl sz (settled (roundInfo fl sz b (s.info name))) := by
  have hfirst : ∀ {l u}, Round fl name Q sz 0 s (Sum.inr (0, l)) u →
      ∃ b, (u.setInfo name settled).info name = settled (roundInfo fl sz b (s.info name)) := by
    intro l u hr
    rw [setInfo_info_self]
    cases hr with
    | append ha _ _ ht =>
      refine ⟨0, ?_⟩
      rw [kept_info ht, appended_info_self, roundInfo, if_pos ha]
    | move ha _ _ _ ht =>
      refine ⟨l.blkAddr, ?_⟩
      rw [kept_info ht, moved_info_self, roundInfo, if_neg ha]
  cases hs with
  | refused hr =>
    rw [hm] at hr
    cases hr
  | failed _ hr =>
    cases hr with
    | full hn hb _ =>
      rcases h1 with h1 | ⟨b, h1⟩
      · exact absurd h1 hn
      · exact absurd h1 (hb b)
  | once _ hbl _ =>
    rw [hty] at hbl
    cases hbl
  | half _ _ hr hr' =>
    obtain ⟨b, hb⟩ := hfirst hr
    cases hr' with
    | full hn _ _ => exact absurd (by rw [hb]; exact h2 b) hn
  | twice _ _ hr hr' =>
    obtain ⟨b, hb⟩ := hfirst hr
    cases hr' with
    | append _ _ _ ht => exact ⟨b, by rw [kept_info ht, appended_info_self, hb]⟩
    | move hn _ _ _ _ => exact absurd (by rw [hb]; exact h2 b) hn

/-- An `arg_info` of a `FULL_PAGE` record whose last copy is number `k` of its block. -/
structure AtCopy (fl : Flash) (sz k : ℕ) (a : ArgInfo) : Prop where
  valid : a.argValid = true
  settled : a.updateFlag = false
  argType : a.argType = .fullPage
  page : a.validPageAddr = k * copyStep fl sz

section Spill

variable {sz k m : ℕ} {a : ArgInfo} (hx : fl.newType = .hynix1ynm8gb)
  (hm : 128 < m * copyStep fl sz) (hm' : m * copyStep fl sz ≤ 130)

include hx hm'

/-- The test for room lets two more copies follow as long as `m` copies are not reached. -/
lemma AtCopy.appends (h : AtCopy fl sz k a) (hk : k + 2 ≤ m) : Appends fl a sz := by
  have hC := copyStep_1ynm hx sz
  have hle : (k + 2) * copyStep fl sz ≤ m * copyStep fl sz := Nat.mul_le_mul_right _ hk
  rw [Nat.add_mul] at hle
  refine ⟨h.valid, h.settled, h.argType, ?_⟩
  rw [h.page, pagesRead_1ynm hx]
  omega

omit hx in
/-- An appended copy is the next one. -/
lemma AtCopy.next (h : AtCopy fl sz k a) (hk : k + 2 ≤ m) :
    AtCopy fl sz (k + 1) (appendInfo fl sz a) := by
  have hle : (k + 1) * copyStep fl sz ≤ m * copyStep fl sz := Nat.mul_le_mul_right _ (by omega)
  refine ⟨h.valid, h.settled, h.argType, ?_⟩
  change (a.validPageAddr + copyStep fl sz) % 2 ^ 16 = _
  rw [h.page, ← Nat.succ_mul, Nat.succ_eq_add_one]
  exact Nat.mod_eq_of_lt (by omega)

include hm

/-- Copy number `m` runs past the list. -/
lemma AtCopy.spill (h : AtCopy fl sz k a) (hk : k + 2 = m) :
    ∃ i ∈ roundIdx fl a sz, ¬InList fl i := by
  have hC := copyStep_1ynm hx sz
  have hlen : fl.newType.pagelist.length = 128 := (Flash.pagelist_facts fl.newType).1
  have hmul : m * copyStep fl sz = k * copyStep fl sz + 2 * copyStep fl sz := by
    rw [← hk, Nat.add_mul]
  refine ⟨m * copyStep fl sz - 1, ?_, fun hin => ?_⟩
  · rw [roundIdx, if_pos (h.appends hx hm' (by omega)), writeIdx, List.mem_range'_1, h.page]
    omega
  · have := hin.2 (by rw [hx]; rfl)
    omega

/-- A save that writes copy number `m` in one of its rounds. -/
lemma AtCopy.not_saveInside {name : RecName} {r : Option ℤ × St}
    (h : AtCopy fl sz k (s.info name)) (hk : k + 2 ≤ m) (hnear : m ≤ k + 3) :
    ¬SaveInside fl name sz s r := by
  intro hin
  have hidx := hin.idx
  rw [saveIdx_fullPage h.argType _ 0, roundInfo, if_pos (h.appends hx hm' hk)] at hidx
  rcases Nat.eq_or_lt_of_le hk with hk | hk
  · obtain ⟨i, hi, hno⟩ := h.spill hx hm hm' hk
    exact hno (hidx i (List.mem_append_left _ hi))
  · have hnext : AtCopy fl sz (k + 1) (Amlnf.settled (appendInfo fl sz (s.info name))) :=
      { h.next hm' (by omega) with settled := rfl }
    obtain ⟨i, hi, hno⟩ := hnext.spill hx hm hm' (by omega)
    exact hno (hidx i (List.mem_append_right _ hi))

/-- A sequence of saves that goes on appending reaches copy number `m`.

**Proof sketch.** Induction on the saves left. The first or the second round of the save writes copy
`m`, or both append and the next save starts two copies further on. -/
lemma AtCopy.not_savesInside {name : RecName} (hsz : size name = sz) (Q : Buf) :
    ∀ r k (s : St), Ready s → (∃ n, ReserveEnd fl s.blkStatus n ∧ n < fl.startBlk + scanFuel) →
      s.allowMeta = true → AtCopy fl sz k (s.info name) → k + 2 ≤ m → m ≤ k + 3 + 2 * r →
      ¬SavesInside fl size (List.replicate (r + 1) (name, Q)) s := by
  subst hsz
  intro r
  induction r with
  | zero =>
    intro k s _ _ _ ha hk hle hin
    exact ha.not_saveInside hx hm hm' hk hle hin.1
  | succ r ih =>
    intro k s hs harea hmeta ha hk hle hin
    by_cases hnear : m ≤ k + 3
    · exact ha.not_saveInside hx hm hm' hk hnear hin.1
    obtain ⟨n, hn, hfuel⟩ := harea
    obtain ⟨ret, t, ht, hsv⟩ :=
      amlnandSaveInfoByName_run fl (blockMarkbadOp fl) name Q (size name) hs hn hfuel
    have happ := ha.appends hx hm' hk
    have hnext : AtCopy fl (size name) (k + 1)
        (Amlnf.settled (appendInfo fl (size name) (s.info name))) :=
      { ha.next hm' (by omega) with settled := rfl }
    have hround : ∀ b, roundInfo fl (size name) b (s.info name) =
        appendInfo fl (size name) (s.info name) := fun b => if_pos happ
    obtain ⟨b, hb⟩ := hsv.info_of_room hmeta ha.argType (Or.inl happ) fun b => by
      rw [hround]
      exact hnext.appends hx hm' (by omega)
    rw [hround] at hb
    obtain ⟨h1, h2, h3, -⟩ := hsv.keeps
    have hrest : SavesInside fl size (List.replicate (r + 1) (name, Q)) t := by
      have h := hin.2
      have hrun : saveInfo fl name Q (size name) s = (some ret, t) := ht
      rwa [hrun] at h
    refine ih (k + 2) t (h3 hs) ⟨n, by rw [h1]; exact hn, hfuel⟩ (h2.trans hmeta) ?_ (by omega)
      (by omega) hrest
    rw [hb]
    exact hnext.next hm' (by omega)

end Spill

/-- `St.blank` with a type for each record. -/
def St.blankWith (type : RecName → ArgType) : St :=
  { St.blank with info := fun n => { argType := type n } }

/-- Chips without records are tidy. -/
lemma tidy_blankWith (fl : Flash) (size : RecName → ℕ) (type : RecName → ArgType) :
    Tidy fl size (St.blankWith type) := by
  have hend := reserveEnd_good fl
  refine ⟨⟨⟨fun _ => Outcome.fine_fine, rfl⟩, fun _ => ⟨rfl, rfl⟩⟩, ⟨_, hend, ?_⟩, ?_, fun _ _ => rfl,
    fun _ h => ?_, fun _ h => ?_, fun _ _ h => ?_, fun _ h => ?_⟩
  · have := startBlk_le_32 fl
    have : reservedBlockCnt = 48 := rfl
    omega
  · have h : ∀ l : List RecName, l.countP (fun n => !((St.blankWith type).info n).argValid) =
        l.length := fun l => List.countP_eq_length.2 fun _ _ => rfl
    rw [St.unplaced, h]
    change 7 < St.blank.reservedBlk.count 0xff
    decide
  all_goals cases h

/-- Their first reserved block may be chosen. -/
lemma candidate_blank (fl : Flash) (type : RecName → ArgType) :
    Candidate fl (St.blankWith type).blkStatus (St.blankWith type).reservedBlk 0 fl.startBlk := by
  have hend := reserveEnd_good fl
  have hpos := fl.startBlk_pos
  have hlist : ∀ b, b < 255 → listed St.blank.reservedBlk b = false := by
    intro b hb
    rw [listed, List.any_eq_false]
    intro e he
    obtain rfl := List.eq_of_mem_replicate he
    simp
    omega
  have h32 := startBlk_le_32 fl
  have hcnt : 0 < reservedBlockCnt := by decide
  refine ⟨(hend.lt_iff (le_refl _)).1 (by omega), hlist _ (by omega), by omega, ?_⟩
  show blockGood ≠ blockFactoryBad
  decide

/-- From chips without records, saves under one name reach copy number `m`. -/
lemma not_savesInside_blank (hx : fl.newType = .hynix1ynm8gb) {name : RecName}
    (hty : type name = .fullPage) {m r : ℕ} (hm : 128 < m * copyStep fl (size name))
    (hm' : m * copyStep fl (size name) ≤ 130) (hr : m ≤ 4 + 2 * r) (Q : Buf) :
    ¬SavesInside fl size (List.replicate (r + 2) (name, Q)) (St.blankWith type) := by
  intro hin
  have hmeta : (St.blankWith type).allowMeta = true := rfl
  have hready : Ready (St.blankWith type) := (tidy_blankWith fl size type).ready
  have hinfo : (St.blankWith type).info name = { argType := .fullPage } := by rw [← hty]; rfl
  have hno : ¬Appends fl ((St.blankWith type).info name) (size name) := fun ha => nomatch ha.1
  have hround : ∀ b, roundInfo fl (size name) b ((St.blankWith type).info name) =
      moveInfo b ((St.blankWith type).info name) := fun b => if_neg hno
  have hfirst : ∀ b, AtCopy fl (size name) 0
      (settled (moveInfo b ((St.blankWith type).info name))) := by
    intro b
    rw [hinfo]
    exact ⟨rfl, rfl, rfl, by rw [Nat.zero_mul]; rfl⟩
  have hidx := hin.1.idx
  rw [saveIdx_fullPage (by rw [hinfo]) _ 0, hround] at hidx
  rcases (by omega : m ≤ 1 ∨ m = 2 ∨ 3 ≤ m) with h | h | h
  · -- the first copy with its dummy page is already too long
    have hlen : fl.newType.pagelist.length = 128 := (Flash.pagelist_facts fl.newType).1
    have hC : 128 < copyStep fl (size name) := by
      have := Nat.mul_le_mul_right (copyStep fl (size name)) h
      omega
    have hmem : 128 ∈ roundIdx fl ((St.blankWith type).info name) (size name) := by
      rw [roundIdx, if_neg hno, hinfo, writeIdx, List.mem_range'_1]
      omega
    have := (hidx 128 (List.mem_append_left _ hmem)).2 (by rw [hx]; rfl)
    omega
  · obtain ⟨i, hi, hni⟩ := (hfirst 0).spill hx hm hm' h.symm
    exact hni (hidx i (List.mem_append_right _ hi))
  · obtain ⟨ret, t, ht, hsv⟩ := (tidy_blankWith fl size type).saveInfo_run name Q
    obtain ⟨b, hb⟩ := hsv.info_of_room hmeta (by rw [hinfo]) (Or.inr ⟨_, candidate_blank fl type⟩)
      fun b => by
        rw [hround]
        exact (hfirst b).appends hx hm' (by omega)
    rw [hround] at hb
    obtain ⟨h1, h2, h3, -⟩ := hsv.keeps
    obtain ⟨n, hn, hle⟩ := (tidy_blankWith fl size type).area
    have hfuel : n < fl.startBlk + scanFuel := by
      have : 255 < scanFuel := by decide
      omega
    have hrest : SavesInside fl size (List.replicate (r + 1) (name, Q)) t := by
      have h := hin.2
      have hrun : saveInfo fl name Q (size name) (St.blankWith type) = (some ret, t) := ht
      rwa [hrun] at h
    refine AtCopy.not_savesInside hx hm hm' rfl Q r 1 t (h3 hready) ⟨n, by rw [h1]; exact hn, hfuel⟩
      (h2.trans hmeta) ?_ (by omega) (by omega) hrest
    rw [hb]
    exact (hfirst b).next hm' (by omega)

/-- **Saves program each page once and inside the block** exactly when, on the `HYNIX_1YNM_8GB` type,
the copies of the `FULL_PAGE` records with their dummy pages never come to 129 or 130 record pages.
`N` are the records that are saved, in any order. -/
theorem saves_program_once_iff {N : Set RecName}
    (hfit : ∀ n ∈ N, fl.argPages (size n) ≤ fl.pagesRead) :
    (∀ s, Tidy fl size s → (∀ n, (s.info n).argType = type n) →
      ∀ ps : List (RecName × Buf), (∀ p ∈ ps, p.1 ∈ N) → ProgramsOnce fl size s ps) ↔
    ∀ n ∈ N, DummiesFit fl (type n) (size n) := by
  constructor
  · intro h n hn hty hx
    have hspill : ∀ c, 128 < c → c ≤ 130 → ¬fl.argPages (size n) + 1 ∣ c := by
      rintro c hc1 hc2 ⟨m, hmul⟩
      have hC := copyStep_1ynm hx (size n)
      rw [← hC, Nat.mul_comm] at hmul
      obtain ⟨t, ops, -, -, -, hin⟩ := h (St.blankWith type) (tidy_blankWith fl size type)
        (fun _ => rfl) (List.replicate (m + 2) (n, fun _ => 0)) fun p hp => by
          rw [List.eq_of_mem_replicate hp]
          exact hn
      exact not_savesInside_blank (m := m) (r := m) hx hty (by omega) (by omega) (by omega) _ hin
    exact ⟨hspill 129 (by omega) (by omega), hspill 130 (by omega) (by omega)⟩
  · intro h s hs hty ps hps
    obtain ⟨t, ops, ht, hlog, hon, hin⟩ :=
      Tidy.saveSeq ps (fun p hp => ⟨hfit _ (hps p hp), h _ (hps p hp)⟩) s hs hty
    exact ⟨t, ops, ht, hlog, hon.once, hin⟩

end Seq

/-- The chip `H27UCG8T2E` of the identification table, of the `HYNIX_1YNM_8GB` type. -/
def Flash.h27ucg8t2e : Flash where
  pageShift := 14
  ppbShift := 8
  chipNum := 1
  chipsize := 8192
  newType := .hynix1ynm8gb
  multiPlane := true
  behindList := fun _ => 0
  chipNum_pos := Flash.h27ucg8t2a.chipNum_pos
  chipNum_le := Flash.h27ucg8t2a.chipNum_le
  ppbShift_le := Flash.h27ucg8t2a.ppbShift_le
  ppbShift_ge := Flash.h27ucg8t2a.ppbShift_ge
  hynix_ppb := by decide
  shift_lt := by decide
  chipsize_le := by decide
  multiPlane_lt := Flash.h27ucg8t2a.multiPlane_lt

/-- The environment takes three pages of that chip. -/
theorem saves_program_once_env :
    Flash.h27ucg8t2e.argPages 0x8000 ≤ Flash.h27ucg8t2e.pagesRead ∧
      ProgramsOnce .h27ucg8t2e (fun _ => 0x8000) (St.blankWith argTypeOf)
        [(.nenv, fun _ => 1), (.nenv, fun _ => 2)] := by
  have hfit : Flash.h27ucg8t2e.argPages 0x8000 ≤ Flash.h27ucg8t2e.pagesRead := by decide
  refine ⟨hfit, (saves_program_once_iff (N := {.nenv}) fun _ _ => hfit).2 ?_ _
    (tidy_blankWith _ _ argTypeOf) (fun _ => rfl) _ ?_⟩
  · intro n _ _ _
    show ¬4 ∣ 129 ∧ ¬4 ∣ 130
    decide
  · intro p hp
    simp only [List.mem_cons, List.not_mem_nil, or_false] at hp
    rcases hp with rfl | rfl <;> rfl

/-- The secure storage takes nine pages. Its thirteenth copy, the first of the seventh save, is
appended at page 120 of 128, and its dummy page has number 129. -/
theorem secure_spills :
    Tidy .h27ucg8t2e (fun _ => 0x20000) (St.blankWith argTypeOf) ∧
      Flash.h27ucg8t2e.argPages 0x20000 ≤ Flash.h27ucg8t2e.pagesRead ∧
      ¬ProgramsOnce .h27ucg8t2e (fun _ => 0x20000) (St.blankWith argTypeOf)
        (List.replicate 7 (.nsec, fun _ => 0)) := by
  refine ⟨tidy_blankWith _ _ _, by decide, ?_⟩
  rintro ⟨t, ops, -, -, -, hin⟩
  exact not_savesInside_blank (m := 13) (r := 5) rfl rfl (by decide) (by decide) (by decide) _ hin

end Amlnf
