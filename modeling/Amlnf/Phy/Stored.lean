import Amlnf.Phy.RecordWrite
import Amlnf.Phy.Delivery

set_option relaxedAutoImplicit false
set_option autoImplicit false

/-!
# Stored records

A driver state holds a record when its `arg_info` designates a copy in the only block under the
name and a fresh scan would deliver the same payload. A round of a save on chips that report no
failure turns such a state, or one without a record, into one that holds the new payload.

## Main definitions

* `NoRecord`, `Holds` — the driver state without and with a record under a name.
* `Fits` — a record fits a block.
* `Saved` — the state after a round.

## Main results

* `hits_fullPageOps`, `hits_fullBlkOps` — the pages that the commands of a save change.
* `recAt_fullPageOps`, `recAt_moveOps` — what they make of them.
* `Holds.appended`, `saved_moved` — what a round makes of a stored record.
-/

namespace Amlnf

/-! ## What the commands of a save change -/

section Ops

variable {fl : Flash} {tag : Tag} {buf : Buf} {size blk base : ℕ} {op : FlashOp} {b i : ℕ}

lemma hits_pieceOps {j : ℕ} (hj : base + j < fl.pagesRead)
    (hop : op ∈ pieceOps fl tag buf size blk base j) (hi : i < fl.pagesRead)
    (h : op.Hits fl (fl.resChip b) (fl.recPage b i)) : b = blk ∧ i = base + j := by
  rcases List.mem_cons.1 hop with rfl | hop
  · exact (hits_recPage_iff hj hi _ _).1 h
  · split at hop
    · rename_i hx
      obtain rfl := List.mem_singleton.1 hop
      exact absurd h (not_hits_paired hx.1 hj hx.2 hi _ _)
    · cases hop

/-- A copy changes its own pages. -/
lemma hits_copyOps (hfit : base + fl.argPages size ≤ fl.pagesRead)
    (hop : op ∈ copyOps fl tag buf size blk base) (hi : i < fl.pagesRead)
    (h : op.Hits fl (fl.resChip b) (fl.recPage b i)) :
    b = blk ∧ base ≤ i ∧ i < base + fl.argPages size := by
  obtain ⟨j, hj, hop⟩ := List.mem_flatMap.1 hop
  rw [List.mem_range] at hj
  obtain ⟨rfl, rfl⟩ := hits_pieceOps (by omega) hop hi h
  exact ⟨rfl, by omega, by omega⟩

/-- A dummy page changes itself. -/
lemma hits_dummyOps (hx : fl.newType = .hynix1ynm8gb) (h1 : 1 ≤ base) (hb : base < fl.pagesRead)
    (hop : op ∈ dummyOps fl blk base) (hi : i < fl.pagesRead)
    (h : op.Hits fl (fl.resChip b) (fl.recPage b i)) : b = blk ∧ i = base := by
  rcases List.mem_cons.1 hop with rfl | hop
  · exact (hits_recPage_iff hb hi _ _).1 h
  · obtain rfl := List.mem_singleton.1 hop
    exact absurd h (not_hits_paired hx hb h1 hi _ _)

/-- The copies of a fill change the pages from the first one on. -/
lemma hits_fullBlkOps (hi : i < fl.pagesRead) (h : op.Hits fl (fl.resChip b) (fl.recPage b i)) :
    ∀ n base, 1 ≤ base → op ∈ fullBlkOps fl tag buf size blk n base → b = blk ∧ base ≤ i := by
  intro n
  induction n with
  | zero =>
    intro base _ hop
    cases hop
  | succ n ih =>
    intro base h1 hop
    rw [fullBlkOps] at hop
    split at hop
    · rename_i hlt
      split at hop
      · split at hop
        · rename_i hx
          obtain ⟨rfl, rfl⟩ := hits_dummyOps hx h1 hlt hop hi h
          exact ⟨rfl, le_refl _⟩
        · cases hop
      · rename_i hroom
        rcases List.mem_append.1 hop with hop | hop
        · obtain ⟨h1, h2, -⟩ := hits_copyOps (by omega) hop hi h
          exact ⟨h1, h2⟩
        · obtain ⟨h1, h2⟩ := ih _ (by omega) hop
          exact ⟨h1, by omega⟩
    · cases hop

/-- The pages of a copy after it has been written to erased pages. -/
lemma recAt_copyOps {m : Image} (hfit : base + fl.argPages size ≤ fl.pagesRead)
    (her : ∀ j < fl.argPages size, m.recAt fl blk (base + j) = .erased) :
    ∀ j < fl.argPages size, (m.replay fl (copyOps fl tag buf size blk base)).recAt fl blk (base + j) =
      .written (recSlice fl buf size j) (some tag) := by
  -- the pieces before and after page `j` do not change it
  intro j hj
  obtain ⟨n, hn⟩ : ∃ n, fl.argPages size = j + (n + 1) := ⟨fl.argPages size - j - 1, by omega⟩
  have hsplit : List.range (fl.argPages size) = List.range j ++ j :: List.range' (j + 1) n := by
    rw [hn, List.range_eq_range', List.range_eq_range', ← List.range'_append_1, Nat.zero_add,
      List.range'_succ]
  have hother : ∀ (js : List ℕ) (m' : Image), (∀ k ∈ js, k < fl.argPages size ∧ k ≠ j) →
      (m'.replay fl (js.flatMap (pieceOps fl tag buf size blk base))).recAt fl blk (base + j) =
        m'.recAt fl blk (base + j) := by
    intro js m' hjs
    refine Image.recAt_replay m' fun op hop hhit => ?_
    obtain ⟨k, hk, hop⟩ := List.mem_flatMap.1 hop
    obtain ⟨hk1, hk2⟩ := hjs k hk
    have := (hits_pieceOps (by omega) hop (by omega) hhit).2
    omega
  rw [copyOps, hsplit, List.flatMap_append, List.flatMap_cons, Image.replay_append,
    Image.replay_append, hother _ _ (by simp; omega)]
  set m1 := m.replay fl ((List.range j).flatMap (pieceOps fl tag buf size blk base)) with hm1
  have hm1j : m1.recAt fl blk (base + j) = .erased := by
    rw [hm1, hother _ _ (by simp; omega), her j hj]
  have hpaired : ∀ (ops : List FlashOp) (m' : Image),
      (∀ op ∈ ops, op = pairedOp fl blk (base + j) ∧ fl.newType = .hynix1ynm8gb ∧ 1 ≤ base + j) →
      (m'.replay fl ops).recAt fl blk (base + j) = m'.recAt fl blk (base + j) := by
    intro ops m' hops
    refine Image.recAt_replay m' fun op hop hhit => ?_
    obtain ⟨rfl, hx, h1⟩ := hops op hop
    exact not_hits_paired hx (by omega) h1 (by omega) _ _ hhit
  rw [pieceOps, Image.replay_cons, hpaired, recOp, Image.recAt_program_self, hm1j]
  · rfl
  · intro op hop
    split at hop
    · rename_i hx
      exact ⟨List.mem_singleton.1 hop, hx⟩
    · cases hop

/-- The commands of an appended copy change the pages of the copy and of its dummy page. -/
lemma hits_fullPageOps (hfit : base + copyStep fl size ≤ fl.pagesRead)
    (hop : op ∈ fullPageOps fl tag buf size blk base) (hi : i < fl.pagesRead)
    (h : op.Hits fl (fl.resChip b) (fl.recPage b i)) :
    b = blk ∧ base ≤ i ∧ i < base + copyStep fl size := by
  have hA := argPages_pos fl size
  rw [fullPageOps] at hop
  unfold copyStep at hfit ⊢
  rcases List.mem_append.1 hop with hop | hop
  · obtain ⟨h1, h2, h3⟩ := hits_copyOps (by omega) hop hi h
    exact ⟨h1, h2, by omega⟩
  · split at hop
    · rename_i hx
      rw [if_pos hx] at hfit ⊢
      obtain ⟨h1, h2⟩ := hits_dummyOps hx (by omega) (by omega) hop hi h
      exact ⟨h1, by omega, by omega⟩
    · cases hop

/-- The pages of an appended copy. -/
lemma recAt_fullPageOps {m : Image} (hfit : base + copyStep fl size ≤ fl.pagesRead)
    (her : ∀ j < fl.argPages size, m.recAt fl blk (base + j) = .erased) :
    ∀ j < fl.argPages size,
      (m.replay fl (fullPageOps fl tag buf size blk base)).recAt fl blk (base + j) =
        .written (recSlice fl buf size j) (some tag) := by
  intro j hj
  have hA : fl.argPages size ≤ copyStep fl size := Nat.le_add_right _ _
  rw [fullPageOps, Image.replay_append, Image.recAt_replay, recAt_copyOps (by omega) her j hj]
  intro op hop hhit
  split at hop
  · rename_i hx
    rw [copyStep, if_pos hx] at hfit
    have := (hits_dummyOps hx (by omega) (by omega) hop (by omega) hhit).2
    omega
  · cases hop

/-- The rest of it changes the other pages. -/
lemma copyOps_cons (fl : Flash) (tag : Tag) (buf : Buf) (size blk base : ℕ)
    (hfit : base + fl.argPages size ≤ fl.pagesRead) :
    ∃ rest, copyOps fl tag buf size blk base =
        recOp fl tag blk base (recSlice fl buf size 0) :: rest ∧
      ∀ op ∈ rest, ∀ b i, i < fl.pagesRead → op.Hits fl (fl.resChip b) (fl.recPage b i) →
        b = blk ∧ base < i ∧ i < base + fl.argPages size := by
  have hA := argPages_pos fl size
  obtain ⟨n, hn⟩ : ∃ n, fl.argPages size = n + 1 := ⟨fl.argPages size - 1, by omega⟩
  rw [copyOps, hn, List.range_succ_eq_map, List.flatMap_cons, pieceOps, List.cons_append]
  refine ⟨_, rfl, fun op hop b i hi hhit => ?_⟩
  rcases List.mem_append.1 hop with hop | hop
  · split at hop
    · rename_i hx
      obtain rfl := List.mem_singleton.1 hop
      exact absurd hhit (not_hits_paired hx.1 (by omega) hx.2 hi _ _)
    · cases hop
  · obtain ⟨j, hj, hop⟩ := List.mem_flatMap.1 hop
    obtain ⟨k, hk, rfl⟩ := List.mem_map.1 hj
    rw [List.mem_range] at hk
    obtain ⟨rfl, rfl⟩ := hits_pieceOps (by omega) hop hi hhit
    exact ⟨rfl, by omega, by omega⟩

/-- So does an appended copy. -/
lemma fullPageOps_cons (fl : Flash) (tag : Tag) (buf : Buf) (size blk base : ℕ)
    (hfit : base + copyStep fl size ≤ fl.pagesRead) :
    ∃ rest, fullPageOps fl tag buf size blk base =
        recOp fl tag blk base (recSlice fl buf size 0) :: rest ∧
      ∀ op ∈ rest, ∀ b i, i < fl.pagesRead → op.Hits fl (fl.resChip b) (fl.recPage b i) →
        b = blk ∧ base < i ∧ i < base + copyStep fl size := by
  have hAC : fl.argPages size ≤ copyStep fl size := Nat.le_add_right _ _
  have hA := argPages_pos fl size
  obtain ⟨rest, hrest, hhits⟩ := copyOps_cons fl tag buf size blk base (by omega)
  rw [fullPageOps, hrest, List.cons_append]
  refine ⟨_, rfl, fun op hop b i hi hhit => ?_⟩
  rcases List.mem_append.1 hop with hop | hop
  · obtain ⟨h1, h2, h3⟩ := hhits op hop b i hi hhit
    exact ⟨h1, h2, by omega⟩
  · split at hop
    · rename_i hx
      rw [copyStep, if_pos hx] at hfit ⊢
      obtain ⟨h1, h2⟩ := hits_dummyOps hx (by omega) (by omega) hop hi hhit
      exact ⟨h1, by omega, by omega⟩
    · cases hop

/-- The first copy of a filled block. -/
lemma recAt_fullBlkOps {m : Image} (hfit : fl.argPages size ≤ fl.pagesRead)
    (her : ∀ j < fl.argPages size, m.recAt fl blk j = .erased) :
    ∀ j < fl.argPages size,
      (m.replay fl (fullBlkOps fl tag buf size blk (fl.pagesRead + 1) 0)).recAt fl blk j =
        .written (recSlice fl buf size j) (some tag) := by
  intro j hj
  have hA := argPages_pos fl size
  have h : (m.replay fl (copyOps fl tag buf size blk 0)).recAt fl blk (0 + j) =
      .written (recSlice fl buf size j) (some tag) :=
    recAt_copyOps (by omega) (by simpa using her) j hj
  rw [Nat.zero_add] at h
  rw [fullBlkOps, if_pos fl.pagesRead_pos, if_neg (by omega), Image.replay_append,
    Image.recAt_replay, h]
  intro op hop hhit
  have := (hits_fullBlkOps (by omega) hhit _ _ (by omega) hop).2
  omega

end Ops

/-! ## The list of reserved blocks -/

section ReservedList

variable {rl : List UInt8} {b b' : ℕ}

/-- A free place reads as block 255. -/
lemma listed_of_free (h : (0xff : UInt8) ∈ rl) : listed rl 255 = true :=
  List.any_eq_true.2 ⟨0xff, h, by decide⟩

/-- A block entered at a free place is in the list. -/
lemma listed_enlist_self (hfree : (0xff : UInt8) ∈ rl) (hb : b < 256) :
    listed (enlist rl b) b = true := by
  induction rl with
  | nil => cases hfree
  | cons e l ih =>
    rw [enlist]
    by_cases he : e = 0xff
    · rw [if_pos he]
      simp [listed, Nat.mod_eq_of_lt hb]
    · rw [if_neg he]
      have hl := ih (List.mem_of_ne_of_mem (Ne.symm he) hfree)
      simp only [listed, List.any_cons, Bool.or_eq_true] at hl ⊢
      exact Or.inr hl

/-- Entering a block takes no other block off the list. -/
lemma listed_enlist_of_listed (b' : ℕ) (hb : b ≠ 255) (h : listed rl b = true) :
    listed (enlist rl b') b = true := by
  induction rl with
  | nil => cases h
  | cons e l ih =>
    rw [enlist]
    simp only [listed, List.any_cons, Bool.or_eq_true, decide_eq_true_eq] at h ih
    by_cases he : e = 0xff
    · rw [if_pos he]
      rcases h with h | h
      · subst he
        exact absurd h.symm hb
      · simp only [listed, List.any_cons, Bool.or_eq_true]
        exact Or.inr h
    · rw [if_neg he]
      simp only [listed, List.any_cons, Bool.or_eq_true, decide_eq_true_eq]
      exact h.imp_right ih

/-- Taking a block off the list keeps the others. -/
lemma listed_delist_of_ne (hne : b ≠ b') (h : listed rl b = true) :
    listed (delist rl b') b = true := by
  induction rl with
  | nil => cases h
  | cons e l ih =>
    rw [delist]
    simp only [listed, List.any_cons, Bool.or_eq_true, decide_eq_true_eq] at h ih
    by_cases he : e.toNat = b'
    · rw [if_pos he]
      rcases h with h | h
      · exact absurd (h.symm.trans he) hne
      · simp only [listed, List.any_cons, Bool.or_eq_true]
        exact Or.inr h
    · rw [if_neg he]
      simp only [listed, List.any_cons, Bool.or_eq_true, decide_eq_true_eq]
      exact h.imp_right ih

/-- Taking a block off the list leaves a free place. -/
lemma mem_delist_of_listed (h : listed rl b = true) : (0xff : UInt8) ∈ delist rl b := by
  induction rl with
  | nil => cases h
  | cons e l ih =>
    rw [delist]
    simp only [listed, List.any_cons, Bool.or_eq_true, decide_eq_true_eq] at h ih
    by_cases he : e.toNat = b
    · rw [if_pos he]
      exact List.mem_cons_self
    · rw [if_neg he]
      exact List.mem_cons_of_mem _ (ih (h.resolve_left he))

/-- Entering a block takes one free place only. -/
lemma mem_enlist_of_count (b : ℕ) (h : 2 ≤ rl.count 0xff) : (0xff : UInt8) ∈ enlist rl b := by
  induction rl with
  | nil => simp at h
  | cons e l ih =>
    rw [enlist]
    by_cases he : e = 0xff
    · rw [if_pos he]
      subst he
      rw [List.count_cons_self] at h
      exact List.mem_cons_of_mem _ (List.count_pos_iff.1 (by omega))
    · rw [if_neg he]
      rw [List.count_cons_of_ne he] at h
      exact List.mem_cons_of_mem _ (ih h)

end ReservedList

/-! ## Driver states -/

/-- No block of the scan has a page under the name, and `arg_info` is invalid. -/
structure NoRecord (fl : Flash) (s : St) (name : RecName) : Prop where
  invalid : (s.info name).argValid = false
  page : (s.info name).validPageAddr = 0
  none : ∀ b, ScanVisits fl s.blkStatus b → ∀ i < fl.pagesRead,
    tagged (s.image.recAt fl b i).oob name = false

/-- `arg_info` designates a copy of the payload `P` of `size` bytes in the only block of the scan
under the name, a fresh scan would deliver the same payload from it, and the block of a
`FULL_PAGE` record can be appended to unless `update_flag` is set. -/
structure Holds (fl : Flash) (s : St) (name : RecName) (size : ℕ) (P : Buf) : Prop where
  valid : (s.info name).argValid = true
  visits : ScanVisits fl s.blkStatus (s.info name).validBlkAddr
  listed : listed s.reservedBlk (s.info name).validBlkAddr = true
  others : ∀ b ≠ (s.info name).validBlkAddr, ScanVisits fl s.blkStatus b → ∀ i < fl.pagesRead,
    tagged (s.image.recAt fl b i).oob name = false
  copy : HasCopy fl name size (s.image.recAt fl (s.info name).validBlkAddr)
    (s.info name).validPageAddr P
  found : ¬Silent fl name size (s.image.recAt fl (s.info name).validBlkAddr)
  delivers : Delivers fl (s.info name).argType name size
    (s.image.recAt fl (s.info name).validBlkAddr) P
  log : (s.info name).argType = .fullPage → (s.info name).updateFlag = false →
    AppendLog fl name size (s.image.recAt fl (s.info name).validBlkAddr) (s.info name).validPageAddr

section Holds

variable {fl : Flash} {s t : St} {name : RecName} {size size' b : ℕ} {P Q : Buf}

/-- The boot area is 32 blocks at most. -/
lemma startBlk_le_32 (fl : Flash) : fl.startBlk ≤ 32 := by
  rw [fl.startBlk_eq]
  calc 2 ^ (10 - fl.ppbShift) ≤ 2 ^ 5 :=
        Nat.pow_le_pow_right (by omega) (by have := fl.ppbShift_ge; omega)
    _ = 32 := by norm_num

/-- Reserved blocks of the scan have small numbers. -/
lemma ScanVisits.bounds {tbl : BlkStatus} (h : ScanVisits fl tbl b) : 0 < b ∧ b < 255 := by
  obtain ⟨h1, h2, -⟩ := h
  have h3 := fl.startBlk_pos
  have h4 := startBlk_le_32 fl
  unfold reservedBlockCnt at h2
  omega

/-- What a state holds is a matter of chips, table, `arg_info` and list. -/
lemma Holds.of_kept (h : Holds fl s name size P) (hk : t.kept = s.kept) :
    Holds fl t name size P := by
  constructor
  all_goals simp only [kept_image hk, kept_blkStatus hk, kept_info hk, kept_reservedBlk hk]
  · exact h.valid
  · exact h.visits
  · exact h.listed
  · exact h.others
  · exact h.copy
  · exact h.found
  · exact h.delivers
  · exact h.log

lemma NoRecord.of_kept (h : NoRecord fl s name) (hk : t.kept = s.kept) : NoRecord fl t name := by
  constructor
  all_goals simp only [kept_image hk, kept_blkStatus hk, kept_info hk]
  · exact h.invalid
  · exact h.page
  · exact h.none

/-- The timestamp does not matter. -/
lemma Holds.stamped (h : Holds fl s name size P) : Holds fl (s.stamped name) name size P := by
  have hi : (s.stamped name).info name = stampInfo (s.info name) := setInfo_info_self s name stampInfo
  constructor
  all_goals rw [hi]
  · exact h.valid
  · exact h.visits
  · exact h.listed
  · exact h.others
  · exact h.copy
  · exact h.found
  · exact h.delivers
  · exact h.log

lemma NoRecord.stamped (h : NoRecord fl s name) : NoRecord fl (s.stamped name) name := by
  have hi : (s.stamped name).info name = stampInfo (s.info name) := setInfo_info_self s name stampInfo
  constructor
  · rw [hi]
    exact h.invalid
  · rw [hi]
    exact h.page
  · exact h.none

end Holds

/-! ## What a round makes of a stored record -/

/-- The record fits a block, and on the `HYNIX_1YNM_8GB` type so does the dummy page behind a
`FULL_PAGE` copy. -/
def Fits (fl : Flash) (type : ArgType) (size : ℕ) : Prop :=
  fl.argPages size ≤ fl.pagesRead ∧ (type = .fullPage → copyStep fl size ≤ fl.pagesRead)

/-- The state holds the payload, and the block of a `FULL_PAGE` record can be appended to. -/
def Saved (fl : Flash) (s : St) (name : RecName) (size : ℕ) (P : Buf) : Prop :=
  Holds fl s name size P ∧ ((s.info name).argType = .fullPage → AppendLog fl name size
    (s.image.recAt fl (s.info name).validBlkAddr) (s.info name).validPageAddr)

section Rounds

variable {fl : Flash} {s t : St} {name : RecName} {size size' b : ℕ} {P Q : Buf}

lemma Saved.of_kept (h : Saved fl s name size P) (hk : t.kept = s.kept) :
    Saved fl t name size P := by
  refine ⟨h.1.of_kept hk, ?_⟩
  rw [kept_info hk, kept_image hk]
  exact h.2

/-- Clearing `update_flag` after a round. -/
lemma Saved.settled (h : Saved fl s name size P) : Holds fl (s.setInfo name settled) name size P := by
  constructor
  all_goals rw [setInfo_info_self]
  · exact h.1.valid
  · exact h.1.visits
  · exact h.1.listed
  · exact h.1.others
  · exact h.1.copy
  · exact h.1.found
  · exact h.1.delivers
  · exact fun hty _ => h.2 hty

/-- A state is `Saved` once its block holds an appendable record and no other block a page under
the name. -/
lemma saved_of_log (hty : (s.info name).argType = .fullPage)
    (hv : (s.info name).argValid = true) (hvis : ScanVisits fl s.blkStatus (s.info name).validBlkAddr)
    (hl : listed s.reservedBlk (s.info name).validBlkAddr = true)
    (ho : ∀ b ≠ (s.info name).validBlkAddr, ScanVisits fl s.blkStatus b → ∀ i < fl.pagesRead,
      tagged (s.image.recAt fl b i).oob name = false)
    (hc : HasCopy fl name size (s.image.recAt fl (s.info name).validBlkAddr)
      (s.info name).validPageAddr P)
    (hlog : AppendLog fl name size (s.image.recAt fl (s.info name).validBlkAddr)
      (s.info name).validPageAddr) : Saved fl s name size P := by
  refine ⟨⟨hv, hvis, hl, ho, hc, not_silent_of_first hlog.first.1 hlog.first.2, ?_, fun _ _ => hlog⟩,
    fun _ => hlog⟩
  rw [hty, Delivers, hlog.copyPage_eq]
  exact hc

/-- **A round that appends** a copy in the room the block has. -/
lemma Holds.appended (h : Holds fl s name size P) (ha : Appends fl (s.info name) size')
    (hA : fl.argPages size' = fl.argPages size)
    (hroom : (s.info name).validPageAddr + 2 * copyStep fl size' ≤ fl.pagesRead) :
    Saved fl (s.appended fl name Q size') name size' Q := by
  obtain ⟨-, hup, hty, -⟩ := ha
  have hlog := (h.log hty hup).congr_size hA
  set a := s.info name with haa
  set v := a.validPageAddr with hv
  set B := a.validBlkAddr with hB
  set C := copyStep fl size' with hC
  have hCpos : 0 < C := copyStep_pos fl size'
  have hAC : fl.argPages size' ≤ C := Nat.le_add_right _ _
  have hlow : fl.pagesRead ≤ 1024 := fl.pagesRead_le.trans fl.ppb_le
  have hinfo : (s.appended fl name Q size').info name = appendInfo fl size' a :=
    appended_info_self s name Q size'
  have hblk : (appendInfo fl size' a).validBlkAddr = B := by
    have hbound : 0 < B ∧ B < 255 := h.visits.bounds
    exact Nat.mod_eq_of_lt (by omega)
  have hpage : (appendInfo fl size' a).validPageAddr = v + C :=
    Nat.mod_eq_of_lt (show v + C < 2 ^ 16 by omega)
  have himg : (s.appended fl name Q size').image =
      s.image.replay fl (fullPageOps fl (nextTag s name) Q size' B (v + C)) := rfl
  -- the pages of the new copy are written, all others are as before
  have hnew : ∀ j < fl.argPages size', (s.appended fl name Q size').image.recAt fl B (v + C + j) =
      .written (recSlice fl Q size' j) (some (nextTag s name)) := by
    rw [himg]
    refine recAt_fullPageOps (by omega) fun j hj => hlog.erased _ (by omega) (by omega)
  have hold : ∀ b i, i < fl.pagesRead → ¬(b = B ∧ v + C ≤ i ∧ i < v + C + C) →
      (s.appended fl name Q size').image.recAt fl b i = s.image.recAt fl b i := by
    intro b i hi hne
    rw [himg]
    exact Image.recAt_replay _ fun op hop hhit => hne (hits_fullPageOps (by omega) hop hi hhit)
  have hlog' : AppendLog fl name size' ((s.appended fl name Q size').image.recAt fl B) (v + C) := by
    obtain ⟨k, hk, hcopies⟩ := hlog.copies
    refine ⟨by omega, ⟨k + 1, by rw [hk, Nat.succ_mul], fun j hj => ?_⟩, fun i h1 h2 => ?_⟩
    · rcases Nat.lt_or_ge j (k + 1) with hlt | hge
      · have hle : j * copyStep fl size' ≤ v := by
          rw [hk]
          exact Nat.mul_le_mul_right _ (by omega)
        rw [hold B _ (by omega) (by omega)]
        exact hcopies j (by omega)
      · obtain rfl : j = k + 1 := by omega
        have h0 := hnew 0 (argPages_pos fl size')
        rw [Nat.succ_mul, ← hk, ← Nat.add_zero (v + C), h0]
        exact ⟨rfl, by simp [Page.oob, tagged, nextTag]⟩
    · rw [hold B i h2 (by omega)]
      exact hlog.erased i (by omega) h2
  apply saved_of_log
  all_goals rw [hinfo]
  · exact hty
  · exact h.valid
  · rw [hblk]
    exact h.visits
  · rw [hblk]
    exact h.listed
  · rw [hblk]
    intro b hb hvis i hi
    rw [hold b i hi (by tauto)]
    exact h.others b hb hvis i hi
  · rw [hblk, hpage]
    exact hasCopy_of_written rfl hnew
  · rw [hblk, hpage]
    exact hlog'

/-- Writing a record to a fresh block changes that block only. -/
lemma hits_writeOps {type : ArgType} {tag : Tag} {op : FlashOp} {b' i : ℕ} (hfit : Fits fl type size)
    (hop : op ∈ writeOps fl type tag Q size b 0) (hi : i < fl.pagesRead)
    (h : op.Hits fl (fl.resChip b') (fl.recPage b' i)) : b' = b := by
  have hA := argPages_pos fl size
  have h1 := hfit.1
  cases type with
  | fullBlk =>
    rw [writeOps, fullBlkOps, if_pos fl.pagesRead_pos, if_neg (by omega)] at hop
    rcases List.mem_append.1 hop with hop | hop
    · exact (hits_copyOps (by omega) hop hi h).1
    · exact (hits_fullBlkOps hi h _ _ (by omega) hop).1
  | fullPage =>
    have h2 := hfit.2 rfl
    exact (hits_fullPageOps (by omega) hop hi h).1

/-- A record in a fresh block starts with the first page of the block. -/
lemma writeOps_cons (fl : Flash) (type : ArgType) (tag : Tag) (Q : Buf) (size b : ℕ)
    (hfit : Fits fl type size) :
    ∃ rest, writeOps fl type tag Q size b 0 = recOp fl tag b 0 (recSlice fl Q size 0) :: rest ∧
      ∀ op ∈ rest, ∀ b' i, i < fl.pagesRead → op.Hits fl (fl.resChip b') (fl.recPage b' i) →
        b' = b ∧ 0 < i ∧ (type = .fullPage → i < copyStep fl size) := by
  have hA := argPages_pos fl size
  have h1 := hfit.1
  cases type with
  | fullBlk =>
    obtain ⟨rest, hrest, hhits⟩ := copyOps_cons fl tag Q size b 0 (by omega)
    rw [writeOps, fullBlkOps, if_pos fl.pagesRead_pos, if_neg (by omega), hrest, List.cons_append]
    refine ⟨_, rfl, fun op hop b' i hi hhit => ?_⟩
    rcases List.mem_append.1 hop with hop | hop
    · obtain ⟨h2, h3, -⟩ := hhits op hop b' i hi hhit
      exact ⟨h2, h3, fun h => by cases h⟩
    · obtain ⟨h2, h3⟩ := hits_fullBlkOps hi hhit _ _ (by omega) hop
      exact ⟨h2, by omega, fun h => by cases h⟩
  | fullPage =>
    have h2 := hfit.2 rfl
    obtain ⟨rest, hrest, hhits⟩ := fullPageOps_cons fl tag Q size b 0 (by omega)
    refine ⟨rest, hrest, fun op hop b' i hi hhit => ?_⟩
    obtain ⟨h3, h4, h5⟩ := hhits op hop b' i hi hhit
    exact ⟨h3, h4, fun _ => by omega⟩

/-- The first copy in a fresh block. -/
lemma recAt_writeOps {type : ArgType} {tag : Tag} {m : Image} (hfit : Fits fl type size)
    (her : ∀ i < fl.pagesRead, m.recAt fl b i = .erased) :
    ∀ j < fl.argPages size, (m.replay fl (writeOps fl type tag Q size b 0)).recAt fl b j =
      .written (recSlice fl Q size j) (some tag) := by
  have h1 := hfit.1
  cases type with
  | fullBlk => exact recAt_fullBlkOps h1 fun j hj => her j (by omega)
  | fullPage =>
    have h2 := hfit.2 rfl
    intro j hj
    have h : (m.replay fl (fullPageOps fl tag Q size b 0)).recAt fl b (0 + j) =
        .written (recSlice fl Q size j) (some tag) :=
      recAt_fullPageOps (by omega) (fun k hk => her _ (by omega)) j hj
    rwa [Nat.zero_add] at h

/-- The blocks after a round that moves the record: the fresh block has a copy at its start and,
for a `FULL_PAGE` record, erased pages behind it; the block left is erased; no other changes. -/
lemma recAt_moveOps (hfit : Fits fl (s.info name).argType size)
    (hne : (s.info name).argValid = true → (s.info name).validBlkAddr ≠ b) :
    let m := s.image.replay fl (moveOps fl s name Q size b)
    (∀ j < fl.argPages size, m.recAt fl b j =
      .written (recSlice fl Q size j) (some (nextTag s name))) ∧
    ((s.info name).argType = .fullPage → ∀ i, copyStep fl size ≤ i → i < fl.pagesRead →
      m.recAt fl b i = .erased) ∧
    (∀ i < fl.pagesRead, (s.info name).argValid = true → (s.info name).validBlkAddr ≠ 0 →
      m.recAt fl (s.info name).validBlkAddr i = .erased) ∧
    ∀ b' ≠ b, ∀ i < fl.pagesRead, ((s.info name).argValid = true → b' ≠ (s.info name).validBlkAddr) →
      m.recAt fl b' i = s.image.recAt fl b' i := by
  intro m
  set a := s.info name with ha
  set m1 := s.image.apply fl (.erase (fl.resChip b) (fl.resRow b)) with hm1
  set m2 := m1.replay fl (writeOps fl a.argType (nextTag s name) Q size b 0) with hm2
  have hm : m = m2.replay fl (leaveOps fl a) := by
    change s.image.replay fl (moveOps fl s name Q size b) = _
    rw [moveOps, Image.replay_cons, Image.replay_append]
  have her : ∀ i < fl.pagesRead, m1.recAt fl b i = .erased := fun i hi => Image.recAt_erase_self _ hi
  have hleave : ∀ b' i, i < fl.pagesRead → (a.argValid = true → b' ≠ a.validBlkAddr) →
      m.recAt fl b' i = m2.recAt fl b' i := by
    intro b' i hi hb'
    rw [hm]
    refine Image.recAt_replay _ fun op hop hhit => ?_
    unfold leaveOps at hop
    split at hop
    · rename_i hc
      obtain rfl := List.mem_singleton.1 hop
      exact hb' hc.1 ((hits_erase_iff hi).1 hhit)
    · cases hop
  have hwrite : ∀ b' ≠ b, ∀ i < fl.pagesRead, m2.recAt fl b' i = s.image.recAt fl b' i := by
    intro b' hb' i hi
    have h1 : m2.recAt fl b' i = m1.recAt fl b' i :=
      Image.recAt_replay _ fun op hop hhit => hb' (hits_writeOps hfit hop hi hhit)
    rw [h1]
    exact Image.apply_of_not_hits fl _ fun h => hb' ((hits_erase_iff hi).1 h)
  have hself : ∀ i < fl.pagesRead, m.recAt fl b i = m2.recAt fl b i := fun i hi =>
    hleave b i hi fun hv => Ne.symm (hne hv)
  refine ⟨fun j hj => ?_, fun hty i h1 h2 => ?_, fun i hi hv h0 => ?_, fun b' hb' i hi ho => ?_⟩
  · have h1 := hfit.1
    rw [hself j (by omega)]
    exact recAt_writeOps hfit her j hj
  · rw [hself i h2, ← her i h2, hm2]
    have hC := hfit.2 hty
    refine Image.recAt_replay _ fun op hop hhit => ?_
    rw [hty] at hop
    have := (hits_fullPageOps (by omega) hop h2 hhit).2.2
    omega
  · rw [hm, leaveOps, if_pos ⟨hv, h0⟩]
    exact Image.recAt_erase_self _ hi
  · rw [hleave b' i hi ho, hwrite b' hb' i hi]

/-- **A round that moves the record** to a fresh block. -/
lemma saved_moved (h : NoRecord fl s name ∨ ∃ size₀ P, Holds fl s name size₀ P)
    (hfit : Fits fl (s.info name).argType size) {excl : ℕ}
    (hb : Candidate fl s.blkStatus s.reservedBlk excl b) (hvis : ScanVisits fl s.blkStatus b)
    (hfree : (0xff : UInt8) ∈ s.reservedBlk) :
    Saved fl (s.moved fl name Q size b) name size Q := by
  set a := s.info name with ha
  have hbound := hvis.bounds
  have hne : a.argValid = true → a.validBlkAddr ≠ b := by
    rintro hv rfl
    rcases h with h | ⟨size₀, P, h⟩
    · exact absurd hv (by simp [ha, h.invalid])
    · exact absurd h.listed (by simp [← ha, hb.2.1])
  obtain ⟨hnew, htail, hleft, hsame⟩ := recAt_moveOps (Q := Q) hfit hne
  set m := s.image.replay fl (moveOps fl s name Q size b) with hm
  have himg : (s.moved fl name Q size b).image = m := rfl
  have hinfo : (s.moved fl name Q size b).info name = moveInfo b a := moved_info_self s name Q size b
  have hblk : (moveInfo b a).validBlkAddr = b := Nat.mod_eq_of_lt (by omega)
  have hpage : (moveInfo b a).validPageAddr = 0 := by
    change (if a.argValid = true then 0 else a.validPageAddr) = 0
    rcases h with h | ⟨size₀, P, h⟩
    · rw [ha, h.page]
      exact ite_self 0
    · exact if_pos h.valid
  have hothers : ∀ b' ≠ b, ScanVisits fl s.blkStatus b' → ∀ i < fl.pagesRead,
      tagged (m.recAt fl b' i).oob name = false := by
    intro b' hb' hvis' i hi
    by_cases hold : a.argValid = true ∧ b' = a.validBlkAddr
    · obtain ⟨hv, rfl⟩ := hold
      rw [hleft i hi hv (Nat.ne_of_gt hvis'.bounds.1)]
      rfl
    · rw [hsame b' hb' i hi fun hv heq => hold ⟨hv, heq⟩]
      rcases h with h | ⟨size₀, P, h⟩
      · exact h.none b' hvis' i hi
      · exact h.others b' (fun heq => hold ⟨h.valid, heq⟩) hvis' i hi
  have hlisted : listed (moveList a b s.reservedBlk) b = true := by
    have hself := listed_enlist_self hfree (show b < 256 by omega)
    unfold moveList
    split
    · rename_i hc
      exact listed_delist_of_ne (Ne.symm (hne hc.1)) hself
    · exact hself
  have hcopy : HasCopy fl name size (m.recAt fl b) 0 Q :=
    hasCopy_of_written rfl fun j hj => by rw [Nat.zero_add, hnew j hj]
  have hfirst : (m.recAt fl b 0).isBad = false ∧ tagged (m.recAt fl b 0).oob name = true := by
    rw [hnew 0 (argPages_pos fl size)]
    exact ⟨rfl, by simp [Page.oob, tagged, nextTag]⟩
  cases hty : a.argType with
  | fullPage =>
    have hlog : AppendLog fl name size (m.recAt fl b) 0 := by
      refine ⟨fl.pagesRead_pos, ⟨0, by rw [Nat.zero_mul], fun j hj => ?_⟩, fun i h1 h2 => ?_⟩
      · obtain rfl : j = 0 := by omega
        rw [Nat.zero_mul]
        exact hfirst
      · exact htail hty i (by omega) h2
    apply saved_of_log
    all_goals rw [hinfo]
    · exact hty
    · rfl
    · rw [hblk]
      exact hvis
    · rw [hblk]
      exact hlisted
    · rw [hblk]
      exact hothers
    · rw [hblk, hpage]
      exact hcopy
    · rw [hblk, hpage]
      exact hlog
  | fullBlk =>
    have htype : (moveInfo b a).argType = .fullBlk := hty
    refine ⟨?_, fun hc => ?_⟩
    swap
    · rw [hinfo, htype] at hc
      cases hc
    constructor
    all_goals rw [hinfo]
    · rfl
    · rw [hblk]
      exact hvis
    · rw [hblk]
      exact hlisted
    · rw [hblk]
      exact hothers
    · rw [hblk, hpage]
      exact hcopy
    · rw [hblk]
      exact not_silent_of_first hfirst.1 hfirst.2
    · rw [hblk, htype, Delivers]
      have hcp : copyPage fl .fullBlk name size (m.recAt fl b) = 0 :=
        copyPage_fullBlk_first hfirst.1 hfirst.2
      rw [himg, hcp]
      exact hcopy
    · intro hc
      rw [htype] at hc
      cases hc

end Rounds

end Amlnf
