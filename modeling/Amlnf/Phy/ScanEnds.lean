import Amlnf.Lib.Descent
import Amlnf.Phy.Chipenv

set_option relaxedAutoImplicit false
set_option autoImplicit false

/-!
# The scan for a record ends

`amlnand_check_info_by_name` looks at the blocks of the reserved area in turn. In a block it goes
from copy to copy until a page can be read; after nine pages that could not be read it goes to the
middle of the block, which may lie behind or in front of where it stands, and from there to the
last part. The chosen block is then read from copy to copy once more.

## Main definitions

* `pageMeasure` — what is left of the page loop: first the failures it still takes to leave for
  the middle, then the parts of the block still to come, then the copy behind the last part.
* `ScanPos` — the positions the page loop gets to.
* `St.Lockable` — no wait of the scan for the chip lasts forever.

## Main results

* `descends_scanPageRound`, `descends_scanBlockRound`, `descends_scanCopyRound` — what each round
  of the three loops lowers.
* `checkInfo_ends` — how many rounds each loop makes, that no position overflows, and that the
  scan returns.
-/

namespace Amlnf

open Act

/-! ## The pages of a block -/

section Pages

variable (fl : Flash) (size : ℕ)

/-- The positions of the page loop: before the jump to the middle there were at most eight
failures, and behind the jump to the last part no copy fits into the block. -/
structure ScanPos (v : ℕ × ℕ × ℤ) : Prop where
  le : v.1 ≤ fl.ppb + fl.argPages size
  phase : v.2.2 = 0 ∧ v.2.1 ≤ 8 ∨ v.2.2 = -1 ∨
    v.2.2 = -2 ∧ fl.argPages size * (fl.ppb / fl.argPages size) ≤ v.1

/-- What is left of the page loop. -/
def pageMeasure (v : ℕ × ℕ × ℤ) : ℕ :=
  if v.2.2 = 0 then 11 - v.2.1
  else if v.2.2 = -1 then 2
  else if v.1 ≤ fl.ppb then 1
  else 0

/-- The pages a record may use lie in a block. -/
lemma pagesRead_le_ppb : fl.pagesRead ≤ fl.ppb := by
  unfold Flash.pagesRead
  split
  · rw [Nat.shiftRight_eq_div_pow]
    exact Nat.div_le_self _ _
  · exact Nat.le_refl _

/-- Behind the last part there is no room for another copy. -/
lemma ppb_lt_last_add :
    fl.ppb < fl.argPages size * (fl.ppb / fl.argPages size) + fl.argPages size := by
  have h := Nat.div_add_mod fl.ppb (fl.argPages size)
  have hpos : 0 < fl.argPages size := Nat.succ_pos _
  have hlt := Nat.mod_lt fl.ppb hpos
  omega

/-- The middle of a block lies in the block. -/
lemma middle_le :
    fl.argPages size * ((fl.ppb / fl.argPages size) >>> 1) ≤ fl.ppb := by
  have hhalf : (fl.ppb / fl.argPages size) >>> 1 ≤ fl.ppb / fl.argPages size := by
    rw [Nat.shiftRight_eq_div_pow]
    exact Nat.div_le_self _ _
  exact (Nat.mul_le_mul_left _ hhalf).trans (Nat.mul_div_le _ _)

variable {fl size}

/-- **One page that cannot be read.** The position stays in the block or one copy behind it, and
less of the loop is left. -/
lemma scanSkip_descends {v : ℕ × ℕ × ℤ} (hv : ScanPos fl size v) (hlt : v.1 < fl.pagesRead) :
    ScanPos fl size (scanSkip fl size v) ∧
      pageMeasure fl (scanSkip fl size v) < pageMeasure fl v := by
  obtain ⟨i, fails, phase⟩ := v
  have hppb := pagesRead_le_ppb fl
  have hlast := ppb_lt_last_add fl size
  have hmiddle := middle_le fl size
  have hlastle := Nat.mul_div_le fl.ppb (fl.argPages size)
  simp only at hlt
  rcases hv.phase with ⟨h0, hfails⟩ | hm | ⟨hl, hpos⟩
  · -- in front of the jump to the middle
    simp only at h0 hfails
    subst h0
    by_cases hnine : 8 < fails + 1
    · rw [scanSkip, if_pos ⟨hnine, rfl⟩]
      refine ⟨⟨by simp only; omega, .inr (.inl rfl)⟩, ?_⟩
      simp only [pageMeasure]
      norm_num
      omega
    · rw [scanSkip, if_neg (fun h => hnine h.1), if_neg (by norm_num)]
      refine ⟨⟨by simp only; omega, .inl ⟨rfl, by simp only; omega⟩⟩, ?_⟩
      simp only [pageMeasure, if_true]
      omega
  · -- at the middle: the last part comes next
    simp only at hm
    subst hm
    rw [scanSkip, if_neg (fun h => absurd h.2 (by norm_num)), if_pos rfl]
    refine ⟨⟨by simp only; omega, .inr (.inr ⟨rfl, Nat.le_refl _⟩)⟩, ?_⟩
    simp only [pageMeasure]
    norm_num
    split <;> omega
  · -- in the last part: the next copy lies behind the block
    simp only at hl hpos
    subst hl
    rw [scanSkip, if_neg (fun h => absurd h.2 (by norm_num)), if_neg (by norm_num)]
    refine ⟨⟨by simp only; omega, .inr (.inr ⟨rfl, by simp only; omega⟩)⟩, ?_⟩
    simp only [pageMeasure]
    norm_num
    rw [if_neg (by omega), if_pos (by omega)]
    exact Nat.one_pos

/-- A round of the page loop that goes on had a page that could not be read. -/
lemma scanPageRound_inl {name : RecName} {b : ℕ} {v v' : (ℕ × ℕ × ℤ) × ℤ} {s t : St}
    (h : scanPageRound fl name size b v s = (some (Sum.inl v'), t)) :
    v.1.1 < fl.pagesRead ∧ v'.1 = scanSkip fl size v.1 := by
  unfold scanPageRound at h
  by_cases hlt : v.1.1 < fl.pagesRead
  · rw [if_pos hlt] at h
    obtain ⟨r, u, _, h⟩ := bind_eq_some h
    rw [get_bind] at h
    split at h
    · cases h
      exact ⟨hlt, rfl⟩
    · cases ho : u.userOob with
      | none =>
        rw [ho] at h
        cases h
      | some tag =>
        rw [ho] at h
        dsimp only at h
        split at h
        · obtain ⟨_, _, _, h⟩ := bind_eq_some h
          cases h
        · cases h
  · rw [if_neg hlt] at h
    cases h

/-- So the page loop comes to an end. -/
lemma descends_scanPageRound (name : RecName) (b : ℕ) :
    Descends (fun v => ScanPos fl size v.1) (fun v => pageMeasure fl v.1)
      (scanPageRound fl name size b) := by
  intro v s v' t hv h
  obtain ⟨hlt, heq⟩ := scanPageRound_inl h
  dsimp only
  rw [heq]
  exact scanSkip_descends hv hlt

/-- It starts at the first page. -/
lemma scanPos_start : ScanPos fl size (0, 0, 0) := ⟨Nat.zero_le _, .inl ⟨rfl, Nat.zero_le _⟩⟩

end Pages

/-! ## The blocks, and the chosen block -/

section Blocks

variable {fl : Flash} {name : RecName} {size : ℕ}

lemma scanBlockRound_inl {v v' : ℕ × ℤ} {s t : St}
    (h : scanBlockRound fl name size v s = (some (Sum.inl v'), t)) :
    v.1 < fl.startBlk + reservedBlockCnt ∧ v'.1 = v.1 + 1 := by
  unfold scanBlockRound at h
  by_cases hlt : v.1 < fl.startBlk + reservedBlockCnt
  · rw [if_pos hlt] at h
    obtain ⟨ret, u, _, h⟩ := bind_eq_some h
    split at h
    · cases h
      exact ⟨hlt, rfl⟩
    · obtain ⟨ret', w, _, h⟩ := bind_eq_some h
      rw [get_bind] at h
      split at h
      · cases h
      · cases h
        exact ⟨hlt, rfl⟩
  · rw [if_neg hlt] at h
    cases h

/-- So the loop over the blocks comes to an end. -/
lemma descends_scanBlockRound (fl : Flash) (name : RecName) (size : ℕ) :
    Descends (fun _ => True) (fun v => fl.startBlk + reservedBlockCnt - v.1)
      (scanBlockRound fl name size) := by
  intro v s v' t _ h
  obtain ⟨hlt, heq⟩ := scanBlockRound_inl h
  refine ⟨trivial, ?_⟩
  dsimp only
  omega

/-- A page of the second pass after which the loop goes on is followed by the next copy. -/
lemma scanCopyPage_inl {i : ℕ} {ret : ℤ} {v' : ℕ × ℤ} {s t : St}
    (h : scanCopyPage fl name size i ret s = (some (Sum.inl v'), t)) :
    i + fl.argPages size ≤ v'.1 ∧ v'.1 ≤ i + fl.argPages size + 1 := by
  unfold scanCopyPage at h
  rw [get_bind] at h
  split at h
  · obtain ⟨_, _, _, h⟩ := bind_eq_some h
    cases h
    exact ⟨Nat.le_refl _, Nat.le_succ _⟩
  · cases ho : s.userOob with
    | none =>
      rw [ho] at h
      cases ha : (s.info name).argType with
      | fullBlk =>
        rw [ha] at h
        cases h
        exact ⟨Nat.le_refl _, Nat.le_succ _⟩
      | fullPage =>
        rw [ha] at h
        cases h
    | some tag =>
      rw [ho] at h
      cases ha : (s.info name).argType with
      | fullBlk =>
        rw [ha] at h
        dsimp only at h
        split at h
        · obtain ⟨_, _, _, h⟩ := bind_eq_some h
          cases h
        · cases h
          exact ⟨Nat.le_refl _, Nat.le_succ _⟩
      | fullPage =>
        rw [ha] at h
        dsimp only at h
        split at h
        · obtain ⟨_, _, _, h⟩ := bind_eq_some h
          cases h
          refine ⟨Nat.le_add_right _ _, Nat.add_le_add_left ?_ _⟩
          split <;> omega
        · cases h

/-- So the second pass comes to an end. -/
lemma descends_scanCopyRound :
    Descends (fun v => v.1 ≤ fl.ppb + fl.argPages size) (fun v => fl.pagesRead - v.1)
      (scanCopyRound fl name size) := by
  intro v s v' t _ h
  unfold scanCopyRound at h
  by_cases hlt : v.1 < fl.pagesRead
  · rw [if_pos hlt, get_bind] at h
    obtain ⟨r, u, _, h⟩ := bind_eq_some h
    obtain ⟨hge, hle⟩ := scanCopyPage_inl h
    have hpos : 0 < fl.argPages size := Nat.succ_pos _
    have hppb := pagesRead_le_ppb fl
    dsimp only
    exact ⟨by omega, by omega⟩
  · rw [if_neg hlt] at h
    cases h

end Blocks

/-! ## The scan returns -/

/-- No device operation holds the chip or will find the pins taken: `st` is the state of the
device in which the scan is called. -/
structure St.Lockable (st : ChipState) (s : St) : Prop where
  state : s.state = st
  mutex : s.mutex = false
  pin : ∀ k, (s.plan k).pin = true

/-- The chip is taken. -/
structure St.Held (st : ChipState) (s : St) : Prop where
  state : s.state = st
  idleflag : s.idleflag = true
  pin : ∀ k, (s.plan k).pin = true

section Returns

variable {fl : Flash} {st : ChipState}

/-- `nand_get_chip` returns where the chip can be taken. -/
lemma getChip_held : Spec (St.Lockable st) nandGetChip (fun _ => St.Held st) fun _ => False := by
  refine Spec.get_bind fun s hs => ?_
  rw [if_neg (by simp [hs.mutex])]
  refine Spec.bind (M := fun _ => St.Held st) (Spec.modify fun _ h => ?_) fun _ => ?_
  · exact h ▸ ⟨hs.state, rfl, hs.pin⟩
  · intro s hs
    have hnext : nextOutcome s = (some (s.plan s.tick), { s with tick := s.tick + 1 }) := rfl
    rw [bind_some hnext, if_pos (hs.pin s.tick)]
    exact ⟨hs.state, hs.idleflag, hs.pin⟩

/-- `nand_release_chip` returns and leaves the chip to be taken again. -/
lemma releaseChip_lockable :
    Spec (St.Held st) nandReleaseChip (fun _ => St.Lockable st) fun _ => False := by
  refine Spec.get_bind fun s hs => ?_
  rw [if_pos hs.idleflag]
  exact Spec.modify fun _ h => h ▸ ⟨hs.state, rfl, hs.pin⟩

section Reads

variable {P : St → Prop} (h : ∀ (s : St) (k : ℕ) (p : ChipOpsPara) (o : Option Tag),
  P s → P { s with tick := k, opsPara := p, userOob := o })

include h

/-- A read returns whatever its outcome is, in every class of states that does not look at what
a read changes. -/
lemma readPageInto_returns : Returns P (readPageInto fl) := by
  refine .bind .get fun s => .bind (fun s hs => h s _ s.opsPara s.userOob hs) fun o => ?_
  dsimp only
  have hbad : Returns P (do
      Act.modify fun s : St => { s with opsPara := { s.opsPara with eccErr := true } }
      Pure.pure (⟨0, o.garbage, none⟩ : ReadBack)) :=
    .bind (.modify fun s hs => h s s.tick _ s.userOob hs) fun _ => .pure _
  split
  · exact .pure _
  · exact hbad
  · exact .ite hbad (.bind (.modify fun s hs => h s s.tick _ s.userOob hs) fun _ => .pure _)

/-- So does a read with or without buffers. -/
lemma readPage_returns (data oob : Bool) : Returns P (readPage fl data oob) :=
  .ite (readPageInto_returns h) (.pure _)

/-- So does a read with the spare bytes. -/
lemma readUserPage_returns : Returns P (readUserPage fl) :=
  .bind (readPage_returns h true true) fun _ =>
    .bind (.when (.modify fun s hs => h s s.tick s.opsPara _ hs)) fun _ => .pure _

end Reads

/-- A read leaves a chip that can be taken as it is. -/
lemma readUserPage_lockable : Returns (St.Lockable st) (readUserPage fl) :=
  readUserPage_returns fun _ _ _ _ hs => ⟨hs.state, hs.mutex, hs.pin⟩

/-- A read leaves a chip that is taken as it is. -/
lemma readUserPage_held : Returns (St.Held st) (readUserPage fl) :=
  readUserPage_returns fun _ _ _ _ hs => ⟨hs.state, hs.idleflag, hs.pin⟩

/-- The read of the first pass takes the chip and gives it back. -/
lemma scanRead_returns (b i : ℕ) : Returns (St.Lockable st) (scanRead fl b i) := by
  refine .bind (.modify fun s hs => ⟨hs.state, hs.mutex, hs.pin⟩) fun _ => ?_
  refine .bind (.modify fun s hs => ⟨hs.state, hs.mutex, hs.pin⟩) fun _ => ?_
  refine Spec.bind getChip_held fun _ => Spec.bind readUserPage_held fun r => ?_
  exact Spec.bind releaseChip_lockable fun _ => Spec.pure fun _ h => h

/-- The read of the second pass returns. -/
lemma readRecPage_returns (b i : ℕ) : Returns (St.Lockable st) (readRecPage fl b i) := by
  refine .bind (.modify fun s hs => ⟨hs.state, hs.mutex, hs.pin⟩) fun _ => ?_
  refine .bind (.modify fun s hs => ⟨hs.state, hs.mutex, hs.pin⟩) fun _ => ?_
  refine Spec.get_bind fun s hs => ?_
  by_cases hst : s.state = .ready
  · -- the bracket takes the chip, and gives it back since a read keeps the device state
    have hst' : st = .ready := hs.state.symm.trans hst
    rw [Act.when, if_pos hst]
    refine Spec.bind (M := fun _ => St.Held st)
      (getChip_held.mono (fun _ h => h ▸ hs) (fun _ _ h => h) fun _ h => h) fun _ => ?_
    refine Spec.bind readUserPage_held fun r => Spec.get_bind fun t ht => ?_
    rw [Act.when, if_pos (ht.state.trans hst')]
    refine Spec.bind (M := fun _ => St.Lockable st)
      (releaseChip_lockable.mono (fun _ h => h ▸ ht) (fun _ _ h => h) fun _ h => h) fun _ => ?_
    exact Spec.pure fun _ h => h
  · have hst' : st ≠ .ready := fun h => hst (hs.state.trans h)
    rw [Act.when, if_neg hst]
    refine Spec.bind (M := fun _ => St.Lockable st) (Spec.pure fun _ h => h ▸ hs) fun _ => ?_
    refine Spec.bind readUserPage_lockable fun r => Spec.get_bind fun t ht => ?_
    rw [Act.when, if_neg (fun h => hst' (ht.state.symm.trans h))]
    exact Spec.bind (M := fun _ => St.Lockable st) (Spec.pure fun _ h => h ▸ ht) fun _ =>
      Spec.pure fun _ h => h

variable {name : RecName} {size : ℕ}

/-- Changing an `arg_info` returns. -/
lemma modifyInfo_returns (f : ArgInfo → ArgInfo) :
    Returns (St.Lockable st) (modifyInfo name f) :=
  .modify fun _ hs => ⟨hs.state, hs.mutex, hs.pin⟩

/-- A round of the page loop returns. -/
lemma scanPageRound_returns (b : ℕ) (v : (ℕ × ℕ × ℤ) × ℤ) :
    Returns (St.Lockable st) (scanPageRound fl name size b v) := by
  refine .ite (.bind (scanRead_returns b _) fun r => .bind .get fun s => .ite (.pure _) ?_)
    (.pure _)
  split
  · exact .ite (.bind (modifyInfo_returns _) fun _ => .pure _) (.pure _)
  · exact .pure _

/-- The scan of a block returns: its loop has fewer than sixteen rounds. -/
lemma scanBlock_returns (b : ℕ) (ret : ℤ) :
    Returns (St.Lockable st) (scanBlock fl name size b ret) :=
  (descends_scanPageRound name b).returns (scanPageRound_returns b) scanPos_start
    (by change 11 < scanRounds; decide)

/-- A round of the loop over the blocks returns. -/
lemma scanBlockRound_returns (v : ℕ × ℤ) :
    Returns (St.Lockable st) (scanBlockRound fl name size v) := by
  have hlook : Returns (St.Lockable st) (lookBlock fl v.1) := by
    refine .bind (.modify fun s hs => ⟨hs.state, hs.mutex, hs.pin⟩) fun _ => ?_
    exact .bind .get fun s => .pure _
  refine .ite (.bind hlook fun ret => .ite (.pure _) ?_) (.pure _)
  exact .bind (scanBlock_returns _ _) fun ret => .bind .get fun s => .ite (.pure _) (.pure _)

/-- A round of the second pass returns. -/
lemma scanCopyRound_returns (v : ℕ × ℤ) :
    Returns (St.Lockable st) (scanCopyRound fl name size v) := by
  refine .ite (.bind .get fun s => .bind (readRecPage_returns _ _) fun r => ?_) (.pure _)
  refine .bind .get fun s => .ite (.bind (modifyInfo_returns _) fun _ => .pure _) ?_
  split
  · exact .ite (.bind (modifyInfo_returns _) fun _ => .pure _) (.pure _)
  · exact .pure _
  · exact .ite (.bind (modifyInfo_returns _) fun _ => .pure _) (.pure _)
  · exact .pure _

/-- The scan returns when it can take the chip. -/
lemma checkInfo_returns : Returns (St.Lockable st) (amlnandCheckInfoByName fl name size) := by
  have hblocks : Returns (St.Lockable st) (scanBlocks fl name size) :=
    (descends_scanBlockRound fl name size).returns scanBlockRound_returns trivial
      (by simp only; omega)
  have hpages : Returns (St.Lockable st) (scanPages fl name size) :=
    descends_scanCopyRound.returns scanCopyRound_returns (Nat.zero_le _)
      (Nat.lt_succ_of_le (Nat.sub_le _ _))
  refine .bind (.modify fun s hs => ⟨hs.state, hs.mutex, hs.pin⟩) fun _ => ?_
  refine .bind hblocks fun ret => .bind .get fun s => .ite (.bind hpages fun ret => ?_) (.pure _)
  exact .bind (.modify fun s hs => ⟨hs.state, hs.mutex, hs.pin⟩) fun _ => .pure _

end Returns

/-! ## The scan ends -/

/-- A page number of the scan fits an `unsigned int`, for pages of two bytes at least and a size
that fits one. -/
lemma fits_of_le {fl : Flash} {size i : ℕ} (hpage : 0 < fl.pageShift) (hsize : size < 2 ^ 32)
    (hi : i ≤ fl.ppb + fl.argPages size) : i < 2 ^ 32 := by
  have hppb := fl.ppb_le
  have hle : size / fl.pagesize ≤ size / 2 :=
    Nat.div_le_div_left (Nat.le_self_pow hpage.ne' 2) (by norm_num)
  rw [fl.argPages_eq] at hi
  omega

/-- **The scan for a record ends.** From whatever state and whatever its reads meet, each of its
loops makes a bounded number of rounds, however many it is allowed: twelve pages in a block, one
round for each block of the reserved area, one for each page of the chosen block. No page number
overflows on the way, and a scan that can take the chip returns. -/
theorem checkInfo_ends (fl : Flash) (name : RecName) (size : ℕ) :
    (∀ b ret N s, (rounds (scanPageRound fl name size b) N ((0, 0, 0), ret) s).length ≤ 12) ∧
    (∀ N s, (rounds (scanBlockRound fl name size) N (fl.startBlk, 0) s).length ≤
      reservedBlockCnt + 1) ∧
    (∀ N s, (rounds (scanCopyRound fl name size) N (0, 0) s).length ≤ fl.pagesRead + 1) ∧
    (0 < fl.pageShift → size < 2 ^ 32 →
      (∀ b ret N s, ∀ r ∈ rounds (scanPageRound fl name size b) N ((0, 0, 0), ret) s,
        r.1.1.1 < 2 ^ 32) ∧
      ∀ N s, ∀ r ∈ rounds (scanCopyRound fl name size) N (0, 0) s, r.1.1 < 2 ^ 32) ∧
    ∀ (st : ChipState) (s : St), s.Lockable st →
      ∃ ret t, amlnandCheckInfoByName fl name size s = (some ret, t) := by
  refine ⟨fun b ret N s => ?_, fun N s => ?_, fun N s => ?_, fun hpage hsize => ⟨?_, ?_⟩,
    fun st s hs => ?_⟩
  · exact (descends_scanPageRound name b).length_rounds N scanPos_start s
  · have h := (descends_scanBlockRound fl name size).length_rounds N
      (b := (fl.startBlk, 0)) trivial s
    rwa [Nat.add_sub_cancel_left] at h
  · exact descends_scanCopyRound.length_rounds N (Nat.zero_le _) s
  · intro b ret N s r hr
    exact fits_of_le hpage hsize
      ((descends_scanPageRound name b).of_mem_rounds scanPos_start hr).le
  · intro N s r hr
    exact fits_of_le hpage hsize
      (descends_scanCopyRound.of_mem_rounds (b := (0, 0)) (Nat.zero_le _) hr)
  · obtain ⟨ret, t, ht, _⟩ := checkInfo_returns.exists_eq hs
    exact ⟨ret, t, ht⟩

/-- On a driver whose reads all fail with an error code, the scan for the bad-block table
returns. -/
theorem checkInfo_ends_failing :
    ∃ ret t, amlnandCheckInfoByName Flash.h27ucg8t2a .nbbt blockStatusSize
      { St.blank with plan := fun _ => { Outcome.fine with read := .failed 0 } } = (some ret, t) :=
  (checkInfo_ends _ _ _).2.2.2.2 .ready _ ⟨rfl, rfl, fun _ => rfl⟩

end Amlnf
