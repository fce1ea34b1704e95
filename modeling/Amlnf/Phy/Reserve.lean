import Mathlib.Order.Interval.Finset.Nat
import Mathlib.Data.Nat.Count
import Amlnf.Phy.BadBlock
import Amlnf.Phy.Steps

set_option relaxedAutoImplicit false
set_option autoImplicit false

/-!
# The reserved area and its allocator

`get_last_reserve_block` ends the reserved area after 48 blocks that are not factory bad, so
its extent grows with the number of factory-bad blocks. `amlnand_get_free_block` searches this
area and passes over factory-bad blocks only. The scan for records looks at a fixed range of
48 blocks and passes over every block that is not good.

## Main definitions

* `InReserve` — block `b` belongs to the reserved area, by counting.
* `Candidate` — the allocator may take block `b`.
* `ScanVisits` — the scan looks at block `b`.

## Main results

* `getLastReserveBlock_spec`, `getLastReserveBlock_eq` — the extent of the reserved area.
* `freeBlockRound_skip`, `freeBlockRound_candidate` — what the search does at a block.
* `scanVisits_iff` — the blocks the scan looks at.
-/

namespace Amlnf

open Act

section Extent

variable (fl : Flash) (tbl : BlkStatus)

/-- Status of reserved block `b` in the bad-block table. -/
def resStatus (b : ℕ) : UInt16 := tbl (fl.resChip b) (fl.resRow b)

/-- The `k`-th block from the start of the reserved area is not factory bad. -/
def NotFactory (k : ℕ) : Prop := resStatus fl tbl (fl.startBlk + k) ≠ blockFactoryBad

instance : DecidablePred (NotFactory fl tbl) := fun k =>
  inferInstanceAs (Decidable (resStatus fl tbl (fl.startBlk + k) ≠ blockFactoryBad))

/-- Block `b` belongs to the reserved area: fewer than 48 of the blocks before it are not
factory bad. -/
def InReserve (b : ℕ) : Prop :=
  fl.startBlk ≤ b ∧ Nat.count (NotFactory fl tbl) (b - fl.startBlk) < reservedBlockCnt

instance : DecidablePred (InReserve fl tbl) := fun b =>
  inferInstanceAs (Decidable (fl.startBlk ≤ b ∧
    Nat.count (NotFactory fl tbl) (b - fl.startBlk) < reservedBlockCnt))

/-- `n` is the end of the reserved area. -/
def ReserveEnd (n : ℕ) : Prop :=
  fl.startBlk ≤ n ∧ Nat.count (NotFactory fl tbl) (n - fl.startBlk) = reservedBlockCnt ∧
    ∀ b, fl.startBlk ≤ b → b < n → InReserve fl tbl b

variable {fl tbl}

/-- Below its end every block belongs to the area, above none. -/
lemma ReserveEnd.lt_iff {n b : ℕ} (h : ReserveEnd fl tbl n) (hb : fl.startBlk ≤ b) :
    b < n ↔ InReserve fl tbl b := by
  refine ⟨h.2.2 b hb, fun hr => ?_⟩
  by_contra hn
  have hmono := Nat.count_monotone (NotFactory fl tbl)
    (show n - fl.startBlk ≤ b - fl.startBlk by omega)
  have h1 := h.2.1
  have h2 := hr.2
  omega

/-- The area holds at least the 48 blocks of the scan range. -/
lemma ReserveEnd.le {n : ℕ} (h : ReserveEnd fl tbl n) : fl.startBlk + reservedBlockCnt ≤ n := by
  have h1 := h.2.1
  have h2 : Nat.count (NotFactory fl tbl) (n - fl.startBlk) ≤ n - fl.startBlk := Nat.count_le _
  have h3 := h.1
  omega

variable (fl)

lemma resPage_div (b : ℕ) : fl.resPage b / fl.ppb = fl.resRow b :=
  Nat.mul_div_cancel _ fl.ppb_pos

/-- `ops_para` after `seekBlock`. -/
def blockPara (b : ℕ) : ChipOpsPara := { pageAddr := fl.resPage b, chipnr := fl.resChip b }

/-- In the plain mode `block_isbad` gives the status of one entry. -/
lemma isbadVal_single (tbl : BlkStatus) {p : ChipOpsPara} (hp : p.option = {}) :
    isbadVal fl tbl p = getBlcokStatus tbl p.chipnr (p.pageAddr / fl.ppb) := by
  unfold isbadVal isbadEntries
  simp only [pageAddr_shift, hp, Bool.false_eq_true, false_and, and_false, if_false, firstBad]
  split
  · rfl
  · rename_i h
    simpa using (not_not.mp h).symm

/-- The status of a reserved block, as `block_isbad` sees it. -/
lemma isbadVal_blockPara (tbl : BlkStatus) (b : ℕ) :
    isbadVal fl tbl (blockPara fl b) = getBlcokStatus tbl (fl.resChip b) (fl.resRow b) := by
  rw [isbadVal_single fl tbl rfl, blockPara, resPage_div]

lemma getBlcokStatus_eq_one_iff (tbl : BlkStatus) (c b : ℕ) :
    getBlcokStatus tbl c b = 1 ↔ tbl c b = blockUsedBad := by
  unfold getBlcokStatus
  split
  · rename_i h
    exact ⟨fun _ => h, fun _ => rfl⟩
  · rename_i h
    refine ⟨fun h1 => ?_, fun h1 => absurd h1 h⟩
    split at h1
    · cases h1
    · split at h1 <;> cases h1

lemma getBlcokStatus_eq_two_iff (tbl : BlkStatus) (c b : ℕ) :
    getBlcokStatus tbl c b = 2 ↔ tbl c b = blockFactoryBad := by
  unfold getBlcokStatus blockUsedBad blockFactoryBad blockGood
  split
  · rename_i h
    simp [h]
  · split
    · rename_i h
      simp [h]
    · split <;> simp_all

/-- Looking a block up moves `ops_para` and nothing else. -/
lemma lookBlock_apply (b : ℕ) (s : St) :
    lookBlock fl b s = (some (getBlcokStatus s.blkStatus (fl.resChip b) (fl.resRow b)),
      { s with opsPara := blockPara fl b }) := by
  rw [← isbadVal_blockPara]
  rfl

/-- A round of `get_last_reserve_block`. -/
lemma lastReserveRound_apply {v : ℕ × ℕ} (hv : v.2 < reservedBlockCnt) (s : St) :
    lastReserveRound fl v s =
      (some (Sum.inl (v.1 + 1,
        v.2 + if resStatus fl s.blkStatus v.1 ≠ blockFactoryBad then 1 else 0)),
      { s with opsPara := blockPara fl v.1 }) := by
  rw [lastReserveRound, if_pos hv, bind_some (lookBlock_apply fl v.1 s)]
  by_cases h : resStatus fl s.blkStatus v.1 = blockFactoryBad
  · rw [if_pos ((getBlcokStatus_eq_two_iff _ _ _).2 h), if_neg (not_not.2 h)]
    rfl
  · rw [if_neg fun h' => h ((getBlcokStatus_eq_two_iff _ _ _).1 h'), if_pos h]
    rfl

lemma count_step {b : ℕ} (hb : fl.startBlk ≤ b) (tbl : BlkStatus) :
    Nat.count (NotFactory fl tbl) (b + 1 - fl.startBlk) =
      Nat.count (NotFactory fl tbl) (b - fl.startBlk) +
        if resStatus fl tbl b ≠ blockFactoryBad then 1 else 0 := by
  rw [show b + 1 - fl.startBlk = b - fl.startBlk + 1 by omega, Nat.count_succ]
  simp only [NotFactory, show fl.startBlk + (b - fl.startBlk) = b by omega]

/-- **When `get_last_reserve_block` returns, it returns the end of the reserved area**, having
moved nothing but `ops_para`. -/
lemma getLastReserveBlock_spec {s t : St} {n : ℕ} (h : getLastReserveBlock fl s = (some n, t)) :
    ReserveEnd fl s.blkStatus n ∧ ∃ p, t = { s with opsPara := p } := by
  -- the loop counts the blocks that are not factory bad and stops at the 48th
  let I : ℕ × ℕ → St → Prop := fun v u =>
    (∃ p, u = { s with opsPara := p }) ∧ fl.startBlk ≤ v.1 ∧
      v.2 = Nat.count (NotFactory fl s.blkStatus) (v.1 - fl.startBlk) ∧ v.2 ≤ reservedBlockCnt ∧
      ∀ b, fl.startBlk ≤ b → b < v.1 → InReserve fl s.blkStatus b
  have hround : ∀ v, Spec (I v) (lastReserveRound fl v)
      (fun r u => Sum.elim (fun v' => I v' u)
        (fun n => ReserveEnd fl s.blkStatus n ∧ ∃ p, u = { s with opsPara := p }) r)
      (fun _ => True) := by
    rintro v u ⟨⟨p, rfl⟩, h1, h2, h3, h4⟩
    by_cases hv : v.2 < reservedBlockCnt
    · rw [lastReserveRound_apply fl hv]
      refine ⟨⟨_, rfl⟩, by simp only; omega, ?_, ?_, ?_⟩
      · simp only
        rw [count_step fl h1, ← h2]
      · simp only
        split <;> omega
      · intro b hb hlt
        by_cases hbv : b < v.1
        · exact h4 b hb hbv
        · have : b = v.1 := by simp only at hlt; omega
          subst this
          exact ⟨h1, by rw [← h2]; exact hv⟩
    · rw [lastReserveRound, if_neg hv]
      exact ⟨⟨h1, by rw [← h2]; omega, h4⟩, ⟨p, rfl⟩⟩
  have hloop := Spec.loopUntil (I := I) hround (fun _ _ _ => trivial) scanFuel (fl.startBlk, 0)
  have hinit : I (fl.startBlk, 0) { s with opsPara := {} } :=
    ⟨⟨_, rfl⟩, le_refl _, by simp, by simp, fun b h1 h2 => absurd h2 (by simp only; omega)⟩
  exact hloop.returned hinit h

/-- `get_last_reserve_block` returns when the area ends inside the table; the block it looked up
last is the last one of the area. -/
lemma getLastReserveBlock_eq {s : St} {n : ℕ} (h : ReserveEnd fl s.blkStatus n)
    (hn : n < fl.startBlk + scanFuel) :
    getLastReserveBlock fl s = (some n, { s with opsPara := blockPara fl (n - 1) }) := by
  have hrun : ∀ j b N, b + j = n → fl.startBlk ≤ b → j < N → ∀ p : ChipOpsPara,
      loopUntil (lastReserveRound fl) N
        (b, Nat.count (NotFactory fl s.blkStatus) (b - fl.startBlk)) { s with opsPara := p } =
      (some n, { s with opsPara := if j = 0 then p else blockPara fl (n - 1) }) := by
    intro j
    induction j with
    | zero =>
      intro b N hb hle hN p
      obtain ⟨N, rfl⟩ : ∃ k, N = k + 1 := ⟨N - 1, by omega⟩
      obtain rfl : b = n := by omega
      refine loopUntil_inr N ?_
      rw [lastReserveRound, if_neg (by simp only [h.2.1]; omega)]
      rfl
    | succ j ih =>
      intro b N hb hle hN p
      obtain ⟨N, rfl⟩ : ∃ k, N = k + 1 := ⟨N - 1, by omega⟩
      have hlt := (h.2.2 b hle (by omega)).2
      have hrest := ih (b + 1) N (by omega) (by omega) (by omega) (blockPara fl b)
      have hlast : (if j = 0 then blockPara fl b else blockPara fl (n - 1)) =
          blockPara fl (n - 1) := by
        split
        · rw [show n - 1 = b by omega]
        · rfl
      rw [hlast, count_step fl hle] at hrest
      rw [loopUntil_inl N (lastReserveRound_apply fl hlt _), if_neg (Nat.succ_ne_zero j)]
      exact hrest
  have h0 := h.1
  have h48 := h.le
  have hlast := hrun (n - fl.startBlk) fl.startBlk scanFuel (by omega) (le_refl _) (by omega) {}
  rw [if_neg (by unfold reservedBlockCnt at h48; omega)] at hlast
  rw [getLastReserveBlock, modify_bind, ← hlast]
  simp

end Extent

/-! ## The allocator -/

section Alloc

variable (fl : Flash) (tbl : BlkStatus) (rl : List UInt8) (excl : ℕ)

/-- The allocator may take block `b`: it belongs to the reserved area, is not in the list of
blocks in use, is not the excluded block and is not factory bad. -/
def Candidate (b : ℕ) : Prop :=
  InReserve fl tbl b ∧ listed rl b = false ∧ b ≠ excl ∧ resStatus fl tbl b ≠ blockFactoryBad

instance : DecidablePred (Candidate fl tbl rl excl) := fun b =>
  inferInstanceAs (Decidable (InReserve fl tbl b ∧ listed rl b = false ∧ b ≠ excl ∧
    resStatus fl tbl b ≠ blockFactoryBad))

/-- The scan for records looks at block `b`. -/
def ScanVisits (b : ℕ) : Prop :=
  fl.startBlk ≤ b ∧ b < fl.startBlk + reservedBlockCnt ∧ isbadVal fl tbl (blockPara fl b) = 0

variable {fl tbl rl excl}

/-- `ops_para` after the round at a block that is passed over: a block in use and the excluded
one are not even looked up. -/
def skipPara (fl : Flash) (excl b : ℕ) (s : St) : ChipOpsPara :=
  if listed s.reservedBlk b = true ∨ excl = b then s.opsPara else blockPara fl b

/-- The round at a block that is no candidate goes on. -/
lemma freeBlockRound_skip (markbad : Act St ℤ) {n b : ℕ} {s : St} (hn : ReserveEnd fl tbl n)
    (hb : fl.startBlk ≤ b) (hbn : b < n) (ht : s.blkStatus = tbl) (hr : s.reservedBlk = rl)
    (hc : ¬Candidate fl tbl rl excl b) :
    freeBlockRound fl markbad excl n b s =
      (some (Sum.inl (b + 1)), { s with opsPara := skipPara fl excl b s }) := by
  rw [freeBlockRound, if_pos hbn, get_bind, skipPara]
  by_cases hl : listed s.reservedBlk b = true
  · rw [if_pos hl, if_pos (Or.inl hl)]
    rfl
  rw [if_neg hl]
  by_cases he : excl = b
  · rw [if_pos he, if_pos (Or.inr he)]
    rfl
  rw [if_neg he, if_neg (not_or.2 ⟨hl, he⟩), bind_some (lookBlock_apply fl b s)]
  have hf : resStatus fl s.blkStatus b = blockFactoryBad := by
    by_contra hf
    rw [ht] at hf
    exact hc ⟨(hn.lt_iff hb).1 hbn, by rw [← hr]; simpa using hl, fun h => he h.symm, hf⟩
  rw [if_pos ((getBlcokStatus_eq_two_iff _ _ _).2 hf)]
  rfl

/-- The round at a candidate comes down to the erase. -/
lemma freeBlockRound_candidate {markbad : Act St ℤ} {n b : ℕ} {s : St} (hn : ReserveEnd fl tbl n)
    (ht : s.blkStatus = tbl) (hr : s.reservedBlk = rl) (hc : Candidate fl tbl rl excl b) :
    freeBlockRound fl markbad excl n b s =
      (do
        let ret ← withChip (eraseBlock fl)
        if ret < 0 then
          let _ ← markbad
          pure (Sum.inl (b + 1))
        else
          pure (Sum.inr (some b))) { s with opsPara := blockPara fl b } := by
  obtain ⟨hin, hl, he, hf⟩ := hc
  have hst : ¬getBlcokStatus s.blkStatus (fl.resChip b) (fl.resRow b) = 2 := by
    rw [getBlcokStatus_eq_two_iff, ht]
    exact hf
  rw [freeBlockRound, if_pos ((hn.lt_iff hin.1).2 hin), get_bind,
    if_neg (by rw [hr, hl]; decide), if_neg (fun h => he h.symm),
    bind_some (lookBlock_apply fl b s), if_neg hst]

/-- The allocator's blocks depend on the kinds of the blocks only as far as some are factory
bad. -/
lemma inReserve_congr {tbl' : BlkStatus} (h : ∀ k, NotFactory fl tbl' k ↔ NotFactory fl tbl k) (b : ℕ) :
    InReserve fl tbl' b ↔ InReserve fl tbl b := by
  have hp : NotFactory fl tbl' = NotFactory fl tbl := funext fun k => propext (h k)
  unfold InReserve
  simp only [hp]

/-- The end of the area depends on the factory-bad blocks only. -/
lemma ReserveEnd.congr {tbl' : BlkStatus} {n : ℕ} (hn : ReserveEnd fl tbl n)
    (h : ∀ k, NotFactory fl tbl' k ↔ NotFactory fl tbl k) : ReserveEnd fl tbl' n := by
  have hp : NotFactory fl tbl' = NotFactory fl tbl := funext fun k => propext (h k)
  refine ⟨hn.1, ?_, fun b h1 h2 => (inReserve_congr h b).2 (hn.2.2 b h1 h2)⟩
  simp only [hp]
  exact hn.2.1

/-- So do the candidates, for one list and one excluded block. -/
lemma candidate_congr {tbl' : BlkStatus} (h : ∀ k, NotFactory fl tbl' k ↔ NotFactory fl tbl k) (b : ℕ) :
    Candidate fl tbl' rl excl b ↔ Candidate fl tbl rl excl b := by
  unfold Candidate
  rw [inReserve_congr h]
  refine and_congr_right fun hin => and_congr_right fun _ => and_congr_right fun _ => ?_
  have hb := h (b - fl.startBlk)
  simp only [NotFactory, show fl.startBlk + (b - fl.startBlk) = b by have := hin.1; omega] at hb
  exact hb

/-- With no factory-bad block the reserved area ends after 48 blocks. -/
lemma reserveEnd_of_notFactory (h : ∀ k, NotFactory fl tbl k) :
    ReserveEnd fl tbl (fl.startBlk + reservedBlockCnt) := by
  have hcount : ∀ m, Nat.count (NotFactory fl tbl) m = m := fun m => Nat.count_of_forall fun k _ => h k
  refine ⟨by omega, by rw [hcount]; omega, fun b hb hlt => ⟨hb, ?_⟩⟩
  rw [hcount]
  omega

/-- A reserved block the scan looks at. -/
lemma scanVisits_iff (b : ℕ) : ScanVisits fl tbl b ↔
    fl.startBlk ≤ b ∧ b < fl.startBlk + reservedBlockCnt ∧ resStatus fl tbl b = blockGood := by
  rw [ScanVisits, isbadVal_blockPara, getBlcokStatus_eq_zero_iff]
  rfl

end Alloc

/-! ## What chip commands leave alone -/

section Same

variable {fl : Flash}

/-- What chip commands leave alone: the table, the list, their own parameters, `arg_info` and the
guards. -/
def SameTables (s t : St) : Prop :=
  t.blkStatus = s.blkStatus ∧ t.reservedBlk = s.reservedBlk ∧ t.opsPara = s.opsPara ∧
    t.info = s.info ∧ t.allowMarkbad = s.allowMarkbad ∧ t.allowMeta = s.allowMeta

instance : Std.Refl SameTables := ⟨fun _ => ⟨rfl, rfl, rfl, rfl, rfl, rfl⟩⟩

instance : IsTrans St SameTables where
  trans _ _ _ h1 h2 := by
    obtain ⟨a1, a2, a3, a4, a5, a6⟩ := h1
    obtain ⟨b1, b2, b3, b4, b5, b6⟩ := h2
    exact ⟨b1.trans a1, b2.trans a2, b3.trans a3, b4.trans a4, b5.trans a5, b6.trans a6⟩

/-- Issuing commands. -/
lemma sameTables_issue (ops : List FlashOp) (hit : ℕ → ℕ → Bool) (r : Outcome → OpResult) :
    Moves SameTables (issue fl ops hit r) := by
  intro s
  unfold issue
  dsimp only
  split <;> exact ⟨rfl, rfl, rfl, rfl, rfl, rfl⟩

/-- The chip bracket around an operation. -/
lemma sameTables_withChip {α : Type} {x : Act St α} (hx : Moves SameTables x) :
    Moves SameTables (withChip x) := 
  moves_bracket (fun _ _ _ _ _ => ⟨rfl, rfl, rfl, rfl, rfl, rfl⟩) hx

/-- An erase. -/
lemma sameTables_eraseBlock (fl : Flash) : Moves SameTables (eraseBlock fl) :=
  .bind .get fun _ => .ite (fun _ => .pure _) fun _ => sameTables_issue _ _ _

/-- The page of zeros at the end of a mark. -/
lemma sameTables_markPage (fl : Flash) : Moves SameTables (markPage fl) :=
  .bind (sameTables_withChip (.bind .get fun _ => .ite (fun _ => .pure _)
    fun _ => sameTables_issue _ _ _)) fun _ => .pure _

end Same

end Amlnf
