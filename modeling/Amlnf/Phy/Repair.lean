import Mathlib.Data.Finset.Max
import Amlnf.Phy.DriverSteps
import Amlnf.Phy.RecordRead
import Amlnf.Phy.Reserve

set_option relaxedAutoImplicit false
set_option autoImplicit false

/-!
# The reach of the repair

`repair_reserved_bad_block` erases and programs the used-bad blocks of the reserved area once there
are more than six of them. It advances the page address before each program, so that its last
program goes to the first page of the block behind.

## Main definitions

* `usedBadIn` — the used-bad blocks of the reserved area.
* `OnlyUsedBad` — whatever is programmed or erased lies in these blocks.
* `overrun` — the program that leaves the block.

## Main results

* `usedBadBlocks_eq_map` — the blocks the repair finds.
* `onlyUsedBad_iff` — when the repair keeps to its blocks.
-/

namespace Amlnf

open Act

section

variable {fl : Flash}

/-! ## The blocks found -/

/-- The used-bad blocks of the reserved area that ends at `n`. -/
def usedBadIn (fl : Flash) (tbl : BlkStatus) (n : ℕ) : List ℕ :=
  (List.range' fl.startBlk (n - fl.startBlk)).filter fun b => resStatus fl tbl b = blockUsedBad

/-- The used-bad blocks below `n`. -/
lemma mem_usedBadIn {tbl : BlkStatus} {n b : ℕ} : b ∈ usedBadIn fl tbl n ↔
    (fl.startBlk ≤ b ∧ b < n) ∧ resStatus fl tbl b = blockUsedBad := by
  simp only [usedBadIn, List.mem_filter, List.mem_range'_1, decide_eq_true_eq]
  refine and_congr_left fun _ => ?_
  omega

/-- One block more. -/
lemma usedBadIn_succ {tbl : BlkStatus} {b : ℕ} (hb : fl.startBlk ≤ b) :
    usedBadIn fl tbl (b + 1) = usedBadIn fl tbl b ++
      if resStatus fl tbl b = blockUsedBad then [b] else [] := by
  have hrange : List.range' fl.startBlk (b + 1 - fl.startBlk) =
      List.range' fl.startBlk (b - fl.startBlk) ++ [b] := by
    rw [show b + 1 - fl.startBlk = b - fl.startBlk + 1 by omega, List.range'_concat, Nat.one_mul,
      show fl.startBlk + (b - fl.startBlk) = b by omega]
  unfold usedBadIn
  rw [hrange, List.filter_append, List.filter_singleton]
  by_cases h : resStatus fl tbl b = blockUsedBad <;> simp [h]

/-- A used-bad block is not factory bad, so no more are found than are counted. -/
lemma length_usedBadIn_le (tbl : BlkStatus) {b : ℕ} (hb : fl.startBlk ≤ b) :
    (usedBadIn fl tbl b).length ≤ Nat.count (NotFactory fl tbl) (b - fl.startBlk) := by
  induction b, hb using Nat.le_induction with
  | base => simp [usedBadIn]
  | succ b hb ih =>
    rw [usedBadIn_succ hb, count_step fl hb, List.length_append]
    by_cases h : resStatus fl tbl b = blockUsedBad
    · have hne : resStatus fl tbl b ≠ blockFactoryBad := by
        rw [h]
        decide
      rw [if_pos h, if_pos hne, List.length_singleton]
      omega
    · rw [if_neg h, List.length_nil]
      omega

/-- A round of the count. -/
lemma usedBadRound_apply {b k : ℕ} {l : List ℕ} (hk : k < reservedBlockCnt) (hl : l.length < 128)
    (s : St) :
    usedBadRound fl (b, k, l) s = (some (Sum.inl (b + 1,
        k + (if resStatus fl s.blkStatus b ≠ blockFactoryBad then 1 else 0),
        l ++ if resStatus fl s.blkStatus b = blockUsedBad then [b] else [])),
      { s with opsPara := blockPara fl b }) := by
  have h2 := getBlcokStatus_eq_two_iff s.blkStatus (fl.resChip b) (fl.resRow b)
  have h1 := getBlcokStatus_eq_one_iff s.blkStatus (fl.resChip b) (fl.resRow b)
  rw [usedBadRound, if_pos hk, bind_some (lookBlock_apply fl b s)]
  by_cases hfac : resStatus fl s.blkStatus b = blockFactoryBad
  · have hne : resStatus fl s.blkStatus b ≠ blockUsedBad := by
      rw [hfac]
      decide
    rw [if_pos (h2.mpr hfac), if_neg (not_not.mpr hfac), if_neg hne, Nat.add_zero, List.append_nil]
    rfl
  · rw [if_neg (mt h2.mp hfac), if_pos hfac]
    by_cases hbad : resStatus fl s.blkStatus b = blockUsedBad
    · rw [if_pos ⟨h1.mpr hbad, hl⟩, if_pos hbad]
      rfl
    · rw [if_neg fun h => hbad (h1.mp h.1), if_neg hbad, List.append_nil]
      rfl

/-- The count goes the way of `get_last_reserve_block` and collects the used-bad blocks. -/
lemma usedBadBlocks_eq_map (s : St) : usedBadBlocks fl s =
    ((getLastReserveBlock fl s).1.map (usedBadIn fl s.blkStatus), (getLastReserveBlock fl s).2) := by
  have hloop : ∀ N b u, fl.startBlk ≤ b → u.blkStatus = s.blkStatus →
      Nat.count (NotFactory fl s.blkStatus) (b - fl.startBlk) ≤ reservedBlockCnt →
      loopUntil (usedBadRound fl) N (b, Nat.count (NotFactory fl s.blkStatus) (b - fl.startBlk),
        usedBadIn fl s.blkStatus b) u =
      ((loopUntil (lastReserveRound fl) N
        (b, Nat.count (NotFactory fl s.blkStatus) (b - fl.startBlk)) u).1.map
          (usedBadIn fl s.blkStatus),
        (loopUntil (lastReserveRound fl) N
          (b, Nat.count (NotFactory fl s.blkStatus) (b - fl.startBlk)) u).2) := by
    intro N
    induction N with
    | zero => exact fun b u _ _ _ => rfl
    | succ N ih =>
      intro b u hb hu hle
      by_cases hlt : Nat.count (NotFactory fl s.blkStatus) (b - fl.startBlk) < reservedBlockCnt
      · have hlen : (usedBadIn fl s.blkStatus b).length < 128 := by
          have h1 := length_usedBadIn_le s.blkStatus hb
          have h2 : reservedBlockCnt < 128 := by decide
          omega
        have hcount := count_step fl hb s.blkStatus
        rw [loopUntil_inl N (usedBadRound_apply hlt hlen u),
          loopUntil_inl N (lastReserveRound_apply fl hlt u), hu, ← hcount, ← usedBadIn_succ hb]
        refine ih (b + 1) _ (by omega) rfl ?_
        rw [hcount]
        split <;> omega
      · have hleft : usedBadRound fl (b, Nat.count (NotFactory fl s.blkStatus) (b - fl.startBlk),
            usedBadIn fl s.blkStatus b) u = (some (Sum.inr (usedBadIn fl s.blkStatus b)), u) := by
          rw [usedBadRound, if_neg hlt]
          rfl
        have hright : lastReserveRound fl
            (b, Nat.count (NotFactory fl s.blkStatus) (b - fl.startBlk)) u =
              (some (Sum.inr b), u) := by
          rw [lastReserveRound, if_neg hlt]
          rfl
        rw [loopUntil_inr N hleft, loopUntil_inr N hright]
        rfl
  have h0 := hloop scanFuel fl.startBlk { s with opsPara := {} } le_rfl rfl (by simp)
  rw [Nat.sub_self, Nat.count_zero] at h0
  have hnil : usedBadIn fl s.blkStatus fl.startBlk = [] := by simp [usedBadIn]
  rw [hnil] at h0
  exact h0

/-- Looking for the end of the reserved area moves `ops_para` only, even if there is no end. -/
lemma opsPara_getLastReserveBlock (fl : Flash) (s : St) :
    ∃ p, (getLastReserveBlock fl s).2 = { s with opsPara := p } := by
  have : Std.Refl (fun s t : St => ∃ p, t = { s with opsPara := p }) := ⟨fun s => ⟨s.opsPara, rfl⟩⟩
  have : IsTrans St (fun s t : St => ∃ p, t = { s with opsPara := p }) := by
    refine ⟨?_⟩
    rintro s t u ⟨p, rfl⟩ ⟨q, rfl⟩
    exact ⟨q, rfl⟩
  have hmoves : Moves (fun s t : St => ∃ p, t = { s with opsPara := p })
      (getLastReserveBlock fl) := by
    refine .bind (.modify fun s => ⟨_, rfl⟩) fun _ => .loopUntil (fun v => ?_) _ _
    refine .ite (fun _ => .bind ?_ fun ret => ?_) fun _ => .pure _
    · exact .bind (.modify fun s => ⟨_, rfl⟩) fun _ => .bind .get fun _ => .pure _
    · exact .ite (fun _ => .pure _) fun _ => .pure _
  exact hmoves s

/-- The area that is found ends inside the table. -/
lemma getLastReserveBlock_lt {s t : St} {n : ℕ} (h : getLastReserveBlock fl s = (some n, t)) :
    n < fl.startBlk + scanFuel := by
  have hloop : ∀ N b k u, loopUntil (lastReserveRound fl) N (b, k) u = (some n, t) → n < b + N := by
    intro N
    induction N with
    | zero =>
      intro b k u hrun
      cases hrun
    | succ N ih =>
      intro b k u hrun
      by_cases hk : k < reservedBlockCnt
      · rw [loopUntil_inl N (lastReserveRound_apply fl hk u)] at hrun
        have := ih _ _ _ hrun
        omega
      · have hleave : lastReserveRound fl (b, k) u = (some (Sum.inr b), u) := by
          rw [lastReserveRound, if_neg hk]
          rfl
        rw [loopUntil_inr N hleave] at hrun
        cases hrun
        omega
  exact hloop scanFuel fl.startBlk 0 _ h

/-! ## The program that leaves the block -/

/-- A program of the repair, `i` pages behind the start of block `b`. -/
def repairOp (fl : Flash) (b i : ℕ) : FlashOp :=
  .program (fl.resChip b) (fl.resPage b + i) (fun _ => 0) none

/-- The last program of the repair of block `b`: `i` has reached the pages of a block. -/
def overrun (fl : Flash) (b : ℕ) : FlashOp := repairOp fl b fl.ppb

/-- No step fails, and the commands `ops` have been issued after the first `k` commands. -/
def Fired (k : ℕ) (ops : List FlashOp) (s : St) : Prop :=
  s.Calm ∧ k ≤ s.log.length ∧ ∀ op ∈ ops, op ∈ s.log.drop k

variable {k : ℕ}

/-- Fewer commands than were seen. -/
lemma Fired.imp_ops {X Y : List FlashOp} {s : St} (h : Fired k X s) (hXY : Y ⊆ X) : Fired k Y s :=
  ⟨h.1, h.2.1, fun op hop => h.2.2 op (hXY hop)⟩

/-- A command that is issued is added to those issued before. -/
lemma issue_fired {X : List FlashOp} {p : ChipOpsPara} (ops : List FlashOp) (hit : ℕ → ℕ → Bool)
    {r : Outcome → OpResult} (hr : ∀ o, o.Fine → r o = .done) :
    Spec (fun s => Fired k X s ∧ s.opsPara = p) (issue fl ops hit r)
      (fun ret s => ret = 0 ∧ Fired k (ops ++ X) s ∧ s.opsPara = p) fun _ => False := by
  rintro s ⟨⟨hcalm, hk, hX⟩, hp⟩
  have hdone := hr _ (hcalm.1 s.tick)
  unfold issue
  dsimp only
  rw [hdone]
  refine ⟨rfl, ⟨hcalm, ?_, fun op hop => ?_⟩, hp⟩
  · rw [List.length_append]
    omega
  rw [List.drop_append_of_le_length hk]
  rcases List.mem_append.mp hop with h | h
  · exact List.mem_append_right _ h
  · exact List.mem_append_left _ (hX op h)

/-- An erase succeeds and leaves what was seen. -/
lemma eraseBlock_fired (X : List FlashOp) (p : ChipOpsPara) :
    Spec (fun s => Fired k X s ∧ s.opsPara = p) (eraseBlock fl)
      (fun ret s => ret = 0 ∧ Fired k X s ∧ s.opsPara = p) fun _ => False := by
  refine Spec.get_bind fun s₀ h₀ => ?_
  rw [if_neg (by simp [h₀.1.1.2])]
  refine Spec.mono (issue_fired (X := X) (p := p) _ _ fun o ho => ho.2.1)
    (fun s hs => hs ▸ h₀) (fun ret s hs => ?_) fun _ hs => hs
  exact ⟨hs.1, hs.2.1.imp_ops fun op hop => List.mem_append_right _ hop, hs.2.2⟩

/-- A program in the plain mode goes to the page `ops_para` names. -/
lemma writePage_fired (X : List FlashOp) {p : ChipOpsPara} (hp : p.option = {}) :
    Spec (fun s => Fired k X s ∧ s.opsPara = p) (writePage fl (some fun _ => 0) none)
      (fun ret s => ret = 0 ∧ Fired k (.program p.chipnr p.pageAddr (fun _ => 0) none :: X) s ∧
        s.opsPara = p) fun _ => False := by
  refine Spec.get_bind fun s₀ h₀ => ?_
  obtain ⟨hfired, rfl⟩ := h₀
  rw [if_neg (by simp [hfired.1.2])]
  have hops : programOps fl (opPages fl s₀.opsPara) (fun _ => 0) none =
      [.program s₀.opsPara.chipnr s₀.opsPara.pageAddr (fun _ => 0) none] := by
    rw [opPages_single (by rw [hp]) (by rw [hp])]
    rfl
  dsimp only
  rw [hops]
  refine Spec.mono (issue_fired (X := X) _ _ fun o ho => ho.1) (fun s hs => ?_) (fun _ _ hs => hs)
    fun _ hs => hs
  rw [hs]
  exact ⟨hfired, rfl⟩

/-- A change of the table issues nothing. -/
lemma blkModifyBbtChipOp_fired (X : List FlashOp) (p : ChipOpsPara) (value : UInt16) :
    Spec (fun s => Fired k X s ∧ s.opsPara = p) (blkModifyBbtChipOp fl value)
      (fun _ s => Fired k X s ∧ s.opsPara = p) fun _ => False := by
  refine Spec.get_bind fun s₀ h₀ => Spec.ite (fun _ => ?_) fun _ => ?_
  · exact Spec.pure fun s hs => hs ▸ h₀
  · refine Spec.bind (M := fun _ s => Fired k X s ∧ s.opsPara = p) (Spec.modify fun s hs => ?_)
      fun _ => Spec.pure fun _ hs => hs
    rw [hs]
    exact h₀

/-- A read issues no program or erase. -/
lemma readPageInto_fired (X : List FlashOp) :
    Spec (Fired k X) (readPageInto fl) (fun _ => Fired k X) fun _ => False := by
  refine Spec.bind (M := fun _ => Fired k X) (fun _ hs => hs) fun s₀ => ?_
  refine Spec.bind (M := fun _ => Fired k X) (fun _ hs => hs) fun o => ?_
  have hunc : Spec (Fired k X) (do
      modify fun s => { s with opsPara := { s.opsPara with eccErr := true } }
      pure (⟨0, o.garbage, none⟩ : ReadBack)) (fun _ => Fired k X) fun _ => False :=
    Spec.bind (M := fun _ => Fired k X) (Spec.modify fun _ hs => hs) fun _ => Spec.pure fun _ hs => hs
  dsimp only
  split
  · exact Spec.pure fun _ hs => hs
  · exact hunc
  · refine Spec.ite (fun _ => hunc) fun _ => ?_
    exact Spec.bind (M := fun _ => Fired k X) (Spec.modify fun _ hs => hs)
      fun _ => Spec.pure fun _ hs => hs

/-- The pass of programs: when no step fails it reaches the block behind. -/
lemma writePass_fired (X : List FlashOp) (b : ℕ) :
    Spec (fun s => Fired k X s ∧ s.opsPara = blockPara fl b)
      (repairPass fl b do
        let ret ← writePage fl (some fun _ => 0) none
        pure (decide (ret = 0)))
      (fun r s => r = none ∧ Fired k (overrun fl b :: X) s) fun _ => False := by
  -- after `i` rounds the address is `i` pages on, and the program there has been issued
  let I : ℕ → St → Prop := fun i s => Fired k X s ∧
    s.opsPara = { blockPara fl b with pageAddr := fl.resPage b + i } ∧
    (0 < i → repairOp fl b i ∈ s.log.drop k)
  refine Spec.bind (M := fun _ => I 0) (Spec.modify fun s hs => ?_) fun _ => ?_
  · refine ⟨hs.1, ?_, fun h => absurd h (lt_irrefl 0)⟩
    dsimp only
    rw [hs.2, Nat.add_zero]
  · refine Spec.mono (forPages_none (I := I) (n := fl.ppb) fun i => ?_) (fun _ hs => hs)
      (fun r s hs => ⟨hs.1, hs.2.1.1, hs.2.1.2.1, ?_⟩) fun _ hs => hs
    · refine Spec.bind (M := fun _ s => Fired k X s ∧
        s.opsPara = { blockPara fl b with pageAddr := fl.resPage b + (i + 1) })
        (Spec.modify fun s hs => ⟨hs.1, ?_⟩) fun _ => ?_
      · dsimp only
        rw [hs.2.1]
        rfl
      · refine Spec.bind (Spec.bind (writePage_fired X rfl) fun ret => Spec.and_left fun hret =>
          Spec.pure (Q := fun ok s => ok = true ∧ Fired k (repairOp fl b (i + 1) :: X) s ∧
            s.opsPara = { blockPara fl b with pageAddr := fl.resPage b + (i + 1) }) fun s hs =>
            ⟨by rw [hret]; rfl, hs⟩) fun ok => Spec.and_left fun hok => ?_
        subst hok
        exact Spec.pure fun s hs => ⟨rfl, hs.1.imp_ops (List.subset_cons_self _ _), hs.2,
          fun _ => hs.1.2.2 _ List.mem_cons_self⟩
    · intro op hop
      rcases List.mem_cons.mp hop with rfl | hop
      · exact hs.2.2.2 fl.ppb_pos
      · exact hs.2.1.2.2 op hop

/-- The repair of a block, when no step fails, comes to its end and issues the program that leaves
the block. -/
lemma repairBlock_fired (X : List FlashOp) (b : ℕ) :
    Spec (Fired k X) (repairBlock fl b) (fun _ => Fired k (overrun fl b :: X)) fun _ => False := by
  have hgive : ∀ Y, Spec (Fired k Y) (do
      modify fun s => { s with opsPara := { s.opsPara with pageAddr := fl.resPage b } }
      let _ ← blkModifyBbtChipOp fl blockUsedBad) (fun _ => Fired k Y) fun _ => False := by
    intro Y
    refine Spec.bind (M := fun _ => Fired k Y) (Spec.modify fun _ hs => hs) fun _ => ?_
    refine Spec.bind (M := fun _ => Fired k Y) ?_ fun _ => Spec.pure fun _ hs => hs
    refine Spec.mono (Spec.exists_pre fun p => Spec.mono (blkModifyBbtChipOp_fired Y p _)
      (fun _ hs => hs) (fun _ _ hs => hs.1) fun _ hs => hs) (fun s hs => ⟨s.opsPara, hs, rfl⟩)
      (fun _ _ hs => hs) fun _ hs => hs
  refine Spec.bind (M := fun _ s => Fired k X s ∧ s.opsPara = blockPara fl b)
    (Spec.modify fun s hs => ⟨hs, rfl⟩) fun _ => ?_
  refine Spec.bind (blkModifyBbtChipOp_fired X _ _) fun _ => ?_
  refine Spec.bind (eraseBlock_fired X _) fun ret => Spec.and_left fun hret => ?_
  rw [if_neg (not_not.mpr hret)]
  refine Spec.bind (writePass_fired X b) fun wrote => Spec.and_left fun hwrote => ?_
  rw [hwrote, if_neg (by simp)]
  refine Spec.bind (M := fun _ => Fired k (overrun fl b :: X)) ?_ fun read => ?_
  · refine Spec.bind (M := fun _ => Fired k (overrun fl b :: X)) (Spec.modify fun _ hs => hs) fun _ => ?_
    refine forPages_keep fun i => ?_
    refine Spec.bind (M := fun _ => Fired k (overrun fl b :: X)) (Spec.modify fun _ hs => hs) fun _ => ?_
    refine Spec.bind (M := fun _ => Fired k (overrun fl b :: X)) ?_ fun _ => Spec.pure fun _ hs => hs
    refine Spec.bind (readPageInto_fired _) fun r => ?_
    exact Spec.bind (M := fun _ => Fired k (overrun fl b :: X)) (fun _ hs => hs)
      fun _ => Spec.pure fun _ hs => hs
  · refine Spec.ite (fun _ => hgive _) fun _ => ?_
    refine Spec.bind (M := fun _ => Fired k (overrun fl b :: X)) (Spec.modify fun _ hs => hs) fun _ => ?_
    refine Spec.bind (M := fun _ => Fired k (overrun fl b :: X)) ?_ fun ret =>
      Spec.ite (fun _ => hgive _) fun _ => Spec.pure fun _ hs => hs
    refine Spec.mono (Spec.exists_pre fun p => Spec.mono (eraseBlock_fired _ p)
      (fun _ hs => hs) (fun _ _ hs => hs.2.1) fun _ hs => hs) (fun s hs => ⟨s.opsPara, hs, rfl⟩)
      (fun _ _ hs => hs) fun _ hs => hs

/-- The repair runs over the page behind each block it repairs. -/
lemma repairBlocks_fired (fl : Flash) (X : List FlashOp) (bs : List ℕ) :
    Spec (Fired k X) (repairBlocks fl bs)
      (fun _ => Fired k ((bs.map (overrun fl)).reverse ++ X)) fun _ => False := by
  induction bs generalizing X with
  | nil => exact Spec.pure fun _ hs => hs
  | cons b bs ih =>
    refine Spec.bind (repairBlock_fired X b) fun _ => ?_
    have := ih (overrun fl b :: X)
    rw [List.map_cons, List.reverse_cons, List.append_assoc, List.singleton_append]
    exact this

/-! ## When the repair keeps to its blocks -/

/-- The page belongs to a block of the reserved area that the table says is used bad. -/
def UsedBadPage (fl : Flash) (tbl : BlkStatus) (c p : ℕ) : Prop :=
  ∃ b, InReserve fl tbl b ∧ resStatus fl tbl b = blockUsedBad ∧ c = fl.resChip b ∧
    p / fl.ppb = fl.resRow b

/-- Every page that the repair programs or erases belongs to a used-bad block of the reserved
area. -/
def OnlyUsedBad (fl : Flash) (s : St) : Prop :=
  ∀ op ∈ (repairReservedBadBlock fl s).2.log.drop s.log.length, ∀ c p, op.Hits fl c p →
    UsedBadPage fl s.blkStatus c p

/-- Nothing is issued when nothing is added. -/
lemma onlyUsedBad_of_log {s : St} (h : (repairReservedBadBlock fl s).2.log = s.log) :
    OnlyUsedBad fl s := by
  intro op hop
  rw [h, List.drop_length] at hop
  cases hop

/-- The repair up to the test of its blocks. -/
lemma repair_of_end {s t : St} {n : ℕ} (h : getLastReserveBlock fl s = (some n, t)) :
    repairReservedBadBlock fl s =
      (if 6 < (usedBadIn fl s.blkStatus n).length then do
        nandGetChip
        repairBlocks fl (usedBadIn fl s.blkStatus n)
        nandReleaseChip
        let _ ← amlnandUpdateBbt fl (blockMarkbadOp fl)
      else
        pure () : Act St Unit) t := by
  have hbad : usedBadBlocks fl s = (some (usedBadIn fl s.blkStatus n), t) := by
    rw [usedBadBlocks_eq_map, h]
    rfl
  rw [repairReservedBadBlock, bind_some hbad]

/-- With at most six used-bad blocks the repair only looks at the table. -/
lemma repair_idle {s : St} (h : ∀ n, ReserveEnd fl s.blkStatus n → n < fl.startBlk + scanFuel →
    (usedBadIn fl s.blkStatus n).length ≤ 6) :
    ∃ p, (repairReservedBadBlock fl s).2 = { s with opsPara := p } := by
  obtain ⟨p, hp⟩ := opsPara_getLastReserveBlock fl s
  refine ⟨p, ?_⟩
  rcases hend : getLastReserveBlock fl s with ⟨o, t⟩
  rw [hend] at hp
  cases o with
  | none =>
    have hbad : usedBadBlocks fl s = (none, t) := by
      rw [usedBadBlocks_eq_map, hend]
      rfl
    rw [repairReservedBadBlock, bind_none hbad]
    exact hp
  | some n =>
    have hfew := h n (getLastReserveBlock_spec fl hend).1 (getLastReserveBlock_lt hend)
    rw [repair_of_end hend, if_neg (by omega)]
    exact hp

/-- Nothing is issued while `amlnf_readonly` is on, by a caller that holds the chip, or with at most
six used-bad blocks. -/
lemma onlyUsedBad_of {s : St} (h : s.readonly = true ∨ s.mutex = true ∨
    ∀ n, ReserveEnd fl s.blkStatus n → n < fl.startBlk + scanFuel →
      (usedBadIn fl s.blkStatus n).length ≤ 6) : OnlyUsedBad fl s := by
  refine onlyUsedBad_of_log ?_
  by_cases hro : s.readonly = true
  · have hmoves : Moves (DriverSteps fl RepairValue) (repairReservedBadBlock fl) :=
      moves_repairReservedBadBlock
    obtain ⟨-, ops, hlog, hops⟩ := DriverSteps.log (hmoves s)
    rw [hlog, hops hro, List.append_nil]
  · obtain ⟨p, hp⟩ := opsPara_getLastReserveBlock fl s
    rcases hend : getLastReserveBlock fl s with ⟨o, t⟩
    rw [hend] at hp
    have hlog : t.log = s.log := by
      rw [show t = _ from hp]
    have hmutex : t.mutex = s.mutex := by
      rw [show t = _ from hp]
    cases o with
    | none =>
      have hbad : usedBadBlocks fl s = (none, t) := by
        rw [usedBadBlocks_eq_map, hend]
        rfl
      rw [repairReservedBadBlock, bind_none hbad]
      exact hlog
    | some n =>
      rw [repair_of_end hend]
      split
      · rename_i hmany
        rcases h.resolve_left hro with hmu | hfew
        · have hget : nandGetChip t = (none, { t with lockFault := true }) := by
            rw [nandGetChip, get_bind, if_pos (hmutex.trans hmu)]
            rfl
          rw [bind_none hget]
          exact hlog
        · have := hfew n (getLastReserveBlock_spec fl hend).1 (getLastReserveBlock_lt hend)
          omega
      · exact hlog

/-- The block behind block `b` on its chip. -/
lemma res_next (fl : Flash) (b : ℕ) : fl.resChip (b + fl.chipNum) = fl.resChip b ∧
    fl.resRow (b + fl.chipNum) = fl.resRow b + 1 := by
  refine ⟨Nat.add_mod_right _ _, ?_⟩
  rw [Flash.resRow_eq, Flash.resRow_eq, Nat.add_div_right _ fl.chipNum_pos]
  omega

/-- The last used-bad block has no used-bad block behind it. -/
lemma not_usedBadPage_behind {tbl : BlkStatus} {n b : ℕ} (hn : ReserveEnd fl tbl n)
    (hlast : ∀ x ∈ usedBadIn fl tbl n, x ≤ b) :
    ¬UsedBadPage fl tbl (fl.resChip b) (fl.resPage b + fl.ppb) := by
  rintro ⟨x, hx, hstatus, hchip, hrow⟩
  obtain ⟨hc, hr⟩ := res_next fl b
  have hrow' : (fl.resPage b + fl.ppb) / fl.ppb = fl.resRow b + 1 := by
    rw [Nat.add_div_right _ fl.ppb_pos, resPage_div]
  have hxb : x = b + fl.chipNum := by
    refine fl.res_injective (hchip.symm.trans hc.symm) ?_
    rw [← hrow, hrow', hr]
  have hle := hlast x (mem_usedBadIn.mpr ⟨⟨hx.1, (hn.lt_iff hx.1).mpr hx⟩, hstatus⟩)
  have hpos := fl.chipNum_pos
  omega

/-- With more than six used-bad blocks the repair leaves them: behind the last one it programs the
first page of another block. -/
lemma exists_overrun {s : St} {n : ℕ} (hro : s.readonly = false) (hmu : s.mutex = false)
    (hn : ReserveEnd fl s.blkStatus n) (hfuel : n < fl.startBlk + scanFuel)
    (hmany : 6 < (usedBadIn fl s.blkStatus n).length) (hplan : ∀ k, (s.plan k).Fine) :
    ¬OnlyUsedBad fl s := by
  intro honly
  have hend := getLastReserveBlock_eq fl hn hfuel
  obtain ⟨b, hb, hlast⟩ : ∃ b ∈ usedBadIn fl s.blkStatus n,
      ∀ x ∈ usedBadIn fl s.blkStatus n, x ≤ b := by
    have hne : (usedBadIn fl s.blkStatus n).toFinset.Nonempty := by
      rw [List.toFinset_nonempty_iff]
      exact List.ne_nil_of_length_pos (by omega)
    obtain ⟨b, hb, hmax⟩ := Finset.exists_max_image _ id hne
    exact ⟨b, List.mem_toFinset.mp hb, fun x hx => hmax x (List.mem_toFinset.mpr hx)⟩
  have hmem : overrun fl b ∈ (repairReservedBadBlock fl s).2.log.drop s.log.length := by
    rw [repair_of_end hend, if_pos hmany]
    have hget : ∃ u, nandGetChip { s with opsPara := blockPara fl (n - 1) } = (some (), u) ∧
        Fired s.log.length [] u := by
      refine ⟨{ s with opsPara := blockPara fl (n - 1), mutex := true, idleflag := true, tick := s.tick + 1 }, ?_,
        ⟨hplan, hro⟩, le_rfl, nofun⟩
      rw [nandGetChip, get_bind, if_neg (by simp [hmu]), modify_bind, nextOutcome_bind,
        if_pos (hplan s.tick).2.2.2, pure_apply]
    obtain ⟨u, hget, hu⟩ := hget
    have hblocks := repairBlocks_fired fl [] (usedBadIn fl s.blkStatus n) u hu
    rcases hx : repairBlocks fl (usedBadIn fl s.blkStatus n) u with ⟨o, v⟩
    rw [hx] at hblocks
    cases o with
    | none => exact absurd hblocks id
    | some a =>
      -- the table update that follows only adds commands
      have hmoves : Moves (DriverSteps fl RepairValue) (do
          nandReleaseChip
          let _ ← amlnandUpdateBbt fl (blockMarkbadOp fl)) :=
        moves_store (.bind moves_nandReleaseChip fun _ =>
          .bind (moves_amlnandUpdateBbt (moves_blockMarkbadOp fl)) fun _ => .pure _)
      obtain ⟨-, ops, hlog, -⟩ := (hmoves v).log
      rw [bind_some hget, bind_some hx, hlog, List.drop_append_of_le_length hblocks.2.1]
      refine List.mem_append_left _ (hblocks.2.2 _ ?_)
      rw [List.append_nil]
      exact List.mem_reverse.mpr (List.mem_map_of_mem hb)
  refine not_usedBadPage_behind hn hlast (honly _ hmem _ _ ⟨rfl, rfl⟩)

/-- The repair keeps to the used-bad blocks of the reserved area, whatever the chips hold and
however their operations end, exactly when it issues nothing: while `amlnf_readonly` is on, for a
caller that holds the chip, or when at most six blocks of the reserved area are used bad. -/
theorem onlyUsedBad_iff (fl : Flash) (s : St) :
    (∀ image plan, OnlyUsedBad fl { s with image := image, plan := plan }) ↔
      s.readonly = true ∨ s.mutex = true ∨ ∀ n, ReserveEnd fl s.blkStatus n →
        n < fl.startBlk + scanFuel → (usedBadIn fl s.blkStatus n).length ≤ 6 := by
  constructor
  · intro h
    by_contra hcon
    simp only [not_or, not_forall, Bool.not_eq_true, Nat.not_le] at hcon
    obtain ⟨hro, hmu, n, hn, hfuel, hmany⟩ := hcon
    exact exists_overrun (s := { s with plan := fun _ => Outcome.fine }) hro hmu hn hfuel hmany
      (fun _ => Outcome.fine_fine) (h s.image fun _ => Outcome.fine)
  · intro h image plan
    exact onlyUsedBad_of h

/-- A table in which the first seven blocks of the reserved area went bad in use. -/
def sevenUsedBad : BlkStatus := fun c b =>
  if c = 0 ∧ 4 ≤ b ∧ b < 11 then blockUsedBad else blockGood

/-- Seven used-bad blocks and no failing step: the repair of block 10 programs the first page of
block 11, which is good. -/
theorem repair_leaves_block :
    ¬OnlyUsedBad .oneChip { St.blank with blkStatus := sevenUsedBad } := by
  have hfac : ∀ k, NotFactory .oneChip sevenUsedBad k := by
    intro k
    unfold NotFactory resStatus sevenUsedBad
    split <;> decide
  exact exists_overrun (n := 52) rfl rfl (reserveEnd_of_notFactory hfac) (by decide)
    (by decide +kernel) fun _ => Outcome.fine_fine

end

end Amlnf
