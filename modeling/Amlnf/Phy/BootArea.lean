import Amlnf.Phy.BootImage
import Amlnf.Phy.RecordImage
import Amlnf.Phy.Steps

set_option relaxedAutoImplicit false
set_option autoImplicit false

/-!
# Boot writes and the boot area

The boot area is the first 1024 pages of a chip. Writing the boot image erases its blocks and
programs pages of its copies, through the page lists of the types with SLC pages; none of this
leaves the area, provided the doubled page numbers of `SANDISK_19NM` have a second block to go to.

## Main definitions

* `Issues` — the commands issued from one state to another satisfy a predicate.
* `FlashOp.InBoot` — a command inside the boot area.
* `BootFits` — the SLC pages of the boot area lie inside it.

## Main results

* `issues_ubootWrite` — writing the boot image stays in the boot area.
-/

namespace Amlnf

open Act

/-! ## Commands issued -/

/-- The commands issued from `s` to `t` all satisfy `P`. -/
def Issues (P : FlashOp → Prop) (s t : St) : Prop :=
  ∃ ops, t.log = s.log ++ ops ∧ ∀ op ∈ ops, P op

section

variable {fl : Flash} {P : FlashOp → Prop}

/-- Nothing is issued when the log stays. -/
lemma Issues.of_log {s t : St} (h : t.log = s.log) : Issues P s t :=
  ⟨[], by rw [h, List.append_nil], nofun⟩

instance : Std.Refl (Issues P) := ⟨fun _ => .of_log rfl⟩

instance : IsTrans St (Issues P) where
  trans s t u h h' := by
    obtain ⟨ops, hlog, hops⟩ := h
    obtain ⟨ops', hlog', hops'⟩ := h'
    refine ⟨ops ++ ops', by rw [hlog', hlog, List.append_assoc], fun op hop => ?_⟩
    rcases List.mem_append.1 hop with hop | hop
    · exact hops op hop
    · exact hops' op hop

/-- Taking the lock issues nothing. -/
lemma issues_ignoresLock (P : FlashOp → Prop) : IgnoresLock (Issues P) :=
  fun _ _ _ _ _ _ => .of_log rfl

/-- The commands of a program. -/
lemma issues_writePage {s : St} (data : Option Buf) (oob : Option Tag)
    (h : ∀ d, data = some d → ∀ op ∈ programOps fl (opPages fl s.opsPara) d oob, P op) :
    Issues P s (writePage fl data oob s).2 := by
  rw [writePage, get_bind]
  split
  · exact refl_of (Issues P) s
  · cases data with
    | none => exact refl_of (Issues P) s
    | some d => exact ⟨_, issue_log _ _ _ s, h d rfl⟩

/-- The commands of an erase. -/
lemma issues_eraseBlock {s : St} (h : ∀ op ∈ eraseOps (opBlocks fl s.opsPara), P op) :
    Issues P s (eraseBlock fl s).2 := by
  rw [eraseBlock, get_bind]
  split
  · exact refl_of (Issues P) s
  · exact ⟨_, issue_log _ _ _ s, h⟩

/-- A program leaves `ops_para` alone. -/
lemma writePage_opsPara (data : Option Buf) (oob : Option Tag) (s : St) :
    (writePage fl data oob s).2.opsPara = s.opsPara := by
  rw [writePage, get_bind]
  split
  · rfl
  · cases data with
    | none => rfl
    | some d =>
      simp only [issue]
      cases (s.plan s.tick).prog <;> rfl

/-- So does an erase. -/
lemma eraseBlock_opsPara (s : St) : (eraseBlock fl s).2.opsPara = s.opsPara := by
  rw [eraseBlock, get_bind]
  split
  · rfl
  · simp only [issue]
    cases (s.plan s.tick).erase <;> rfl

end

/-! ## Pages of the boot area -/

/-- The command changes pages of the boot area only. -/
def FlashOp.InBoot (fl : Flash) : FlashOp → Prop
  | .program _ p _ _ => p < 1024
  | .erase _ b => b < fl.startBlk

/-- The SLC pages of the boot area lie inside it. The second half of the pages of a block is
doubled into the block behind, which a boot area of one block does not have. -/
def BootFits (fl : Flash) : Prop := fl.newType = .sandisk19nm → 1 < fl.startBlk

section

variable {fl : Flash}

/-- The first 1024 pages lie before the reserved blocks. -/
lemma row_lt_startBlk {p : ℕ} (h : p < 1024) : p / fl.ppb < fl.startBlk := by
  rw [Nat.div_lt_iff_lt_mul fl.ppb_pos, fl.startBlk_mul_ppb]
  exact h

/-- An address in the boot area is one of these pages. -/
lemma bootPage_lt {addr : ℕ} (h : addr < 1024 * fl.pagesize) : bootPage fl addr < 1024 := by
  rw [bootPage, Nat.div_lt_iff_lt_mul fl.pagesize_pos]
  exact (Nat.mod_le _ _).trans_lt h

/-- An entry of the page list is a byte, and so is what lies behind the list. -/
lemma listed_lt (i : ℕ) : fl.listed i < 256 := by
  by_cases hi : i < fl.newType.pagelist.length
  · rw [Flash.listed, List.getD_eq_getElem _ _ hi]
    exact (Flash.pagelist_facts fl.newType).2.2 _ (List.getElem_mem hi)
  · rw [Flash.listed, List.getD_eq_default _ _ (by omega)]
    exact UInt8.toNat_lt _

/-- A page of the page list, behind the start of a block of the boot area. -/
lemma listPage_lt {p : ℕ} (hp : p < 1024) (i : ℕ) :
    (p - p % fl.ppb) ||| fl.listed i < 1024 := by
  have hlist : fl.listed i < 256 := listed_lt i
  exact Nat.or_lt_two_pow (n := 10) (by omega) (by omega)

/-- The SLC page of a page of the boot area. -/
lemma slcAddr_lt (hfits : BootFits fl) {p : ℕ} (hp : p < 1024) : fl.slcAddr p < 1024 := by
  unfold Flash.slcAddr
  split
  · exact listPage_lt hp _
  · split
    · next hsd =>
      have hppb : 2 * fl.ppb ≤ 1024 := by
        have hmul := Nat.mul_le_mul_right fl.ppb (hfits hsd)
        rw [fl.startBlk_mul_ppb] at hmul
        exact hmul
      have hmod := Nat.mod_lt p fl.ppb_pos
      refine Nat.or_lt_two_pow (n := 10) (by omega) ?_
      rw [Nat.shiftLeft_eq]
      omega
    · exact hp

/-- A single block of the boot area is erased. -/
lemma inBoot_of_mem_eraseOps {q : ChipOpsPara} (hplane : q.option.multiPlane = false)
    (hpage : q.pageAddr < 1024) {op : FlashOp} (hop : op ∈ eraseOps (opBlocks fl q)) :
    op.InBoot fl := by
  obtain ⟨e, he, rfl⟩ := List.mem_map.1 hop
  have hrow : e.2 ∈ opRows fl q := ((mem_opBlocks_iff fl q e).1 he).2
  rw [opRows, if_neg (by simp [hplane]), List.mem_singleton] at hrow
  change e.2 < fl.startBlk
  rw [hrow]
  exact row_lt_startBlk hpage

/-- Single pages of the boot area are programmed. -/
lemma inBoot_of_mem_programOps {q : ChipOpsPara} (hplane : q.option.multiPlane = false)
    (hpage : q.pageAddr < 1024) {d : Buf} {oob : Option Tag} {op : FlashOp}
    (hop : op ∈ programOps fl (opPages fl q) d oob) : op.InBoot fl := by
  obtain ⟨⟨x, k⟩, hx, rfl⟩ := List.mem_map.1 hop
  obtain ⟨e, he, rfl⟩ := List.mem_map.1 (List.fst_mem_of_mem_zipIdx hx)
  have hrow : e.2 ∈ opRows fl q := ((mem_opBlocks_iff fl q e).1 he).2
  rw [opRows, if_neg (by simp [hplane]), List.mem_singleton] at hrow
  change e.2 * fl.ppb + q.pageAddr % fl.ppb < 1024
  rw [hrow, Nat.div_add_mod']
  exact hpage

/-- The commands since `s₀` lie in the boot area, and so does the page `ops_para` points at. -/
structure BootHeld (fl : Flash) (s₀ s : St) : Prop where
  issued : Issues (FlashOp.InBoot fl) s₀ s
  onePlane : s.opsPara.option.multiPlane = false
  inside : s.opsPara.pageAddr < 1024

variable {s₀ : St}

/-- Pointing at a boot page. -/
lemma bootHeld_seekBoot {p : ℕ} (hp : p < 1024) : Keeps (BootHeld fl s₀) (seekBoot p) :=
  .modify fun _ hs => ⟨trans_of (Issues _) hs.issued (.of_log rfl), hs.onePlane, hp⟩

/-- A program without a name tag stays in the boot area. -/
lemma bootHeld_writePage (d : Buf) : Keeps (BootHeld fl s₀) (writePage fl (some d) none) := by
  refine Spec.of_final fun s hs => ?_
  have hpara : (writePage fl (some d) none s).2.opsPara = s.opsPara := writePage_opsPara _ _ s
  have hnew : Issues (FlashOp.InBoot fl) s (writePage fl (some d) none s).2 :=
    issues_writePage _ _ fun _ _ _ hop => inBoot_of_mem_programOps hs.onePlane hs.inside hop
  exact ⟨trans_of (Issues _) hs.issued hnew, by rw [hpara]; exact hs.onePlane,
    by rw [hpara]; exact hs.inside⟩

/-- An erase stays in the boot area. -/
lemma bootHeld_eraseBlock : Keeps (BootHeld fl s₀) (eraseBlock fl) := by
  refine Spec.of_final fun s hs => ?_
  have hpara : (eraseBlock fl s).2.opsPara = s.opsPara := eraseBlock_opsPara s
  have hnew : Issues (FlashOp.InBoot fl) s (eraseBlock fl s).2 :=
    issues_eraseBlock fun _ hop => inBoot_of_mem_eraseOps hs.onePlane hs.inside hop
  exact ⟨trans_of (Issues _) hs.issued hnew, by rw [hpara]; exact hs.onePlane,
    by rw [hpara]; exact hs.inside⟩

/-! ## Writing the boot image -/

variable (hfits : BootFits fl)

include hfits

/-- Blocks of the boot area are erased. -/
lemma bootHeld_eraseBootRound {addr : ℕ} (ha : addr < 1024 * fl.pagesize) :
    Spec (BootHeld fl s₀) (eraseBootRound fl addr)
      (fun r s => Sum.elim (fun a => BootHeld fl s₀ s ∧ a < 1024 * fl.pagesize)
        (fun _ => BootHeld fl s₀ s) r) (BootHeld fl s₀) := by
  have hpage := bootPage_lt ha
  refine Spec.bind (bootHeld_seekBoot hpage) fun _ => ?_
  refine Spec.bind (M := fun _ => BootHeld fl s₀) (Keeps.bind .get fun _ => .pure _) fun ret => ?_
  refine Spec.bind (M := fun _ => BootHeld fl s₀) (Keeps.when fun _ => ?_) fun _ => ?_
  · refine .bind (.when fun _ => bootHeld_seekBoot (slcAddr_lt hfits hpage)) fun _ => ?_
    exact .bind bootHeld_eraseBlock fun _ => .pure _
  · refine Spec.ite (fun hnext => Spec.pure fun s hs => ⟨hs, hnext⟩) fun _ => ?_
    exact Spec.pure fun s hs => hs

/-- The pages between two pages of the list. -/
lemma bootHeld_fillBetween {p : ℕ} (hp : p < 1024) : Keeps (BootHeld fl s₀) (fillBetween fl p) := by
  have hslc := slcAddr_lt hfits hp
  refine .ite (fun _ => ?_) fun _ => .pure _
  refine .bind (forPages_keep_lt fun k hk => ?_) fun _ => bootHeld_seekBoot hslc
  exact Keeps.bind (bootHeld_seekBoot (by omega)) fun _ =>
    .bind (bootHeld_writePage _) fun _ => .pure _

/-- A page of a copy, with what the next one is. -/
lemma bootHeld_bootRound (info : Buf) (len : ℕ) {v : CopyLocals}
    (hp : bootPage fl v.addr < 1024) :
    Spec (BootHeld fl s₀) (bootRound fl info len v)
      (fun r s => BootHeld fl s₀ s ∧ ∀ w, r = Sum.inl w → bootNext fl len v = Sum.inl w)
      (BootHeld fl s₀) := by
  refine Spec.bind (bootHeld_seekBoot (slcAddr_lt hfits hp)) fun _ => ?_
  refine Spec.bind (bootHeld_fillBetween hfits hp) fun _ => ?_
  refine Spec.bind (bootHeld_writePage _) fun ret => ?_
  refine Spec.ite (fun _ => ?_) fun _ => ?_
  · exact Spec.pure fun _ hs => ⟨hs, nofun⟩
  · exact Spec.pure fun _ hs => ⟨hs, fun _ hw => hw⟩

omit hfits in
/-- A copy of at most 256 pages goes on inside its own pages. -/
lemma bootNext_inside {m i j : ℕ} {v w : CopyLocals} (hm : 0 < m) (hm' : m ≤ bootPagesPerCopy)
    (hi : i < bootCopyNum) (hj : j < bootPagesPerCopy)
    (haddr : v.addr = fl.pagesize * (bootPagesPerCopy * i + j))
    (hlen : v.writelen = fl.pagesize * (j - 1))
    (hnext : bootNext fl (fl.pagesize * m) v = Sum.inl w) :
    j + 1 < bootPagesPerCopy ∧ w.addr = fl.pagesize * (bootPagesPerCopy * i + (j + 1)) ∧
      w.writelen = fl.pagesize * j := by
  have hle : bootPagesPerCopy * i + j ≤ 1024 := by
    unfold bootPagesPerCopy bootCopyNum at *
    omega
  have hpage : bootPage fl v.addr % bootPagesPerCopy = j := by
    rw [haddr, bootPage_mul fl hle, Nat.mul_add_mod, Nat.mod_eq_of_lt hj]
  have hstep : v.addr + fl.pagesize = fl.pagesize * (bootPagesPerCopy * i + (j + 1)) := by
    rw [haddr, ← Nat.mul_succ]
    rfl
  rw [bootNext] at hnext
  by_cases hj0 : j = 0
  · rw [if_pos (hpage.trans hj0)] at hnext
    obtain rfl := Sum.inl.inj hnext
    refine ⟨by rw [hj0]; decide, hstep, ?_⟩
    rw [hlen, hj0]
  · rw [if_neg (by rw [hpage]; exact hj0)] at hnext
    dsimp only at hnext
    have hwrote : v.writelen + fl.pagesize = fl.pagesize * j := by
      rw [hlen, ← Nat.mul_succ]
      congr 1
      omega
    rw [hwrote] at hnext
    generalize (if fl.newType.slc then fl.blocksize >>> 1 else fl.blocksize) = stop at hnext
    split at hnext
    · cases hnext
    · next hgo =>
      obtain rfl := Sum.inl.inj hnext
      refine ⟨?_, hstep, rfl⟩
      rw [not_or, not_le] at hgo
      have hpages : (fl.pagesize * m + 2 ^ 64 - fl.pagesize) % 2 ^ 64 = fl.pagesize * (m - 1) := by
        have hsmall : fl.pagesize * m < 2 ^ 32 :=
          pagesize_mul_lt fl (hm'.trans (by decide))
        have hpred : fl.pagesize * m = fl.pagesize * (m - 1) + fl.pagesize := by
          rw [← Nat.mul_succ]
          congr 1
          omega
        omega
      have hlt : j < m - 1 := by
        have := hgo.1
        rw [hpages] at this
        exact lt_of_mul_lt_mul_left this (Nat.zero_le _)
      omega

/-- One copy. -/
lemma bootHeld_bootCopy (info datbuf : Buf) {m i : ℕ} (hm : 0 < m) (hm' : m ≤ bootPagesPerCopy)
    (hi : i < bootCopyNum) :
    Keeps (BootHeld fl s₀) (bootCopy fl info (fl.pagesize * m) datbuf i) := by
  -- before each round the loop stands at page `j` of the copy
  let J : CopyLocals → St → Prop := fun v s => BootHeld fl s₀ s ∧ ∃ j < bootPagesPerCopy,
    v.addr = fl.pagesize * (bootPagesPerCopy * i + j) ∧ v.writelen = fl.pagesize * (j - 1)
  have hround : ∀ v, Spec (J v) (bootRound fl info (fl.pagesize * m) v)
      (fun r s => Sum.elim (fun w => J w s) (fun _ => BootHeld fl s₀ s) r) (BootHeld fl s₀) := by
    rintro v s ⟨hs, j, hj, haddr, hlen⟩
    have hp : bootPage fl v.addr < 1024 := by
      refine bootPage_lt ?_
      rw [haddr, mul_comm]
      refine Nat.mul_lt_mul_of_pos_right ?_ fl.pagesize_pos
      unfold bootPagesPerCopy bootCopyNum at *
      omega
    refine Spec.mono (bootHeld_bootRound hfits info _ hp) (fun _ h => h) (fun r t ht => ?_)
      (fun _ h => h) s hs
    cases r with
    | inl w =>
      obtain ⟨hj', haddr', hlen'⟩ := bootNext_inside hm hm' hi hj haddr hlen (ht.2 w rfl)
      exact ⟨ht.1, j + 1, hj', haddr', hlen'⟩
    | inr x => exact ht.1
  refine Spec.mono (Spec.loopUntil hround (fun _ _ h => h.1) _ _) (fun s hs => ?_)
    (fun _ _ h => h) fun _ h => h
  exact ⟨hs, 0, by decide, rfl, rfl⟩

/-- All copies. -/
lemma bootHeld_bootCopies (info datbuf : Buf) {m : ℕ} (hm : 0 < m) (hm' : m ≤ bootPagesPerCopy)
    {is : List ℕ} (his : ∀ i ∈ is, i < bootCopyNum) :
    Keeps (BootHeld fl s₀) (bootCopies fl info (fl.pagesize * m) datbuf is) := by
  induction is with
  | nil => exact .pure _
  | cons i is ih =>
    refine .bind (bootHeld_bootCopy hfits info datbuf hm hm' (his i List.mem_cons_self)) fun _ => ?_
    exact .bind (ih fun x hx => his x (List.mem_cons_of_mem _ hx)) fun _ => .pure _

/-- A request of the boot device, the chips being taken. -/
lemma issues_roombootNandWrite (cfg : BootCfg) (len : ℕ) (buffer : Buf) :
    Keeps (Issues (FlashOp.InBoot fl) s₀) (roombootNandWrite fl cfg 0 len buffer) := by
  have hopen : ∀ (q : ChipOpsPara), q.option.multiPlane = false → q.pageAddr < 1024 →
      Spec (Issues (FlashOp.InBoot fl) s₀) (modify fun s => { s with opsPara := q })
        (fun _ => BootHeld fl s₀) (Issues (FlashOp.InBoot fl) s₀) :=
    fun q hplane hpage => Spec.modify fun s hs =>
      ⟨trans_of (Issues _) hs (.of_log rfl), hplane, hpage⟩
  have hshut : ∀ {α : Type} {x : Act St α}, Keeps (BootHeld fl s₀) x →
      Spec (BootHeld fl s₀) x (fun _ => Issues (FlashOp.InBoot fl) s₀)
        (Issues (FlashOp.InBoot fl) s₀) :=
    fun hx => Spec.mono hx (fun _ h => h) (fun _ _ h => h.issued) fun _ h => h.issued
  refine .ite (fun _ => .pure _) fun _ => .ite (fun _ => .pure _) fun _ => ?_
  refine .ite (fun _ => .pure _) fun hfit => ?_
  refine Spec.bind (hopen _ rfl (show 0 < 1024 by decide)) fun _ => ?_
  refine Spec.bind (M := fun _ => Issues (FlashOp.InBoot fl) s₀) ?_ fun _ => ?_
  · refine Spec.mono (Spec.loopUntil
      (I := fun a s => BootHeld fl s₀ s ∧ a < 1024 * fl.pagesize)
      (Q := fun _ => BootHeld fl s₀) (E := BootHeld fl s₀) (fun a => ?_) (fun _ _ h => h.1) _ 0)
      (fun s hs => ⟨hs, ?_⟩) (fun _ _ h => h.issued) fun _ h => h.issued
    · rintro s ⟨hs, ha⟩
      exact bootHeld_eraseBootRound hfits ha s hs
    · exact Nat.mul_pos (by decide) fl.pagesize_pos
  · refine Spec.ite (fun _ => Spec.pure fun _ h => h) fun _ => ?_
    refine Spec.ite (fun _ => Spec.pure fun _ h => h) fun hask => ?_
    refine Spec.bind (hopen _ rfl (show 0 < 1024 by decide)) fun _ => ?_
    have haccept : bootWritePages fl len ≤ bootPagesPerCopy := by
      have hiff := bootAccepts_iff fl len
      refine hiff.1 ⟨rfl, ?_, by omega⟩
      rw [bootWriteLen_eq, Nat.mul_mod_right]
    rw [not_or, bootWriteLen_eq] at hask
    have hpos : 0 < bootWritePages fl len :=
      Nat.pos_of_ne_zero fun h0 => hask.1 (by rw [h0, Nat.mul_zero])
    rw [bootWriteLen_eq]
    refine hshut (.bind (bootHeld_bootCopies hfits _ _ hpos haccept fun i hi => ?_) fun _ =>
      .pure _)
    exact List.mem_range.1 hi

/-- **Writing the boot image stays in the boot area.** -/
lemma issues_ubootWrite (cfg : BootCfg) (user memory : Buf) (count : ℕ) :
    Moves (Issues (FlashOp.InBoot fl)) (ubootWrite fl cfg user memory count) := by
  have L := issues_ignoresLock (FlashOp.InBoot fl)
  refine .of_keeps fun s₀ => .bind ?_ fun _ => .pure _
  refine .bind (keeps_of_moves (L.moves_amlnandGetDevice _) s₀) fun _ => ?_
  refine .bind (issues_roombootNandWrite hfits cfg _ _) fun _ => ?_
  exact .bind (keeps_of_moves L.moves_amlnandReleaseDevice s₀) fun _ => .pure _

end

end Amlnf
