import Amlnf.Phy.BringUp
import Amlnf.Phy.Frame

set_option relaxedAutoImplicit false
set_option autoImplicit false

/-!
# Invariants of bring-up

Bring-up after the load of the bad-block table, for any invariant of the record store and for any
relation that programs and erases respect. Rewriting the table, saving the configuration, setting an
entry of the table and what the repair does under the lock are assumptions: they are where
invariants differ.

## Main results

* `ReadInvariant.bringUpRest` — bring-up after the load of the table keeps an invariant.
* `WriteFrame.moves_repairBlocks` — the repair of blocks under the lock.
* `WriteFrame.moves_bringUpRest` — bring-up after the load of the table respects a relation.
-/

namespace Amlnf

open Act

/-- The values the repair of a block uses. -/
def RepairValue (v : UInt16) : Prop := v = blockGood ∨ v = blockUsedBad

namespace ReadInvariant

variable {fl : Flash} {N : RecName → Prop} {I : St → Prop} (h : ReadInvariant fl N I)

include h

/-- Listing the used-bad reserved blocks. -/
lemma usedBadBlocks : Keeps I (usedBadBlocks fl) := by
  refine .bind (h.modify fun _ => ⟨rfl, rfl, rfl⟩) fun _ => .loopUntil (fun v => ?_) _ _
  refine .ite (fun _ => .bind (h.lookBlock _) fun ret => ?_) fun _ => .pure _
  exact .ite (fun _ => .pure _) fun _ => .ite (fun _ => .pure _) fun _ => .pure _

/-- Looking for the retry values of a Hynix chip. -/
lemma scanHynixInfo : Keeps I (amlNandScanHynixInfo fl) := by
  refine .bind (h.modify fun _ => ⟨rfl, rfl, rfl⟩) fun _ => .bind (.loopUntil (fun v => ?_) _ _)
    fun r => ?_
  · refine .ite (fun _ => .bind (h.lookBlock _) fun ret => ?_) fun _ => .pure _
    refine .ite (fun _ => .pure _) fun _ => .bind (.loopUntil (fun w => ?_) _ _) fun p => ?_
    · refine .ite (fun _ => .bind (h.readRecPage _ _) fun r => ?_) fun _ => .pure _
      exact .bind .get fun s => .ite (fun _ => .pure _) fun _ => .pure _
    · exact .ite (fun _ => .pure _) fun _ => .pure _
  · obtain ⟨found, ret⟩ := r
    cases found with
    | some b => exact .bind (h.modify fun _ => ⟨rfl, rfl, rfl⟩) fun _ => .pure _
    | none => exact .pure _

section Scan

variable (hscan : ∀ b i, Keeps I (scanRead fl b i))

include hscan

/-- Finding the records of the keys and of the environment. -/
lemma sysInfoInit (henv : N .nenv) : Keeps I (amlSysInfoInit fl) := by
  refine .bind .get fun _ => .ite (fun _ => .pure _) fun _ => ?_
  refine .bind (h.infoInit hscan henv _ _) fun _ => ?_
  exact .ite (fun _ => .pure _) fun _ => .pure _

/-- Loading the configuration and the factory table. -/
lemma loadConfig (hcnf : N .ncnf) (hfbbt : N .fbbt) : Keeps I (loadConfig fl) := by
  refine .bind (h.infoInit hscan hcnf _ _) fun p => ?_
  refine .bind (h.modify fun _ => ⟨rfl, rfl, rfl⟩) fun _ => .ite (fun _ => .pure _) fun _ => ?_
  refine .bind .get fun s => .bind (.when fun _ => ?_) fun _ => .pure _
  exact .bind (h.modifyInfo hfbbt _) fun _ => h.modify fun _ => ⟨rfl, rfl, rfl⟩

end Scan

/-- The repair of reserved blocks, given what it does under the lock and the rewriting of the
table. -/
lemma repairReserved (hrepair : ∀ (bs : List ℕ) (f : Act St Unit), Keeps I f → Keeps I (do
      nandGetChip
      repairBlocks fl bs
      nandReleaseChip
      f))
    (hupdate : Keeps I (amlnandUpdateBbt fl (blockMarkbadOp fl))) :
    Keeps I (repairReservedBadBlock fl) := by
  refine .bind h.usedBadBlocks fun bs => .ite (fun _ => ?_) fun _ => .pure _
  exact hrepair bs _ (.bind hupdate fun _ => .pure _)

section Saves

variable (hcnf : N .ncnf) (hsave : ∀ config, Keeps I (saveInfo fl .ncnf config nandConfigSize))

include hcnf hsave

/-- Saving the configuration when a copy of it could not be read. -/
lemma saveConfig : Keeps I (do
    let s ← get
    if (s.info .ncnf).argValid ∧ (s.info .ncnf).updateFlag then
      Act.modify fun s => { s with config := sealConfig s.config }
      let s ← get
      let _ ← saveInfo fl .ncnf s.config nandConfigSize
      Amlnf.modifyInfo .ncnf fun a => { a with updateFlag := false }
    else
      pure ()) := by
  refine .bind .get fun s => .ite (fun _ => ?_) fun _ => .pure _
  refine .bind (h.modify fun _ => ⟨rfl, rfl, rfl⟩) fun _ => .bind .get fun s => ?_
  exact .bind (hsave _) fun _ => h.modifyInfo hcnf _

/-- With all copies of the table readable, only the configuration is saved. -/
lemma errorHandle_clean {s : St} (hs : I s) (hclean : (s.info .nbbt).updateFlag = false) :
    I (amlnandInfoErrorHandle fl s).2 := by
  rw [amlnandInfoErrorHandle, get_bind, if_neg (by simp [hclean])]
  exact Spec.final (h.saveConfig hcnf hsave) hs

variable (hbbt : N .nbbt) (hupdate : Keeps I (amlnandUpdateBbt fl (blockMarkbadOp fl)))

include hbbt hupdate

/-- What bring-up does about records that were not found. -/
lemma infoErrorHandle : Keeps I (amlnandInfoErrorHandle fl) := by
  refine .bind .get fun s => .ite (fun _ => ?_) fun _ => h.saveConfig hcnf hsave
  refine .bind hupdate fun ret => .bind (h.modifyInfo hbbt _) fun _ => ?_
  exact .ite (fun _ => .pure _) fun _ => h.saveConfig hcnf hsave

/-- **Bring-up after the load of the table** keeps an invariant that the saves and the repair of
reserved blocks keep. -/
lemma bringUpRest (hscan : ∀ b i, Keeps I (scanRead fl b i)) (hfbbt : N .fbbt) (henv : N .nenv)
    (hrepair : Keeps I (repairReservedBadBlock fl)) : Keeps I (bringUpRest fl) := by
  refine .bind .get fun s => .ite (fun _ => .pure _) fun _ => ?_
  refine .bind (h.loadConfig hscan hcnf hfbbt) fun ret => .ite (fun _ => .pure _) fun _ => ?_
  refine .bind (h.sysInfoInit hscan henv) fun ret => .ite (fun _ => .pure _) fun _ => ?_
  refine .bind (h.infoErrorHandle hcnf hsave hbbt hupdate) fun _ => ?_
  exact .bind hrepair fun _ => .pure _

end Saves

end ReadInvariant

namespace Frame

variable {fl : Flash} {N : RecName → Prop} {R : St → St → Prop} [Std.Refl R] [IsTrans St R]
  (F : Frame N R) (L : IgnoresLock R)

include F L

/-- Setting up the SLC mode of a Hynix chip. -/
lemma moves_enslcInitHynix : Moves R (enslcInitHynix fl) := by
  have hreg : Moves R getRegValueHynix := by
    refine .bind F.moves_nextOutcome fun o => ?_
    cases o.read <;> exact .pure _
  refine .ite (fun _ => .pure _) fun _ => .bind L.moves_nandGetChip fun _ => ?_
  refine .bind (.loop (fun _ => .bind hreg fun _ => .pure _) _ _) fun r => ?_
  refine .bind L.moves_nandReleaseChip fun _ => ?_
  cases r <;> exact .pure _

/-- The part of the preparation that talks to the chips. -/
lemma moves_readretrySlcInit : Moves R (readretrySlcInit fl) := by
  have hscan : Moves R (amlNandScanHynixInfo fl) :=
    .of_keeps fun s₀ => (F.readInvariant L s₀).scanHynixInfo
  refine .ite (fun _ => .pure _) fun _ => .ite (fun _ => ?_) fun _ => .pure _
  refine .bind (F.moves_enslcInitHynix L) fun ret => .ite (fun _ => .pure _) fun _ => ?_
  exact .bind (.bind hscan fun _ => .pure _) fun _ => .pure _

/-- Finding the records of the keys and of the environment. -/
lemma moves_amlSysInfoInit (henv : N .nenv) : Moves R (amlSysInfoInit fl) :=
  .of_keeps fun s₀ => (F.readInvariant L s₀).sysInfoInit
    (fun b i => keeps_of_moves (F.moves_scanRead L b i) s₀) henv

/-- Loading the configuration and the factory table. -/
lemma moves_loadConfig (hcnf : N .ncnf) (hfbbt : N .fbbt) : Moves R (loadConfig fl) :=
  .of_keeps fun s₀ => (F.readInvariant L s₀).loadConfig
    (fun b i => keeps_of_moves (F.moves_scanRead L b i) s₀) hcnf hfbbt

/-- With all copies of the table readable, only the configuration is saved. -/
lemma errorHandle_clean (hcnf : N .ncnf)
    (hsave : ∀ config, Moves R (saveInfo fl .ncnf config nandConfigSize)) {s : St}
    (hclean : (s.info .nbbt).updateFlag = false) : R s (amlnandInfoErrorHandle fl s).2 :=
  (F.readInvariant L s).errorHandle_clean hcnf (fun c => keeps_of_moves (hsave c) s) (refl_of R s)
    hclean

end Frame

namespace WriteFrame

variable {fl : Flash} {N : RecName → Prop} {Ok : Buf → Option Tag → Prop} {R : St → St → Prop}
  [Std.Refl R] [IsTrans St R] (F : WriteFrame fl N Ok R)
  (hmodify : ∀ v, RepairValue v → Moves R (blkModifyBbtChipOp fl v))

include F

/-- A pass over a block under repair, from its visit. -/
lemma moves_repairPass (b : ℕ) {visit : Act St Bool} (h : Moves R visit) :
    Moves R (repairPass fl b visit) := by
  refine .bind (F.moves_soft fun _ => ⟨rfl, rfl, rfl⟩) fun _ => moves_forPages fun _ => ?_
  exact .bind (F.moves_soft fun _ => ⟨rfl, rfl, rfl⟩) fun _ => .bind h fun _ => .pure _

include hmodify

/-- The repair of one block tests it and sets its entry to good or used bad. -/
lemma moves_repairBlock (b : ℕ) : Moves R (repairBlock fl b) := by
  have hgive : Moves R (do
      modify fun s => { s with opsPara := { s.opsPara with pageAddr := fl.resPage b } }
      let _ ← blkModifyBbtChipOp fl blockUsedBad) :=
    .bind (F.moves_soft fun _ => ⟨rfl, rfl, rfl⟩) fun _ =>
      .bind (hmodify _ (.inr rfl)) fun _ => .pure _
  refine .bind (F.moves_soft fun _ => ⟨rfl, rfl, rfl⟩) fun _ => ?_
  refine .bind (hmodify _ (.inl rfl)) fun _ => ?_
  refine .bind F.erase fun _ => .ite (fun _ => hgive) fun _ => ?_
  refine .bind (F.moves_repairPass b ?_) fun _ => .ite (fun _ => hgive) fun _ => ?_
  · exact .bind (F.write _ _ (F.untagged _)) fun _ => .pure _
  refine .bind (F.moves_repairPass b ?_) fun _ => .ite (fun _ => hgive) fun _ => ?_
  · exact .bind (F.moves_readPage _ _) fun _ => .bind .get fun _ => .pure _
  refine .bind (F.moves_soft fun _ => ⟨rfl, rfl, rfl⟩) fun _ => ?_
  exact .bind F.erase fun _ => .ite (fun _ => hgive) fun _ => .pure _

/-- The repair of blocks. -/
lemma moves_repairBlocks (bs : List ℕ) : Moves R (repairBlocks fl bs) := by
  induction bs with
  | nil => exact .pure _
  | cons b bs ih => exact .bind (F.moves_repairBlock hmodify b) fun _ => ih

variable (L : IgnoresLock R) (hupdate : Moves R (amlnandUpdateBbt fl (blockMarkbadOp fl)))

include L hupdate

/-- `repair_reserved_bad_block`. -/
lemma moves_repairReservedBadBlock : Moves R (repairReservedBadBlock fl) := by
  refine .of_keeps fun s₀ => (F.readInvariant L s₀).repairReserved (fun bs f hf => ?_)
    (keeps_of_moves hupdate s₀)
  refine .bind (keeps_of_moves L.moves_nandGetChip s₀) fun _ => ?_
  refine .bind (keeps_of_moves (F.moves_repairBlocks hmodify bs) s₀) fun _ => ?_
  exact .bind (keeps_of_moves L.moves_nandReleaseChip s₀) fun _ => hf

/-- Bring-up after the load of the table. -/
lemma moves_bringUpRest (hcnf : N .ncnf) (hbbt : N .nbbt) (hfbbt : N .fbbt) (henv : N .nenv)
    (hsave : ∀ config, Moves R (saveInfo fl .ncnf config nandConfigSize)) :
    Moves R (bringUpRest fl) := by
  refine .of_keeps fun s₀ => (F.readInvariant L s₀).bringUpRest hcnf
    (fun c => keeps_of_moves (hsave c) s₀) hbbt (keeps_of_moves hupdate s₀)
    (fun b i => keeps_of_moves (F.moves_scanRead L b i) s₀) hfbbt henv
    (keeps_of_moves (F.moves_repairReservedBadBlock hmodify L hupdate) s₀)

end WriteFrame

end Amlnf
