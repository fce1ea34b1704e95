import Amlnf.Dev.Range
import Amlnf.Phy.BootOperation
import Amlnf.Phy.DriverSteps

set_option relaxedAutoImplicit false
set_option autoImplicit false

/-!
# Runs of the driver

What can be asked of the driver from outside: bring-up, the requests of the devices, saves of
records, the character devices of the environment and of the boot area, the self-tests of blocks,
and new values of the three module parameters. A run is a sequence of such entries; an entry that
never returns ends it.

## Main definitions

* `Entry`, `Entry.act` — the entries and what they do.
* `runEntries` — the state after a run.
* `CallFrame`, `DevFrame` — a relation that the calls of the devices, and also programs and erases,
  respect.

## Main results

* `runEntries_induction` — the invariant rule of runs.
* `CallFrame.moves_act`, `DevFrame.moves_act` — when an entry respects a relation.
* `moves_act` — every entry but bring-up and a change of the parameters is a sequence of driver
  steps.
-/

namespace Amlnf

open Act

/-- The entries of the driver. -/
inductive Entry
  /-- New values of `readonly`, `allow_meta` and `allow_markbad`. -/
  | settings (readonly allowMeta allowMarkbad : Bool)
  | bringUp
  | phydevInit (config : List DevPara)
  /-- Read, write, erase, query or mark. -/
  | device (e : DevEntry) (dev : Phydev) (r : DevOps)
  | modifybbt (dev : Phydev) (r : DevOps) (value : UInt16)
  | updateBbt (dev : Phydev) (r : DevOps)
  | testBlock (dev : Phydev) (r : DevOps)
  | testBlockChip
  | testBlockReserved (b : ℕ)
  | save (name : RecName) (buf : Buf) (size : ℕ)
  | envRead (mem : EnvMem) (pos count : ℕ)
  | envWrite (mem : EnvMem) (pos count : ℕ) (data : Buf)
  | ubootWrite (cfg : BootCfg) (user memory : Buf) (count : ℕ)

/-- What an entry does; its result is left out. -/
def Entry.act (fl : Flash) : Entry → Act St Unit
  | settings readonly allowMeta allowMarkbad => modify fun s =>
      { s with readonly := readonly, allowMeta := allowMeta, allowMarkbad := allowMarkbad }
  | bringUp => do
      let _ ← amlnandGetDevConfigs fl
  | phydevInit config => do
      let _ ← amlnandPhydevInit fl config
  | device e dev r => do
      let _ ← e.run fl dev r
  | modifybbt dev r value => do
      let _ ← blockModifybbt fl dev r value
  | updateBbt dev r => do
      let _ ← Amlnf.updateBbt fl dev r
  | testBlock dev r => do
      let _ ← nandTestBlock fl dev r
  | testBlockChip => do
      let _ ← testBlockChipOp fl
  | testBlockReserved b => do
      let _ ← Amlnf.testBlockReserved fl b
  | save name buf size => do
      let _ ← saveInfo fl name buf size
  | envRead mem pos count => do
      let _ ← ubootEnvRead fl mem pos count
  | envWrite mem pos count data => do
      let _ ← ubootEnvWrite fl mem pos count data
  | ubootWrite cfg user memory count => do
      let _ ← Amlnf.ubootWrite fl cfg user memory count

/-- The state after a run. -/
def runEntries (fl : Flash) : List Entry → St → St
  | [], s => s
  | e :: es, s =>
    match e.act fl s with
    | (some _, t) => runEntries fl es t
    | (none, t) => t

/-- **Invariant rule.** What each entry of a run keeps, also when it does not return, holds after
the run. -/
lemma runEntries_induction {fl : Flash} {I : St → Prop} {es : List Entry}
    (h : ∀ e ∈ es, ∀ s, I s → I (e.act fl s).2) {s : St} (hs : I s) : I (runEntries fl es s) := by
  induction es generalizing s with
  | nil => exact hs
  | cons e es ih =>
    have he := h e List.mem_cons_self s hs
    rw [runEntries]
    split
    · next hact =>
      rw [hact] at he
      exact ih (fun e' he' => h e' (List.mem_cons_of_mem _ he')) he
    · next hact =>
      rw [hact] at he
      exact he

/-! ## Relations the entries respect -/

/-- Taking and releasing a device changes the lock only. -/
lemma IgnoresLock.moves_withDevice {α : Type} {R : St → St → Prop} [Std.Refl R] [IsTrans St R]
    (L : IgnoresLock R) (st : ChipState) {x : Act St α} (h : Moves R x) :
    Moves R (withDevice st x) :=
  .bind (L.moves_amlnandGetDevice st) fun _ => .bind h fun _ =>
    .bind L.moves_amlnandReleaseDevice fun _ => .pure _

/-- A relation that bookkeeping and calls of chip operations by a device respect. -/
structure CallFrame (N : RecName → Prop) (R : St → St → Prop) : Prop extends Frame N R where
  call (s : St) (p : ChipOpsPara) : R s { s with handed := s.handed ++ [p] }

/-- Programs of what is `Ok` and erases respect it as well. -/
structure DevFrame (fl : Flash) (N : RecName → Prop) (Ok : Buf → Option Tag → Prop)
    (R : St → St → Prop) : Prop extends WriteFrame fl N Ok R, CallFrame N R

namespace CallFrame

variable {fl : Flash} {α : Type} {N : RecName → Prop} {R : St → St → Prop} [Std.Refl R]
  [IsTrans St R] (F : CallFrame N R)

include F

omit [Std.Refl R] in
/-- A call of a chip operation is noted, and then made. -/
lemma moves_hand {op : Act St α} (h : Moves R op) : Moves R (hand op) :=
  .bind (.modify fun s => F.call s s.opsPara) fun _ => h

omit [Std.Refl R] [IsTrans St R] in
/-- Clearing `ops_para` for a request. -/
lemma moves_setPara (dev : Phydev) (softEcc : Bool) : Moves R (setPara dev softEcc) :=
  F.moves_soft fun _ => ⟨rfl, rfl, rfl⟩

omit [Std.Refl R] [IsTrans St R] in
/-- Pointing `ops_para` at an address of the device. -/
lemma moves_seekAddr (dev : Phydev) (addr : ℕ) : Moves R (seekAddr dev addr) :=
  F.moves_soft fun _ => ⟨rfl, rfl, rfl⟩

/-- One page of a read. -/
lemma moves_readDevRound (dev : Phydev) (r : DevOps) (len : ℕ) (v : ℕ × ℕ × Buf) :
    Moves R (readDevRound fl dev r len v) := by
  refine .bind (F.moves_seekAddr _ _) fun _ =>
    .bind (F.moves_hand (F.moves_readPage _ _)) fun b => ?_
  refine .bind .get fun s => .ite (fun _ => .pure _) fun _ => ?_
  exact .ite (fun _ => .pure _) fun _ => .pure _

/-! ## Setting the devices up -/

/-- Counting the reserved blocks behind the boot area. -/
lemma moves_countReserved (tmpBlk : ℕ) : Moves R (countReserved fl tmpBlk) := by
  refine .bind (F.moves_soft fun _ => ⟨rfl, rfl, rfl⟩) fun _ => .loopUntil (fun v => ?_) _ _
  refine .bind (F.moves_soft fun _ => ⟨rfl, rfl, rfl⟩) fun _ => .bind moves_blockIsbad fun ret => ?_
  exact .ite (fun _ => .pure _) fun _ => .pure _

/-- Setting up a data device. -/
lemma moves_initData (l : InitLocals) (para : DevPara) (isLast : Bool) :
    Moves R (initData fl l para isLast) := by
  have hoffset : Moves R (devOffset fl l) := by
    unfold devOffset
    split
    · exact .bind (F.moves_countReserved _) fun _ => .pure _
    · exact .ite (fun _ => .bind (F.moves_countReserved _) fun _ => .pure _) fun _ => .pure _
  refine .ite (fun _ => .hang) fun _ => .bind hoffset fun offset => .bind ?_ fun size => ?_
  · refine .ite (fun _ => .pure _) fun _ => ?_
    refine .bind (F.moves_soft fun _ => ⟨rfl, rfl, rfl⟩) fun _ => ?_
    refine .bind (.loopUntil (fun v => ?_) _ _) fun stop => .pure _
    refine .bind (F.moves_soft fun _ => ⟨rfl, rfl, rfl⟩) fun _ => ?_
    refine .bind moves_blockIsbad fun ret => .ite (fun _ => .pure _) fun _ => .pure _
  · exact .ite (fun _ => .pure _) fun _ => .pure _

/-- Setting up the devices. -/
lemma moves_initDevs (l : InitLocals) (config : List DevPara) : Moves R (initDevs fl l config) := by
  induction config generalizing l with
  | nil => exact .pure _
  | cons para rest ih =>
    refine .ite (fun _ => .ite (fun _ => .hang) fun _ => .bind (ih _) fun x => .pure _) fun _ => ?_
    refine .bind (F.moves_initData l para _) fun r => ?_
    cases r with
    | none => exact .pure _
    | some dev => exact .bind (ih _) fun x => .pure _

/-! ## Requests that issue nothing themselves -/

variable (L : IgnoresLock R)

include L

/-- `nand_read`. -/
lemma moves_nandRead (dev : Phydev) (r : DevOps) : Moves R (nandRead fl dev r) := by
  refine .ite (fun _ => .pure _) fun _ => .ite (fun _ => .pure _) fun _ => ?_
  refine .bind (L.moves_withDevice _ (.bind (F.moves_setPara _ _) fun _ =>
    .loopUntil (F.moves_readDevRound dev r _) _ _)) fun x => ?_
  refine .bind .get fun s => .ite (fun _ => ?_) fun _ => .pure _
  exact .ite (fun _ => .pure _) fun _ => .ite (fun _ => .pure _) fun _ => .pure _

/-- The operations on a block, from the chip operation they end in. -/
lemma moves_blockOp (dev : Phydev) (r : DevOps) (guarded : Bool) {op : Act St ℤ}
    (h : Moves R op) : Moves R (blockOp dev r guarded op) := by
  refine .ite (fun _ => .pure _) fun _ => .ite (fun _ => .pure _) fun _ => ?_
  exact L.moves_withDevice _ (.bind (F.moves_setPara _ _) fun _ =>
    .bind (F.moves_seekAddr _ _) fun _ => h)

/-- Reading the environment record. -/
lemma moves_amlnfEnvRead (mem : Bool) (buf : Buf) : Moves R (amlnfEnvRead fl mem buf) := by
  refine .bind .get fun s => .ite (fun _ => .pure _) fun _ => .ite (fun _ => .pure _) fun _ => ?_
  refine .bind (F.moves_amlnandReadInfoByName L _ _ _) fun x => ?_
  exact .ite (fun _ => .pure _) fun _ => .pure _

/-- Reading from the environment device. -/
lemma moves_ubootEnvRead (mem : EnvMem) (pos count : ℕ) :
    Moves R (ubootEnvRead fl mem pos count) := by
  refine .ite (fun _ => .pure _) fun _ => .ite (fun _ => .pure _) fun _ =>
    .ite (fun _ => .pure _) fun _ => L.moves_withDevice _ ?_
  refine .bind (F.moves_amlnfEnvRead L _ _) fun x => ?_
  exact .ite (fun _ => .pure _) fun _ => .pure _

/-- Writing to it. -/
lemma moves_ubootEnvWrite (mem : EnvMem) (pos count : ℕ) (data : Buf)
    (hsave : ∀ buf, Moves R (saveInfo fl .nenv buf configEnvSize)) :
    Moves R (ubootEnvWrite fl mem pos count data) := by
  refine .ite (fun _ => .pure _) fun _ => .ite (fun _ => .pure _) fun _ =>
    .ite (fun _ => .pure _) fun _ => L.moves_withDevice _ ?_
  refine .bind (F.moves_amlnfEnvRead L _ _) fun x => .ite (fun _ => .pure _) fun _ => ?_
  have henv : Moves R (amlnfEnvSave fl mem.save (blit x.2 pos (envCount pos count) data)) :=
    .ite (fun _ => .pure _) fun _ =>
      .bind (hsave _) fun ret => .ite (fun _ => .pure _) fun _ => .pure _
  exact .bind henv fun ret => .ite (fun _ => .pure _) fun _ => .pure _

end CallFrame

namespace DevFrame

variable {fl : Flash} {α : Type} {N : RecName → Prop} {Ok : Buf → Option Tag → Prop}
  {R : St → St → Prop} [Std.Refl R] [IsTrans St R] (F : DevFrame fl N Ok R)

include F

/-- A program of a page, also one without data. -/
lemma moves_writePage (data : Option Buf) {oob : Option Tag} (h : ∀ d, Ok d oob) :
    Moves R (writePage fl data oob) := by
  cases data with
  | some d => exact F.write d oob (h d)
  | none => exact .bind .get fun s => .ite (fun _ => .pure _) fun _ => .pure _

/-! ## Requests of a device, the chips being taken -/

/-- One page of a write. -/
lemma moves_writeDevRound (dev : Phydev) (r : DevOps) (hr : ∀ d, Ok d r.oobbuf) (v : ℕ × ℕ) :
    Moves R (writeDevRound fl dev r v) := by
  refine .bind (F.moves_seekAddr _ _) fun _ => ?_
  refine .bind (F.moves_hand (F.moves_writePage _ hr)) fun ret => ?_
  exact .ite (fun _ => .pure _) fun _ => .ite (fun _ => .pure _) fun _ => .pure _

/-- One block of an erase. -/
lemma moves_eraseDevRound (dev : Phydev) (len : ℕ) (v : ℕ × ℕ) :
    Moves R (eraseDevRound fl dev len v) := by
  refine .bind (F.moves_seekAddr _ _) fun _ => .bind (F.moves_hand F.erase) fun ret => ?_
  exact .ite (fun _ => .pure _) fun _ => .ite (fun _ => .pure _) fun _ => .pure _

/-- One page of the test of a block. -/
lemma moves_testDevRound (dev : Phydev) (len : ℕ) {visit : Act St (ℤ × Bool)}
    (h : Moves R visit) (u : Unit) : Moves R (testDevRound dev len visit u) := by
  refine .bind h fun r => .ite (fun _ => .pure _) fun _ => ?_
  refine .bind (F.moves_soft fun _ => ⟨rfl, rfl, rfl⟩) fun _ => .bind .get fun s => ?_
  exact .ite (fun _ => .pure _) fun _ => .pure _

/-- `nand_test_block` is an operation on a block. -/
lemma exists_nandTestBlock (dev : Phydev) (r : DevOps) :
    ∃ op, nandTestBlock fl dev r = blockOp dev r true op ∧ Moves R op := by
  have hwrite : Moves R (do
      let ret ← hand (writePage fl r.datbuf none)
      pure ((ret, decide (ret < 0)) : ℤ × Bool)) :=
    .bind (F.moves_hand (F.moves_writePage _ F.untagged)) fun _ => .pure _
  have hread : Moves R (do
      let b ← hand (readPage fl r.datbuf.isSome false)
      let s ← get
      pure ((b.ret, s.opsPara.eccErr || decide (b.ret < 0)) : ℤ × Bool)) :=
    .bind (F.moves_hand (F.moves_readPage _ _)) fun _ => .bind .get fun _ => .pure _
  have herase : Moves R (hand (eraseBlock fl)) := F.moves_hand F.erase
  refine ⟨_, rfl, .bind .get fun s => .bind herase fun ret => .ite (fun _ => .pure _) fun _ => ?_⟩
  refine .bind (F.moves_soft fun _ => ⟨rfl, rfl, rfl⟩) fun _ => ?_
  refine .bind (.loopUntil (F.moves_testDevRound dev r.len hwrite) _ _) fun w => ?_
  refine .ite (fun _ => .pure _) fun _ => .bind (F.moves_soft fun _ => ⟨rfl, rfl, rfl⟩) fun _ => ?_
  refine .bind (.loopUntil (F.moves_testDevRound dev r.len hread) _ _) fun w => ?_
  refine .ite (fun _ => .pure _) fun _ => ?_
  exact .bind (F.moves_soft fun _ => ⟨rfl, rfl, rfl⟩) fun _ => herase

/-! ## Self-tests, the boot area and the devices -/

/-- A pass over the pages of a block. -/
lemma moves_testPass (blkAddr : ℕ) {visit : Act St ℤ} (h : Moves R visit) :
    Moves R (testPass fl blkAddr visit) := by
  refine .bind (F.moves_soft fun _ => ⟨rfl, rfl, rfl⟩) fun _ => moves_forPages fun t => ?_
  exact .bind (F.moves_soft fun _ => ⟨rfl, rfl, rfl⟩) fun _ => .bind h fun _ => .pure _

/-- `test_block_chip_op`: it programs its pattern with the spare bytes it read. -/
lemma moves_testBlockChipOp : Moves R (testBlockChipOp fl) := by
  have hread : Moves R (do let r ← readUserPage fl; pure r.ret) :=
    .bind F.moves_readUserPage fun _ => .pure _
  have hwrite : Moves R (do
      let s ← get
      writePage fl (some fun _ => 0xa5) s.userOob) :=
    .bind .get fun _ => F.write _ _ (F.pattern _)
  refine .bind .get fun s => .bind F.erase fun ret => .ite (fun _ => .pure _) fun _ => ?_
  refine .bind (F.moves_testPass _ hread) fun _ => .ite (fun _ => .pure _) fun _ => ?_
  refine .bind (F.moves_testPass _ hwrite) fun _ => .ite (fun _ => .pure _) fun _ => ?_
  refine .bind (F.moves_testPass _ hread) fun _ => .ite (fun _ => .pure _) fun _ => ?_
  refine .bind (F.moves_soft fun _ => ⟨rfl, rfl, rfl⟩) fun _ => .bind F.erase fun _ => .pure _

/-- One page of the boot area, with the fill pages before it. -/
lemma moves_bootRound (info : Buf) (len : ℕ) (v : CopyLocals) :
    Moves R (bootRound fl info len v) := by
  have hfill : ∀ p, Moves R (fillBetween fl p) := by
    intro p
    refine .ite (fun _ => ?_) fun _ => .pure _
    refine .bind (moves_forPages fun k => ?_) fun _ => F.moves_soft fun _ => ⟨rfl, rfl, rfl⟩
    refine .bind (F.moves_soft fun _ => ⟨rfl, rfl, rfl⟩) fun _ => ?_
    exact .bind (F.write _ _ (F.untagged _)) fun _ => .pure _
  refine .bind (F.moves_soft fun _ => ⟨rfl, rfl, rfl⟩) fun _ => .bind (hfill _) fun _ => ?_
  exact .bind (F.write _ _ (F.untagged _)) fun ret => .ite (fun _ => .pure _) fun _ => .pure _

/-- The copies of the boot area. -/
lemma moves_bootCopies (info : Buf) (len : ℕ) (datbuf : Buf) (is : List ℕ) :
    Moves R (bootCopies fl info len datbuf is) := by
  induction is with
  | nil => exact .pure _
  | cons i is ih =>
    exact .bind (.loopUntil (F.moves_bootRound info len) _ _) fun r => .bind ih fun rs => .pure _

/-- `roomboot_nand_write`: erases, then programs without a name tag. -/
lemma moves_roombootNandWrite (cfg : BootCfg) (addr len : ℕ) (buffer : Buf) :
    Moves R (roombootNandWrite fl cfg addr len buffer) := by
  refine .ite (fun _ => .pure _) fun _ => .ite (fun _ => .pure _) fun _ => ?_
  refine .ite (fun _ => .pure _) fun _ => .bind (F.moves_soft fun _ => ⟨rfl, rfl, rfl⟩) fun _ => ?_
  refine .bind (.loopUntil (fun a => ?_) _ _) fun _ => ?_
  · refine .bind (F.moves_soft fun _ => ⟨rfl, rfl, rfl⟩) fun _ => ?_
    refine .bind moves_blockIsbad fun ret => ?_
    refine .bind (.when (.bind (.when (F.moves_soft fun _ => ⟨rfl, rfl, rfl⟩)) fun _ => ?_))
      fun _ => ?_
    · exact .bind F.erase fun _ => .pure _
    · exact .ite (fun _ => .pure _) fun _ => .pure _
  · refine .ite (fun _ => .pure _) fun _ => .ite (fun _ => .pure _) fun _ => ?_
    refine .bind (F.moves_soft fun _ => ⟨rfl, rfl, rfl⟩) fun _ => ?_
    exact .bind (F.moves_bootCopies _ _ _ _) fun rs => .pure _

/-! ## Requests -/

variable (L : IgnoresLock R)

include L

/-- `nand_write`. -/
lemma moves_nandWrite (dev : Phydev) (r : DevOps) (hr : ∀ d, Ok d r.oobbuf) :
    Moves R (nandWrite fl dev r) := by
  refine .ite (fun _ => .pure _) fun _ => .ite (fun _ => .pure _) fun _ => ?_
  exact L.moves_withDevice _ (.bind (F.moves_setPara _ _) fun _ =>
    .loopUntil (F.moves_writeDevRound dev r hr) _ _)

/-- `nand_erase`. -/
lemma moves_nandErase (dev : Phydev) (r : DevOps) : Moves R (nandErase fl dev r) := by
  refine .ite (fun _ => .pure _) fun _ => .ite (fun _ => .pure _) fun _ => ?_
  exact L.moves_withDevice _ (.bind (F.moves_setPara _ _) fun _ =>
    .loopUntil (F.moves_eraseDevRound dev _) _ _)

/-- `nand_test_block`. -/
lemma moves_nandTestBlock (dev : Phydev) (r : DevOps) : Moves R (nandTestBlock fl dev r) := by
  obtain ⟨op, hop, hmoves⟩ := F.exists_nandTestBlock dev r
  rw [hop]
  exact F.moves_blockOp L dev r true hmoves

/-- `uboot_write`. -/
lemma moves_ubootWrite (cfg : BootCfg) (user memory : Buf) (count : ℕ) :
    Moves R (ubootWrite fl cfg user memory count) :=
  .bind (L.moves_withDevice _ (F.moves_roombootNandWrite _ _ _ _)) fun _ => .pure _

end DevFrame

/-- What has to be shown of an entry beside the frame: that what it programs is `Ok`, and that the
operations on records and on the table respect the relation. -/
def Entry.Duty (fl : Flash) (Ok : Buf → Option Tag → Prop) (R : St → St → Prop) : Entry → Prop
  | settings _ _ _ => False
  | bringUp => False
  | device e _ r => (e = .write → ∀ d, Ok d r.oobbuf) ∧ (e = .markbad → Moves R (blockMarkbadOp fl))
  | modifybbt _ _ value => Moves R (blkModifyBbtChipOp fl value)
  | updateBbt _ _ => Moves R (amlnandUpdateBbt fl (blockMarkbadOp fl))
  | save name buf size => Moves R (saveInfo fl name buf size)
  | envWrite _ _ _ _ => ∀ buf, Moves R (saveInfo fl .nenv buf configEnvSize)
  | _ => True

/-- The entries that program or erase on their own. -/
def Entry.Programs : Entry → Prop
  | device e _ _ => e = .write ∨ e = .erase
  | testBlock _ _ | testBlockChip | testBlockReserved _ | ubootWrite _ _ _ _ => True
  | _ => False

section

variable {fl : Flash} {α : Type} {N : RecName → Prop} {Ok : Buf → Option Tag → Prop}
  {R : St → St → Prop} [Std.Refl R] [IsTrans St R]

/-- The result of an entry is left out. -/
lemma moves_discard {x : Act St α} (hx : Moves R x) : Moves R (do let _ ← x) :=
  .bind hx fun _ => .pure _

/-- An entry that does not program on its own respects a relation when the operations it ends in
do. -/
lemma CallFrame.moves_act (F : CallFrame N R) (L : IgnoresLock R) {e : Entry} (hw : ¬e.Programs)
    (h : e.Duty fl Ok R) : Moves R (e.act fl) := by
  cases e with
  | settings a b c => exact h.elim
  | bringUp => exact h.elim
  | phydevInit config =>
    exact moves_discard (.ite (fun _ => .pure _) fun _ => F.moves_initDevs _ _)
  | device e dev r =>
    refine moves_discard ?_
    cases e with
    | read => exact .bind (F.moves_nandRead L dev r) fun _ => .pure _
    | write => exact absurd (.inl rfl) hw
    | erase => exact absurd (.inr rfl) hw
    | isbad => exact F.moves_blockOp L dev r true (F.moves_hand moves_blockIsbad)
    | markbad => exact F.moves_blockOp L dev r true (F.moves_hand (h.2 rfl))
  | modifybbt dev r value => exact moves_discard (F.moves_blockOp L dev r false (F.moves_hand h))
  | updateBbt dev r => exact moves_discard (F.moves_blockOp L dev r false (F.moves_hand h))
  | save name buf size => exact moves_discard h
  | envRead mem pos count => exact moves_discard (F.moves_ubootEnvRead L mem pos count)
  | envWrite mem pos count data => exact moves_discard (F.moves_ubootEnvWrite L mem pos count data h)
  | _ => exact absurd trivial hw

/-- **An entry respects a relation** when what it programs and the operations it ends in do. -/
lemma DevFrame.moves_act (F : DevFrame fl N Ok R) (L : IgnoresLock R) {e : Entry}
    (h : e.Duty fl Ok R) : Moves R (e.act fl) := by
  by_cases hw : e.Programs
  · cases e with
    | device e dev r =>
      refine moves_discard ?_
      rcases hw with rfl | rfl
      · exact .bind (F.moves_nandWrite L dev r (h.1 rfl)) fun _ => .pure _
      · exact .bind (F.moves_nandErase L dev r) fun _ => .pure _
    | testBlock dev r => exact moves_discard (F.moves_nandTestBlock L dev r)
    | testBlockChip => exact moves_discard F.moves_testBlockChipOp
    | testBlockReserved b => exact moves_discard (F.moves_testBlockReserved L b)
    | ubootWrite cfg user memory count =>
      exact moves_discard (F.moves_ubootWrite L cfg user memory count)
    | _ => exact hw.elim
  · exact F.toCallFrame.moves_act L hw h

/-! ## Entries as sequences of driver steps -/

/-- Any value may be stored in the table. -/
def AnyValue (_ : UInt16) : Prop := True

/-- Driver steps with any table value form a frame of the devices. -/
lemma driver_devFrame (fl : Flash) :
    DevFrame fl (fun _ => True) (fun _ _ => True) (DriverSteps fl AnyValue) where
  toWriteFrame := driver_frame fl AnyValue
  call _ p := .single (.hand p)

/-- Every entry but bring-up and a change of the parameters is a sequence of driver steps. -/
lemma moves_act {e : Entry} (hset : ∀ a b c, e ≠ .settings a b c) (hup : e ≠ .bringUp) :
    Moves (DriverSteps fl AnyValue) (e.act fl) := by
  refine (driver_devFrame fl).moves_act (driver_ignoresLock fl _) ?_
  have hmark : Moves (DriverSteps fl AnyValue) (blockMarkbadOp fl) :=
    moves_store (moves_blockMarkbadOp fl)
  cases e with
  | settings a b c => exact absurd rfl (hset a b c)
  | bringUp => exact absurd rfl hup
  | device e dev r => exact ⟨fun _ _ => trivial, fun _ => hmark⟩
  | modifybbt dev r value => exact moves_blkModifyBbtChipOp trivial
  | updateBbt dev r => exact moves_store (moves_amlnandUpdateBbt (moves_blockMarkbadOp fl))
  | save name buf size => exact moves_store (moves_saveInfo name buf size)
  | envWrite mem pos count data => exact fun buf => moves_store (moves_saveInfo _ _ _)
  | _ => trivial

end

end Amlnf
