import Amlnf.Dev.Entries
import Amlnf.Phy.ScanEnds

set_option relaxedAutoImplicit false
set_option autoImplicit false

/-!
# The chip lock

`spi_nand_mutex` is taken by the devices around their operations and by the record store around
single reads, programs and erases, the latter only while no device operation is under way. The
self-test of a reserved block takes it in any case, and a save gets there from a page that could
not be programmed: under a device the thread then waits for itself. It does so too when the pins
cannot be selected.

## Main definitions

* `LockFree`, `ChipTaken`, `DevTaken` — the lock is free, held around one operation, held by a
  device.
* `SaveSafe`, `Entry.LockSafe` — the outcomes under which an entry does not reach the self-test
  with the lock held.
* `Disciplined` — the discipline along a run.

## Main results

* `lockFree_invariant`, `devTaken_invariant` — the record store keeps the lock free, whatever fails,
  and keeps it held by a device when nothing fails.
* `disciplined_of` — a run of safe steps is disciplined.

## Design

`lockFault` is set when the mutex is locked by its holder or unlocked by another thread and is never
cleared, so its last value speaks about the whole run. Each step of a run has a plan of outcomes of
its own.
-/

namespace Amlnf

open Act

/-! ## States of the lock -/

/-- The lock is free, nothing has gone wrong with it, and the pins can be selected. -/
structure LockFree (s : St) : Prop where
  lock : s.lock = (false, false, false, .ready)
  pin : ∀ k, (s.plan k).pin = true

/-- The lock is held around a single operation. -/
structure ChipTaken (s : St) : Prop where
  lock : s.lock = (true, true, false, .ready)
  pin : ∀ k, (s.plan k).pin = true

/-- The plan and the settings. -/
def St.givens (s : St) : (ℕ → Outcome) × Bool × Bool × Bool :=
  (s.plan, s.readonly, s.allowMeta, s.allowMarkbad)

/-- The lock is held by a device, the plan and the settings being those of `s₀`. -/
structure DevTaken (s₀ s : St) : Prop where
  mutex : s.mutex = true
  idleflag : s.idleflag = true
  fault : s.lockFault = false
  busy : s.state ≠ .ready
  givens : s.givens = s₀.givens

/-- Operations on the chips and bookkeeping change neither the lock nor the plan nor the
settings. -/
def Raw (s t : St) : Prop := t.lock = s.lock ∧ t.givens = s.givens

instance : Std.Refl Raw := ⟨fun _ => ⟨rfl, rfl⟩⟩

instance : IsTrans St Raw := ⟨fun _ _ _ h h' => ⟨h'.1.trans h.1, h'.2.trans h.2⟩⟩

section

variable {fl : Flash} {α : Type} {s s₀ t : St}

/-- Bookkeeping is raw. -/
lemma raw_soft (hh : t.hard = s.hard) (hl : t.lock = s.lock) : Raw s t := by
  simp only [St.hard, Prod.mk.injEq] at hh
  obtain ⟨-, -, -, hplan, ⟨hro, hmeta, hmark⟩, -⟩ := hh
  exact ⟨hl, by simp only [St.givens, hplan, hro, hmeta, hmark]⟩

/-- Commands are raw, whatever their outcome. -/
lemma raw_issue (ops : List FlashOp) (hit : ℕ → ℕ → Bool) (r : Outcome → OpResult) :
    Moves Raw (issue fl ops hit r) := by
  intro s
  unfold issue
  dsimp only
  cases r (s.plan s.tick) <;> exact ⟨rfl, rfl⟩

/-- So programs, erases and the calls of a device are raw. -/
lemma raw_frame (fl : Flash) : DevFrame fl (fun _ => True) (fun _ _ => True) Raw where
  soft hh hl _ := raw_soft hh hl
  write _ _ _ := .bind .get fun _ => .ite (fun _ => .pure _) fun _ => raw_issue _ _ _
  erase := .bind .get fun _ => .ite (fun _ => .pure _) fun _ => raw_issue _ _ _
  pattern _ := trivial
  untagged _ := trivial
  call _ _ := ⟨rfl, rfl⟩

/-- Setting an entry of the table is raw. -/
lemma raw_blkModifyBbtChipOp (value : UInt16) : Moves Raw (blkModifyBbtChipOp fl value) :=
  .bind .get fun _ => .ite (fun _ => .pure _) fun _ =>
    .bind (.modify fun _ => ⟨rfl, rfl⟩) fun _ => .pure _

/-- The plan of outcomes stays as it is. -/
lemma Raw.plan (h : Raw s t) : t.plan = s.plan := congrArg Prod.fst h.2

/-- A free lock stays free. -/
lemma LockFree.of_raw (hs : LockFree s) (h : Raw s t) : LockFree t :=
  ⟨h.1.trans hs.lock, fun k => by rw [h.plan]; exact hs.pin k⟩

/-- A lock held for one operation stays held. -/
lemma ChipTaken.of_raw (hs : ChipTaken s) (h : Raw s t) : ChipTaken t :=
  ⟨h.1.trans hs.lock, fun k => by rw [h.plan]; exact hs.pin k⟩

/-- A lock held by a device stays held by it. -/
lemma DevTaken.of_raw (hs : DevTaken s₀ s) (h : Raw s t) : DevTaken s₀ t := by
  obtain ⟨hl, hg⟩ := h
  simp only [St.lock, Prod.mk.injEq] at hl
  obtain ⟨hmutex, hidle, hfault, hstate⟩ := hl
  refine ⟨hmutex.trans hs.mutex, hidle.trans hs.idleflag, hfault.trans hs.fault, ?_,
    hg.trans hs.givens⟩
  rw [hstate]
  exact hs.busy

/-- So a raw operation keeps a free lock free. -/
lemma keeps_lockFree {x : Act St α} (h : Moves Raw x) : Keeps LockFree x :=
  .of_moves h fun _ _ hst hs => hs.of_raw hst

/-- A raw operation keeps the lock that is held for it. -/
lemma keeps_chipTaken {x : Act St α} (h : Moves Raw x) : Keeps ChipTaken x :=
  .of_moves h fun _ _ hst hs => hs.of_raw hst

/-- A raw operation keeps the lock of the device. -/
lemma keeps_devTaken {x : Act St α} (h : Moves Raw x) : Keeps (DevTaken s₀) x :=
  .of_moves h fun _ _ hst hs => hs.of_raw hst

/-! ## Operations that return -/

section Returns

variable {P : St → Prop}

/-- A command returns. -/
lemma returns_issue (ops : List FlashOp) (hit : ℕ → ℕ → Bool) (r : Outcome → OpResult) :
    Returns (fun _ => True) (issue fl ops hit r) := by
  intro s _
  unfold issue
  dsimp only
  cases r (s.plan s.tick) <;> trivial

/-- A program returns. -/
lemma returns_writePage (d : Buf) (o : Option Tag) :
    Returns (fun _ => True) (writePage fl (some d) o) :=
  .bind .get fun _ => .ite (.pure _) (returns_issue _ _ _)

/-- An erase returns. -/
lemma returns_eraseBlock : Returns (fun _ => True) (eraseBlock fl) :=
  .bind .get fun _ => .ite (.pure _) (returns_issue _ _ _)

/-- A loop over the pages of a block returns if its body does. -/
lemma returns_forPages {n : ℕ} {body : ℕ → Act St (Option α)} (h : ∀ i, Returns P (body i)) :
    Returns P (forPages n body) := by
  refine .bind (.loop (fun i => .bind (h i) fun r => ?_) _ _) fun r => ?_
  · cases r <;> exact .pure _
  · cases r <;> exact .pure _

/-- The self-test of a block returns. -/
lemma returns_testBlockBody (b : ℕ) : Returns (fun _ => True) (testBlockBody fl b) := by
  have hskip : ∀ f : St → St, Returns (fun _ => True) (Act.modify f) := fun f => .modify fun _ h => h
  refine .bind (hskip _) fun _ => .bind returns_eraseBlock fun ret => .ite (.pure _) ?_
  refine .bind (returns_forPages fun t => ?_) fun r => .ite (.pure _) ?_
  · refine .bind (hskip _) fun _ => .bind .get fun s => ?_
    exact .bind (returns_writePage _ _) fun _ => .pure _
  refine .bind (returns_forPages fun t => ?_) fun r => .ite (.pure _) ?_
  · exact .bind (hskip _) fun _ => .bind (readUserPage_returns fun _ _ _ _ h => h) fun _ => .pure _
  · exact .bind (hskip _) fun _ => .bind returns_eraseBlock fun _ => .pure _

/-- Setting an entry of the table returns. -/
lemma returns_blkModifyBbtChipOp (value : UInt16) :
    Returns (fun _ => True) (blkModifyBbtChipOp fl value) :=
  .bind .get fun _ => .ite (.pure _) (.bind (.modify fun _ h => h) fun _ => .pure _)

/-- A pass over a block under repair returns if its visit does. -/
lemma returns_repairPass (b : ℕ) {visit : Act St Bool} (h : Returns (fun _ => True) visit) :
    Returns (fun _ => True) (repairPass fl b visit) := by
  refine .bind (.modify fun _ h => h) fun _ => returns_forPages fun _ => ?_
  exact .bind (.modify fun _ h => h) fun _ => .bind h fun _ => .pure _

/-- The repair of blocks returns. -/
lemma returns_repairBlocks (bs : List ℕ) : Returns (fun _ => True) (repairBlocks fl bs) := by
  have hskip : ∀ f : St → St, Returns (fun _ => True) (Act.modify f) := fun f => .modify fun _ h => h
  have hblock : ∀ b, Returns (fun _ => True) (repairBlock fl b) := by
    intro b
    have hgive : Returns (fun _ => True) (do
        Act.modify fun s : St => { s with opsPara := { s.opsPara with pageAddr := fl.resPage b } }
        let _ ← blkModifyBbtChipOp fl blockUsedBad) :=
      .bind (hskip _) fun _ => .bind (returns_blkModifyBbtChipOp _) fun _ => .pure _
    refine .bind (hskip _) fun _ => .bind (returns_blkModifyBbtChipOp _) fun _ => ?_
    refine .bind returns_eraseBlock fun _ => .ite hgive ?_
    refine .bind (returns_repairPass b ?_) fun _ => .ite hgive ?_
    · exact .bind (returns_writePage _ _) fun _ => .pure _
    refine .bind (returns_repairPass b ?_) fun _ => .ite hgive ?_
    · exact .bind (readPage_returns (fun _ _ _ _ h => h) _ _) fun _ => .bind .get fun _ => .pure _
    exact .bind (hskip _) fun _ => .bind returns_eraseBlock fun _ => .ite hgive (.pure _)
  induction bs with
  | nil => exact .pure _
  | cons b bs ih => exact .bind (hblock b) fun _ => ih

end Returns

/-! ## Brackets -/

/-- From a free lock `nand_get_chip` returns and holds it. -/
lemma lockFree_getChip : Spec LockFree nandGetChip (fun _ => ChipTaken) fun _ => False := by
  intro s hs
  have hl := hs.lock
  simp only [St.lock, Prod.mk.injEq] at hl
  rw [nandGetChip_free hl.1 (hs.pin s.tick)]
  exact ⟨by simp only [St.lock, hl.2.2.1, hl.2.2.2], hs.pin⟩

/-- `nand_release_chip` gives it back. -/
lemma chipTaken_releaseChip :
    Spec ChipTaken nandReleaseChip (fun _ => LockFree) fun _ => False := by
  intro s hs
  have hl := hs.lock
  simp only [St.lock, Prod.mk.injEq] at hl
  rw [nandReleaseChip_held hl.1 hl.2.1]
  exact ⟨by simp only [St.lock, hl.2.2.1, hl.2.2.2], hs.pin⟩

section Brackets

variable {x : Act St α} (hx : Moves Raw x) (hret : Returns (fun _ => True) x)

include hx hret

/-- The lock is free again after an operation it was taken for. -/
lemma lockFree_locked {β : Type} {f : α → Act St β} (hf : ∀ a, Keeps LockFree (f a)) :
    Keeps LockFree (do
      nandGetChip
      let a ← x
      nandReleaseChip
      f a) := by
  have hchip : Returns ChipTaken x := hret.of_keeps (keeps_chipTaken hx)
  refine Spec.bind (lockFree_getChip.mono (fun _ h => h) (fun _ _ h => h) fun _ h => h.elim)
    fun _ => ?_
  refine Spec.bind (hchip.mono (fun _ h => h) (fun _ _ h => h) fun _ h => h.elim) fun a => ?_
  refine Spec.bind (chipTaken_releaseChip.mono (fun _ h => h) (fun _ _ h => h) fun _ h => h.elim)
    fun _ => hf a

/-- So it is after an operation of the record store. -/
lemma lockFree_withChip : Keeps LockFree (withChip x) := by
  have hchip : Returns ChipTaken x := hret.of_keeps (keeps_chipTaken hx)
  have hall : Spec LockFree (withChip x) (fun _ => LockFree) fun _ => False := by
    refine Spec.get_bind fun s hs => ?_
    have hready : s.state = .ready := congrArg (fun l => l.2.2.2) hs.lock
    rw [Act.when, if_pos hready]
    refine Spec.bind (M := fun _ => ChipTaken)
      (lockFree_getChip.mono (fun _ h => h ▸ hs) (fun _ _ h => h) fun _ h => h) fun _ => ?_
    refine Spec.bind hchip fun a => Spec.get_bind fun t ht => ?_
    have hready' : t.state = .ready := congrArg (fun l => l.2.2.2) ht.lock
    rw [Act.when, if_pos hready']
    refine Spec.bind (M := fun _ => LockFree)
      (chipTaken_releaseChip.mono (fun _ h => h ▸ ht) (fun _ _ h => h) fun _ h => h) fun _ => ?_
    exact Spec.pure fun _ h => h
  exact hall.mono (fun _ h => h) (fun _ _ h => h) fun _ h => h.elim

end Brackets

/-- Under a device the record store leaves the lock alone. -/
lemma devTaken_withChip {x : Act St α} {Q : α → St → Prop}
    (hx : Spec (DevTaken s₀) x (fun a t => Q a t ∧ DevTaken s₀ t) (DevTaken s₀)) :
    Spec (DevTaken s₀) (withChip x) (fun a t => Q a t ∧ DevTaken s₀ t) (DevTaken s₀) := by
  refine Spec.get_bind fun s hs => ?_
  rw [Act.when, if_neg hs.busy]
  refine Spec.bind (M := fun _ => DevTaken s₀) (Spec.pure fun _ h => h ▸ hs) fun _ => ?_
  refine Spec.bind hx fun a => Spec.get_bind fun t ht => ?_
  rw [Act.when, if_neg ht.2.busy]
  refine Spec.bind (M := fun _ t => Q a t ∧ DevTaken s₀ t) (Spec.pure fun _ h => h ▸ ht) fun _ => ?_
  exact Spec.pure fun _ h => h

/-- A raw operation of the record store under a device. -/
lemma devTaken_raw {x : Act St α} (hx : Moves Raw x) : Keeps (DevTaken s₀) (withChip x) := by
  have hkeep : Spec (DevTaken s₀) x (fun _ t => True ∧ DevTaken s₀ t) (DevTaken s₀) :=
    (keeps_devTaken hx).mono (fun _ h => h) (fun _ _ h => ⟨trivial, h⟩) fun _ h => h
  exact (devTaken_withChip hkeep).mono (fun _ h => h) (fun _ _ h => h.2) fun _ h => h

/-- From a free lock `amlnand_get_device` returns and the device holds it. -/
lemma lockFree_getDevice {st : ChipState} (hst : st ≠ .ready) (hs : LockFree s) :
    Spec (fun t => t = s) (amlnandGetDevice st) (fun _ => DevTaken s) fun _ => False := by
  rintro t rfl
  have hl := hs.lock
  simp only [St.lock, Prod.mk.injEq] at hl
  rw [amlnandGetDevice_free st hl.2.2.2 hl.1 (hs.pin t.tick)]
  exact ⟨rfl, rfl, hl.2.2.1, hst, rfl⟩

/-- `amlnand_release_device` gives it back. -/
lemma devTaken_releaseDevice (hs : LockFree s) :
    Spec (DevTaken s) amlnandReleaseDevice (fun _ => LockFree) fun _ => False := by
  intro t ht
  have hplan : t.plan = s.plan := congrArg Prod.fst ht.givens
  rw [amlnandReleaseDevice_held ht.mutex ht.idleflag]
  refine ⟨by simp only [St.lock, ht.fault], fun k => ?_⟩
  change (t.plan k).pin = true
  rw [hplan]
  exact hs.pin k

/-- A device takes the lock and gives it back, unless its operation does not return. -/
lemma lockFree_withDevice {st : ChipState} (hst : st ≠ .ready) {x : Act St α} (hs : LockFree s)
    (hx : Keeps (DevTaken s) x) :
    Spec (fun t => t = s) (withDevice st x) (fun _ => LockFree) (DevTaken s) := by
  refine .bind ((lockFree_getDevice hst hs).mono (fun _ h => h) (fun _ _ h => h) fun _ h => h.elim)
    fun _ => .bind hx fun a => ?_
  refine .bind ((devTaken_releaseDevice hs).mono (fun _ h => h) (fun _ _ h => h) fun _ h => h.elim)
    fun _ => .pure fun _ h => h

/-! ## The record store -/

/-- While no device is at work the record store keeps the lock free, whatever fails. -/
lemma lockFree_invariant (fl : Flash) :
    Invariant fl (fun _ => True) (fun _ _ => True) True LockFree where
  soft hh hl _ hs := hs.of_raw (raw_soft hh hl)
  read := lockFree_withChip (raw_frame fl).moves_readUserPage
    (readUserPage_returns fun _ _ _ _ h => h)
  erase := (lockFree_withChip (raw_frame fl).erase returns_eraseBlock).mono (fun _ h => h)
    (fun _ _ h => ⟨fun _ => trivial, h⟩) fun _ h => h
  write d o h := (lockFree_withChip ((raw_frame fl).write d o h) (returns_writePage d o)).mono
    (fun _ h => h) (fun _ _ h => ⟨fun _ => trivial, h⟩) fun _ h => h
  untagged _ := trivial
  test _ b := .bind (keeps_lockFree ((raw_frame fl).moves_soft fun _ => ⟨rfl, rfl, rfl⟩)) fun _ =>
    lockFree_locked ((raw_frame fl).moves_testBlockBody b) (returns_testBlockBody b) fun _ => .pure _

/-- Under a device reads leave the lock alone. -/
lemma devTaken_readInvariant (fl : Flash) (s₀ : St) :
    ReadInvariant fl (fun _ => True) (DevTaken s₀) where
  soft hh hl _ hs := hs.of_raw (raw_soft hh hl)
  read := devTaken_raw (raw_frame fl).moves_readUserPage

/-- Neither a program nor an erase fails. -/
def Quiet (s : St) : Prop :=
  s.readonly = false ∧ ∀ k, (s.plan k).prog = .done ∧ (s.plan k).erase = .done

/-- The outcomes under which a save under a device does not come to a self-test: it is refused, or
nothing fails. -/
def SaveSafe (s : St) : Prop := s.allowMeta = false ∨ Quiet s

/-- Quiet is a matter of the plan and the settings. -/
lemma Quiet.of_givens (h : Quiet s) (hg : t.givens = s.givens) : Quiet t := by
  simp only [St.givens, Prod.mk.injEq] at hg
  obtain ⟨hplan, hro, -⟩ := hg
  exact ⟨hro.trans h.1, fun k => by rw [hplan]; exact h.2 k⟩

/-- A command whose outcome is `done` returns `0`. -/
lemma issue_ret (ops : List FlashOp) (hit : ℕ → ℕ → Bool) {r : Outcome → OpResult}
    (h : r (s.plan s.tick) = .done) : (issue fl ops hit r s).1 = some 0 := by
  unfold issue
  simp only [h]

/-- An operation that issues commands and does not fail. -/
lemma devTaken_issue {ops : St → List FlashOp} {hit : St → ℕ → ℕ → Bool} {r : Outcome → OpResult}
    (hquiet : Quiet s₀) (hr : ∀ k, r (s₀.plan k) = .done) :
    Spec (DevTaken s₀) (do
      let s ← get
      if s.readonly then pure (-eROFS) else issue fl (ops s) (hit s) r)
      (CodeReported False (DevTaken s₀)) (DevTaken s₀) := by
  intro s hs
  have hro : s.readonly = false := (hquiet.of_givens hs.givens).1
  have hplan : s.plan = s₀.plan := congrArg Prod.fst hs.givens
  have hdone : r (s.plan s.tick) = .done := by
    rw [hplan]
    exact hr _
  have hret : (issue fl (ops s) (hit s) r s).1 = some 0 := issue_ret _ _ hdone
  have hkeep : DevTaken s₀ (issue fl (ops s) (hit s) r s).2 := hs.of_raw (raw_issue _ _ _ s)
  rw [get_bind, if_neg (by simp [hro])]
  rcases hx : issue fl (ops s) (hit s) r s with ⟨o, t⟩
  rw [hx] at hret hkeep
  obtain rfl : o = some 0 := hret
  exact ⟨fun h => absurd h (by decide), hkeep⟩

/-- Under a device the record store leaves the lock alone when nothing fails. -/
lemma devTaken_invariant (fl : Flash) (hquiet : Quiet s₀) :
    Invariant fl (fun _ => True) (fun _ _ => True) False (DevTaken s₀) where
  toReadInvariant := devTaken_readInvariant fl s₀
  erase := devTaken_withChip (devTaken_issue hquiet fun k => (hquiet.2 k).2)
  write _ _ _ := devTaken_withChip (devTaken_issue hquiet fun k => (hquiet.2 k).1)
  untagged _ := trivial
  test h := h.elim

/-! ## Saving and marking under a device -/

/-- A save that is refused does nothing. -/
lemma devTaken_refused (hmeta : s₀.allowMeta = false) (markbad : Act St ℤ) (name : RecName)
    (buf : Buf) (size : ℕ) :
    Keeps (DevTaken s₀) (amlnandSaveInfoByName fl markbad name buf size) := by
  refine Spec.get_bind fun s hs => ?_
  have hs' : s.allowMeta = false := by
    have hg := hs.givens
    simp only [St.givens, Prod.mk.injEq] at hg
    exact hg.2.2.1.trans hmeta
  rw [if_pos (by simp [hs'])]
  exact Spec.pure fun _ h => h ▸ hs

/-- A save under a device, where it is refused or nothing fails. -/
lemma devTaken_save (h : SaveSafe s₀) (name : RecName) (buf : Buf) (size : ℕ) :
    Keeps (DevTaken s₀) (saveInfo fl name buf size) := by
  rcases h with hmeta | hquiet
  · exact devTaken_refused hmeta _ _ _ _
  · exact (devTaken_invariant fl hquiet).saveInfoByName nofun trivial (fun _ _ => trivial) _ _

/-- Rewriting the table under a device, where a save is refused or nothing fails. -/
lemma devTaken_updateBbt (h : SaveSafe s₀) :
    Keeps (DevTaken s₀) (amlnandUpdateBbt fl (blockMarkbadOp fl)) :=
  .bind .get fun _ => devTaken_save h _ _ _

/-- The table has no part in the lock. -/
lemma devTaken_setEntries (tbl : BlkStatus) (hs : DevTaken s₀ s) :
    DevTaken s₀ { s with blkStatus := tbl } :=
  ⟨hs.mutex, hs.idleflag, hs.fault, hs.busy, hs.givens⟩

/-- Marking under a device, where it is refused or the table may be saved. -/
lemma devTaken_markbad (h : s₀.allowMarkbad = false ∨ SaveSafe s₀) :
    Keeps (DevTaken s₀) (blockMarkbadOp fl) := by
  rcases h with hmark | hmeta | hquiet
  · refine Spec.get_bind fun s hs => ?_
    have hs' : s.allowMarkbad = false := by
      have hg := hs.givens
      simp only [St.givens, Prod.mk.injEq] at hg
      exact hg.2.2.2.trans hmark
    rw [if_pos (by simp [hs'])]
    exact Spec.pure fun _ h => h ▸ hs
  · refine keeps_blockMarkbad (fun s es hs _ => devTaken_setEntries _ hs)
      (.bind .get fun _ => devTaken_refused hmeta _ _ _ _) ?_
    exact .bind (devTaken_raw ((raw_frame fl).write _ _ trivial)) fun _ => .pure _
  · exact (devTaken_invariant fl hquiet).markbadN (fun s es hs _ => devTaken_setEntries _ hs)
      trivial (fun _ _ => trivial) _

/-! ## Bring-up -/

/-- The read of the scan takes the lock and gives it back. -/
lemma lockFree_scanRead (b i : ℕ) : Keeps LockFree (scanRead fl b i) := by
  refine .bind ((lockFree_invariant fl).seekPage b i) fun _ => ?_
  refine .bind (lockFree_invariant fl).clearOob fun _ => ?_
  exact lockFree_locked (raw_frame fl).moves_readUserPage
    (readUserPage_returns fun _ _ _ _ h => h) fun _ => .pure _

/-- Marking blocks bad keeps the lock free, at any depth. -/
lemma lockFree_markbadN (n : ℕ) : Keeps LockFree (markbadN fl n) :=
  (lockFree_invariant fl).markbadN (fun _ _ hs _ => ⟨hs.lock, hs.pin⟩) trivial
    (fun _ _ => trivial) n

/-- A save keeps the lock free. -/
lemma lockFree_saveInfo (name : RecName) (buf : Buf) (size : ℕ) :
    Keeps LockFree (saveInfo fl name buf size) :=
  (lockFree_invariant fl).saveInfoByName (fun _ => lockFree_markbadN _) trivial
    (fun _ _ => trivial) buf size

/-- Setting up the SLC mode keeps the lock free. -/
lemma lockFree_enslcInitHynix : Keeps LockFree (enslcInitHynix fl) := by
  have hreg : Moves Raw getRegValueHynix := by
    refine .bind (raw_frame fl).moves_nextOutcome fun o => ?_
    cases o.read <;> exact .pure _
  have hreg' : Returns (fun _ => True) getRegValueHynix := by
    refine .bind (fun _ _ => trivial) fun o => ?_
    cases o.read <;> exact .pure _
  refine .ite (fun _ => .pure _) fun _ => lockFree_locked
    (.loop (fun _ => .bind hreg fun _ => .pure _) _ _)
    (.loop (fun _ => .bind hreg' fun _ => .pure _) _ _) fun r => ?_
  cases r <;> exact .pure _

/-- So does setting up the read retry. -/
lemma lockFree_readretrySlcInit : Keeps LockFree (readretrySlcInit fl) := by
  refine .ite (fun _ => .pure _) fun _ => .ite (fun _ => ?_) fun _ => .pure _
  refine .bind lockFree_enslcInitHynix fun ret => .ite (fun _ => .pure _) fun _ => ?_
  exact .bind (.bind (lockFree_invariant fl).scanHynixInfo fun _ => .pure _) fun _ => .pure _

/-- Bring-up keeps the lock free. -/
lemma lockFree_amlnandGetDevConfigs : Keeps LockFree (amlnandGetDevConfigs fl) := by
  have hinv := lockFree_invariant fl
  have hupdate : Keeps LockFree (amlnandUpdateBbt fl (blockMarkbadOp fl)) :=
    .bind .get fun _ => lockFree_saveInfo _ _ _
  have hrepair : ∀ (bs : List ℕ) (f : Act St Unit), Keeps LockFree f → Keeps LockFree (do
      nandGetChip
      repairBlocks fl bs
      nandReleaseChip
      f) := by
    intro bs f hf
    have hblocks := (raw_frame fl).moves_repairBlocks (fun v _ => raw_blkModifyBbtChipOp v) bs
    exact lockFree_locked hblocks (returns_repairBlocks bs) fun _ => hf
  have hprelude : Keeps LockFree (bringUpPrelude fl) := by
    refine .bind (.modify fun s hs => ⟨hs.lock, hs.pin⟩) fun _ => ?_
    refine .bind lockFree_readretrySlcInit fun ret => .ite (fun _ => .pure _) fun _ => ?_
    exact .bind (.modify fun s hs => ⟨hs.lock, hs.pin⟩) fun _ => .pure _
  have hload : Keeps LockFree (loadBbt fl) :=
    .bind (hinv.infoInit lockFree_scanRead trivial _ _) fun _ =>
      .modify fun s hs => ⟨hs.lock, hs.pin⟩
  refine .bind hprelude fun ret => .ite (fun _ => .pure _) fun _ => .bind hload fun _ => ?_
  exact hinv.bringUpRest trivial (fun _ => lockFree_saveInfo _ _ _) trivial hupdate
    lockFree_scanRead trivial trivial (hinv.repairReserved hrepair hupdate)

/-! ## Entries -/

/-- Nothing has gone wrong with the lock. -/
def NoFault (s : St) : Prop := s.lockFault = false

/-- Nothing has gone wrong with a free lock. -/
lemma LockFree.noFault (h : LockFree s) : NoFault s := by
  have hl := h.lock
  simp only [St.lock, Prod.mk.injEq] at hl
  exact hl.2.2.1

/-- From `s` the lock is free when `x` returns, and nothing has gone wrong with it if `x` does
not. -/
def Tidies (s : St) (x : Act St α) : Prop := Spec (fun t => t = s) x (fun _ => LockFree) NoFault

/-- What keeps the lock free tidies. -/
lemma tidies_of_keeps {x : Act St α} (hs : LockFree s) (h : Keeps LockFree x) : Tidies s x :=
  Spec.mono h (fun _ ht => ht ▸ hs) (fun _ _ ht => ht) fun _ ht => ht.noFault

/-- Returning a value tidies. -/
lemma tidies_pure (hs : LockFree s) (a : α) : Tidies s (pure a) := tidies_of_keeps hs (.pure a)

/-- What follows runs with the lock free. -/
lemma Tidies.bind {β : Type} {x : Act St α} {f : α → Act St β} (hx : Tidies s x)
    (hf : ∀ a, Keeps LockFree (f a)) : Tidies s (x >>= f) :=
  Spec.bind hx fun a => (hf a).mono (fun _ h => h) (fun _ _ h => h) fun _ h => h.noFault

/-- A device whose operation keeps the lock tidies. -/
lemma tidies_withDevice {st : ChipState} (hst : st ≠ .ready) {x : Act St α} (hs : LockFree s)
    (hx : Keeps (DevTaken s) x) : Tidies s (withDevice st x) :=
  (lockFree_withDevice hst hs hx).mono (fun _ h => h) (fun _ _ h => h) fun _ h => h.fault

/-- The operations on a block, from the chip operation they end in. -/
lemma tidies_blockOp (hs : LockFree s) (dev : Phydev) (r : DevOps) (guarded : Bool)
    {op : Act St ℤ} (h : Keeps (DevTaken s) op) : Tidies s (blockOp dev r guarded op) := by
  refine Spec.ite (fun _ => tidies_pure hs _) fun _ => ?_
  refine Spec.ite (fun _ => tidies_pure hs _) fun _ => ?_
  refine tidies_withDevice (show ChipState.reading ≠ .ready by decide) hs ?_
  refine .bind (keeps_devTaken (.modify fun _ => ⟨rfl, rfl⟩)) fun _ => ?_
  exact .bind (keeps_devTaken (.modify fun _ => ⟨rfl, rfl⟩)) fun _ => h

/-- A call of a chip operation, noted before it is made. -/
lemma keeps_hand {x : Act St α} (h : Keeps (DevTaken s₀) x) : Keeps (DevTaken s₀) (hand x) :=
  .bind (keeps_devTaken (.modify fun _ => ⟨rfl, rfl⟩)) fun _ => h

/-- The requests of a device. -/
lemma tidies_device (fl : Flash) (hs : LockFree s) (e : DevEntry) (dev : Phydev) (r : DevOps)
    (hmark : e = .markbad → s.allowMarkbad = false ∨ SaveSafe s) : Tidies s (e.run fl dev r) := by
  have F := raw_frame fl
  cases e with
  | read =>
    refine Tidies.bind (Spec.ite (fun _ => tidies_pure hs _) fun _ => ?_) fun _ => .pure _
    refine Spec.ite (fun _ => tidies_pure hs _) fun _ => Tidies.bind ?_ fun x => ?_
    · exact tidies_withDevice (by decide) hs (keeps_devTaken (.bind (F.moves_setPara _ _) fun _ =>
        .loopUntil (F.moves_readDevRound dev r _) _ _))
    · refine .bind .get fun _ => .ite (fun _ => .ite (fun _ => .pure _) fun _ => ?_) fun _ => .pure _
      exact .ite (fun _ => .pure _) fun _ => .pure _
  | write =>
    refine Tidies.bind (Spec.ite (fun _ => tidies_pure hs _) fun _ => ?_) fun _ => .pure _
    refine Spec.ite (fun _ => tidies_pure hs _) fun _ => ?_
    exact tidies_withDevice (by decide) hs (keeps_devTaken (.bind (F.moves_setPara _ _) fun _ =>
      .loopUntil (F.moves_writeDevRound dev r fun _ => trivial) _ _))
  | erase =>
    refine Tidies.bind (Spec.ite (fun _ => tidies_pure hs _) fun _ => ?_) fun _ => .pure _
    refine Spec.ite (fun _ => tidies_pure hs _) fun _ => ?_
    exact tidies_withDevice (by decide) hs (keeps_devTaken (.bind (F.moves_setPara _ _) fun _ =>
      .loopUntil (F.moves_eraseDevRound dev _) _ _))
  | isbad => exact tidies_blockOp hs dev r true (keeps_devTaken (F.moves_hand moves_blockIsbad))
  | markbad => exact tidies_blockOp hs dev r true (keeps_hand (devTaken_markbad (hmark rfl)))

/-- Reading the environment record keeps the device taken. -/
lemma devTaken_amlnfEnvRead (fl : Flash) (mem : Bool) (buf : Buf) :
    Keeps (DevTaken s₀) (amlnfEnvRead fl mem buf) := by
  refine .bind .get fun s => .ite (fun _ => .pure _) fun _ => .ite (fun _ => .pure _) fun _ => ?_
  refine .bind ((devTaken_readInvariant fl s₀).readInfoByName _ _ _) fun x => ?_
  exact .ite (fun _ => .pure _) fun _ => .pure _

/-- Reading from the environment device leaves the lock free. -/
lemma tidies_ubootEnvRead (fl : Flash) (hs : LockFree s) (mem : EnvMem) (pos count : ℕ) :
    Tidies s (ubootEnvRead fl mem pos count) := by
  refine Spec.ite (fun _ => tidies_pure hs _) fun _ => Spec.ite (fun _ => tidies_pure hs _) fun _ => ?_
  refine Spec.ite (fun _ => tidies_pure hs _) fun _ => tidies_withDevice (by decide) hs ?_
  refine .bind (devTaken_amlnfEnvRead fl _ _) fun x => ?_
  exact .ite (fun _ => .pure _) fun _ => .pure _

/-- Writing to it leaves the lock free when the save does not come to a self-test. -/
lemma tidies_ubootEnvWrite (fl : Flash) (hs : LockFree s) (hsave : SaveSafe s) (mem : EnvMem)
    (pos count : ℕ) (data : Buf) : Tidies s (ubootEnvWrite fl mem pos count data) := by
  refine Spec.ite (fun _ => tidies_pure hs _) fun _ => Spec.ite (fun _ => tidies_pure hs _) fun _ => ?_
  refine Spec.ite (fun _ => tidies_pure hs _) fun _ => tidies_withDevice (by decide) hs ?_
  refine .bind (devTaken_amlnfEnvRead fl _ _) fun x => .ite (fun _ => .pure _) fun _ => ?_
  refine .bind (.ite (fun _ => .pure _) fun _ =>
    .bind (devTaken_save hsave _ _ _) fun ret => ?_) fun ret => ?_
  · exact .ite (fun _ => .pure _) fun _ => .pure _
  · exact .ite (fun _ => .pure _) fun _ => .pure _

/-- The entries that do not come to a self-test while a device holds the lock. -/
def Entry.LockSafe (s : St) : Entry → Prop
  | device .markbad _ _ => s.allowMarkbad = false ∨ SaveSafe s
  | updateBbt _ _ => SaveSafe s
  | envWrite _ _ _ _ => SaveSafe s
  | _ => True

/-- **Step lemma**: from a free lock such an entry leaves it free. -/
lemma Entry.LockSafe.tidies {e : Entry} (h : e.LockSafe s) (hs : LockFree s) :
    Tidies s (e.act fl) := by
  have F := raw_frame fl
  cases e with
  | settings a b c => exact tidies_of_keeps hs (.modify fun _ ht => ⟨ht.lock, ht.pin⟩)
  | bringUp => exact tidies_of_keeps hs (.bind lockFree_amlnandGetDevConfigs fun _ => .pure _)
  | phydevInit config =>
    refine tidies_of_keeps hs (keeps_lockFree (moves_discard (.ite (fun _ => .pure _) fun _ => ?_)))
    exact F.moves_initDevs _ _
  | device e dev r =>
    refine Tidies.bind (tidies_device fl hs e dev r fun he => ?_) fun _ => .pure _
    subst he
    exact h
  | modifybbt dev r value =>
    refine Tidies.bind (tidies_blockOp hs dev r false ?_) fun _ => .pure _
    exact keeps_devTaken (F.moves_hand (raw_blkModifyBbtChipOp value))
  | updateBbt dev r =>
    exact Tidies.bind (tidies_blockOp hs dev r false (keeps_hand (devTaken_updateBbt h)))
      fun _ => .pure _
  | testBlock dev r =>
    obtain ⟨op, hop, hmoves⟩ := F.exists_nandTestBlock dev r
    refine Tidies.bind ?_ fun _ => .pure _
    rw [hop]
    exact tidies_blockOp hs dev r true (keeps_devTaken hmoves)
  | testBlockChip =>
    exact tidies_of_keeps hs (keeps_lockFree (moves_discard F.moves_testBlockChipOp))
  | testBlockReserved b =>
    exact tidies_of_keeps hs (.bind ((lockFree_invariant fl).test trivial b) fun _ => .pure _)
  | save name buf size =>
    exact tidies_of_keeps hs (.bind (lockFree_saveInfo name buf size) fun _ => .pure _)
  | envRead mem pos count =>
    exact Tidies.bind (tidies_ubootEnvRead fl hs mem pos count) fun _ => .pure _
  | envWrite mem pos count data =>
    exact Tidies.bind (tidies_ubootEnvWrite fl hs h mem pos count data) fun _ => .pure _
  | ubootWrite cfg user memory count =>
    refine Tidies.bind (Tidies.bind ?_ fun _ => .pure _) fun _ => .pure _
    exact tidies_withDevice (by decide) hs (keeps_devTaken (F.moves_roombootNandWrite _ _ _ _))

end

/-! ## Runs -/

/-- An entry with the outcomes of the chip operations and of the selection of pins it meets. -/
abbrev Planned : Type := (ℕ → Outcome) × Entry

/-- The discipline along a run: no entry locks the mutex while holding it or unlocks it without,
and the mutex is free when an entry returns. -/
def Disciplined (fl : Flash) : List Planned → St → Prop
  | [], _ => True
  | (plan, e) :: es, s =>
    NoFault (e.act fl { s with plan := plan }).2 ∧
      ∀ t, e.act fl { s with plan := plan } = (some (), t) → t.mutex = false ∧ Disciplined fl es t

/-- Every step of a run finds the pins, and is safe in the state it is taken in. -/
def LockSafeRun (fl : Flash) : List Planned → St → Prop
  | [], _ => True
  | (plan, e) :: es, s =>
    (∀ k, (plan k).pin = true) ∧ e.LockSafe { s with plan := plan } ∧
      ∀ t, e.act fl { s with plan := plan } = (some (), t) → LockSafeRun fl es t

/-- **Lock discipline.** From a free lock, in every run whose steps find the pins and do not save a
record under a device while something fails: the mutex is never locked by its holder, never unlocked
by another, and free whenever an entry returns. -/
theorem disciplined_of (fl : Flash) (es : List Planned) (s : St)
    (hs : s.lock = (false, false, false, .ready)) (h : LockSafeRun fl es s) :
    Disciplined fl es s := by
  induction es generalizing s with
  | nil => trivial
  | cons pe es ih =>
    obtain ⟨plan, e⟩ := pe
    obtain ⟨hpin, hsafe, hrest⟩ := h
    have hfree : LockFree { s with plan := plan } := ⟨hs, hpin⟩
    have htidy : Tidies { s with plan := plan } (e.act fl) := hsafe.tidies hfree
    refine ⟨?_, fun t ht => ?_⟩
    · exact Spec.final (htidy.mono (fun _ h => h) (fun _ _ h => h.noFault) fun _ h => h) rfl
    · have hfree' : LockFree t := htidy.returned rfl ht
      have hl := hfree'.lock
      simp only [St.lock, Prod.mk.injEq] at hl
      exact ⟨hl.1, ih t hfree'.lock (hrest t ht)⟩

/-- A fault in the first step of a run. -/
lemma not_disciplined {fl : Flash} {plan : ℕ → Outcome} {e : Entry} {es : List Planned} {s : St}
    (h : (e.act fl { s with plan := plan }).2.lockFault = true) :
    ¬Disciplined fl ((plan, e) :: es) s := by
  rintro ⟨hfault, -⟩
  rw [NoFault, h] at hfault
  cases hfault

/-- The chips report that programming fails. -/
def failingProgram : Outcome := { Outcome.fine with prog := .failed 0 fun _ _ => .erased }

/-- On blank chips the environment is written, saved while programming fails, and read. -/
theorem disciplined_blank :
    Disciplined .oneChip [(fun _ => .fine, .envWrite {} 5 3 fun _ => 1),
      (fun _ => failingProgram, .save .nenv (fun _ => 0) 64), (fun _ => failingProgram,
      .envRead {} 0 16)] St.blank := by
  refine disciplined_of .oneChip _ St.blank rfl ⟨fun _ => rfl, ?_, fun _ _ => ⟨fun _ => rfl, ?_, ?_⟩⟩
  · exact .inr ⟨rfl, fun _ => ⟨rfl, rfl⟩⟩
  · trivial
  · exact fun _ _ => ⟨fun _ => rfl, trivial, fun _ _ => trivial⟩

/-- The environment is written and its first page cannot be programmed: the self-test waits for the
lock its own thread holds. Likewise when the pins cannot be selected for a read. -/
theorem envWrite_not_disciplined :
    ¬Disciplined .oneChip [(fun _ => failingProgram, .envWrite {} 0 1 fun _ => 1)] St.blank ∧
      ¬Disciplined .oneChip [(fun _ => { Outcome.fine with pin := false }, .envRead {} 0 1)]
        St.blank := by
  constructor
  · exact not_disciplined (by decide +kernel)
  · exact not_disciplined (by decide +kernel)

end Amlnf
