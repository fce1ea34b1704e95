import Amlnf.Lib.Sim
import Amlnf.Phy.BootImage

set_option relaxedAutoImplicit false
set_option autoImplicit false

/-!
# The settings around a bootloader write

The info page of a boot copy is written with other settings of the ECC engine, the scrambler and
the spare-byte layout than the rest of the flash. This is `boot_operation.c` with the settings it
switches, the allocations that may fail and the outcome of every page of a copy.

## Main definitions

* `Boot.Settings`, `Boot.BootSt` — the settings, and the driver with its settings and the pages
  of the copies it tried to program.
* `Boot.bootRound`, `Boot.writeUboot`, `Boot.roombootNandWrite`, `Boot.ubootWrite`.

## Main results

* `Boot.ubootWrite_sim` — when no allocation fails, the driver does what the model without
  settings does.

## Design

What is programmed does not depend on the settings in the model of the chip operations, so the
functions are those of the model without settings with the switches at the places where the source
has them. `uboot_set_ran_mode` switches the scrambler on for this controller.
-/

namespace Amlnf.Boot

open Act

/-! ## State -/

/-- The settings `boot_operation.c` switches: those of the controller, and `phydev->writesize` of
the boot device. -/
structure Settings where
  oobMod : ℕ
  ranMode : ℕ
  eccUnit : ℕ
  eccBytes : ℕ
  bchMode : ℕ
  userMode : ℕ
  eccCntLimit : ℕ
  eccMax : ℕ
  eccSteps : ℕ
  writesize : ℕ
  deriving DecidableEq

/-- A page that was handed to `write_page` for a copy, be it a page of the copy or one that is
only filled: the copy, the page address, and whether it was programmed. -/
structure Attempt where
  copy : ℕ
  page : ℕ
  ok : Bool
  deriving DecidableEq

/-- The driver, its settings, and the pages of the copies so far, oldest first. -/
structure BootSt where
  st : St
  set : Settings
  attempts : List Attempt

/-- The buffers that are allocated. -/
inductive Alloc
  | dataBuf
  | oobBuf
  | page0Buf
  | fillBuf
  deriving DecidableEq

/-- What a call finds: the data of the info page, `flash->oobsize`, and which allocations
succeed. -/
structure Call where
  cfg : BootCfg
  oobsize : ℕ
  alloc : Alloc → Bool

/-- The allocations of `write_uboot` succeed. -/
def Call.bufs (call : Call) : Bool :=
  call.alloc .oobBuf && call.alloc .page0Buf && call.alloc .fillBuf

/-- The state at the entry of `uboot_write`: the size of a page of the boot device is that of the
flash. -/
def BootSt.enter (fl : Flash) (st : St) (c : Settings) : BootSt where
  st := st
  set := { c with writesize := (bootDev fl).writesize }
  attempts := []

/-- An action of the driver. -/
def onSt {α : Type} (x : Act St α) : Act BootSt α := zoom BootSt.st (fun t s => { s with st := t }) x

/-- Change the settings. -/
def change (g : Settings → Settings) : Act BootSt Unit := modify fun s => { s with set := g s.set }

/-- Note a page written for a copy. -/
def attempt (copy page : ℕ) (ok : Bool) : Act BootSt Unit :=
  modify fun s => { s with attempts := s.attempts ++ [⟨copy, page, ok⟩] }

/-! ## Settings -/

/-- `NAND_ECC_NONE`. -/
def nandEccNone : ℕ := 0

/-- `NAND_ECC_BCH_SHORT`. -/
def nandEccBchShort : ℕ := 8

/-- `NAND_ECC_UNIT_SHORT`. -/
def nandEccUnitShort : ℕ := 384

/-- `NAND_BCH60_1K_ECC_SIZE`. -/
def nandBch60EccSize : ℕ := 106

/-- `NAND_MALLOC_FAILURE`. -/
def nandMallocFailure : ℤ := 7

/-- The settings for an info page. -/
def infoSettings (fl : Flash) (oobsize : ℕ) (c : Settings) : Settings :=
  { c with
    ranMode := 1
    writesize := fl.pagesize / 512 * nandEccUnitShort
    eccUnit := nandEccUnitShort
    eccBytes := nandBch60EccSize
    bchMode := nandEccBchShort
    userMode := 2
    eccCntLimit := 55
    eccMax := 60
    eccSteps := (fl.pagesize + oobsize) / 512 }

/-- The settings for a page that is only filled. -/
def fillSettings (c : Settings) : Settings := { c with bchMode := nandEccNone, ranMode := 0 }

/-- Put back what `write_uboot` keeps in its `tmp_` variables; the spare-byte layout is not among
them, and `ran_mode` is set to a value of its own. -/
def putBack (tmp : Settings) (ranMode : ℕ) (c : Settings) : Settings :=
  { tmp with oobMod := c.oobMod, ranMode := ranMode }

/-! ## Writing the copies -/

section Copies

variable (fl : Flash) (call : Call) (tmp : Settings)

/-- Fill page `q` for copy `i`. What `write_page` returns is not looked at. -/
def fillPage (i q : ℕ) : Act BootSt (Option Unit) := do
  onSt (seekBoot q)
  let ret ← onSt (writePage fl (some Amlnf.fillBuf) none)
  attempt i q (decide (0 ≤ ret))
  pure none

/-- The pages `HYNIX_1YNM_8GB` wants filled before page `p` of copy `i`, and the settings put back
after them. -/
def fillGap (i p : ℕ) : Act BootSt Unit :=
  when (fl.newType = .hynix1ynm8gb ∧ 1 < p % bootPagesPerCopy) do
    change fillSettings
    let _ ← forPages (fl.slcAddr p - (privLsb fl p + 1)) fun k =>
      fillPage fl i (privLsb fl p + 1 + k)
    onSt (seekBoot (fl.slcAddr p))
    change (putBack tmp tmp.ranMode)

/-- What follows a page of a copy that was written, when `phydev->writesize` is `writesize`. -/
def nextPage (writesize len : ℕ) (v : CopyLocals) : CopyLocals ⊕ (Bool × ℕ) :=
  let addr := v.addr + fl.pagesize
  if bootPage fl v.addr % bootPagesPerCopy = 0 then
    Sum.inl { v with addr := addr }
  else
    let writelen := v.writelen + writesize
    let datbuf : Buf :=
      if len ≤ writelen ∧ writelen < fl.blocksize then Amlnf.fillBuf
      else fun i => v.datbuf (writesize + i)
    let stop := if fl.newType.slc then fl.blocksize >>> 1 else fl.blocksize
    if (len + 2 ^ 64 - fl.pagesize) % 2 ^ 64 ≤ writelen ∨ addr % 2 ^ 32 % stop = 0 then
      Sum.inr (false, writelen)
    else
      Sum.inl ⟨addr, writelen, datbuf⟩

/-- One page of copy `i`. -/
def bootRound (info : Buf) (len i : ℕ) (v : CopyLocals) :
    Act BootSt (CopyLocals ⊕ (Bool × ℕ)) := do
  let p := bootPage fl v.addr
  when (p % bootPagesPerCopy = 0) (change (infoSettings fl call.oobsize))
  onSt (seekBoot (fl.slcAddr p))
  fillGap fl tmp i p
  let ret ← onSt (writePage fl (some (if p % bootPagesPerCopy = 0 then info else v.datbuf)) none)
  attempt i (fl.slcAddr p) (decide (0 ≤ ret))
  if ret < 0 then
    pure (Sum.inr (true, v.writelen))
  else
    when (p % bootPagesPerCopy = 0) (change (putBack tmp 1))
    let s ← get
    pure (nextPage fl s.set.writesize len v)

/-- Copy `i`. -/
def bootCopy (info : Buf) (len : ℕ) (datbuf : Buf) (i : ℕ) : Act BootSt (Bool × ℕ) :=
  loopUntil (bootRound fl call tmp info len i) (fl.ppb + 1)
    { addr := fl.pagesize * (bootPagesPerCopy * i), datbuf := datbuf }

/-- The copies of a list, in order. -/
def bootCopies (info : Buf) (len : ℕ) (datbuf : Buf) : List ℕ → Act BootSt (List (Bool × ℕ))
  | [] => pure []
  | i :: is => do
    let r ← bootCopy fl call tmp info len datbuf i
    let rs ← bootCopies info len datbuf is
    pure (r :: rs)

end Copies

/-! ## The request -/

section Request

variable (fl : Flash) (call : Call)

/-- The part of `write_uboot` between the settings saved and put back. -/
def writeCopies (tmp : Settings) (len : ℕ) (datbuf : Buf) : Act BootSt BootResult :=
  if call.bufs then do
    onSt (modify fun s => { s with opsPara := { option := { slc := fl.newType.slc } } })
    let rs ← bootCopies fl call tmp (nandBootInfoPrepare fl call.cfg) len datbuf
      (List.range bootCopyNum)
    let status := rs.map Prod.fst
    pure { ret := if status.count true < 2 then 0 else 1
           status := status
           retlen := (rs.getLastD (false, 0)).2 }
  else
    pure { ret := -nandMallocFailure }

/-- `write_uboot`. -/
def writeUboot (addr len : ℕ) (datbuf : Buf) : Act BootSt BootResult := do
  if (bootDev fl).size < (addr + len) % 2 ^ 64 then
    pure { ret := -nandArgumentFailure }
  else if len = 0 ∨ addr ≠ 0 then
    pure { ret := 0 }
  else
    let s ← get
    let r ← writeCopies fl call s.set len datbuf
    change (putBack s.set 1)
    pure r

/-- The part of `roomboot_nand_write` behind its checks. The spare-byte layout is switched off
before, and on again unless `write_uboot` failed. -/
def eraseAndWrite (addr writeLen : ℕ) (buffer : Buf) : Act BootSt BootResult := do
  let s ← get
  let oobSet := s.set.oobMod
  when (oobSet ≠ 0) (change fun c => { c with oobMod := 0 })
  onSt (modify fun s =>
    { s with opsPara := { option := { slc := decide (fl.newType = .sandisk19nm) } } })
  onSt (loopUntil (eraseBootRound fl) (fl.startBlk + 1) addr)
  let r ← writeUboot fl call addr writeLen buffer
  when (¬r.ret < 0 ∧ oobSet ≠ 0) (change fun c => { c with oobMod := oobSet })
  pure r

/-- `roomboot_nand_write`. -/
def roombootNandWrite (addr len : ℕ) (buffer : Buf) : Act BootSt BootResult := do
  if addr ≠ 0 then
    pure { ret := -1 }
  else
    let writeLen := bootWriteLen fl len
    if writeLen % fl.pagesize ≠ 0 then
      pure { ret := -nandWriteFailed }
    else if (bootDev fl).size / bootCopyNum < writeLen then
      pure { ret := -nandWriteFailed }
    else
      eraseAndWrite fl call addr writeLen buffer

/-- `align_count`. -/
def alignCount (fl : Flash) (count : ℕ) : ℕ :=
  (count + fl.pagesize - 1) % 2 ^ 32 / fl.pagesize * fl.pagesize

/-- `uboot_write`: without a buffer it returns `count` as it is. -/
def ubootWrite (user memory : Buf) (count : ℕ) : Act BootSt ℕ := do
  if ¬call.alloc .dataBuf then
    pure count
  else
    onSt (amlnandGetDevice .writing)
    let r ← roombootNandWrite fl call 0 (alignCount fl count)
      (ubootBuf user memory count (alignCount fl count))
    onSt amlnandReleaseDevice
    pure (if r.ret < 0 then 0 else count)

end Request

/-! ## The model without settings -/

section Sim

variable {fl : Flash} {call : Call} {tmp : Settings}

/-- The first page of a copy is its info page. -/
lemma bootPage_info {i : ℕ} (hi : i < bootCopyNum) :
    bootPage fl (fl.pagesize * (bootPagesPerCopy * i)) % bootPagesPerCopy = 0 := by
  rw [bootPage_mul fl (Nat.mul_le_mul_left bootPagesPerCopy (Nat.le_of_lt hi))]
  exact Nat.mul_mod_right _ _

lemma onSt_sim {α : Type} (x : Act St α) {P : BootSt → Prop}
    (h : ∀ s t, P s → P { s with st := t }) :
    Sim BootSt.st P (onSt x) x fun _ => P := Sim.zoom (fun _ _ => rfl) x h

/-- A switch of the settings, as far as the driver sees it. -/
lemma when_change_hidden {c : Prop} [Decidable c] {g : Settings → Settings} {P Q : BootSt → Prop}
    (h : ∀ s, P s → c → Q { s with set := g s.set }) (h' : ∀ s, P s → ¬c → Q s) (s : BootSt)
    (hs : P s) : ∃ u t, when c (change g) s = (some u, t) ∧ t.st = s.st ∧ Q t := by
  unfold Act.when
  split
  · next hc => exact ⟨(), _, rfl, rfl, h s hs hc⟩
  · next hc => exact ⟨(), s, rfl, rfl, h' s hs hc⟩

/-- Between the pages of a copy, `phydev->writesize` is the size of a page unless an info page
comes next. -/
def Ready (fl : Flash) (v : CopyLocals) (s : BootSt) : Prop :=
  bootPage fl v.addr % bootPagesPerCopy = 0 ∨ s.set.writesize = fl.pagesize

/-- Loops over pages whose bodies simulate each other. -/
lemma forPages_sim {α : Type} {I : BootSt → Prop} {body : ℕ → Act BootSt (Option α)}
    {body' : ℕ → Act St (Option α)} (h : ∀ k, Sim BootSt.st I (body k) (body' k) fun _ => I)
    (n : ℕ) : Sim BootSt.st I (forPages n body) (forPages n body') fun _ => I := by
  refine .bind (M := fun r s => Sum.elim (fun _ => I s) (fun _ => I s) r)
    (Sim.loop (I := fun _ => I) (Q := fun _ => I) (fun k => ?_) n 0) fun r => ?_
  · refine .bind (h k) fun r => ?_
    cases r <;> exact .pure fun _ hs => hs
  · cases r <;> exact .pure fun _ hs => hs

lemma fillGap_sim (htmp : tmp.writesize = fl.pagesize) (i : ℕ) (v : CopyLocals) :
    Sim BootSt.st (Ready fl v) (fillGap fl tmp i (bootPage fl v.addr))
      (fillBetween fl (bootPage fl v.addr)) fun _ => Ready fl v := by
  unfold fillGap fillBetween Act.when
  refine .ite (fun _ => ?_) fun _ => .pure fun _ hs => hs
  refine Sim.modify_bind (M := Ready fl v) (fun _ => rfl) (fun _ hs => hs) ?_
  refine .bind (M := fun _ => Ready fl v) (forPages_sim (fun k => ?_) _) fun _ =>
    Sim.bind_hidden (onSt_sim _ fun _ _ hs => hs) fun _ s _ => ⟨_, rfl, rfl, .inr htmp⟩
  refine .bind (onSt_sim _ fun _ _ hs => hs) fun _ => .bind (onSt_sim _ fun _ _ hs => hs) fun ret =>
    ?_
  exact Sim.modify_bind (M := Ready fl v) (fun _ => rfl) (fun _ hs => hs) (.pure fun _ hs => hs)

/-- A page of a copy. -/
lemma bootRound_sim (htmp : tmp.writesize = fl.pagesize) (info : Buf) (len i : ℕ)
    (v : CopyLocals) :
    Sim BootSt.st (Ready fl v) (bootRound fl call tmp info len i v)
      (Amlnf.bootRound fl info len v) fun r s =>
        Sum.elim (fun v' => Ready fl v' s) (fun _ => True) r := by
  refine Sim.hidden (M := fun _ => Ready fl v)
    (when_change_hidden (fun _ _ hp => .inl hp) fun _ hs _ => hs) fun _ => ?_
  refine .bind (onSt_sim _ fun _ _ hs => hs) fun _ => .bind (fillGap_sim htmp i v) fun _ =>
    .bind (onSt_sim _ fun _ _ hs => hs) fun ret => ?_
  refine Sim.modify_bind (M := Ready fl v) (fun _ => rfl) (fun _ hs => hs) ?_
  refine .ite (fun _ => .pure fun _ _ => trivial) fun _ => ?_
  refine Sim.hidden (M := fun _ s => s.set.writesize = fl.pagesize)
    (when_change_hidden (fun _ _ _ => htmp) fun _ hs hp => hs.resolve_left hp) fun _ => ?_
  refine .get_bind fun s hs => ?_
  rw [hs]
  refine Sim.pure fun s' hs' => ?_
  subst hs'
  change Sum.elim _ _ (bootNext fl len v)
  cases bootNext fl len v with
  | inl v' => exact .inr hs
  | inr r => trivial

/-- The copies of a list, each starting with its info page. -/
lemma bootCopies_sim (htmp : tmp.writesize = fl.pagesize) (info : Buf) (len : ℕ) (datbuf : Buf)
    (is : List ℕ) (his : ∀ i ∈ is, i < bootCopyNum) :
    Sim BootSt.st (fun _ => True) (bootCopies fl call tmp info len datbuf is)
      (Amlnf.bootCopies fl info len datbuf is) fun _ _ => True := by
  induction is with
  | nil => exact .pure fun _ hs => hs
  | cons i is ih =>
    refine .bind (M := fun _ _ => True) ?_ fun r => .bind
      (ih fun j hj => his j (List.mem_cons_of_mem _ hj)) fun rs => .pure fun _ hs => hs
    refine (Sim.loopUntil (I := Ready fl) (Q := fun _ _ => True)
      (bootRound_sim htmp info len i) _ _).mono (fun s _ => .inl ?_) fun _ _ h => h
    exact bootPage_info (his i List.mem_cons_self)

lemma writeUboot_sim (hbufs : call.bufs = true) (addr len : ℕ) (datbuf : Buf) :
    Sim BootSt.st (fun s => s.set.writesize = fl.pagesize) (writeUboot fl call addr len datbuf)
      (Amlnf.writeUboot fl call.cfg addr len datbuf) fun _ _ => True := by
  refine .ite (fun _ => .pure fun _ _ => trivial) fun _ =>
    .ite (fun _ => .pure fun _ _ => trivial) fun _ => .get_bind fun s hs => ?_
  refine Sim.bind_hidden (M := fun _ _ => True) ?_ fun _ _ _ => ⟨_, rfl, rfl, trivial⟩
  rw [writeCopies, if_pos hbufs]
  refine .bind ((onSt_sim (P := fun _ => True) _ fun _ _ hs => hs).mono (fun _ _ => trivial)
    fun _ _ hs => hs) fun _ => ?_
  refine .bind (bootCopies_sim hs _ _ _ _ fun i hi => List.mem_range.mp hi) fun rs => ?_
  exact .pure fun _ _ => trivial

lemma roombootNandWrite_sim (hbufs : call.bufs = true) (addr len : ℕ) (buffer : Buf) :
    Sim BootSt.st (fun s => s.set.writesize = fl.pagesize)
      (roombootNandWrite fl call addr len buffer)
      (Amlnf.roombootNandWrite fl call.cfg addr len buffer) fun _ _ => True := by
  refine .ite (fun _ => .pure fun _ _ => trivial) fun _ =>
    .ite (fun _ => .pure fun _ _ => trivial) fun _ =>
    .ite (fun _ => .pure fun _ _ => trivial) fun _ => .get_bind fun s hs => ?_
  refine Sim.hidden (M := fun _ s => s.set.writesize = fl.pagesize)
    (when_change_hidden (fun t ht _ => ?_) fun t ht _ => ht ▸ hs) fun _ => ?_
  · rw [ht]
    exact hs
  refine .bind (onSt_sim _ fun _ _ hs => hs) fun _ => .bind (onSt_sim _ fun _ _ hs => hs) fun _ => ?_
  refine Sim.bind_hidden (writeUboot_sim hbufs _ _ _) fun r t _ => ?_
  obtain ⟨_, u, hu, hst, -⟩ := when_change_hidden (c := ¬r.ret < 0 ∧ s.set.oobMod ≠ 0)
    (g := fun c => { c with oobMod := s.set.oobMod }) (P := fun _ => True) (Q := fun _ => True)
    (fun _ _ _ => trivial) (fun _ _ _ => trivial) t trivial
  exact ⟨u, bind_some hu, hst, trivial⟩

/-- **When no allocation fails, the settings do not matter** for what is programmed and what is
returned. -/
theorem ubootWrite_sim (halloc : ∀ a, call.alloc a = true) (user memory : Buf) (count : ℕ) :
    Sim BootSt.st (fun s => s.set.writesize = fl.pagesize) (ubootWrite fl call user memory count)
      (Amlnf.ubootWrite fl call.cfg user memory count) fun _ _ => True := by
  have hbufs : call.bufs = true := by simp [Call.bufs, halloc]
  rw [ubootWrite, if_neg (by simp [halloc]), Amlnf.ubootWrite, withDevice]
  simp only [bind_assoc]
  refine .bind (onSt_sim _ fun _ _ hs => hs) fun _ => ?_
  refine .bind (roombootNandWrite_sim hbufs _ _ _) fun r => ?_
  refine .bind (onSt_sim (P := fun _ => True) _ fun _ _ hs => hs) fun _ => ?_
  exact .pure fun _ _ => trivial

end Sim

end Amlnf.Boot
