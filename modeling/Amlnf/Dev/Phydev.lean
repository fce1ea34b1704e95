import Amlnf.Phy.Chipenv

set_option relaxedAutoImplicit false
set_option autoImplicit false

/-!
# Physical devices

`phydev.c` divides the chips into a boot device and data devices and gives each of them read,
write, erase and bad-block operations in bytes relative to the device.

## Main definitions

* `DevPara`, `Phydev` — a device of the configuration and a device as set up.
* `amlnandPhydevInit` — offsets and sizes of the devices.
* `nandRead`, `nandWrite`, `nandErase`, `nandBlockIsbad`, `nandBlockMarkbad`,
  `blockModifybbt`, `updateBbt`, `nandTestBlock` — the operations of a device.

## Design

The chip operations are called through `hand`, which notes their parameters. `NAND_CHIP_SLC_MODE`
is set for no chip of the identification table, so no device is in SLC mode, and
`DEV_SERIAL_CHIP_MODE` is the empty mask. The count of used-bad blocks that `amlnand_phydev_init`
prints at its end is left out.
-/

namespace Amlnf

open Act

/-- `struct dev_para`, as far as `amlnand_phydev_init` reads it. -/
structure DevPara where
  /-- Does the name start with `NAND_BOOT_NAME`? -/
  boot : Bool
  size : ℕ
  /-- Sizes of the partitions. -/
  partitions : List ℕ
  /-- `option & DEV_MULTI_CHIP_MODE`. -/
  multiChip : Bool
  /-- `option & DEV_MULTI_PLANE_MODE`. -/
  multiPlane : Bool

/-- `struct amlnand_phydev`. -/
structure Phydev where
  boot : Bool
  offset : ℕ
  size : ℕ
  writesize : ℕ
  erasesize : ℕ
  writesizeShift : ℕ
  erasesizeShift : ℕ
  option : OpsOption
  /-- `option & NAND_SHUT_DOWN`. -/
  shutDown : Bool := false

/-! ## Setting the devices up -/

/-- Blocks per stripe over chips and planes: `chip_num * plane_num`. -/
def stripe (fl : Flash) : ℕ := fl.chipNum * if fl.multiPlane then 2 else 1

/-- `((n - 1) / stripe + 1) * stripe` in `unsigned int`. -/
def roundStripe (fl : Flash) (n : ℕ) : ℕ :=
  (((n + 2 ^ 32 - 1) % 2 ^ 32 / stripe fl + 1) * stripe fl) % 2 ^ 32

/-- `chip_size` in bytes. -/
def chipBytes (fl : Flash) : ℕ := fl.chipsize * fl.chipNum * 2 ^ 20

/-- Where block `k` behind the boot area is looked up while the reserved blocks are counted.
The row is that of block `k + tmp_blk`, the chip that of block `k`. -/
def countPara (fl : Flash) (tmpBlk k : ℕ) : ChipOpsPara :=
  { pageAddr := ((k + tmpBlk - (k + tmpBlk) % fl.chipNum) / fl.chipNum + tmpBlk
      - tmpBlk / fl.chipNum) * fl.ppb
    chipnr := k % fl.chipNum }

/-- One round of the count of reserved blocks: the loop variables are the blocks passed and the
blocks that were not factory bad. -/
def countRound (fl : Flash) (tmpBlk : ℕ) (v : ℕ × ℕ) : Act St ((ℕ × ℕ) ⊕ ℕ) := do
  modify fun s => { s with opsPara := countPara fl tmpBlk v.1 }
  let ret ← blockIsbad fl
  let good := if ret = 2 then v.2 else v.2 + 1
  if good < reservedBlockCnt then pure (Sum.inl (v.1 + 1, good)) else pure (Sum.inr (v.1 + 1))

/-- Blocks from the end of the boot area up to the first data device, before rounding. -/
def countReserved (fl : Flash) (tmpBlk : ℕ) : Act St ℕ := do
  modify fun s => { s with opsPara := {} }
  loopUntil (countRound fl tmpBlk) scanFuel (0, 0)

/-- Write and erase size, their shifts and the option of a data device. With three chips
`ffs` finds the shift of a single chip. -/
def setModes (fl : Flash) (para : DevPara) : Phydev :=
  let mc := para.multiChip ∧ 1 < fl.chipNum
  let mp := para.multiPlane ∧ fl.multiPlane
  let factor := (if mc then fl.chipNum else 1) * if mp then 2 else 1
  let shift := (if mc then (if fl.chipNum = 2 then 1 else if fl.chipNum = 4 then 2 else 0) else 0)
    + if mp then 1 else 0
  { boot := false
    offset := 0
    size := 0
    writesize := fl.pagesize * factor
    erasesize := fl.blocksize * factor
    writesizeShift := fl.pageShift + shift
    erasesizeShift := fl.pageShift + fl.ppbShift + shift
    option := { multiChip := mc, multiPlane := mp } }

/-- `dev_size`: the partitions of a device, the rest of the chip for the last device, or the
size given for a device without partitions. -/
def devSize (fl : Flash) (para : DevPara) (isLast : Bool) (pre : Phydev) : ℕ :=
  if para.partitions = [] then para.size
  else if isLast then (chipBytes fl + 2 ^ 64 - pre.offset + 2 ^ 64 - pre.size) % 2 ^ 64
  else para.partitions.sum % 2 ^ 64

/-- Blocks a device that is not the last is to have: a tenth and four more than its size. -/
def adjustedBlocks (size erasesizeShift : ℕ) : ℕ :=
  let total := (size >>> erasesizeShift) % 2 ^ 32
  (total + (total + 10 - 1) % 2 ^ 32 / 10 + 4) % 2 ^ 32

/-- One round of the search for the end of a device: the loop variables are the offset reached
and the blocks that were not factory bad. -/
def extentRound (fl : Flash) (dev : Phydev) (total : ℕ) (v : ℕ × ℕ) : Act St ((ℕ × ℕ) ⊕ ℕ) := do
  modify fun s => { s with opsPara :=
    { s.opsPara with pageAddr := (v.1 >>> dev.writesizeShift) % 2 ^ 32 } }
  let ret ← blockIsbad fl
  let good := if ret = 2 then v.2 else v.2 + 1
  if good < total then pure (Sum.inl ((v.1 + dev.erasesize) % 2 ^ 64, good))
  else pure (Sum.inr ((v.1 + dev.erasesize) % 2 ^ 64))

/-- Size of a device that is not the last: enough blocks that are not factory bad, rounded up
to whole stripes. The start is kept in 32 bits. -/
def devExtent (fl : Flash) (dev : Phydev) (start size : ℕ) : Act St ℕ := do
  modify fun s => { s with opsPara := { option := dev.option } }
  let stop ← loopUntil (extentRound fl dev (adjustedBlocks size dev.erasesizeShift)) (2 ^ 32)
    (start, 0)
  let blocks := (((stop + 2 ^ 64 - start % 2 ^ 32) % 2 ^ 64) >>> dev.erasesizeShift) % 2 ^ 32
  pure (roundStripe fl blocks * dev.erasesize)

/-- Size of a device that is to have `want` bytes: the last device is not searched. -/
def devBytes (fl : Flash) (dev : Phydev) (isLast : Bool) (want : ℕ) : Act St ℕ :=
  if isLast then pure want else devExtent fl dev dev.offset want

/-- What the loop of `amlnand_phydev_init` carries from device to device. -/
structure InitLocals where
  index : ℕ := 0
  bootFlag : Bool := false
  tmpBlk : ℕ := 0
  pre : Option Phydev := none

/-- The boot device: four copies of 256 pages. -/
def bootDev (fl : Flash) : Phydev where
  boot := true
  offset := 0
  size := 1024 * fl.pagesize
  writesize := fl.pagesize
  erasesize := fl.blocksize
  writesizeShift := fl.pageShift
  erasesizeShift := fl.pageShift + fl.ppbShift
  option := {}

/-- Offset of a data device: behind the reserved blocks for the first, behind the device
before it for the others. -/
def devOffset (fl : Flash) (l : InitLocals) : Act St ℕ :=
  match l.pre with
  | none => do
    let n ← countReserved fl l.tmpBlk
    pure ((roundStripe fl (n % 2 ^ 32) * fl.blocksize) % 2 ^ 32)
  | some pre =>
    if l.bootFlag ∧ l.index = 1 then do
      let n ← countReserved fl l.tmpBlk
      pure ((roundStripe fl (n % 2 ^ 32) * fl.blocksize) % 2 ^ 32 + pre.size)
    else
      pure ((pre.offset + pre.size) % 2 ^ 64)

/-- Set one data device up; `none` when it leaves the chip. A last device with partitions
before which there is none reads through a null pointer. -/
def initData (fl : Flash) (l : InitLocals) (para : DevPara) (isLast : Bool) :
    Act St (Option Phydev) := do
  if l.pre.isNone ∧ isLast ∧ para.partitions ≠ [] then
    hang
  else
    let want := devSize fl para isLast (l.pre.getD (bootDev fl))
    let offset ← devOffset fl l
    let dev := { setModes fl para with offset := offset }
    let size ← devBytes fl dev isLast want
    let dev := { dev with size := size }
    if chipBytes fl < (dev.offset + dev.size) % 2 ^ 64 then pure none else pure (some dev)

/-- The loop of `amlnand_phydev_init` over the devices of the configuration. -/
def initDevs (fl : Flash) : InitLocals → List DevPara → Act St (ℤ × List Phydev)
  | _, [] => pure (0, [])
  | l, para :: rest => do
    if para.boot then
      if l.pre.isNone ∧ rest = [] ∧ para.partitions ≠ [] then
        hang
      else
        let dev := bootDev fl
        let (ret, devs) ← initDevs fl
          { index := l.index + 1, bootFlag := true, tmpBlk := fl.startBlk, pre := some dev } rest
        pure (ret, dev :: devs)
    else
      match ← initData fl l para rest.isEmpty with
      | none => pure (-nandFailed, [])
      | some dev =>
        let (ret, devs) ← initDevs fl { l with index := l.index + 1, pre := some dev } rest
        pure (ret, dev :: devs)

/-- `amlnand_phydev_init`: the return code and the devices entered in the list. -/
def amlnandPhydevInit (fl : Flash) (config : List DevPara) : Act St (ℤ × List Phydev) :=
  if config = [] then pure (-nandFailed, []) else initDevs fl {} config

/-! ## Operations of a device -/

/-- `struct phydev_ops`. -/
structure DevOps where
  addr : ℕ
  len : ℕ := 0
  ooblen : ℕ := 0
  datbuf : Option Buf := none
  /-- Name tag the spare bytes start with. -/
  oobbuf : Option Tag := none
  /-- Is there a buffer for the spare bytes of a read? -/
  hasOob : Bool := false
  /-- `mode == NAND_SOFT_ECC`. -/
  softEcc : Bool := false

/-- Page address of byte `addr` of the chips in the modes of a device. -/
def Phydev.pageAddr (dev : Phydev) (addr : ℕ) : ℕ := (addr >>> dev.writesizeShift) % 2 ^ 32

/-- Does the request leave the device? -/
def Phydev.outOfSpace (dev : Phydev) (r : DevOps) : Bool := dev.size < (r.addr + r.len) % 2 ^ 64

/-- First byte of a request on the chips. -/
def Phydev.start (dev : Phydev) (r : DevOps) : ℕ := (dev.offset + r.addr) % 2 ^ 64

/-- Set `ops_para` up for a request. -/
def setPara (dev : Phydev) (softEcc : Bool) : Act St Unit :=
  modify fun s => { s with opsPara :=
    { option := { dev.option with eccSoft := dev.option.eccSoft || softEcc } } }

/-- Point `ops_para` at byte `addr` of the chips. -/
def seekAddr (dev : Phydev) (addr : ℕ) : Act St Unit :=
  modify fun s => { s with opsPara := { s.opsPara with pageAddr := dev.pageAddr addr } }

/-- Call the chip operation `op`, which takes its parameters from `ops_para`. -/
def hand {α : Type} (op : Act St α) : Act St α := do
  modify fun s => { s with handed := s.handed ++ [s.opsPara] }
  op

/-- The bracket around the operations of a device. -/
def withDevice {α : Type} (newState : ChipState) (x : Act St α) : Act St α := do
  amlnandGetDevice newState
  let a ← x
  amlnandReleaseDevice
  pure a

/-- A device that is free and whose operation returns with the lock held is free again. -/
lemma withDevice_run {α : Type} (newState : ChipState) {x : Act St α} {s t : St} {a : α}
    (hready : s.state = .ready) (hfree : s.mutex = false) (hpin : (s.plan s.tick).pin = true)
    (hx : x { s with state := newState, mutex := true, idleflag := true, tick := s.tick + 1 } =
      (some a, t)) (hmutex : t.mutex = true) (hidle : t.idleflag = true) :
    withDevice newState x s =
      (some a, { t with state := .ready, mutex := false, idleflag := false }) := by
  rw [withDevice, bind_some (amlnandGetDevice_free newState hready hfree hpin), bind_some hx,
    bind_some (amlnandReleaseDevice_held hmutex hidle), pure_apply]

/-- One page of `nand_read`: the loop variables are the address, the bytes read and the
buffer. -/
def readDevRound (fl : Flash) (dev : Phydev) (r : DevOps) (len : ℕ) (v : ℕ × ℕ × Buf) :
    Act St ((ℕ × ℕ × Buf) ⊕ (ℤ × ℕ × Buf)) := do
  seekAddr dev v.1
  let b ← hand (readPage fl r.datbuf.isSome r.hasOob)
  let s ← get
  if s.opsPara.eccErr ∨ b.ret < 0 then
    pure (Sum.inr (b.ret, v.2.1, v.2.2))
  else
    let buf := blit v.2.2 v.2.1 dev.writesize b.data
    if len ≤ v.2.1 + dev.writesize then
      pure (Sum.inr (b.ret, v.2.1 + dev.writesize, buf))
    else
      pure (Sum.inl ((v.1 + dev.writesize) % 2 ^ 64, v.2.1 + dev.writesize, buf))

/-- `nand_read`: return code, `retlen` and the buffer. -/
def nandRead (fl : Flash) (dev : Phydev) (r : DevOps) : Act St (ℤ × ℕ × Buf) := do
  let buf := r.datbuf.getD fun _ => 0
  if dev.outOfSpace r then
    pure (-nandArgumentFailure, 0, buf)
  else if r.len = 0 ∧ r.ooblen = 0 then
    pure (0, 0, buf)
  else
    let (ret, retlen, buf) ← withDevice .reading do
      setPara dev r.softEcc
      let len := if r.len = 0 then dev.writesize else r.len
      loopUntil (readDevRound fl dev r len) (len + 1) (dev.start r, 0, buf)
    let s ← get
    if ret = 0 then
      -- `NAND_ECC_FAILURE` is reported as it is, `EUCLEAN` with its sign
      if s.opsPara.eccErr then pure (5, retlen, buf)
      else if s.opsPara.bitFlip then pure (-117, retlen, buf)
      else pure (ret, retlen, buf)
    else
      pure (ret, retlen, buf)

/-- One page of `nand_write`: the loop variables are the address and the bytes written. -/
def writeDevRound (fl : Flash) (dev : Phydev) (r : DevOps) (v : ℕ × ℕ) :
    Act St ((ℕ × ℕ) ⊕ (ℤ × ℕ)) := do
  seekAddr dev v.1
  let ret ← hand (writePage fl (r.datbuf.map fun d i => d (v.2 + i)) r.oobbuf)
  if ret < 0 then
    pure (Sum.inr (ret, v.2))
  else if r.len ≤ v.2 + dev.writesize then
    pure (Sum.inr (ret, v.2 + dev.writesize))
  else
    pure (Sum.inl ((v.1 + dev.writesize) % 2 ^ 64, v.2 + dev.writesize))

/-- `nand_write`: return code and `retlen`. -/
def nandWrite (fl : Flash) (dev : Phydev) (r : DevOps) : Act St (ℤ × ℕ) := do
  if dev.outOfSpace r then
    pure (-nandArgumentFailure, 0)
  else if (r.len = 0 ∧ r.ooblen = 0) ∨ dev.shutDown then
    pure (0, 0)
  else
    withDevice .writing do
      setPara dev r.softEcc
      loopUntil (writeDevRound fl dev r) (r.len + 1) (dev.start r, 0)

/-- One block of `nand_erase`: the loop variables are the address and the bytes erased. -/
def eraseDevRound (fl : Flash) (dev : Phydev) (len : ℕ) (v : ℕ × ℕ) :
    Act St ((ℕ × ℕ) ⊕ (ℤ × ℕ)) := do
  seekAddr dev v.1
  let ret ← hand (eraseBlock fl)
  if ret < 0 then
    pure (Sum.inr (ret, v.2))
  else if len ≤ v.2 + dev.erasesize then
    pure (Sum.inr (ret, v.2 + dev.erasesize))
  else
    pure (Sum.inl ((v.1 + dev.erasesize) % 2 ^ 64, v.2 + dev.erasesize))

/-- `nand_erase`: return code and `retlen`. -/
def nandErase (fl : Flash) (dev : Phydev) (r : DevOps) : Act St (ℤ × ℕ) := do
  if dev.outOfSpace r then
    pure (-nandArgumentFailure, 0)
  else if r.len = 0 ∨ dev.shutDown then
    pure (0, 0)
  else
    withDevice .erasing do
      setPara dev false
      loopUntil (eraseDevRound fl dev r.len) (r.len + 1) (dev.start r, 0)

/-- The operations on the block of one address: they differ in the operation, and in whether a
device that is shut down still performs it. -/
def blockOp (dev : Phydev) (r : DevOps) (guarded : Bool) (op : Act St ℤ) : Act St ℤ := do
  if dev.size < r.addr then
    pure (-nandArgumentFailure)
  else if guarded ∧ dev.shutDown then
    pure 0
  else
    withDevice .reading do
      setPara dev false
      seekAddr dev (dev.start r)
      op

/-- `nand_block_isbad`. -/
def nandBlockIsbad (fl : Flash) (dev : Phydev) (r : DevOps) : Act St ℤ :=
  blockOp dev r true (hand (blockIsbad fl))

/-- `nand_block_markbad`. -/
def nandBlockMarkbad (fl : Flash) (dev : Phydev) (r : DevOps) : Act St ℤ :=
  blockOp dev r true (hand (blockMarkbadOp fl))

/-- `block_modifybbt`. -/
def blockModifybbt (fl : Flash) (dev : Phydev) (r : DevOps) (value : UInt16) : Act St ℤ :=
  blockOp dev r false (hand (blkModifyBbtChipOp fl value))

/-- `update_bbt_chip_op` comes down to `amlnand_update_bbt`. -/
def updateBbt (fl : Flash) (dev : Phydev) (r : DevOps) : Act St ℤ :=
  blockOp dev r false (hand (amlnandUpdateBbt fl (blockMarkbadOp fl)))

/-- One page of the write and read passes of `nand_test_block`; `visit` gives the code and
whether the test ends with it. The page address is advanced by the write size, and the loop
goes on while it is not below the length. -/
def testDevRound (dev : Phydev) (len : ℕ) (visit : Act St (ℤ × Bool)) (_ : Unit) :
    Act St (Unit ⊕ ℤ × Bool) := do
  let r ← visit
  if r.2 then
    pure (Sum.inr r)
  else
    modify fun s => { s with opsPara :=
      { s.opsPara with pageAddr := (s.opsPara.pageAddr + dev.writesize) % 2 ^ 32 } }
    let s ← get
    if len ≤ s.opsPara.pageAddr then pure (Sum.inl ()) else pure (Sum.inr r)

/-- `nand_test_block`. -/
def nandTestBlock (fl : Flash) (dev : Phydev) (r : DevOps) : Act St ℤ :=
  blockOp dev r true do
    let tmpAddr := (← get).opsPara.pageAddr
    let back : Act St Unit :=
      modify fun s => { s with opsPara := { s.opsPara with pageAddr := tmpAddr } }
    let writeIt : Act St (ℤ × Bool) := do
      let ret ← hand (writePage fl r.datbuf none)
      pure (ret, ret < 0)
    let readIt : Act St (ℤ × Bool) := do
      let b ← hand (readPage fl r.datbuf.isSome false)
      let s ← get
      pure (b.ret, s.opsPara.eccErr || b.ret < 0)
    let ret ← hand (eraseBlock fl)
    if ret < 0 then
      pure ret
    else
      back
      let w ← loopUntil (testDevRound dev r.len writeIt) (2 ^ 32 + 1) ()
      if w.2 then
        pure w.1
      else
        back
        let w ← loopUntil (testDevRound dev r.len readIt) (2 ^ 32 + 1) ()
        if w.2 then
          pure w.1
        else
          back
          hand (eraseBlock fl)

end Amlnf
