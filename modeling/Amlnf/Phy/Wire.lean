import Amlnf.Phy.PageTransfer
import Amlnf.Phy.RowAddress

set_option relaxedAutoImplicit false
set_option autoImplicit false

/-!
# Commands on the wires

The functions of the driver that send command bytes to the chips, with every byte they send: the
polls, `read_page` with its retries, `write_page`, `erase_block`, the mode registers of the vendors,
the reset, the identification and the ONFI features.

## Main definitions

* `Wire.Surroundings`, `Wire.Setup`, `Wire.WireSt` — what is found at each moment, the settings,
  and the bytes sent so far with the moments they were sent at.
* `Wire.cmdCtrl` — `controller_cmd_ctrl`, through which every command and address byte goes.
* `Wire.readPage`, `Wire.writePage`, `Wire.eraseBlock` — the operations on pages and blocks.
* `Wire.readretryHandle`, `Wire.readretryExit`, `Wire.slcEnter`, `Wire.slcExit` — the registers.
* `Wire.BusCall`, `Wire.runCalls` — the calls the rest of the driver makes, one after the other.

## Design

The page transfers know which pages move and the read retry knows which rows are programmed; this is
what the pins see of both. Time passes from byte to byte and from poll to poll, so that
`amlnf_readonly`, which is a module parameter and may be written at any moment, is a function of
time. A poll is one moment, however many rounds it makes. Data bytes start nothing and are left out,
the values written to a register among them. `nand_status` never changes, and neither
`AML_NAND_UBOOT` nor `AML_NAND_RB_IRQ` is defined.
-/

namespace Amlnf.Wire

open Act

/-! ## Bytes -/

/-- `NAND_CMD_SEQIN`. -/
def nandCmdSeqin : ℕ := 0x80

/-- `NAND_CMD_PAGEPROG`. -/
def nandCmdPageprog : ℕ := 0x10

/-- `NAND_CMD_ERASE1`. -/
def nandCmdErase1 : ℕ := 0x60

/-- `NAND_CMD_ERASE2`. -/
def nandCmdErase2 : ℕ := 0xd0

/-- `NAND_CMD_READ0`. -/
def nandCmdRead0 : ℕ := 0x00

/-- `NAND_CMD_READSTART`. -/
def nandCmdReadstart : ℕ := 0x30

/-- `NAND_CMD_RNDOUT`. -/
def nandCmdRndout : ℕ := 0x05

/-- `NAND_CMD_RNDOUTSTART`. -/
def nandCmdRndoutstart : ℕ := 0xe0

/-- `NAND_CMD_PLANE2_READ_START`. -/
def nandCmdPlane2ReadStart : ℕ := 0x06

/-- `NAND_CMD_TWOPLANE_PREVIOS_READ`, the byte of `NAND_CMD_ERASE1`. -/
def nandCmdTwoplanePreviosRead : ℕ := 0x60

/-- `NAND_CMD_TWOPLANE_WRITE2`. -/
def nandCmdTwoplaneWrite2 : ℕ := 0x81

/-- `NAND_CMD_TWOPLANE_WRITE2_MICRO`. -/
def nandCmdTwoplaneWrite2Micro : ℕ := 0x80

/-- `NAND_CMD_DUMMY_PROGRAM`. -/
def nandCmdDummyProgram : ℕ := 0x11

/-- `NAND_CMD_ERASE1_END`. -/
def nandCmdErase1End : ℕ := 0xd1

/-- `NAND_CMD_STATUS`. -/
def nandCmdStatus : ℕ := 0x70

/-- `NAND_CMD_RESET`. -/
def nandCmdReset : ℕ := 0xff

/-- `NAND_CMD_READID`. -/
def nandCmdReadid : ℕ := 0x90

/-- `NAND_CMD_GET_FEATURES`. -/
def nandCmdGetFeatures : ℕ := 0xee

/-- `NAND_CMD_SET_FEATURES`. -/
def nandCmdSetFeatures : ℕ := 0xef

/-- `NAND_CMD_NONE`, as an `unsigned int`. -/
def nandCmdNone : ℕ := 2 ^ 32 - 1

/-- `NAND_MFR_HYNIX`. -/
def nandMfrHynix : ℕ := 0xad

/-- `NAND_MFR_SAMSUNG`. -/
def nandMfrSamsung : ℕ := 0xec

/-- `NAND_MFR_MICRON`. -/
def nandMfrMicron : ℕ := 0x2c

/-- `NAND_MFR_INTEL`. -/
def nandMfrIntel : ℕ := 0x89

/-! ## State -/

/-- What a function finds when it looks, at each moment. -/
structure Surroundings where
  /-- `amlnf_readonly` is non-zero. -/
  readonly : ℕ → Bool
  /-- A poll of `quene_rb` sees the chip ready in time. -/
  rb : ℕ → Bool
  /-- The command FIFO drains in time. -/
  fifo : ℕ → Bool
  /-- A transfer to a chip ends in time. -/
  dma : ℕ → Bool
  /-- How the read of a page ends. -/
  ecc : ℕ → EccResult
  /-- The byte a chip answers. -/
  byte : ℕ → UInt8

/-- The settings of the controller, whatever probing made of them. -/
structure Setup where
  /-- `controller->mfr_type`. -/
  mfrType : ℕ
  /-- `NAND_CTRL_NONE_RB`: the ready lines are not connected. -/
  noneRb : Bool
  /-- `NAND_CTRL_FORCE_WP`. -/
  forceWp : Bool
  /-- `bch_mode == NAND_ECC_NONE`. -/
  bchNone : Bool
  oobMod : Bool
  internalPageNums : ℕ
  internalChipnr : ℕ
  regCntLp : ℕ
  regAddrLp : ℕ → ℕ
  regCntUp : ℕ
  regAddrUp : ℕ → ℕ
  /-- `slc_info->reg_cnt` and `slc_info->reg_addr`. -/
  slcRegCnt : ℕ
  slcRegAddr : ℕ → ℕ

/-- A byte the pins have seen, with the command latch open or with the address latch. -/
structure Latch where
  moment : ℕ
  chip : ℕ
  command : Bool
  byte : UInt8
  deriving DecidableEq

/-- The surroundings, the time, the chip selected, the counters of the retries and the bytes sent,
newest first. -/
structure WireSt where
  around : Surroundings
  now : ℕ := 0
  chipSelected : ℕ := 0
  curCntLp : ℕ → ℕ := fun _ => 0
  curCntUp : ℕ → ℕ := fun _ => 0
  sent : List Latch := []

/-- A moment later. -/
def WireSt.later (s : WireSt) : WireSt := { s with now := s.now + 1 }

/-- Look at the surroundings. -/
def look {α : Type} (f : Surroundings → ℕ → α) : Act WireSt α := fun s =>
  (some (f s.around s.now), s.later)

/-! ## Primitives of the controller -/

/-- `controller_cmd_ctrl`. -/
def cmdCtrl (cmd : ℕ) (command : Bool) : Act WireSt Unit :=
  if cmd = nandCmdNone then pure ()
  else modify fun s =>
    { s.later with sent := ⟨s.now, s.chipSelected, command, UInt8.ofNat cmd⟩ :: s.sent }

/-- A byte with `NAND_CTRL_CLE`. -/
def cle (cmd : ℕ) : Act WireSt Unit := cmdCtrl cmd true

/-- A byte with `NAND_CTRL_ALE`. -/
def ale (addr : ℕ) : Act WireSt Unit := cmdCtrl addr false

/-- The column, which is always zero. -/
def aleColumn : Act WireSt Unit := do
  ale 0
  ale (0 >>> 8)

/-- A row address. -/
def aleRow (row : ℕ) : Act WireSt Unit := do
  ale row
  ale (row >>> 8)
  ale (row >>> 16)

/-- `writebyte`. -/
def writebyte : Act WireSt Unit := modify WireSt.later

/-- `readbyte`. -/
def readbyte : Act WireSt UInt8 := look Surroundings.byte

/-- `dma_write`: does the transfer end? -/
def dmaWrite : Act WireSt Bool := look Surroundings.dma

/-- `controller_select_chip`, with its `BUG()`. -/
def selectChip (chip : ℕ) : Act WireSt Unit :=
  if chip < 4 then modify fun s => { s.later with chipSelected := chip } else hang

/-- `check_cmdfifo_size`, with the `BUG()` its callers put behind a failure. -/
def checkCmdfifoSize : Act WireSt Unit := do
  if ← look Surroundings.fifo then pure () else hang

/-- Do something for each of a list. -/
def each {α : Type} (f : α → Act WireSt Unit) : List α → Act WireSt Unit
  | [] => pure ()
  | a :: as => do
    f a
    each f as

/-- The addresses of `cnt` registers from number `first` on. -/
def regs (addr : ℕ → ℕ) (first cnt : ℕ) : List ℕ := (List.range cnt).map fun i => addr (first + i)

section

variable (fl : Flash) (u : Setup)

/-- `controller_quene_rb`. -/
def queneRb (chip : ℕ) : Act WireSt ℤ := do
  selectChip chip
  when (u.noneRb) (cle nandCmdStatus)
  if ← look Surroundings.rb then pure 0 else pure (-Bus.nandBusyFailure)

/-! ## Reset, identification, features -/

/-- `nand_reset`. -/
def nandReset (chip : ℕ) : Act WireSt ℤ := do
  cle nandCmdReset
  if (← queneRb u chip) < 0 then
    pure (-Bus.nandBusyFailure)
  else
    cle nandCmdStatus
    let status ← readbyte
    if status &&& 0x40 ≠ 0 then pure 0 else pure (-Bus.nandBusyFailure)

/-- `read_id`, given a buffer or not. -/
def readId (chip idAddr : ℕ) (buf : Bool) : Act WireSt ℤ := do
  if ¬buf then
    pure (-nandArgumentFailure)
  else
    selectChip chip
    let ret ← nandReset u chip
    if ret < 0 then
      pure ret
    else
      cle nandCmdReadid
      ale idAddr
      each (fun _ => do let _ ← readbyte) (List.range 8)
      pure ret

/-- `get_onfi_features`. -/
def getOnfiFeatures (addr : ℕ) : Act WireSt ℤ := do
  each (fun chip => do
    selectChip chip
    cle nandCmdGetFeatures
    ale addr
    each (fun _ => do let _ ← readbyte) (List.range 4)) (List.range fl.chipNum)
  pure 0

/-- `set_onfi_features`, from a chip on. -/
def setOnfiChips (addr : ℕ) : List ℕ → Act WireSt ℤ
  | [] => pure 0
  | chip :: rest => do
    selectChip chip
    cle nandCmdSetFeatures
    ale addr
    each (fun _ => writebyte) (List.range 4)
    if ← look Surroundings.fifo then setOnfiChips addr rest else pure (-Bus.nandBusyFailure)

/-- `set_onfi_features`. -/
def setOnfiFeatures (addr : ℕ) : Act WireSt ℤ := setOnfiChips addr (List.range fl.chipNum)

/-- `NAND_CMD_FAILURE`. -/
def nandCmdFailure : ℤ := 1

/-- `NAND_WP_FAILURE`. -/
def nandWpFailure : ℤ := 10

/-- The loop of `check_wp`. -/
def checkWpChips : List ℕ → Act WireSt ℤ
  | [] => pure 0
  | chip :: rest => do
    selectChip chip
    cle nandCmdStatus
    if ¬(← look Surroundings.fifo) then
      pure (-nandCmdFailure)
    else
      let status ← readbyte
      if status &&& 0x80 ≠ 0 then pure (-nandWpFailure) else checkWpChips rest

/-- `check_wp`. -/
def checkWp : Act WireSt ℤ := do
  if u.forceWp then pure (-nandWpFailure) else checkWpChips (List.range fl.chipNum)

/-! ## Registers -/

/-- What the functions on the registers share: the chip is waited for before and behind. -/
def regCall (chip : ℕ) (body : Act WireSt Unit) : Act WireSt ℤ := do
  if (← queneRb u chip) ≠ 0 then
    pure (-nandFailed)
  else
    body
    if (← queneRb u chip) ≠ 0 then pure (-nandFailed) else pure 0

/-- `get_reg_value_hynix`. -/
def getRegValueHynix (chip : ℕ) (addrs : List ℕ) : Act WireSt ℤ := do
  if ¬fl.newType.isHynix then
    pure 0
  else
    regCall u chip do
      cle 0x37
      each (fun a => do
        ale a
        let _ ← readbyte) addrs

/-- `set_reg_value_hynix`. -/
def setRegValueHynix (chip : ℕ) (addrs : List ℕ) : Act WireSt ℤ := do
  if ¬fl.newType.isHynix then
    pure 0
  else
    regCall u chip do
      cle 0x36
      each (fun a => do
        ale a
        writebyte) addrs
      cle 0x16

/-- One register of a Toshiba chip. -/
def toshibaReg (a : ℕ) : Act WireSt Unit := do
  cle 0x55
  ale a
  writebyte

/-- `set_reg_value_toshiba`. -/
def setRegValueToshiba (chip : ℕ) (addrs : List ℕ) : Act WireSt ℤ := do
  regCall u chip do
    let s ← get
    when (s.curCntLp chip = 0) do
      cle 0x5c
      cle 0xc5
    each toshibaReg addrs
    cle 0x26
    cle 0x5d

/-- `set_reg_value_samsung`. -/
def setRegValueSamsung (chip : ℕ) (addrs : List ℕ) : Act WireSt ℤ := do
  if fl.newType ≠ .sumsung2xnm then
    pure 0
  else
    regCall u chip do
      each (fun a => do
        cle 0xa1
        ale 0
        ale a
        writebyte) addrs

/-- `set_reg_value_micron`. -/
def setRegValueMicron (chip : ℕ) (addrs : List ℕ) : Act WireSt ℤ := do
  if fl.newType ≠ .micron20nm then
    pure 0
  else
    regCall u chip do
      each (fun a => do
        cle 0xef
        ale a
        each (fun _ => writebyte) (List.range 4)) addrs

/-- One register of a SanDisk chip. -/
def sandiskReg (a : ℕ) : Act WireSt Unit := do
  cle 0x53
  ale a
  writebyte

/-- `readretry_init_sandisk`: no chip is selected here. -/
def readretryInitSandisk : Act WireSt ℤ := do
  each (fun _ => do
    cle 0x3b
    cle 0xb9
    each sandiskReg [0x04, 0x05, 0x06, 0x07, 0x08, 0x09, 0x0a, 0x0b, 0x0c]) (List.range fl.chipNum)
  pure 0

/-- `set_reg_value_sandisk`. -/
def setRegValueSandisk (chip : ℕ) (addrs : List ℕ) : Act WireSt ℤ :=
  regCall u chip do
    cle 0x3b
    cle 0xb9
    each sandiskReg addrs
    cle 0xb6

/-- `set_a19_reg_value_sandisk`. -/
def setA19RegValueSandisk (chip addr cnt : ℕ) : Act WireSt ℤ :=
  regCall u chip do
    cle 0xef
    ale addr
    each (fun _ => writebyte) (List.range cnt)

/-! ## SLC mode -/

/-- `enslc_init_hynix`: the default values are read from the chips. -/
def enslcInitHynix : Act WireSt ℤ := do
  if ¬fl.newType.isHynix ∨ fl.newType = .hynix1ynm8gb then
    pure 0
  else
    each (fun chip => do
      let _ ← getRegValueHynix fl u chip (regs u.slcRegAddr 0 u.slcRegCnt)) (List.range fl.chipNum)
    pure 0

/-- `enslc_enter_hynix` and `enslc_exit_hynix`, which differ in the values. -/
def enslcHynix : Act WireSt ℤ := do
  if ¬fl.newType.isHynix ∨ fl.newType = .hynix1ynm8gb then
    pure 0
  else
    each (fun chip => do
      let _ ← setRegValueHynix fl u chip (regs u.slcRegAddr 0 u.slcRegCnt)) (List.range fl.chipNum)
    pure 0

/-- `enslc_enter_sandisk`. -/
def enslcEnterSandisk : Act WireSt ℤ := do
  cle 0xa2
  pure 0

/-- `slc_info->enter`. -/
def slcEnter : Act WireSt ℤ :=
  if fl.newType = .sandisk19nm then enslcEnterSandisk else enslcHynix fl u

/-- `slc_info->exit`; only a Hynix type has one. -/
def slcExit : Act WireSt ℤ := enslcHynix fl u

/-! ## Read retry -/

/-- Set the counter of the lower pages of a chip. -/
def putCntLp (chip value : ℕ) : Act WireSt Unit :=
  modify fun s => { s with curCntLp := setCnt s.curCntLp chip value }

/-- Set the counter of the upper pages of a chip. -/
def putCntUp (chip value : ℕ) : Act WireSt Unit :=
  modify fun s => { s with curCntUp := setCnt s.curCntUp chip value }

/-- Set the counters of the lower pages of all chips to zero. -/
def clearLp : Act WireSt Unit := modify fun s => { s with curCntLp := fun _ => 0 }

/-- `readretry_handle_hynix`. -/
def readretryHandleHynix (chip : ℕ) : Act WireSt ℤ := do
  let _ ← setRegValueHynix fl u chip (regs u.regAddrLp 0 u.regCntLp)
  let s ← get
  putCntLp chip ((s.curCntLp chip + 1) % 2 ^ 8)
  pure 0

/-- The handlers that step through a table with the counter of the lower pages. -/
def handleLp (chip : ℕ) (setReg : Act WireSt ℤ) : Act WireSt ℤ := do
  let s ← get
  if (← setReg) ≠ 0 then
    pure (-nandFailed)
  else
    putCntLp chip (wrapCnt (amlnandSetReadretrySlcPara fl.newType).retryCntLp (s.curCntLp chip))
    pure 0

/-- `readretry_handle_toshiba`. -/
def readretryHandleToshiba (chip : ℕ) : Act WireSt ℤ :=
  handleLp fl chip (setRegValueToshiba u chip (regs u.regAddrLp 0 u.regCntLp))

/-- `readretry_handle_samsung`. -/
def readretryHandleSamsung (chip : ℕ) : Act WireSt ℤ :=
  handleLp fl chip (setRegValueSamsung fl u chip (regs u.regAddrLp 0 u.regCntLp))

/-- `readretry_handle_micron`. -/
def readretryHandleMicron (chip : ℕ) : Act WireSt ℤ :=
  handleLp fl chip (setRegValueMicron fl u chip (regs u.regAddrLp 0 u.regCntLp))

/-- The fourth row of an Intel chip is preceded by a register of its own. -/
def intelAdvance (chip : ℕ) : Act WireSt ℤ := do
  let s ← get
  if s.curCntLp chip = 3 then setRegValueMicron fl u chip (regs u.regAddrLp 1 u.regCntLp)
  else pure 0

/-- `readretry_handle_intel`. -/
def readretryHandleIntel (chip : ℕ) : Act WireSt ℤ := do
  if (← intelAdvance fl u chip) ≠ 0 then
    pure (-nandFailed)
  else
    handleLp fl chip (setRegValueMicron fl u chip (regs u.regAddrLp 0 u.regCntLp))

/-- `readretry_handle_sandisk`: upper pages have a table and a counter of their own. -/
def readretryHandleSandisk (kind : PageKind) (chip : ℕ) : Act WireSt ℤ :=
  match kind with
  | .lower => handleLp fl chip (setRegValueSandisk u chip (regs u.regAddrLp 0 u.regCntLp))
  | .upper => do
    let s ← get
    if (← setRegValueSandisk u chip (regs u.regAddrUp 0 u.regCntUp)) ≠ 0 then
      pure (-nandFailed)
    else
      putCntUp chip (wrapCnt (amlnandSetReadretrySlcPara fl.newType).retryCntUp (s.curCntUp chip))
      pure 0

/-- `readretry_handle_a19_sandisk`. -/
def readretryHandleA19Sandisk (chip : ℕ) : Act WireSt ℤ := do
  let s ← get
  let _ ← setA19RegValueSandisk u chip (u.regAddrLp 0) u.regCntLp
  cle 0x25
  when (fl.newType ≠ .sandiskA19nm) (cle 0x26)
  cle 0x5d
  putCntUp chip (wrapCnt (amlnandSetReadretrySlcPara fl.newType).retryCntUp (s.curCntUp chip))
  pure 0

/-- `retry_info->handle`, for a page of a kind. -/
def readretryHandle (kind : PageKind) (chip : ℕ) : Act WireSt ℤ :=
  match fl.newType with
  | .hynix26nm4gb => readretryHandleHynix fl u chip
  | .hynix26nm8gb => readretryHandleHynix fl u chip
  | .hynix20nm4gb => readretryHandleHynix fl u chip
  | .hynix20nm8gb => readretryHandleHynix fl u chip
  | .hynix1ynm8gb => readretryHandleHynix fl u chip
  | .toshiba2xnm => readretryHandleToshiba fl u chip
  | .toshibaA19nm => readretryHandleToshiba fl u chip
  | .sumsung2xnm => readretryHandleSamsung fl u chip
  | .sandisk19nm => readretryHandleSandisk fl u kind chip
  | .sandiskA19nm => readretryHandleA19Sandisk fl u chip
  | .sandiskA19nm4g => readretryHandleA19Sandisk fl u chip
  | .micron20nm => readretryHandleMicron fl u chip
  | .intel20nm => readretryHandleIntel fl u chip
  | .none => pure 0
  | .sandisk24nm => pure 0

/-- `readretry_set_def_val_hynix`. -/
def readretrySetDefValHynix (chip : ℕ) : Act WireSt ℤ := do
  clearLp
  let ret ← setRegValueHynix fl u chip (regs u.regAddrLp 0 u.regCntLp)
  if fl.newType ≠ .hynix1ynm8gb then
    setRegValueHynix fl u chip (regs u.slcRegAddr 0 u.slcRegCnt)
  else
    pure ret

/-- The functions `readretry_exit_*`: the counters are cleared once the chip is ready. -/
def exitWhenReady (chip : ℕ) (rest : Act WireSt ℤ) : Act WireSt ℤ := do
  if (← queneRb u chip) ≠ 0 then
    pure (-nandFailed)
  else
    clearLp
    rest

/-- The value of a call that may fail, as its caller returns it. -/
def orFailed (x : Act WireSt ℤ) : Act WireSt ℤ := do
  if (← x) ≠ 0 then pure (-nandFailed) else pure 0

/-- `readretry_exit_toshiba`. -/
def readretryExitToshiba (chip : ℕ) : Act WireSt ℤ := exitWhenReady u chip do
  when (fl.newType ≠ .toshibaA19nm) (each toshibaReg (regs u.regAddrLp 0 u.regCntLp))
  orFailed (nandReset u chip)

/-- `readretry_exit_samsung`. -/
def readretryExitSamsung (chip : ℕ) : Act WireSt ℤ := do
  if fl.newType ≠ .sumsung2xnm then
    pure 0
  else
    exitWhenReady u chip
      (orFailed (setRegValueSamsung fl u chip (regs u.regAddrLp 0 u.regCntLp)))

/-- `readretry_exit_micron`. -/
def readretryExitMicron (chip : ℕ) : Act WireSt ℤ := do
  if fl.newType ≠ .micron20nm then
    pure 0
  else
    exitWhenReady u chip (orFailed (setRegValueMicron fl u chip (regs u.regAddrLp 0 u.regCntLp)))

/-- `readretry_exit_intel`. -/
def readretryExitIntel (chip : ℕ) : Act WireSt ℤ := do
  if fl.newType ≠ .intel20nm then
    pure 0
  else
    exitWhenReady u chip do
      if (← setRegValueMicron fl u chip (regs u.regAddrLp 0 u.regCntLp)) ≠ 0 then
        pure (-nandFailed)
      else
        orFailed (setRegValueMicron fl u chip (regs u.regAddrLp 1 u.regCntLp))

/-- `readretry_exit_sandisk`. -/
def readretryExitSandisk (chip : ℕ) : Act WireSt ℤ := exitWhenReady u chip do
  modify fun s => { s with curCntUp := fun _ => 0 }
  cle 0xd6
  let _ ← readretryInitSandisk fl
  if (← queneRb u chip) ≠ 0 then pure (-nandFailed) else orFailed (nandReset u chip)

/-- `readretry_exit_a19_sandisk`. -/
def readretryExitA19Sandisk (chip : ℕ) : Act WireSt ℤ := exitWhenReady u chip do
  let _ ← setA19RegValueSandisk u chip (u.regAddrLp 0) u.regCntLp
  if (← queneRb u chip) ≠ 0 then pure (-nandFailed) else orFailed (nandReset u chip)

/-- `retry_info->exit`. -/
def readretryExit (chip : ℕ) : Act WireSt ℤ :=
  match fl.newType with
  | .hynix26nm4gb => readretrySetDefValHynix fl u chip
  | .hynix26nm8gb => readretrySetDefValHynix fl u chip
  | .hynix20nm4gb => readretrySetDefValHynix fl u chip
  | .hynix20nm8gb => readretrySetDefValHynix fl u chip
  | .hynix1ynm8gb => readretrySetDefValHynix fl u chip
  | .toshiba2xnm => readretryExitToshiba fl u chip
  | .toshibaA19nm => readretryExitToshiba fl u chip
  | .sumsung2xnm => readretryExitSamsung fl u chip
  | .sandisk19nm => readretryExitSandisk fl u chip
  | .sandiskA19nm => readretryExitA19Sandisk u chip
  | .sandiskA19nm4g => readretryExitA19Sandisk u chip
  | .micron20nm => readretryExitMicron fl u chip
  | .intel20nm => readretryExitIntel fl u chip
  | .none => pure 0
  | .sandisk24nm => pure 0

/-! ## Addresses -/

/-- `controller->page_addr`, folded behind the first internal die. -/
def fold (pageAddr : ℕ) : ℕ :=
  if u.internalPageNums ≤ pageAddr then
    (pageAddr - u.internalPageNums) ||| (u.internalPageNums * u.internalChipnr) % 2 ^ 32
  else
    pageAddr

/-- `plane0_page_addr` and `plane1_page_addr`. -/
def planeRow (pageAddr plane : ℕ) : ℕ := ChipId.planeAddr fl.ppbShift (fold u pageAddr) plane

/-- The branches of `read_page` for Micron and Intel. -/
def Setup.micron : Bool := u.mfrType == nandMfrMicron || u.mfrType == nandMfrIntel

end

/-! ## `read_page` -/

section Read

variable (fl : Flash) (u : Setup) (req : Bus.PageReq)

/-- No ECC engine is used. -/
def soft : Bool := req.para.option.eccSoft || u.bchNone

/-- `new_oob`. -/
def newOob : Bool := u.oobMod && req.withOob && !req.withData

/-- The commands of a read, up to the wait for the FIFO. -/
def sendCmd (chip : ℕ) : Act WireSt Unit := do
  if req.para.option.multiPlane then
    if u.micron then
      cle nandCmdRead0
      aleColumn
      aleRow (planeRow fl u req.para.pageAddr 0)
      cle 0x32
      -- a busy chip is only reported here
      let _ ← queneRb u chip
      cle nandCmdRead0
      aleColumn
      aleRow (planeRow fl u req.para.pageAddr 1)
      cle nandCmdReadstart
    else
      cle nandCmdTwoplanePreviosRead
      aleRow (planeRow fl u req.para.pageAddr 0)
      cle nandCmdTwoplanePreviosRead
      aleRow (planeRow fl u req.para.pageAddr 1)
      cle nandCmdReadstart
  else
    cle nandCmdRead0
    aleColumn
    aleRow (fold u req.para.pageAddr)
    cle nandCmdReadstart
  checkCmdfifoSize

/-- Send the read command to the chips in turn; `false` when one is busy. -/
def sendRead : List ℕ → Act WireSt Bool
  | [] => pure true
  | chip :: rest => do
    if (← queneRb u chip) ≠ 0 then
      pure false
    else
      when (¬req.para.option.multiPlane ∧ req.para.option.slc ∧ fl.newType = .sandisk19nm) do
        let _ ← slcEnter fl u
      sendCmd fl u req chip
      sendRead rest

/-- The verdict on the page at a row, and the retry: the handler is called while there are retries
left. `retryCnt` is `retry_cnt`. -/
def pageAttempt (chip row retryCnt : ℕ) : Act WireSt (AttemptEnd × ℕ) := do
  match ← look Surroundings.ecc with
  | .bug => hang
  | ecc =>
    if soft u req then
      pure (.corrected, retryCnt)
    else
      match ecc with
      | .blank => pure (.blank, retryCnt)
      | .fail =>
        if req.retries fl then
          if retryCnt < req.budget fl then
            let _ ← readretryHandle fl u (pageKind fl row) chip
            pure (.again, retryCnt + 1)
          else
            pure (.uncorrected, retryCnt + 1)
        else
          pure (.uncorrected, retryCnt)
      | _ => pure (.corrected, retryCnt)

/-- What follows a page that was not found blank. -/
def finishPage (r : AttemptEnd) (resets : Bool) (chip retryCnt : ℕ) : Act WireSt Unit := do
  when (r = .uncorrected ∧ resets ∧ fl.newType.isHynix) do
    let _ ← nandReset u chip
  when (retryCnt ≠ 0) do
    let _ ← readretryExit fl u chip

/-- The bytes that turn a chip of another maker to one of its planes. -/
def selectPlane (row : ℕ) : Act WireSt Unit := do
  cle nandCmdRead0
  aleColumn
  aleRow row
  cle nandCmdRndout
  aleColumn
  cle nandCmdRndoutstart

/-- The bytes that turn a chip to its second plane. -/
def selectPlane1 (row : ℕ) : Act WireSt Unit := do
  if u.micron then
    cle nandCmdPlane2ReadStart
    aleColumn
    aleRow row
    cle nandCmdRndoutstart
  else
    selectPlane row

/-- The page of a round: read it, and send the command again when it is to be retried. -/
def pagePart (chip row : ℕ) (resets : Bool) (retryCnt : ℕ) : Act WireSt (AttemptEnd × ℕ) := do
  let (r, retryCnt) ← pageAttempt fl u req chip row retryCnt
  match r with
  | .again =>
    sendCmd fl u req chip
    pure (.again, retryCnt)
  | .blank => pure (.blank, retryCnt)
  | r =>
    finishPage fl u r resets chip retryCnt
    pure (r, retryCnt)

/-- The start of a round, at the label `RETRY_DMA`. -/
def startRound (chip : ℕ) : Act WireSt Bool := do
  if (← queneRb u chip) ≠ 0 then
    pure false
  else
    when (u.noneRb) (cle nandCmdRead0)
    pure true

/-- One round of a single plane. -/
def onePlaneRound (plane0Flag : Bool) (chip retryCnt : ℕ) : Act WireSt (ℕ ⊕ Bus.TurnEnd) := do
  if ¬(← startRound u chip) then
    pure (Sum.inr .busy)
  else
    let (r, retryCnt) ← pagePart fl u req chip (fold u req.para.pageAddr) true retryCnt
    match r with
    | .again => pure (Sum.inl retryCnt)
    | _ =>
      checkCmdfifoSize
      pure (Sum.inr (.next plane0Flag))

/-- The first plane of a round; `inl` sends the command again. -/
def plane0Part (chip : ℕ) (v : Bool × ℕ) : Act WireSt ((Bool × ℕ) ⊕ (Bool × ℕ)) := do
  if v.1 then
    pure (Sum.inr v)
  else
    let row := planeRow fl u req.para.pageAddr 0
    when (¬u.micron) (selectPlane row)
    let (r, retryCnt) ← pagePart fl u req chip row false v.2
    match r with
    | .again => pure (Sum.inl (v.1, retryCnt))
    | .blank => pure (Sum.inr (v.1, retryCnt))
    | _ => pure (Sum.inr (if soft u req then v else (true, 0)))

/-- The second plane of a round. -/
def plane1Part (chip : ℕ) (v : Bool × ℕ) : Act WireSt ((Bool × ℕ) ⊕ Bus.TurnEnd) := do
  let row := planeRow fl u req.para.pageAddr 1
  selectPlane1 u row
  let (r, retryCnt) ← pagePart fl u req chip row true v.2
  match r with
  | .again => pure (Sum.inl (v.1, retryCnt))
  | .blank =>
    checkCmdfifoSize
    pure (Sum.inr (.next v.1))
  | _ =>
    checkCmdfifoSize
    pure (Sum.inr (.next (if u.micron && soft u req then v.1 else false)))

/-- One round over both planes. -/
def twoPlaneRound (chip : ℕ) (v : Bool × ℕ) : Act WireSt ((Bool × ℕ) ⊕ Bus.TurnEnd) := do
  if ¬(← startRound u chip) then
    pure (Sum.inr .busy)
  else
    match ← plane0Part fl u req chip v with
    | Sum.inl v => pure (Sum.inl v)
    | Sum.inr v =>
      if u.micron ∧ newOob u req then pure (Sum.inr .leave) else plane1Part fl u req chip v

/-- The turn of one chip, with the bound on the rounds of the page transfers. -/
def readChip (plane0Flag : Bool) (chip : ℕ) : Act WireSt Bus.TurnEnd :=
  if req.para.option.multiPlane then
    loopUntil (twoPlaneRound fl u req chip) (2 ^ 8) (plane0Flag, 0)
  else
    loopUntil (onePlaneRound fl u req plane0Flag chip) (2 ^ 8) 0

/-- The turns of the chips, with the value `read_page` returns. -/
def readChips : Bool → List ℕ → Act WireSt ℤ
  | _, [] => pure 0
  | plane0Flag, chip :: rest => do
    match ← readChip fl u req plane0Flag chip with
    | .busy => pure (-Bus.nandBusyFailure)
    | .leave => pure 0
    | .next flag => readChips flag rest

/-- `read_page`. -/
def readPage : Act WireSt ℤ := do
  if ¬req.withData ∧ ¬req.withOob then
    pure (-nandArgumentFailure)
  else if ← sendRead fl u req (opChips fl req.para) then
    readChips fl u req false (opChips fl req.para)
  else
    pure (-Bus.nandBusyFailure)

end Read

/-! ## `write_page` and `erase_block` -/

/-- Start a command on the chips in turn, up to the first that fails. -/
def startAll (start : ℕ → Act WireSt (Option ℤ)) : List ℕ → Act WireSt (Option ℤ)
  | [] => pure none
  | chip :: rest => do
    match ← start chip with
    | some code => pure (some code)
    | none => startAll start rest

/-- Read the status of a chip, with so many more tries; `false` is `NAND_STATUS_FAILED`. -/
def statusTry : ℕ → Act WireSt Bool
  | 0 => do
    let status ← readbyte
    pure (status != Bus.nandStatusFailed)
  | n + 1 => do
    let status ← readbyte
    if status = Bus.nandStatusFailed then pure false
    else if status ≠ Bus.nandStatusRight then statusTry n
    else pure true

/-- The second loop of `write_page` and `erase_block`. -/
def checkStatus (u : Setup) (after : Act WireSt Unit) : List ℕ → Act WireSt ℤ
  | [] => pure 0
  | chip :: rest => do
    if (← queneRb u chip) ≠ 0 then
      pure (-Bus.nandBusyFailure)
    else
      cle nandCmdStatus
      if ← statusTry Bus.nandStatusMaxTry then
        after
        checkStatus u after rest
      else
        pure (-nandWriteFailed)

section Write

variable (fl : Flash) (u : Setup) (req : Bus.PageReq)

/-- The byte that opens the second of two planes. -/
def twoplaneWrite2 : ℕ :=
  if u.mfrType = nandMfrHynix ∨ u.mfrType = nandMfrSamsung then nandCmdTwoplaneWrite2
  else nandCmdTwoplaneWrite2Micro

/-- The first loop of `write_page` on a chip: fill its page register, or those of its two planes,
and start the program. -/
def programChip (chip : ℕ) : Act WireSt (Option ℤ) := do
  if (← queneRb u chip) ≠ 0 then
    pure (some (-Bus.nandBusyFailure))
  else if req.para.option.multiPlane then
    cle nandCmdSeqin
    aleColumn
    aleRow (planeRow fl u req.para.pageAddr 0)
    if ¬(← dmaWrite) then
      pure (some (-Bus.nandDmaFailure))
    else
      cle nandCmdDummyProgram
      if (← queneRb u chip) ≠ 0 then
        pure (some (-Bus.nandBusyFailure))
      else
        cle (twoplaneWrite2 u)
        aleColumn
        aleRow (planeRow fl u req.para.pageAddr 1)
        if ¬(← dmaWrite) then
          pure (some (-Bus.nandDmaFailure))
        else
          cle nandCmdPageprog
          checkCmdfifoSize
          pure none
  else
    when (req.slcMode fl) do
      let _ ← slcEnter fl u
    -- a busy chip is only reported here
    let _ ← queneRb u chip
    cle nandCmdSeqin
    aleColumn
    aleRow (fold u req.para.pageAddr)
    if ¬(← dmaWrite) then
      pure (some (-Bus.nandDmaFailure))
    else
      cle nandCmdPageprog
      checkCmdfifoSize
      pure none

/-- `write_page` behind the guard. -/
def programPage : Act WireSt ℤ := do
  if ¬req.withData then
    pure (-nandArgumentFailure)
  else
    match ← startAll (programChip fl u req) (opChips fl req.para) with
    | some code => pure code
    | none =>
      checkStatus u (when (req.hynixSlc fl) do let _ ← slcExit fl u) (opChips fl req.para)

/-- `write_page`. The guard is looked at once, before the loops over the chips. -/
def writePage : Act WireSt ℤ := do
  if ← look Surroundings.readonly then pure (-eROFS) else programPage fl u req

/-- What a Micron chip gets behind the first of two blocks. -/
def endFirstBlock (chip : ℕ) : Act WireSt ℤ := do
  if u.mfrType = nandMfrMicron then
    cle nandCmdErase1End
    queneRb u chip
  else
    pure 0

/-- The first loop of `erase_block` on a chip. -/
def eraseChip (chip : ℕ) : Act WireSt (Option ℤ) := do
  if (← queneRb u chip) ≠ 0 then
    pure (some (-Bus.nandBusyFailure))
  else if req.para.option.multiPlane then
    cle nandCmdErase1
    aleRow (planeRow fl u req.para.pageAddr 0)
    if (← endFirstBlock u chip) ≠ 0 then
      pure (some (-Bus.nandBusyFailure))
    else
      cle nandCmdErase1
      aleRow (planeRow fl u req.para.pageAddr 1)
      cle nandCmdErase2
      checkCmdfifoSize
      pure none
  else
    when (req.para.option.slc ∧ fl.newType = .sandisk19nm) do
      let _ ← slcEnter fl u
    cle nandCmdErase1
    aleRow (fold u req.para.pageAddr)
    cle nandCmdErase2
    checkCmdfifoSize
    pure none

/-- `erase_block` behind the guard. -/
def eraseRow : Act WireSt ℤ := do
  match ← startAll (eraseChip fl u req) (opChips fl req.para) with
  | some code => pure code
  | none => checkStatus u (pure ()) (opChips fl req.para)

/-- `erase_block`. The guard is looked at once, before the loops over the chips. -/
def eraseBlock : Act WireSt ℤ := do
  if ← look Surroundings.readonly then pure (-eROFS) else eraseRow fl u req

end Write

/-! ## Calls -/

/-- The functions above that other parts of the driver call. -/
inductive BusCall
  | readPage (req : Bus.PageReq)
  | writePage (req : Bus.PageReq)
  | eraseBlock (req : Bus.PageReq)
  | nandReset (chip : ℕ)
  | readId (chip idAddr : ℕ) (buf : Bool)
  | checkWp
  | getOnfiFeatures (addr : ℕ)
  | setOnfiFeatures (addr : ℕ)
  | enslcInitHynix
  | readretryInitSandisk

/-- A call; what it returns is left to the caller. -/
def BusCall.act (fl : Flash) (u : Setup) : BusCall → Act WireSt ℤ
  | .readPage req => Wire.readPage fl u req
  | .writePage req => Wire.writePage fl u req
  | .eraseBlock req => Wire.eraseBlock fl u req
  | .nandReset chip => Wire.nandReset u chip
  | .readId chip idAddr buf => Wire.readId u chip idAddr buf
  | .checkWp => Wire.checkWp fl u
  | .getOnfiFeatures addr => Wire.getOnfiFeatures fl addr
  | .setOnfiFeatures addr => Wire.setOnfiFeatures fl addr
  | .enslcInitHynix => Wire.enslcInitHynix fl u
  | .readretryInitSandisk => Wire.readretryInitSandisk fl

/-- Calls one after the other. -/
def runCalls (fl : Flash) (u : Setup) : List BusCall → Act WireSt Unit
  | [] => pure ()
  | c :: cs => do
    let _ ← c.act fl u
    runCalls fl u cs

end Amlnf.Wire
