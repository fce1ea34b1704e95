import Mathlib.Logic.Function.Basic
import Amlnf.Phy.ChipOperation

set_option relaxedAutoImplicit false
set_option autoImplicit false

/-!
# The hardware controller

The primitives of `hw_controller.c` that the chip operations are made of: waiting for a chip,
moving a page over the bus, reading a status byte, and the verdict of the ECC engine on a page.

## Main definitions

* `Bus.Hw`, `Bus.Port` — what the hardware will answer, and the places it is asked at.
* `Bus.Controller`, `Bus.PageReq` — the settings of the controller and one call of an operation.
* `Bus.Bench`, `Bus.BusSt` — the buffers of an operation and what it did so far, and beside them
  the answers still to come; `Bus.startSt` is the state in which an operation is called.
* `Bus.hweccCorrect` — the verdict over the records of the ECC steps.
* `Bus.Controller.getUserByte` — the user bytes in the info records.
* `Bus.queneRb`, `Bus.dmaRead`, `Bus.dmaWrite`, `Bus.readbyte`, `Bus.checkCmdfifoSize`.

## Design

Each place at which the hardware is asked has its own sequence of answers, so that quantifying
over `Hw` quantifies over every behaviour of the chips, chip by chip. The register writes of a
retry or of the SLC mode are events here; their own waits decide nothing in the operations, and
what they program is the subject of the read retry. An error of the DMA engine in a read, or a
command FIFO that does not drain, stops the kernel.
-/

namespace Amlnf.Bus

open Act

/-! ## Answers of the hardware -/

/-- One page as the DMA engine delivers it: the words of `user_buf` and the data. -/
structure Transfer where
  words : ℕ → ℕ
  data : Buf

/-- The answers of the hardware, in the order in which each place is asked. -/
structure Hw where
  /-- Does a chip get ready in time? -/
  rb : ℕ → ℕ → Bool
  /-- Does a transfer from or to a chip end in time? -/
  dma : ℕ → ℕ → Bool
  /-- Does the command FIFO drain? -/
  fifo : ℕ → Bool
  status : ℕ → ℕ → UInt8
  /-- The page of a chip and a plane, transfer after transfer. -/
  page : ℕ → ℕ → ℕ → Transfer

/-- A page with the same record for every step, and one byte throughout. -/
def Transfer.uniform (record : ℕ) (byte : UInt8) : Transfer := ⟨fun _ => record, fun _ => byte⟩

/-- Hardware that is always ready, and always delivers one page and one status byte. -/
def Hw.steady (page : Transfer) (status : UInt8) : Hw :=
  ⟨fun _ _ => true, fun _ _ => true, fun _ => true, fun _ _ => status, fun _ _ _ => page⟩

/-- The places at which the hardware is asked. -/
inductive Port
  | rb (chip : ℕ)
  | dma (chip : ℕ)
  | fifo
  | status (chip : ℕ)
  | page (chip plane : ℕ)
  deriving DecidableEq

/-! ## Settings -/

/-- `controller->mfr_type`, as far as a branch looks at it. -/
inductive Mfr
  | micron
  | intel
  | other
  deriving DecidableEq, Repr

/-- The settings of the controller the operations use. -/
structure Controller where
  mfr : Mfr
  eccUnit : ℕ
  eccSteps : ℕ
  eccMax : ℕ
  eccCntLimit : ℕ
  /-- `bch_mode == NAND_ECC_NONE`. -/
  bchNone : Bool
  oobMod : Bool
  /-- The user bytes in the record of an ECC step, one or two. -/
  userMode : ℕ
  /-- `flash->oobsize`. -/
  oobSize : ℕ
  /-- `flash->pagesize + flash->oobsize`. -/
  rawSize : ℕ
  eccUnit_pos : 0 < eccUnit
  eccSteps_pos : 0 < eccSteps
  rawSize_pos : 0 < rawSize

/-- The branches for Micron and Intel. -/
def Controller.micron (ctl : Controller) : Bool := ctl.mfr != .other

/-- The controller for pages of 8 KiB, in eight steps of 1 KiB with 40 correctable bits each. -/
def ctl8k : Controller where
  mfr := .other
  eccUnit := 1024
  eccSteps := 8
  eccMax := 40
  eccCntLimit := 36
  bchNone := false
  oobMod := false
  userMode := 2
  oobSize := 640
  rawSize := 8832
  eccUnit_pos := by decide
  eccSteps_pos := by decide
  rawSize_pos := by decide

/-- One call of an operation on a page: its parameters and which buffers it was given. -/
structure PageReq where
  para : ChipOpsPara
  withData : Bool
  withOob : Bool

namespace PageReq

variable (req : PageReq) (ctl : Controller)

/-- `new_oob`: only the spare bytes are read, in the layout that keeps them together. -/
def newOob : Bool := ctl.oobMod && req.withOob && !req.withData

/-- The page is moved without the ECC engine. -/
def soft : Bool := req.para.option.eccSoft || ctl.bchNone

/-- `page_size`. -/
def pageSize : ℕ :=
  if req.newOob ctl then ctl.eccUnit
  else if req.soft ctl then ctl.rawSize
  else ctl.eccSteps * ctl.eccUnit

/-- How many bytes a transfer moves: without the ECC engine `controller_dma_read` cuts a long
transfer off. -/
def dmaSize : ℕ :=
  if req.soft ctl then
    if 0x3fff < req.pageSize ctl then 0x3ffe else req.pageSize ctl
  else ctl.eccSteps * ctl.eccUnit

/-- `plane_num`. -/
def planeNum : ℕ := if req.para.option.multiPlane then 2 else 1

/-- `user_byte_num` of `read_page`, an `unsigned char`. -/
def userByteNum : ℕ := (if req.soft ctl then ctl.oobSize else ctl.eccSteps * ctl.userMode) % 2 ^ 8

lemma pageSize_pos : 0 < req.pageSize ctl := by
  have h := Nat.mul_pos ctl.eccSteps_pos ctl.eccUnit_pos
  unfold pageSize
  split
  · exact ctl.eccUnit_pos
  · split
    · exact ctl.rawSize_pos
    · exact h

end PageReq

/-! ## User bytes -/

/-- Byte `k` of a word. -/
def wordByte (w k : ℕ) : UInt8 := UInt8.ofNat (w >>> (8 * k))

/-- `controller_get_user_byte`: the user bytes in the words of `user_buf`. The layout that keeps
them together has them in front, the other one in the first word of each record of two words. A
record with two of them is only ever taken as a whole. -/
def Controller.getUserByte (ctl : Controller) (words : ℕ → ℕ) (byteNum : ℕ) : List UInt8 :=
  if ctl.oobMod then
    (List.range byteNum).map fun j => wordByte (words (j / 4)) (j % 4)
  else if ctl.userMode = 2 then
    (List.range (byteNum / 2)).flatMap fun t => [wordByte (words (2 * t)) 0, wordByte (words (2 * t)) 1]
  else
    (List.range byteNum).map fun t => wordByte (words (2 * t)) 0

/-! ## State -/

/-- A page that came over the bus. -/
structure Fetch where
  chip : ℕ
  plane : ℕ
  page : Transfer

/-- What the operations do to the chips beside moving pages. -/
inductive ChipCall
  /-- `retry_info->handle`. -/
  | handle (chip : ℕ)
  /-- `retry_info->exit`. -/
  | exit (chip : ℕ)
  /-- `nand_reset`. -/
  | reset (chip : ℕ)
  /-- `slc_info->enter`, on all chips. -/
  | slcEnter
  /-- `slc_info->exit`, on all chips. -/
  | slcExit
  /-- `NAND_CMD_PAGEPROG`. -/
  | program (chip : ℕ)
  /-- `NAND_CMD_ERASE2`. -/
  | erase (chip : ℕ)
  /-- A status byte was read. -/
  | status (chip : ℕ) (byte : UInt8)
  deriving DecidableEq

/-- A copy into the caller's buffer: the page, whether it was copied as `0xff`, and the place of
its first byte. -/
structure Delivery where
  fetch : Fetch
  allFf : Bool
  place : ℕ

/-- What an operation works on and leaves behind. The lists are newest first. -/
structure Bench where
  /-- `controller->data_buf`. -/
  dataBuf : Buf
  /-- The caller's buffer, and how far into it the pointer `buf` is. -/
  buf : Buf
  pos : ℕ := 0
  eccErr : ℕ := 0
  fetched : List Fetch := []
  delivered : List Delivery := []
  calls : List ChipCall := []
  /-- `controller->user_buf`, in words. -/
  userBuf : ℕ → ℕ := fun _ => 0
  /-- `controller->oob_buf`, and how far into it the pointer `tmp_buf` is. -/
  oobBuf : Buf := fun _ => 0
  oobPos : ℕ := 0

/-- A call on the chips. -/
def Bench.call (b : Bench) (c : ChipCall) : Bench := { b with calls := c :: b.calls }

/-- A page of which `len` bytes came over the bus. -/
def Bench.fetch (b : Bench) (len : ℕ) (f : Fetch) : Bench :=
  { b with
    dataBuf := fun j => if j < len then f.page.data j else b.dataBuf j
    userBuf := f.page.words
    fetched := f :: b.fetched }

/-- A page of `len` bytes copied to the caller. -/
def Bench.deliver (b : Bench) (len : ℕ) (f : Fetch) (allFf : Bool) : Bench :=
  { b with
    buf := fun j =>
      if b.pos ≤ j ∧ j < b.pos + len then
        if allFf then 0xff else b.dataBuf (j - b.pos)
      else b.buf j
    pos := b.pos + len
    delivered := ⟨f, allFf, b.pos⟩ :: b.delivered }

/-- User bytes stored where `tmp_buf` points. -/
def Bench.putUser (b : Bench) (bytes : List UInt8) : Bench :=
  { b with oobBuf := fun j =>
      if b.oobPos ≤ j ∧ j < b.oobPos + bytes.length then bytes.getD (j - b.oobPos) 0
      else b.oobBuf j }

/-- `tmp_buf` moved behind the `n` user bytes of a page, which become `0xff` when the page is
blank. -/
def Bench.passUser (b : Bench) (n : ℕ) (allFf : Bool) : Bench :=
  { b with
    oobBuf := fun j => if allFf ∧ b.oobPos ≤ j ∧ j < b.oobPos + n then 0xff else b.oobBuf j
    oobPos := b.oobPos + n }

/-- An uncorrectable page counted. -/
def Bench.err (b : Bench) : Bench := { b with eccErr := b.eccErr + 1 }

/-- The state of an operation: its bench, the answers of the hardware and how often each place
was asked. -/
structure BusSt extends Bench where
  hw : Hw
  used : Port → ℕ := fun _ => 0
  bitFlip : ℕ := 0
  /-- `ops_para->oob_buf`. -/
  callerOob : Buf := fun _ => 0

/-- The state in which an operation is called. -/
def startSt (hw : Hw) (dataBuf buf : Buf) : BusSt := { hw := hw, dataBuf := dataBuf, buf := buf }

/-- The state after a question at a port. -/
def BusSt.ask (s : BusSt) (p : Port) : BusSt :=
  { s with used := Function.update s.used p (s.used p + 1) }

@[simp] lemma BusSt.ask_used_self (s : BusSt) (p : Port) : (s.ask p).used p = s.used p + 1 :=
  Function.update_self _ _ _

lemma BusSt.ask_used_of_ne (s : BusSt) {p q : Port} (h : q ≠ p) : (s.ask p).used q = s.used q :=
  Function.update_of_ne h _ _

/-- Change the bench. -/
def onBench (g : Bench → Bench) : Act BusSt Unit := modify fun s => { s with toBench := g s.toBench }

/-- Note a call. -/
def noteCall (c : ChipCall) : Act BusSt Unit := onBench fun b => b.call c

/-! ## Primitives -/

/-- `NAND_BUSY_FAILURE`. -/
def nandBusyFailure : ℤ := 2

/-- `NAND_DMA_FAILURE`. -/
def nandDmaFailure : ℤ := 4

/-- `controller_quene_rb`: is the chip ready? -/
def queneRb (chip : ℕ) : Act BusSt Bool := fun s =>
  (some (s.hw.rb chip (s.used (.rb chip))), s.ask (.rb chip))

/-- `check_cmdfifo_size`, with the `BUG()` its callers put behind a failure. -/
def checkCmdfifoSize : Act BusSt Unit := fun s =>
  (if s.hw.fifo (s.used .fifo) then some () else none, s.ask .fifo)

/-- The status byte a chip answers next. -/
def BusSt.nextStatus (s : BusSt) (chip : ℕ) : UInt8 := s.hw.status chip (s.used (.status chip))

/-- The state after that byte was read. -/
def BusSt.readStatus (s : BusSt) (chip : ℕ) : BusSt :=
  { s.ask (.status chip) with toBench := s.toBench.call (.status chip (s.nextStatus chip)) }

/-- `readbyte`, after `NAND_CMD_STATUS`. -/
def readbyte (chip : ℕ) : Act BusSt UInt8 := fun s =>
  (some (s.nextStatus chip), s.readStatus chip)

/-- `controller_dma_write`: does the transfer end? -/
def dmaWrite (chip : ℕ) : Act BusSt Bool := fun s =>
  (some (s.hw.dma chip (s.used (.dma chip))), s.ask (.dma chip))

/-- `controller_dma_read` of `len` bytes, with the `BUG()` of its callers. -/
def dmaRead (len chip plane : ℕ) : Act BusSt Fetch := fun s =>
  if s.hw.dma chip (s.used (.dma chip)) then
    let f : Fetch := ⟨chip, plane, s.hw.page chip plane (s.used (.page chip plane))⟩
    (some f, { (s.ask (.dma chip)).ask (.page chip plane) with toBench := s.toBench.fetch len f })
  else
    (none, s.ask (.dma chip))

/-! ## The ECC engine -/

/-- `NAND_ECC_CNT`. -/
def nandEccCnt (w : ℕ) : ℕ := (w >>> 24) &&& 0x3f

/-- `NAND_ZERO_CNT`. -/
def nandZeroCnt (w : ℕ) : ℕ := (w >>> 16) &&& 0x3f

/-- The record of an ECC step: two words a step, behind four words of spare bytes in the layout
that keeps these together. -/
def Controller.record (ctl : Controller) (x : Transfer) (step : ℕ) : ℕ :=
  x.words (step * 2 + if ctl.oobMod then 4 else 0)

/-- How `hwecc_correct` ends: with `ecc_cnt_cur`, or with `zero_cnt`. -/
inductive EccEnd
  | argument
  | corrected (eccCntCur : ℕ)
  | failure (zeroCnt : ℕ)
  deriving DecidableEq

/-- The loop of `controller_hwecc_correct` over the steps from `step` on: it ends at the first
step the engine gave up. -/
def hweccLoop (ctl : Controller) (x : Transfer) : ℕ → ℕ → ℕ → EccEnd
  | 0, _, cur => .corrected cur
  | n + 1, step, cur =>
    let usrInfo := ctl.record x step
    if nandEccCnt usrInfo = 0x3f then .failure (nandZeroCnt usrInfo)
    else hweccLoop ctl x n (step + 1) (max cur (nandEccCnt usrInfo))

/-- `controller_hwecc_correct`. -/
def hweccCorrect (ctl : Controller) (size : ℕ) (x : Transfer) : EccEnd :=
  if size % ctl.eccUnit ≠ 0 then .argument
  else hweccLoop ctl x (size / ctl.eccUnit) 0 0

/-- A step was given up with few zero bits. -/
def Controller.StepBlank (ctl : Controller) (x : Transfer) (step : ℕ) : Prop :=
  nandEccCnt (ctl.record x step) = 0x3f ∧ nandZeroCnt (ctl.record x step) < ctl.eccMax

instance (ctl : Controller) (x : Transfer) (step : ℕ) : Decidable (ctl.StepBlank x step) :=
  inferInstanceAs (Decidable (_ ∧ _))

/-- What `read_page` makes of a page. -/
inductive Verdict
  | ok
  | blank
  | fail
  deriving DecidableEq, Repr

/-- The verdict on a page; without the ECC engine every page is taken as it is. -/
def PageReq.verdict (req : PageReq) (ctl : Controller) (x : Transfer) : Verdict :=
  if req.soft ctl then .ok
  else match hweccCorrect ctl (req.pageSize ctl) x with
    | .failure zeroCnt => if zeroCnt < ctl.eccMax then .blank else .fail
    | _ => .ok

end Amlnf.Bus
