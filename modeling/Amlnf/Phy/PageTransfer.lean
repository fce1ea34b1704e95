import Amlnf.Phy.HwController
import Amlnf.Phy.NewNand

set_option relaxedAutoImplicit false
set_option autoImplicit false

/-!
# Page operations on the bus

`read_page`, `write_page` and `erase_block` of `chip_operation.c` step by step: the waits, the
transfers, the verdict on each page, the retries and the status bytes, over all chips and planes
of an operation.

## Main definitions

* `Bus.pageAttempt`, `Bus.finishPage`, `Bus.deliver` — one transfer of a page, what follows a
  page that was not found blank, and the copy into the caller's buffer; `Bus.pagePart` puts them
  together.
* `Bus.onePlaneRound`, `Bus.twoPlaneRound`, `Bus.readChips`, `Bus.readPage` — the loops.
* `Bus.statusTry`, `Bus.checkStatus` — the status bytes of one chip and of all chips.
* `Bus.writePage`, `Bus.eraseBlock`.

## Design

The chip operations of the layers above know only how an operation ended, and the read retry
knows which registers were programmed; this is what happens on the bus. `plane0_retry_flag` and
`retry_cnt` are the loop variables of the turn of a chip, and the former outlives the turn.
`nand_status` is set to `NAND_STATUS_NORMAL` at probing and never changed.
-/

namespace Amlnf.Bus

open Act

/-! ## One page -/

section Page

variable (fl : Flash) (ctl : Controller) (req : PageReq)

/-- `slc_mode` is set. -/
def PageReq.slcMode : Bool := req.para.option.slc && fl.newType.slc

/-- `retry_info->flag && (slc_mode == 0)`: a page that was given up may be read again. -/
def PageReq.retries : Bool := (amlnandSetReadretrySlcPara fl.newType).flag && !req.slcMode fl

/-- How many retries a page gets. -/
def PageReq.budget : ℕ := retryBudget fl.newType (pageKind fl req.para.pageAddr)

/-- Is a corrected page counted in `bit_flip`? -/
def PageReq.flips (retryCnt eccCntCur : ℕ) : Bool :=
  if retryCnt ≠ 0 then req.budget fl < retryCnt + 2
  else ctl.eccCntLimit < eccCntCur && fl.newType == .none

/-- One transfer of a page and the verdict on it. The new value of `retry_cnt` is returned. -/
def pageAttempt (chip plane retryCnt : ℕ) : Act BusSt (AttemptEnd × Fetch × ℕ) := do
  let f ← dmaRead (req.dmaSize ctl) chip plane
  if req.soft ctl then
    pure (.corrected, f, retryCnt)
  else
    onBench fun b => b.putUser (ctl.getUserByte b.userBuf (req.userByteNum ctl))
    match hweccCorrect ctl (req.pageSize ctl) f.page with
    | .argument => hang
    | .corrected eccCntCur =>
      when (req.flips fl ctl retryCnt eccCntCur) do
        modify fun s => { s with bitFlip := s.bitFlip + 1 }
      pure (.corrected, f, retryCnt)
    | .failure zeroCnt =>
      if zeroCnt < ctl.eccMax then
        pure (.blank, f, retryCnt)
      else if req.retries fl then
        if retryCnt < req.budget fl then
          noteCall (.handle chip)
          pure (.again, f, retryCnt + 1)
        else
          onBench Bench.err
          pure (.uncorrected, f, retryCnt + 1)
      else
        onBench Bench.err
        pure (.uncorrected, f, retryCnt)

/-- What follows a page that was not found blank: reset a Hynix chip that gave up, then leave
the retry mode if there was a retry. -/
def finishPage (r : AttemptEnd) (resets : Bool) (chip retryCnt : ℕ) : Act BusSt Unit := do
  when (r = .uncorrected ∧ resets ∧ fl.newType.isHynix) do
    noteCall (.reset chip)
  when (retryCnt ≠ 0) do
    noteCall (.exit chip)

/-- Copy a page into the caller's buffer, as `0xff` when `all_ff_flag` is set, and move on; the
user bytes have been collected. -/
def deliver (f : Fetch) (allFf : Bool) : Act BusSt Unit := do
  when (req.withData) do
    onBench fun b => b.deliver (req.pageSize ctl) f allFf
  when (req.withOob) do
    onBench fun b => b.passUser (req.userByteNum ctl) allFf

/-- Send the read command. Between the planes a Micron chip is waited for in vain. -/
def sendCmd (chip : ℕ) : Act BusSt Unit := do
  when (req.para.option.multiPlane ∧ ctl.micron) do
    let _ ← queneRb chip
  checkCmdfifoSize

/-- A page of a round, whichever its plane: read it; send the command again when it is to be
retried, else copy it to the caller. A page found blank leaves the retry mode as it is. -/
def pagePart (chip plane : ℕ) (resets : Bool) (retryCnt : ℕ) : Act BusSt (AttemptEnd × ℕ) := do
  let (r, f, retryCnt) ← pageAttempt fl ctl req chip plane retryCnt
  match r with
  | .again =>
    sendCmd ctl req chip
    pure (.again, retryCnt)
  | .blank =>
    deliver ctl req f true
    pure (.blank, retryCnt)
  | r =>
    finishPage fl r resets chip retryCnt
    deliver ctl req f false
    pure (r, retryCnt)

end Page

/-! ## `read_page` -/

/-- How the turn of a chip ends: the chip was busy, the read is complete, or the next chip has
its turn with `plane0_retry_flag`. -/
inductive TurnEnd
  | busy
  | leave
  | next (plane0Flag : Bool)
  deriving DecidableEq

section Read

variable (fl : Flash) (ctl : Controller) (req : PageReq)

/-- One round of a single plane. -/
def onePlaneRound (plane0Flag : Bool) (chip retryCnt : ℕ) : Act BusSt (ℕ ⊕ TurnEnd) := do
  if ¬(← queneRb chip) then
    pure (Sum.inr .busy)
  else
    let (r, retryCnt) ← pagePart fl ctl req chip 0 true retryCnt
    match r with
    | .again => pure (Sum.inl retryCnt)
    | _ =>
      checkCmdfifoSize
      pure (Sum.inr (.next plane0Flag))

/-- The first plane of a round; `inl` sends the command again. It is skipped once it was read,
and a page found blank does not count as read. -/
def plane0Part (chip : ℕ) (v : Bool × ℕ) : Act BusSt ((Bool × ℕ) ⊕ (Bool × ℕ)) := do
  if v.1 then
    pure (Sum.inr v)
  else
    let (r, retryCnt) ← pagePart fl ctl req chip 0 false v.2
    match r with
    | .again => pure (Sum.inl (v.1, retryCnt))
    | .blank => pure (Sum.inr (v.1, retryCnt))
    | _ => pure (Sum.inr (if req.soft ctl then v else (true, 0)))

/-- The second plane of a round. -/
def plane1Part (chip : ℕ) (v : Bool × ℕ) : Act BusSt ((Bool × ℕ) ⊕ TurnEnd) := do
  let (r, retryCnt) ← pagePart fl ctl req chip 1 true v.2
  match r with
  | .again => pure (Sum.inl (v.1, retryCnt))
  | .blank =>
    checkCmdfifoSize
    pure (Sum.inr (.next v.1))
  | _ =>
    checkCmdfifoSize
    -- the Micron branch clears the flag only when the ECC engine is used
    pure (Sum.inr (.next (if ctl.micron && req.soft ctl then v.1 else false)))

/-- One round over both planes. -/
def twoPlaneRound (chip : ℕ) (v : Bool × ℕ) : Act BusSt ((Bool × ℕ) ⊕ TurnEnd) := do
  if ¬(← queneRb chip) then
    pure (Sum.inr .busy)
  else
    match ← plane0Part fl ctl req chip v with
    | Sum.inl v => pure (Sum.inl v)
    | Sum.inr v =>
      if ctl.micron ∧ req.newOob ctl then pure (Sum.inr .leave) else plane1Part fl ctl req chip v

/-- The turn of one chip. `retry_cnt` grows from round to round and is set to zero at most
once, so 256 rounds are more than enough. -/
def readChip (plane0Flag : Bool) (chip : ℕ) : Act BusSt TurnEnd :=
  if req.para.option.multiPlane then
    loopUntil (twoPlaneRound fl ctl req chip) (2 ^ 8) (plane0Flag, 0)
  else
    loopUntil (onePlaneRound fl ctl req plane0Flag chip) (2 ^ 8) 0

/-- The turns of the chips, with the value `read_page` returns. -/
def readChips : Bool → List ℕ → Act BusSt ℤ
  | _, [] => pure 0
  | plane0Flag, chip :: rest => do
    match ← readChip fl ctl req plane0Flag chip with
    | .busy => pure (-nandBusyFailure)
    | .leave => pure 0
    | .next flag => readChips flag rest

/-- Send the read command to the chips; `false` when one is busy. A SanDisk chip is put into
the SLC mode before. -/
def sendRead : List ℕ → Act BusSt Bool
  | [] => pure true
  | chip :: rest => do
    if ¬(← queneRb chip) then
      pure false
    else
      when (¬req.para.option.multiPlane ∧ req.para.option.slc ∧ fl.newType = .sandisk19nm) do
        noteCall .slcEnter
      sendCmd ctl req chip
      sendRead rest

/-- `BYTES_OF_USER_PER_PAGE`. -/
def bytesOfUserPerPage : ℕ := 16

/-- The end of `read_page`: the first user bytes collected for the caller, or `0x22` when a page
could not be corrected. -/
def BusSt.returnOob (s : BusSt) : BusSt :=
  { s with callerOob := fun j =>
      if j < bytesOfUserPerPage then if s.eccErr ≠ 0 then 0x22 else s.oobBuf j
      else s.callerOob j }

/-- `read_page`. -/
def readPage : Act BusSt ℤ := do
  if ¬req.withData ∧ ¬req.withOob then
    pure (-nandArgumentFailure)
  else if ← sendRead fl ctl req (opChips fl req.para) then
    let ret ← readChips fl ctl req false (opChips fl req.para)
    when (ret = 0 ∧ req.withOob) (modify BusSt.returnOob)
    pure ret
  else
    pure (-nandBusyFailure)

end Read

/-! ## Status bytes -/

/-- `NAND_STATUS_FAILED`. -/
def nandStatusFailed : UInt8 := 0xe1

/-- `NAND_STATUS_RIGHT`. -/
def nandStatusRight : UInt8 := 0xe0

/-- `NAND_STATUS_MAX_TRY`. -/
def nandStatusMaxTry : ℕ := 6

/-- Read the status of a chip, with so many more tries when it is neither right nor failed; the
last byte counts as right unless it is `NAND_STATUS_FAILED`. -/
def statusTry (chip : ℕ) : ℕ → Act BusSt Bool
  | 0 => do
    let status ← readbyte chip
    pure (status != nandStatusFailed)
  | n + 1 => do
    let status ← readbyte chip
    if status = nandStatusFailed then pure false
    else if status ≠ nandStatusRight then statusTry chip n
    else pure true

/-- The second loop of `write_page` and `erase_block`: wait for each chip, check its status,
and then do what `after` says. -/
def checkStatus (after : Act BusSt Unit) : List ℕ → Act BusSt ℤ
  | [] => pure 0
  | chip :: rest => do
    if ¬(← queneRb chip) then
      pure (-nandBusyFailure)
    else if ← statusTry chip nandStatusMaxTry then
      after
      checkStatus after rest
    else
      pure (-nandWriteFailed)

/-! ## `write_page` -/

section Write

variable (fl : Flash) (ctl : Controller) (req : PageReq)

/-- `slc_mode == 2`. -/
def PageReq.hynixSlc : Bool := req.para.option.slc && fl.newType.isHynix

/-- Fill the page register of a chip and start the program command. `none` when it was started,
else the code `write_page` returns. -/
def programChip (chip : ℕ) : Act BusSt (Option ℤ) := do
  if ¬(← queneRb chip) then
    pure (some (-nandBusyFailure))
  else if req.para.option.multiPlane then
    if ¬(← dmaWrite chip) then
      pure (some (-nandDmaFailure))
    else if ¬(← queneRb chip) then
      pure (some (-nandBusyFailure))
    else if ¬(← dmaWrite chip) then
      pure (some (-nandDmaFailure))
    else
      noteCall (.program chip)
      checkCmdfifoSize
      pure none
  else
    when (req.slcMode fl) do
      noteCall .slcEnter
    -- a busy chip is only reported here
    let _ ← queneRb chip
    if ¬(← dmaWrite chip) then
      pure (some (-nandDmaFailure))
    else
      noteCall (.program chip)
      checkCmdfifoSize
      pure none

/-- Start a command on the chips in turn, up to the first that fails. -/
def startAll (start : ℕ → Act BusSt (Option ℤ)) : List ℕ → Act BusSt (Option ℤ)
  | [] => pure none
  | chip :: rest => do
    match ← start chip with
    | some code => pure (some code)
    | none => startAll start rest

/-- `write_page`. -/
def writePage (readonly : Bool) : Act BusSt ℤ := do
  if readonly then
    pure (-eROFS)
  else if ¬req.withData then
    pure (-nandArgumentFailure)
  else
    match ← startAll (programChip fl req) (opChips fl req.para) with
    | some code => pure code
    | none =>
      checkStatus (when (req.hynixSlc fl) (noteCall .slcExit)) (opChips fl req.para)

/-! ## `erase_block` -/

/-- Start the erase command on a chip. -/
def eraseChip (chip : ℕ) : Act BusSt (Option ℤ) := do
  if ¬(← queneRb chip) then
    pure (some (-nandBusyFailure))
  else if req.para.option.multiPlane then
    if ctl.mfr = .micron then
      if ¬(← queneRb chip) then
        pure (some (-nandBusyFailure))
      else
        noteCall (.erase chip)
        checkCmdfifoSize
        pure none
    else
      noteCall (.erase chip)
      checkCmdfifoSize
      pure none
  else
    when (req.para.option.slc ∧ fl.newType = .sandisk19nm) do
      noteCall .slcEnter
    noteCall (.erase chip)
    checkCmdfifoSize
    pure none

/-- `erase_block`. -/
def eraseBlock (readonly : Bool) : Act BusSt ℤ := do
  if readonly then
    pure (-eROFS)
  else
    match ← startAll (eraseChip fl ctl req) (opChips fl req.para) with
    | some code => pure code
    | none => checkStatus (pure ()) (opChips fl req.para)

end Write

end Amlnf.Bus
