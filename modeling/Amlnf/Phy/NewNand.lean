import Amlnf.Phy.ChipOperation

set_option relaxedAutoImplicit false
set_option autoImplicit false

/-!
# Read retry

`new_nand.c` and the retry loops of `read_page`. When the ECC engine gives up on a page, the
handler of the flash type programs the next row of a table of register offsets into the chip
and the page is read again, until the retries are used up.

## Main definitions

* `RetryInfo`, `amlnandSetReadretrySlcPara` — the retry parameters of a flash type.
* `readretryHandle`, `readretryExit` — the handlers of the vendors and their way back to the
  default registers.
* `readAttempt`, `readOnePlane`, `readTwoPlanes`, `readPageRetry` — one read of a page by the
  ECC engine, the loops over the retries and the chips.
* `Episode` — what happened since `retry_cnt` was last set to zero.

## Design

`readPage` of the chip operations knows only how a read ended; this is what happens underneath.
A row stands for its register values: it is programmed when they are sent. An error of the DMA
engine stops the kernel. `retry_cnt` is an `unsigned char` and stays below 51.
-/

namespace Amlnf

open Act

/-! ## Parameters -/

/-- `struct read_retry_info`, as far as the counting goes. -/
structure RetryInfo where
  flag : Bool := true
  retryCntLp : ℕ := 0
  retryCntUp : ℕ := 0

/-- `amlnand_set_readretry_slc_para`; a type it does not know has no retry. -/
def amlnandSetReadretrySlcPara : NewType → RetryInfo
  | .hynix26nm4gb => { retryCntLp := 6 }
  | .hynix26nm8gb => { retryCntLp := 6 }
  | .hynix20nm4gb => { retryCntLp := 7 }
  | .hynix20nm8gb => { retryCntLp := 7 }
  | .hynix1ynm8gb => { retryCntLp := 7 }
  | .toshiba2xnm => { retryCntLp := 6 }
  | .toshibaA19nm => { retryCntLp := 7 }
  | .sumsung2xnm => { retryCntLp := 15 }
  | .sandisk19nm => { retryCntLp := 16, retryCntUp := 20 }
  | .sandiskA19nm => { retryCntLp := 29 }
  | .sandiskA19nm4g => { retryCntLp := 30 }
  | .micron20nm => { retryCntLp := 7 }
  | .intel20nm => { retryCntLp := 7 }
  | .none => { flag := false }
  | .sandisk24nm => { flag := false }

/-- Lower and upper pages of a block. -/
inductive PageKind
  | lower
  | upper
  deriving DecidableEq, Repr

/-- The kind of a page: the even pages but the first, and the last page, are upper pages. -/
def pageKind (fl : Flash) (page : ℕ) : PageKind :=
  let tmpPage := page % fl.ppb
  if (tmpPage % 2 = 0 ∧ tmpPage ≠ 0) ∨ tmpPage = fl.ppb - 1 then .upper else .lower

/-! ## State -/

/-- What the ECC engine says of a page: corrected, blank (few zero bits), given up, or the DMA
failed. -/
inductive EccResult
  | ok
  | blank
  | fail
  | bug
  deriving DecidableEq, Repr

/-- What one step may observe of the hardware. -/
structure RetryOutcome where
  ecc : EccResult
  /-- Does `quene_rb` see the chip ready? -/
  rb : Bool

/-- The retries since `retry_cnt` was set to zero. -/
structure Episode where
  chip : ℕ
  kind : PageKind
  /-- Is the page read in SLC mode? -/
  slc : Bool
  /-- The counter of the handler for this chip at the start. -/
  cnt : ℕ
  /-- The rows programmed: chip, table and row. -/
  rows : List (ℕ × PageKind × ℕ) := []
  /-- Did a register write of a retry find the chip busy? -/
  timeout : Bool := false
  /-- Was an `ecc_err` counted? -/
  eccErr : Bool := false
  deriving DecidableEq, Repr

/-- The state the retry code works on. The counters outlive a read. -/
structure RetrySt where
  plan : ℕ → RetryOutcome
  tick : ℕ := 0
  curCntLp : ℕ → ℕ := fun _ => 0
  curCntUp : ℕ → ℕ := fun _ => 0
  /-- Newest first. -/
  episodes : List Episode := []

/-- Take the outcome of the next hardware step. -/
def retryOutcome : Act RetrySt RetryOutcome := fun s =>
  (some (s.plan s.tick), { s with tick := s.tick + 1 })

/-- `quene_rb`: is the chip ready? -/
def queneRb : Act RetrySt Bool := do
  let o ← retryOutcome
  pure o.rb

/-- Change the newest episode. -/
def noteEpisode (f : Episode → Episode) : Act RetrySt Unit := modify fun s =>
  { s with episodes := match s.episodes with
    | [] => []
    | e :: es => f e :: es }

/-! ## Handlers -/

/-- The functions `set_reg_value_*`: wait for the chip, send the values of a row, wait again. -/
def setRegValue (chip : ℕ) (table : PageKind) (row : ℕ) : Act RetrySt ℤ := do
  if ¬(← queneRb) then
    noteEpisode fun e => { e with timeout := true }
    pure (-nandFailed)
  else
    noteEpisode fun e => { e with rows := e.rows ++ [(chip, table, row)] }
    if ¬(← queneRb) then
      noteEpisode fun e => { e with timeout := true }
      pure (-nandFailed)
    else
      pure 0

/-- The functions `set_reg_value_*` with default values. -/
def setDefValue : Act RetrySt ℤ := do
  if ¬(← queneRb) then
    pure (-nandFailed)
  else if ¬(← queneRb) then
    pure (-nandFailed)
  else
    pure 0

/-- The next value of a counter that wraps after `cnt` rows. -/
def wrapCnt (cnt cur : ℕ) : ℕ := if cnt ≤ cur + 1 then 0 else cur + 1

/-- Set the counter of one chip. -/
def setCnt (f : ℕ → ℕ) (chip value : ℕ) : ℕ → ℕ := fun c => if c = chip then value else f c

/-- The row `readretry_handle_hynix` takes: past the table the rows are rotated by the number
of rounds made. -/
def hynixRow (cnt cur : ℕ) : ℕ := if cur < cnt then cur else (cur / cnt + cur % cnt) % cnt

/-- `readretry_handle_hynix`: the counter runs on in an `unsigned char`. -/
def readretryHandleHynix (info : RetryInfo) (chip : ℕ) : Act RetrySt ℤ := do
  let s ← get
  let _ ← setRegValue chip .lower (hynixRow info.retryCntLp (s.curCntLp chip))
  modify fun s => { s with curCntLp := setCnt s.curCntLp chip ((s.curCntLp chip + 1) % 2 ^ 8) }
  pure 0

/-- The handlers that step through a table with the counter of the lower pages. -/
def handleLp (info : RetryInfo) (setReg : ℕ → PageKind → ℕ → Act RetrySt ℤ) (chip : ℕ) :
    Act RetrySt ℤ := do
  let s ← get
  let cur := s.curCntLp chip
  let ret ← setReg chip .lower cur
  if ret ≠ 0 then
    pure (-nandFailed)
  else
    modify fun s => { s with curCntLp := setCnt s.curCntLp chip (wrapCnt info.retryCntLp cur) }
    pure 0

/-- `readretry_handle_toshiba`. -/
def readretryHandleToshiba (info : RetryInfo) : ℕ → Act RetrySt ℤ := handleLp info setRegValue

/-- `readretry_handle_samsung`. -/
def readretryHandleSamsung (info : RetryInfo) : ℕ → Act RetrySt ℤ := handleLp info setRegValue

/-- `readretry_handle_micron`. -/
def readretryHandleMicron (info : RetryInfo) : ℕ → Act RetrySt ℤ := handleLp info setRegValue

/-- `readretry_handle_intel`. The registers are written by `set_reg_value_micron`, which
returns at once for every type but `MICRON_20NM`. -/
def readretryHandleIntel (info : RetryInfo) : ℕ → Act RetrySt ℤ :=
  handleLp info fun _ _ _ => pure 0

/-- `readretry_handle_sandisk`: upper pages have a table and a counter of their own. -/
def readretryHandleSandisk (info : RetryInfo) (kind : PageKind) (chip : ℕ) : Act RetrySt ℤ :=
  match kind with
  | .lower => handleLp info setRegValue chip
  | .upper => do
    let s ← get
    let cur := s.curCntUp chip
    let ret ← setRegValue chip .upper cur
    if ret ≠ 0 then
      pure (-nandFailed)
    else
      modify fun s => { s with curCntUp := setCnt s.curCntUp chip (wrapCnt info.retryCntUp cur) }
      pure 0

/-- `readretry_handle_a19_sandisk`: both tables are stepped through with the counter of the
upper pages, which wraps after `retry_cnt_up` rows. -/
def readretryHandleA19Sandisk (info : RetryInfo) (kind : PageKind) (chip : ℕ) :
    Act RetrySt ℤ := do
  let s ← get
  let cur := s.curCntUp chip
  let _ ← setRegValue chip kind cur
  modify fun s => { s with curCntUp := setCnt s.curCntUp chip (wrapCnt info.retryCntUp cur) }
  pure 0

/-- `retry_info->handle` as `amlnand_set_readretry_slc_para` sets it. -/
def readretryHandle (n : NewType) (kind : PageKind) (chip : ℕ) : Act RetrySt ℤ :=
  let info := amlnandSetReadretrySlcPara n
  match n with
  | .hynix26nm4gb => readretryHandleHynix info chip
  | .hynix26nm8gb => readretryHandleHynix info chip
  | .hynix20nm4gb => readretryHandleHynix info chip
  | .hynix20nm8gb => readretryHandleHynix info chip
  | .hynix1ynm8gb => readretryHandleHynix info chip
  | .toshiba2xnm => readretryHandleToshiba info chip
  | .toshibaA19nm => readretryHandleToshiba info chip
  | .sumsung2xnm => readretryHandleSamsung info chip
  | .sandisk19nm => readretryHandleSandisk info kind chip
  | .sandiskA19nm => readretryHandleA19Sandisk info kind chip
  | .sandiskA19nm4g => readretryHandleA19Sandisk info kind chip
  | .micron20nm => readretryHandleMicron info chip
  | .intel20nm => readretryHandleIntel info chip
  | .none => pure 0
  | .sandisk24nm => pure 0

/-! ## Back to the default registers -/

/-- `nand_reset`. -/
def nandReset : Act RetrySt ℤ := do
  if ¬(← queneRb) then pure (-nandFailed) else pure 0

/-- Set the counters of the lower pages of all chips to zero. -/
def clearLp : Act RetrySt Unit := modify fun s => { s with curCntLp := fun _ => 0 }

/-- `readretry_set_def_val_hynix`. -/
def readretrySetDefValHynix (n : NewType) : Act RetrySt ℤ := do
  clearLp
  let ret ← setDefValue
  if n ≠ .hynix1ynm8gb then setDefValue else pure ret

/-- The functions `readretry_exit_*`: the counters are cleared once the chip is ready. -/
def exitWhenReady (rest : Act RetrySt ℤ) : Act RetrySt ℤ := do
  if ¬(← queneRb) then
    pure (-nandFailed)
  else
    clearLp
    rest

/-- `readretry_exit_toshiba`. -/
def readretryExitToshiba : Act RetrySt ℤ := exitWhenReady nandReset

/-- `readretry_exit_samsung`. -/
def readretryExitSamsung : Act RetrySt ℤ := exitWhenReady setDefValue

/-- `readretry_exit_micron`. -/
def readretryExitMicron : Act RetrySt ℤ := exitWhenReady setDefValue

/-- `readretry_exit_intel`; its register writes return at once. -/
def readretryExitIntel : Act RetrySt ℤ := exitWhenReady (pure 0)

/-- `readretry_exit_sandisk`: both counters are cleared. -/
def readretryExitSandisk : Act RetrySt ℤ := exitWhenReady do
  modify fun s => { s with curCntUp := fun _ => 0 }
  if ¬(← queneRb) then pure (-nandFailed) else nandReset

/-- `readretry_exit_a19_sandisk`. -/
def readretryExitA19Sandisk : Act RetrySt ℤ := exitWhenReady do
  let _ ← setDefValue
  if ¬(← queneRb) then pure (-nandFailed) else nandReset

/-- `retry_info->exit` as `amlnand_set_readretry_slc_para` sets it. -/
def readretryExit (n : NewType) : Act RetrySt ℤ :=
  match n with
  | .hynix26nm4gb => readretrySetDefValHynix n
  | .hynix26nm8gb => readretrySetDefValHynix n
  | .hynix20nm4gb => readretrySetDefValHynix n
  | .hynix20nm8gb => readretrySetDefValHynix n
  | .hynix1ynm8gb => readretrySetDefValHynix n
  | .toshiba2xnm => readretryExitToshiba
  | .toshibaA19nm => readretryExitToshiba
  | .sumsung2xnm => readretryExitSamsung
  | .sandisk19nm => readretryExitSandisk
  | .sandiskA19nm => readretryExitA19Sandisk
  | .sandiskA19nm4g => readretryExitA19Sandisk
  | .micron20nm => readretryExitMicron
  | .intel20nm => readretryExitIntel
  | .none => pure 0
  | .sandisk24nm => pure 0

/-! ## Reading a page -/

/-- One call of `read_page`. -/
structure ReadReq where
  para : ChipOpsPara
  /-- `mfr_type` is Micron or Intel. -/
  micron : Bool := false
  /-- Only the spare bytes are read, in the mode that keeps them together. -/
  newOob : Bool := false

/-- `slc_mode` is set. -/
def ReadReq.slcMode (req : ReadReq) (fl : Flash) : Bool := req.para.option.slc && fl.newType.slc

/-- The kind of the page read. -/
def ReadReq.kind (req : ReadReq) (fl : Flash) : PageKind := pageKind fl req.para.pageAddr

/-- How many retries a page gets: `retry_op_cnt`, or the rows of its kind for `SANDISK_19NM`. -/
def retryBudget (n : NewType) (kind : PageKind) : ℕ :=
  let info := amlnandSetReadretrySlcPara n
  match n with
  | .sandisk19nm => if kind = .upper then info.retryCntUp else info.retryCntLp
  | .hynix20nm4gb => info.retryCntLp * info.retryCntLp
  | .hynix20nm8gb => info.retryCntLp * info.retryCntLp
  | .hynix1ynm8gb => info.retryCntLp * info.retryCntLp
  | _ => info.retryCntLp

/-- The counter the handler of a type uses. -/
def handlerCnt (n : NewType) (kind : PageKind) (s : RetrySt) (chip : ℕ) : ℕ :=
  match n with
  | .sandiskA19nm => s.curCntUp chip
  | .sandiskA19nm4g => s.curCntUp chip
  | .sandisk19nm => if kind = .upper then s.curCntUp chip else s.curCntLp chip
  | _ => s.curCntLp chip

/-- Set `retry_cnt` to zero. -/
def startRetry (fl : Flash) (req : ReadReq) (chip : ℕ) : Act RetrySt Unit := modify fun s =>
  { s with episodes :=
    { chip := chip, kind := req.kind fl, slc := req.slcMode fl
      cnt := handlerCnt fl.newType (req.kind fl) s chip } :: s.episodes }

/-- How an attempt to read a page ends. -/
inductive AttemptEnd
  | again
  | blank
  | corrected
  | uncorrected
  deriving DecidableEq

/-- One transfer of a page with the verdict of the ECC engine; `retryCnt` is `retry_cnt`. -/
def readAttempt (fl : Flash) (req : ReadReq) (chip retryCnt : ℕ) :
    Act RetrySt (AttemptEnd × ℕ) := do
  let o ← retryOutcome
  if req.para.option.eccSoft then
    pure (.corrected, retryCnt)
  else
    match o.ecc with
    | .bug => hang
    | .ok => pure (.corrected, retryCnt)
    | .blank => pure (.blank, retryCnt)
    | .fail =>
      if (amlnandSetReadretrySlcPara fl.newType).flag ∧ ¬req.slcMode fl then
        if retryCnt < retryBudget fl.newType (req.kind fl) then
          let _ ← readretryHandle fl.newType (req.kind fl) chip
          pure (.again, retryCnt + 1)
        else
          noteEpisode fun e => { e with eccErr := true }
          pure (.uncorrected, retryCnt + 1)
      else
        noteEpisode fun e => { e with eccErr := true }
        pure (.uncorrected, retryCnt)

/-- The end of a page that was not found blank: reset a Hynix chip that gave up, then leave
the retry mode if there was a retry. -/
def finishPage (fl : Flash) (r : AttemptEnd) (resets : Bool) (retryCnt : ℕ) :
    Act RetrySt Unit := do
  when (r = .uncorrected ∧ resets ∧ fl.newType.isHynix) do
    let _ ← nandReset
  when (retryCnt ≠ 0) do
    let _ ← readretryExit fl.newType

/-- How the turn of a chip ends: the read stops, or goes on with `plane0_retry_flag`. -/
inductive TurnEnd
  | stop
  | next (plane0Flag : Bool)

/-- One transfer of a single plane. A blank page leaves the retry mode as it is. -/
def onePlaneRound (fl : Flash) (req : ReadReq) (plane0Flag : Bool) (chip retryCnt : ℕ) :
    Act RetrySt (ℕ ⊕ TurnEnd) := do
  if ¬(← queneRb) then
    pure (Sum.inr .stop)
  else
    let (r, retryCnt) ← readAttempt fl req chip retryCnt
    match r with
    | .again => pure (Sum.inl retryCnt)
    | .blank => pure (Sum.inr (.next plane0Flag))
    | _ =>
      finishPage fl r true retryCnt
      pure (Sum.inr (.next plane0Flag))

/-- The first plane of a round; `inl` sends the command again. After a blank page neither
`plane0_retry_flag` nor `retry_cnt` changes. -/
def plane0Part (fl : Flash) (req : ReadReq) (chip : ℕ) (v : Bool × ℕ) :
    Act RetrySt ((Bool × ℕ) ⊕ (Bool × ℕ)) := do
  if v.1 then
    pure (Sum.inr v)
  else
    let (r, retryCnt) ← readAttempt fl req chip v.2
    match r with
    | .again => pure (Sum.inl (v.1, retryCnt))
    | .blank => pure (Sum.inr (v.1, retryCnt))
    | _ =>
      finishPage fl r false retryCnt
      startRetry fl req chip
      pure (Sum.inr (true, 0))

/-- The second plane of a round. -/
def plane1Part (fl : Flash) (req : ReadReq) (chip : ℕ) (v : Bool × ℕ) :
    Act RetrySt ((Bool × ℕ) ⊕ TurnEnd) := do
  let (r, retryCnt) ← readAttempt fl req chip v.2
  match r with
  | .again => pure (Sum.inl (v.1, retryCnt))
  | .blank => pure (Sum.inr (.next v.1))
  | _ =>
    finishPage fl r true retryCnt
    startRetry fl req chip
    pure (Sum.inr (.next false))

/-- One round over both planes: the loop variables are `plane0_retry_flag` and `retry_cnt`. -/
def twoPlaneRound (fl : Flash) (req : ReadReq) (chip : ℕ) (v : Bool × ℕ) :
    Act RetrySt ((Bool × ℕ) ⊕ TurnEnd) := do
  if ¬(← queneRb) then
    pure (Sum.inr .stop)
  else
    match ← plane0Part fl req chip v with
    | Sum.inl v => pure (Sum.inl v)
    | Sum.inr v =>
      if req.micron ∧ req.newOob then pure (Sum.inr .stop) else plane1Part fl req chip v

/-- The turn of one chip. `retry_cnt` grows from round to round and is set to zero at most
twice, so 256 rounds are more than enough. -/
def readChip (fl : Flash) (req : ReadReq) (plane0Flag : Bool) (chip : ℕ) :
    Act RetrySt TurnEnd := do
  startRetry fl req chip
  if req.para.option.multiPlane then
    loopUntil (twoPlaneRound fl req chip) (2 ^ 8) (plane0Flag, 0)
  else
    loopUntil (onePlaneRound fl req plane0Flag chip) (2 ^ 8) 0

/-- The turns of the chips; `plane0_retry_flag` outlives a turn. -/
def readChips (fl : Flash) (req : ReadReq) : Bool → List ℕ → Act RetrySt Unit
  | _, [] => pure ()
  | plane0Flag, chip :: rest => do
    match ← readChip fl req plane0Flag chip with
    | .stop => pure ()
    | .next flag => readChips fl req flag rest

/-- Send the read command to the chips; `false` when one is busy. -/
def sendRead : List ℕ → Act RetrySt Bool
  | [] => pure true
  | _ :: rest => do
    if ¬(← queneRb) then pure false else sendRead rest

/-- `read_page`, as far as the retries go. -/
def readPageRetry (fl : Flash) (req : ReadReq) : Act RetrySt Unit := do
  if ← sendRead (opChips fl req.para) then
    readChips fl req false (opChips fl req.para)
  else
    pure ()

/-- Reads one after the other. -/
def readPages (fl : Flash) : List ReadReq → Act RetrySt Unit
  | [] => pure ()
  | req :: reqs => do
    readPageRetry fl req
    readPages fl reqs

end Amlnf
