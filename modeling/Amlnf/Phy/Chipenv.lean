import Amlnf.Phy.ChipOperation

set_option relaxedAutoImplicit false
set_option autoImplicit false

/-!
# The record store

The reserved area behind the boot pages holds a handful of named records: the bad-block
table, the factory table, the configuration, the keys and the environment. This module is
the part of `chipenv.c` that finds, reads and saves them.

## Main definitions

* `getLastReserveBlock`, `amlnandGetFreeBlock` — extent of the reserved area and the search
  for a block to write to.
* `amlnandReadInfoByName` — read the record an `arg_info` designates.
* `amlnandSaveInfoByName` — save a record: a `FULL_BLK` record fills a fresh block with
  copies, a `FULL_PAGE` record is appended twice to its block.
* `amlnandCheckInfoByName`, `amlnandInfoInit` — find a record by scanning, and load it.
* `amlnandUpdateBbt`, `blockMarkbadOp` — saving the bad-block table, and marking blocks bad
  with the recursion between the two tied by depth.

## Design

The two backward jumps of `amlnand_save_info_by_name` are two loops: `saveAttempts` for
`get_free_blk` and the two rounds of `saveRounds` for `write_again`; `SaveLocals` holds the
local variables that survive the jumps.
-/

namespace Amlnf

open Act

/-! ## Extent of the reserved area -/

/-- More blocks than a bad-block table has entries. -/
def scanFuel : ℕ := maxChipNum * maxChipBlks + 1

/-- Look a reserved block up in the bad-block table. -/
def lookBlock (fl : Flash) (b : ℕ) : Act St ℤ := do
  seekBlock fl b
  blockIsbad fl

/-- One round of `get_last_reserve_block` over `total_blk` and `blk_addr`. -/
def lastReserveRound (fl : Flash) (v : ℕ × ℕ) : Act St ((ℕ × ℕ) ⊕ ℕ) := do
  if v.2 < reservedBlockCnt then
    let ret ← lookBlock fl v.1
    if ret = 2 then pure (Sum.inl (v.1 + 1, v.2)) else pure (Sum.inl (v.1 + 1, v.2 + 1))
  else
    pure (Sum.inr v.1)

/-- `get_last_reserve_block`: the end of the 48 blocks that are not factory bad. Leaving the
table without having found them has no defined result. -/
def getLastReserveBlock (fl : Flash) : Act St ℕ := do
  modify fun s => { s with opsPara := {} }
  loopUntil (lastReserveRound fl) scanFuel (fl.startBlk, 0)

/-- Is block `b` in the list of reserved blocks in use? -/
def listed (l : List UInt8) (b : ℕ) : Bool := l.any fun e => e.toNat = b

/-- Enter a block at the first free place of the list. -/
def enlist : List UInt8 → ℕ → List UInt8
  | [], _ => []
  | e :: l, b => if e = 0xff then UInt8.ofNat b :: l else e :: enlist l b

/-- Free the first place of the list that holds a block. -/
def delist : List UInt8 → ℕ → List UInt8
  | [], _ => []
  | e :: l, b => if e.toNat = b then 0xff :: l else e :: delist l b

/-- One round of the search for a free block. A block whose erase fails is marked bad by
`markbad` and passed over. -/
def freeBlockRound (fl : Flash) (markbad : Act St ℤ) (block totalBlk b : ℕ) :
    Act St (ℕ ⊕ Option ℕ) := do
  if b < totalBlk then
    let s ← get
    if listed s.reservedBlk b then
      pure (Sum.inl (b + 1))
    else if block = b then
      pure (Sum.inl (b + 1))
    else
      let ret ← lookBlock fl b
      if ret = 2 then
        pure (Sum.inl (b + 1))
      else
        let ret ← withChip (eraseBlock fl)
        if ret < 0 then
          let _ ← markbad
          pure (Sum.inl (b + 1))
        else
          pure (Sum.inr (some b))
  else
    pure (Sum.inr none)

/-- `amlnand_get_free_block`; `none` is the return value `-NAND_BAD_BLCOK_FAILURE`. -/
def amlnandGetFreeBlock (fl : Flash) (markbad : Act St ℤ) (block : ℕ) : Act St (Option ℕ) := do
  modify fun s => { s with opsPara := {} }
  let totalBlk ← getLastReserveBlock fl
  loopUntil (freeBlockRound fl markbad block totalBlk) (totalBlk + 1) fl.startBlk

/-! ## Reading a record -/

/-- Change the `arg_info` of a record. -/
def modifyInfo (name : RecName) (f : ArgInfo → ArgInfo) : Act St Unit :=
  modify fun s => { s with info := fun n => if n = name then f (s.info n) else s.info n }

/-- Clear `user_oob_buf`, or fill it with bytes that are no record name. -/
def clearOob : Act St Unit := modify fun s => { s with userOob := none }

/-- Does a tag carry the name? -/
def tagged (o : Option Tag) (name : RecName) : Bool :=
  match o with
  | some t => t.name = name
  | none => false

/-- `memcpy` of `len` bytes into `buf` at `off`. -/
def blit (buf : Buf) (off len : ℕ) (src : Buf) : Buf :=
  fun i => if off ≤ i ∧ i < off + len then src (i - off) else buf i

/-- Read record page `i` of block `b` into the user buffers. -/
def readRecPage (fl : Flash) (b i : ℕ) : Act St ReadBack := do
  seekPage fl b i
  clearOob
  withChip (readUserPage fl)

/-- One round of `amlnand_read_info_by_name` over the page number, the return code and the
buffer. A page that reads as uncorrectable ends the read with the return code of `read_page`;
a page under another name is passed over. -/
def readRound (fl : Flash) (name : RecName) (size : ℕ) (v : ℕ × ℤ × Buf) :
    Act St ((ℕ × ℤ × Buf) ⊕ (ℤ × Buf)) := do
  if v.1 * fl.pagesize < size then
    let s ← get
    let r ← readRecPage fl (s.info name).validBlkAddr ((s.info name).validPageAddr + v.1)
    let s ← get
    if s.opsPara.eccErr ∨ r.ret < 0 then
      pure (Sum.inr (r.ret, v.2.2))
    else if tagged s.userOob name then
      pure (Sum.inl (v.1 + 1, r.ret, blit v.2.2 (v.1 * fl.pagesize)
        (min fl.pagesize (size - v.1 * fl.pagesize)) r.data))
    else
      pure (Sum.inl (v.1 + 1, r.ret, v.2.2))
  else
    pure (Sum.inr (v.2.1, v.2.2))

/-- `amlnand_read_info_by_name`. -/
def amlnandReadInfoByName (fl : Flash) (name : RecName) (buf : Buf) (size : ℕ) :
    Act St (ℤ × Buf) := do
  modify fun s => { s with opsPara := { option := { slc := fl.newType.slc } } }
  let s ← get
  if (s.info name).argValid then
    loopUntil (readRound fl name size) (size + 1) (0, 0, buf)
  else
    pure (0, buf)

/-! ## Saving a record -/

/-- `extra_page * flash->pagesize`: a record that ends on a page boundary is written with one
page more. -/
def extraLen (fl : Flash) (size : ℕ) : ℕ := if size % fl.pagesize = 0 then fl.pagesize else 0

/-- The page-sized piece `j` of a record buffer, padded with zeros. -/
def recSlice (fl : Flash) (buf : Buf) (size j : ℕ) : Buf := fun i =>
  if i < min fl.pagesize (size + extraLen fl size - j * fl.pagesize) then
    buf (j * fl.pagesize + i)
  else 0

/-- Program one tagged page of a record. -/
def writeRecPage (fl : Flash) (tag : Tag) (blk i : ℕ) (data : Buf) : Act St ℤ := do
  seekPage fl blk i
  modify fun s => { s with userOob := some tag }
  withChip (writePage fl (some data) (some tag))

/-- The page of `0xff` that follows a page of the `HYNIX_1YNM_8GB` type. Masking the option
word with `DEV_SERIAL_CHIP_MODE` clears it. -/
def writePaired (fl : Flash) : Act St ℤ := do
  let s ← get
  let tmpAddr := s.opsPara.pageAddr
  let tempOption := s.opsPara.option
  modify fun s => { s with opsPara := { s.opsPara with pageAddr := tmpAddr + 1, option := {} } }
  clearOob
  let ret ← withChip (writePage fl (some fun _ => 0xff) none)
  modify fun s => { s with opsPara := { s.opsPara with pageAddr := tmpAddr, option := tempOption } }
  pure ret

/-- The dummy page, with its paired page, that closes a partly written block of the
`HYNIX_1YNM_8GB` type. -/
def writeDummy (fl : Flash) (blk i : ℕ) : Act St ℤ := do
  seekPage fl blk i
  clearOob
  let _ ← withChip (writePage fl (some fun _ => 0x5a) none)
  writePaired fl

/-- One page of a copy: the loop variables are the page number and the last return code. -/
def copyRound (fl : Flash) (tag : Tag) (buf : Buf) (size blk base : ℕ) (v : ℕ × ℤ) :
    Act St ((ℕ × ℤ) ⊕ Unit) := do
  let ret ← writeRecPage fl tag blk (base + v.1) (recSlice fl buf size v.1)
  if ret < 0 then
    pure (Sum.inr ())
  else if fl.newType = .hynix1ynm8gb ∧ 1 ≤ base + v.1 then
    let ret ← writePaired fl
    pure (Sum.inl (v.1 + 1, ret))
  else
    pure (Sum.inl (v.1 + 1, ret))

/-- Write one copy of a record from page `base` of a block on. `none` means that a page of
the copy failed; otherwise the code of the last page written is given. -/
def writeCopy (fl : Flash) (tag : Tag) (buf : Buf) (size blk base : ℕ) : Act St (Option ℤ) := do
  match ← loop (copyRound fl tag buf size blk base) (fl.argPages size) (0, 0) with
  | Sum.inl v => pure (some v.2)
  | Sum.inr _ => pure none

/-- One copy of a `FULL_BLK` fill: the loop variables are the first page of the copy and the
last return code. -/
def fullBlkRound (fl : Flash) (tag : Tag) (buf : Buf) (size blk : ℕ) (v : ℕ × ℤ) :
    Act St ((ℕ × ℤ) ⊕ Option ℤ) := do
  if v.1 < fl.pagesRead then
    if fl.pagesRead - v.1 < fl.argPages size then
      if fl.newType = .hynix1ynm8gb then
        let ret ← writeDummy fl blk v.1
        pure (Sum.inr (some ret))
      else
        pure (Sum.inr (some v.2))
    else
      match ← writeCopy fl tag buf size blk v.1 with
      | none => pure (Sum.inr none)
      | some ret =>
        if ret < 0 then pure (Sum.inr (some ret))
        else pure (Sum.inl (v.1 + fl.argPages size, ret))
  else
    pure (Sum.inr (some v.2))

/-- Fill a block with copies of a `FULL_BLK` record. -/
def writeFullBlk (fl : Flash) (tag : Tag) (buf : Buf) (size blk : ℕ) : Act St (Option ℤ) :=
  loopUntil (fullBlkRound fl tag buf size blk) (fl.pagesRead + 1) (0, 0)

/-- Local variables of `amlnand_save_info_by_name` that survive its backward jumps. -/
structure SaveLocals where
  blkAddr : ℕ := 0
  fullPageFlag : Bool := false
  testCnt : ℕ := 0

/-- First page of the copy a `FULL_PAGE` save writes. -/
def appendBase (fl : Flash) (a : ArgInfo) (size : ℕ) (fullPageFlag : Bool) : ℕ :=
  if a.argValid ∧ ¬fullPageFlag ∧ ¬a.updateFlag then
    a.validPageAddr + fl.argPages size + (if fl.newType = .hynix1ynm8gb then 1 else 0)
  else 0

/-- Append one copy of a `FULL_PAGE` record. -/
def writeFullPage (fl : Flash) (tag : Tag) (buf : Buf) (size blk base : ℕ) :
    Act St (Option ℤ) := do
  match ← writeCopy fl tag buf size blk base with
  | none => pure none
  | some ret =>
    if fl.newType = .hynix1ynm8gb then
      let ret ← writeDummy fl blk (base + fl.argPages size)
      pure (some ret)
    else
      pure (some ret)

/-- Write a record to the chosen block in the way of its type. -/
def writeRecord (fl : Flash) (name : RecName) (tag : Tag) (buf : Buf) (size : ℕ)
    (l : SaveLocals) : Act St (Option ℤ) := do
  let s ← get
  match (s.info name).argType with
  | .fullBlk => writeFullBlk fl tag buf size l.blkAddr
  | .fullPage =>
    writeFullPage fl tag buf size l.blkAddr
      (appendBase fl (s.info name) size l.fullPageFlag)

/-- The code from `get_free_blk` up to the writing: take a fresh block, or go on in the
current one when two more copies of a `FULL_PAGE` record fit. -/
def chooseBlock (fl : Flash) (markbad : Act St ℤ) (name : RecName) (size : ℕ) (l : SaveLocals) :
    Act St (Option SaveLocals) := do
  let a := (← get).info name
  if a.argValid ∧ ¬a.updateFlag ∧ a.argType = .fullPage then
    if fl.pagesRead < a.validPageAddr + 2 * fl.argPages size then
      match ← amlnandGetFreeBlock fl markbad l.blkAddr with
      | none => pure none
      | some b => pure (some { l with blkAddr := b, fullPageFlag := true })
    else
      pure (some { l with blkAddr := a.validBlkAddr })
  else
    match ← amlnandGetFreeBlock fl markbad l.blkAddr with
    | none => pure none
    | some b => pure (some { l with blkAddr := b })

/-- How the attempts to write a copy end. -/
inductive Attempt
  /-- No block was found. -/
  | noBlock
  /-- Three blocks were tested and writing still fails. -/
  | gaveUp
  /-- Written, with the code of the last page. -/
  | wrote (ret : ℤ) (l : SaveLocals)

/-- One attempt to write a copy. A block whose page fails is tested, marked bad if it fails
the test, and another attempt is made. -/
def attemptRound (fl : Flash) (markbad : Act St ℤ) (name : RecName) (tag : Tag) (buf : Buf)
    (size : ℕ) (l : SaveLocals) : Act St (SaveLocals ⊕ Attempt) := do
  match ← chooseBlock fl markbad name size l with
  | none => pure (Sum.inr Attempt.noBlock)
  | some l =>
    match ← writeRecord fl name tag buf size l with
    | some ret => pure (Sum.inr (Attempt.wrote ret l))
    | none =>
      if 3 ≤ l.testCnt then
        pure (Sum.inr Attempt.gaveUp)
      else
        let ret ← testBlockReserved fl l.blkAddr
        if ret ≠ 0 then
          let _ ← markbad
          pure (Sum.inl { l with testCnt := l.testCnt + 1 })
        else
          pure (Sum.inl { l with testCnt := l.testCnt + 1 })

/-- The attempts to write a copy; the fourth gives up. -/
def saveAttempts (fl : Flash) (markbad : Act St ℤ) (name : RecName) (tag : Tag) (buf : Buf)
    (size : ℕ) (l : SaveLocals) : Act St Attempt :=
  loopUntil (attemptRound fl markbad name tag buf size) 4 l

/-- Does the copy lie in another block than the record before? -/
def movedBlock (a : ArgInfo) (fullPageFlag : Bool) : Bool :=
  a.argType = .fullBlk || fullPageFlag || a.updateFlag

/-- The `arg_info` after a copy has been written to block `blk`. -/
def movedInfo (fl : Flash) (a : ArgInfo) (size blk : ℕ) (fullPageFlag : Bool) : ArgInfo :=
  { a with
    validBlkAddr := blk % 2 ^ 16
    validPageAddr :=
      if a.argValid then
        if movedBlock a fullPageFlag then 0
        else (a.validPageAddr + fl.argPages size +
          (if fl.newType = .hynix1ynm8gb then 1 else 0)) % 2 ^ 16
      else a.validPageAddr }

/-- Erase the block the record has left. `none` means the block could neither be erased nor
marked bad, and ends the save with the code. -/
def eraseOld (fl : Flash) (markbad : Act St ℤ) (old : ℕ) : Act St (ℤ ⊕ ℤ) := do
  modify fun s => { s with opsPara :=
    { s.opsPara with pageAddr := fl.resPage old, chipnr := fl.resChip old } }
  let ret ← withChip (eraseBlock fl)
  if ret < 0 then
    let ret ← testBlockReserved fl old
    if ret ≠ 0 then
      let ret ← markbad
      if ret < 0 then pure (Sum.inl ret) else pure (Sum.inr ret)
    else
      pure (Sum.inr ret)
  else
    pure (Sum.inr ret)

/-- What follows a successful write: enter the block in the list, update `arg_info`, erase
the old block. `inl` ends the save with a code. -/
def commitCopy (fl : Flash) (markbad : Act St ℤ) (name : RecName) (size : ℕ) (ret : ℤ)
    (l : SaveLocals) : Act St (ℤ ⊕ ℤ) := do
  let a := (← get).info name
  when (¬a.argValid ∨ movedBlock a l.fullPageFlag)
    (modify fun s => { s with reservedBlk := enlist s.reservedBlk l.blkAddr })
  modifyInfo name fun a => movedInfo fl a size l.blkAddr l.fullPageFlag
  if movedBlock a l.fullPageFlag ∧ a.argValid ∧ a.validBlkAddr ≠ 0 then
    match ← eraseOld fl markbad a.validBlkAddr with
    | Sum.inl ret => pure (Sum.inl ret)
    | Sum.inr ret =>
      modify fun s => { s with reservedBlk := delist s.reservedBlk a.validBlkAddr }
      pure (Sum.inr ret)
  else
    pure (Sum.inr ret)

/-- The code between `write_again` and the end: write one copy and commit it. -/
def saveRound (fl : Flash) (markbad : Act St ℤ) (name : RecName) (buf : Buf) (size : ℕ)
    (l : SaveLocals) : Act St (ℤ ⊕ ℤ × SaveLocals) := do
  modifyInfo name fun a => { a with timestamp := a.timestamp + 1 }
  let tag : Tag := ⟨name, ((← get).info name).timestamp⟩
  modify fun s => { s with opsPara := {} }
  match ← saveAttempts fl markbad name tag buf size l with
  | .noBlock => pure (Sum.inl (-nandBadBlcokFailure))
  | .gaveUp => pure (Sum.inl (-nandWriteFailed))
  | .wrote ret l =>
    if ret < 0 then
      pure (Sum.inl (-nandWriteFailed))
    else
      match ← commitCopy fl markbad name size ret l with
      | Sum.inl ret => pure (Sum.inl ret)
      | Sum.inr ret =>
        modifyInfo name fun a => { a with argValid := true }
        pure (Sum.inr (ret, { l with fullPageFlag := false }))

/-- `amlnand_save_info_by_name`. A `FULL_PAGE` record is written twice. -/
def amlnandSaveInfoByName (fl : Flash) (markbad : Act St ℤ) (name : RecName) (buf : Buf)
    (size : ℕ) : Act St ℤ := do
  let s ← get
  if ¬s.allowMeta then
    pure (-eROFS)
  else
    match ← saveRound fl markbad name buf size {} with
    | Sum.inl ret => pure ret
    | Sum.inr (ret, l) =>
      if (s.info name).argType = .fullPage then
        modifyInfo name fun a => { a with updateFlag := false }
        match ← saveRound fl markbad name buf size l with
        | Sum.inl ret => pure ret
        | Sum.inr (ret, _) => pure ret
      else
        pure ret

/-! ## Finding a record -/

/-- Where the page loop of the scan goes on after a page that cannot be read: to the next
copy, and after nine failures to the middle and then to the last part of the block. -/
def scanSkip (fl : Flash) (size : ℕ) (v : ℕ × ℕ × ℤ) : ℕ × ℕ × ℤ :=
  if 8 < v.2.1 + 1 ∧ v.2.2 = 0 then
    (fl.argPages size * ((fl.ppb / fl.argPages size) >>> 1), v.2.1 + 1, -1)
  else if v.2.2 = -1 then
    (fl.argPages size * (fl.ppb / fl.argPages size), v.2.1 + 1, -2)
  else
    (v.1 + fl.argPages size, v.2.1 + 1, v.2.2)

/-- Rounds the page loop of the scan can make in one block. -/
def scanRounds : ℕ := 16

/-- Read record page `i` of a block during a scan, under the chip lock. -/
def scanRead (fl : Flash) (b i : ℕ) : Act St ReadBack := do
  seekPage fl b i
  clearOob
  nandGetChip
  let r ← readUserPage fl
  nandReleaseChip
  pure r

/-- What the scan does with a page under its name in block `b`. -/
def scanFound (b : ℕ) (ts : UInt16) (a : ArgInfo) : ArgInfo :=
  if a.argValid then
    if a.timestamp < ts then
      { a with freeBlkAddr := a.validBlkAddr, validBlkAddr := b, timestamp := ts }
    else
      { a with freeBlkAddr := b }
  else
    { a with argValid := true, validBlkAddr := b, timestamp := ts }

/-- One page of a block of the scan: the loop variables are the position with the failures
so far, and the last return code. -/
def scanPageRound (fl : Flash) (name : RecName) (size b : ℕ) (v : (ℕ × ℕ × ℤ) × ℤ) :
    Act St (((ℕ × ℕ × ℤ) × ℤ) ⊕ ℤ) := do
  if v.1.1 < fl.pagesRead then
    let r ← scanRead fl b v.1.1
    let s ← get
    if s.opsPara.eccErr ∨ r.ret < 0 then
      pure (Sum.inl (scanSkip fl size v.1, r.ret))
    else
      match s.userOob with
      | some t =>
        if t.name = name then
          modifyInfo name (scanFound b t.timestamp)
          pure (Sum.inr r.ret)
        else
          pure (Sum.inr r.ret)
      | none => pure (Sum.inr r.ret)
  else
    pure (Sum.inr v.2)

/-- Look at one block of the scan: the first page that can be read decides. -/
def scanBlock (fl : Flash) (name : RecName) (size b : ℕ) (ret : ℤ) : Act St ℤ :=
  loopUntil (scanPageRound fl name size b) scanRounds ((0, 0, 0), ret)

/-- One block of the first pass: the loop variables are the block and the last return code. -/
def scanBlockRound (fl : Flash) (name : RecName) (size : ℕ) (v : ℕ × ℤ) :
    Act St ((ℕ × ℤ) ⊕ ℤ) := do
  if v.1 < fl.startBlk + reservedBlockCnt then
    let ret ← lookBlock fl v.1
    if ret ≠ 0 then
      pure (Sum.inl (v.1 + 1, ret))
    else
      let ret ← scanBlock fl name size v.1 ret
      let s ← get
      if (s.info name).argType = .fullBlk ∧ (s.info name).argValid ∧
          (s.info name).validBlkAddr ≠ 0 then
        pure (Sum.inr ret)
      else
        pure (Sum.inl (v.1 + 1, ret))
  else
    pure (Sum.inr v.2)

/-- First pass: over the blocks of the fixed scan range that are not bad. -/
def scanBlocks (fl : Flash) (name : RecName) (size : ℕ) : Act St ℤ :=
  loopUntil (scanBlockRound fl name size) (reservedBlockCnt + 1) (fl.startBlk, 0)

/-- What the second pass does with page `i` once it has been read. A `FULL_BLK` record takes the
first copy that can be read, a `FULL_PAGE` record the last one before the first page under
another name. -/
def scanCopyPage (fl : Flash) (name : RecName) (size i : ℕ) (ret : ℤ) :
    Act St ((ℕ × ℤ) ⊕ ℤ) := do
  let s ← get
  if s.opsPara.eccErr ∨ ret < 0 then
    modifyInfo name fun a => { a with updateFlag := true }
    pure (Sum.inl (i + fl.argPages size, ret))
  else
    match s.userOob, (s.info name).argType with
    | some t, .fullBlk =>
      if t.name = name then
        modifyInfo name fun a => { a with validPageAddr := i, timestamp := t.timestamp }
        pure (Sum.inr ret)
      else
        pure (Sum.inl (i + fl.argPages size, ret))
    | none, .fullBlk => pure (Sum.inl (i + fl.argPages size, ret))
    | some t, .fullPage =>
      if t.name = name then
        modifyInfo name fun a => { a with validPageAddr := i, timestamp := t.timestamp }
        pure (Sum.inl (i + fl.argPages size +
          (if fl.newType = .hynix1ynm8gb then 1 else 0), ret))
      else
        pure (Sum.inr ret)
    | none, .fullPage => pure (Sum.inr ret)

/-- One page of the second pass. -/
def scanCopyRound (fl : Flash) (name : RecName) (size : ℕ) (v : ℕ × ℤ) :
    Act St ((ℕ × ℤ) ⊕ ℤ) := do
  if v.1 < fl.pagesRead then
    let s ← get
    let r ← readRecPage fl (s.info name).validBlkAddr v.1
    scanCopyPage fl name size v.1 r.ret
  else
    pure (Sum.inr v.2)

/-- Second pass: look for the copy to use in the chosen block. -/
def scanPages (fl : Flash) (name : RecName) (size : ℕ) : Act St ℤ :=
  loopUntil (scanCopyRound fl name size) (fl.pagesRead + 1) (0, 0)

/-- `amlnand_check_info_by_name`. -/
def amlnandCheckInfoByName (fl : Flash) (name : RecName) (size : ℕ) : Act St ℤ := do
  modify fun s => { s with opsPara := { option := { slc := fl.newType.slc } } }
  let ret ← scanBlocks fl name size
  if ((← get).info name).argValid then
    let ret ← scanPages fl name size
    modify fun s =>
      { s with reservedBlk := enlist s.reservedBlk (s.info name).validBlkAddr }
    pure ret
  else
    pure ret

/-! ## Checksums -/

/-- `aml_info_checksum` over `len` bytes from `off` on. -/
def amlInfoChecksum (buf : Buf) (off len : ℕ) : ℕ :=
  (List.range len).foldl (fun c i => c + (buf (off + i)).toNat) 0 % 2 ^ 32

/-- The little-endian number in `n` bytes from `off` on. -/
def leNat (buf : Buf) (off : ℕ) : ℕ → ℕ
  | 0 => 0
  | n + 1 => (buf off).toNat + 256 * leNat buf (off + 1) n

/-- Where the checksummed part of a record starts and how long it is: `blk_status`,
`shipped_bbt` and `dev_para`. The lengths are the ones the source passes, which count
elements and not bytes for the two tables. -/
def checksumRange : RecName → Option (ℕ × ℕ)
  | .nbbt => some (4, 4 * 8192)
  | .fbbt => some (4, 4 * 2048)
  | .ncnf => some (8, 4 * 680)
  | _ => none

/-- `aml_info_check_datasum`. -/
def amlInfoCheckDatasum (buf : Buf) (name : RecName) : ℤ :=
  match checksumRange name with
  | some (off, len) => if amlInfoChecksum buf off len = leNat buf 0 4 then 0 else -nandReadFailed
  | none => 0

/-- `amlnand_info_init`. -/
def amlnandInfoInit (fl : Flash) (name : RecName) (buf : Buf) (size : ℕ) : Act St (ℤ × Buf) := do
  let ret ← amlnandCheckInfoByName fl name size
  if ret < 0 then
    pure (ret, buf)
  else if ((← get).info name).argValid then
    let (ret, buf) ← amlnandReadInfoByName fl name buf size
    if ret < 0 then pure (ret, buf) else pure (amlInfoCheckDatasum buf name, buf)
  else
    pure (ret, buf)

/-! ## The bad-block table as a record -/

/-- `sizeof(struct block_status)`. -/
def blockStatusSize : ℕ := 4 + 2 * (maxChipNum * maxBlkNum)

/-- Byte `i` of the table part of `struct block_status`. -/
def tableByte (tbl : BlkStatus) (i : ℕ) : UInt8 :=
  let e := (tbl (i / 2 / maxBlkNum) (i / 2 % maxBlkNum)).toNat
  if i % 2 = 0 then UInt8.ofNat e else UInt8.ofNat (e / 256)

/-- `struct block_status` with the checksum `amlnand_update_bbt` stores. -/
def blockStatusBuf (tbl : BlkStatus) : Buf := fun i =>
  if i < 4 then
    UInt8.ofNat (amlInfoChecksum (fun j => tableByte tbl (j - 4)) 4 (4 * 8192) / 256 ^ i)
  else tableByte tbl (i - 4)

/-- The table in the bytes of `struct block_status`. -/
def blockStatusOf (buf : Buf) : BlkStatus := fun c b =>
  UInt16.ofNat (leNat buf (4 + 2 * (c * maxBlkNum + b)) 2)

/-- `amlnand_update_bbt`. -/
def amlnandUpdateBbt (fl : Flash) (markbad : Act St ℤ) : Act St ℤ := do
  let s ← get
  amlnandSaveInfoByName fl markbad .nbbt (blockStatusBuf s.blkStatus) blockStatusSize

/-- `block_markbad` with at most `n` marks nested in one another. -/
def markbadN (fl : Flash) : ℕ → Act St ℤ
  | 0 => hang
  | n + 1 => blockMarkbad fl (amlnandUpdateBbt fl (markbadN fl n))

/-- `operation->block_markbad`. Each nested mark turns a good entry of a reserved block bad, so
the nesting ends before this depth. -/
def blockMarkbadOp (fl : Flash) : Act St ℤ := markbadN fl (maxChipNum * maxChipBlks + 1)

/-- `amlnand_update_bbt` as the outermost `block_markbad` calls it. -/
def innerUpdate (fl : Flash) : Act St ℤ :=
  amlnandUpdateBbt fl (markbadN fl (maxChipNum * maxChipBlks))

/-- `amlnand_save_info_by_name` as the driver calls it. -/
def saveInfo (fl : Flash) (name : RecName) (buf : Buf) (size : ℕ) : Act St ℤ :=
  amlnandSaveInfoByName fl (blockMarkbadOp fl) name buf size

end Amlnf
