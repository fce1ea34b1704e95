import Amlnf.Dev.Env

set_option relaxedAutoImplicit false
set_option autoImplicit false

/-!
# Bring-up

`amlnand_get_dev_configs` finds the records of the reserved area when the driver starts: the
read-retry values of the Hynix types, the bad-block table, the configuration and the
environment. Then it rewrites records whose copies could not all be read and repairs reserved
blocks.

## Main definitions

* `amlNandScanHynixInfo`, `readretrySlcInit` — the part of `amlnand_set_readretry_slc_para` that
  talks to the chips.
* `amlnandInfoErrorHandle`, `repairReservedBadBlock` — rewriting and repair.
* `bringUpPrelude`, `loadBbt`, `bringUpRest`, `amlnandGetDevConfigs` — bring-up, before, at and
  after the load of the bad-block table.

## Design

Memory is taken to be available. A bring-up that fails frees the table and registers no device,
so that nothing follows it. The register values of the Hynix types are left out; a chip that
stays busy while they are read is an outcome whose read fails.
-/

namespace Amlnf

open Act

/-! ## Preparation -/

/-- `amlnand_config_buf_malloc`: all buffers are set to zero. -/
def amlnandConfigBufMalloc : Act St Unit :=
  modify fun s => { s with userOob := none, blkStatus := fun _ _ => 0, config := fun _ => 0 }

/-- `amlnand_set_config_attribute`. -/
def amlnandSetConfigAttribute : Act St Unit :=
  modify fun s => { s with info := fun n =>
    if n = .nhix then s.info n else { s.info n with argType := argTypeOf n } }

/-- `get_reg_value_hynix` on one chip. -/
def getRegValueHynix : Act St ℤ := do
  let o ← nextOutcome
  match o.read with
  | .failed _ => pure (-nandFailed)
  | _ => pure 0

/-- `enslc_init_hynix`: the code of the last chip counts. -/
def enslcInitHynix (fl : Flash) : Act St ℤ := do
  if fl.newType = .hynix1ynm8gb then
    pure 0
  else
    nandGetChip
    let r ← loop (fun _ => do
      let ret ← getRegValueHynix
      pure (Sum.inl ret : ℤ ⊕ Unit)) fl.chipNum 0
    nandReleaseChip
    match r with
    | Sum.inl ret => pure ret
    | Sum.inr _ => pure 0

/-- One page of the scan for the Hynix record: the first page that can be read decides whether
the block holds it. The loop variables are the page and the last return code. -/
def hynixPageRound (fl : Flash) (b : ℕ) (v : ℕ × ℤ) : Act St ((ℕ × ℤ) ⊕ (Bool × ℤ)) := do
  if v.1 < fl.pagesRead then
    let r ← readRecPage fl b v.1
    let s ← get
    if s.opsPara.eccErr ∨ r.ret < 0 then
      pure (Sum.inl (v.1 + 1, r.ret))
    else
      pure (Sum.inr (tagged s.userOob .nhix, r.ret))
  else
    pure (Sum.inr (false, v.2))

/-- One block of the scan for the Hynix record. -/
def hynixBlockRound (fl : Flash) (v : ℕ × ℤ) : Act St ((ℕ × ℤ) ⊕ (Option ℕ × ℤ)) := do
  if v.1 < fl.startBlk + reservedBlockCnt then
    let ret ← lookBlock fl v.1
    if ret = 2 then
      pure (Sum.inl (v.1 + 1, ret))
    else
      let (found, ret) ← loopUntil (hynixPageRound fl v.1) (fl.pagesRead + 1) (0, ret)
      if found then pure (Sum.inr (some v.1, ret)) else pure (Sum.inl (v.1 + 1, ret))
  else
    pure (Sum.inr (none, v.2))

/-- `aml_nand_scan_hynix_info`: whether the record was found, and the return code. -/
def amlNandScanHynixInfo (fl : Flash) : Act St (Bool × ℤ) := do
  modify fun s => { s with opsPara := {} }
  let (found, ret) ← loopUntil (hynixBlockRound fl) (reservedBlockCnt + 1) (fl.startBlk, 0)
  match found with
  | some b =>
    modify fun s => { s with reservedBlk := enlist s.reservedBlk b }
    pure (true, ret)
  | none => pure (false, ret)

/-- `readretry_init_hynix`. -/
def readretryInitHynix (fl : Flash) : Act St ℤ := do
  let (found, ret) ← amlNandScanHynixInfo fl
  pure (if found then ret else -nandFailed)

/-- What `amlnand_set_readretry_slc_para` does to the chips, after it has chosen the parameters
of the type. The registers of the SanDisk type are written without waiting. -/
def readretrySlcInit (fl : Flash) : Act St ℤ := do
  if fl.newType = .sandisk24nm then
    pure (-nandFailed)
  else if fl.newType.isHynix then
    let ret ← enslcInitHynix fl
    if ret ≠ 0 then
      pure (-nandFailed)
    else
      let ret ← readretryInitHynix fl
      pure (if ret ≠ 0 then -nandFailed else 0)
  else
    pure 0

/-! ## Rewriting and repair -/

/-- `sizeof(struct nand_config)`. -/
def nandConfigSize : ℕ := 2736

/-- `config_ptr->fbbt_blk_addr`. -/
def fbbtBlkAddr (config : Buf) : ℕ := leNat config 2734 2

/-- The configuration with its checksum computed anew. -/
def sealConfig (config : Buf) : Buf := fun i =>
  if i < 4 then UInt8.ofNat (amlInfoChecksum config 8 (4 * 680) / 256 ^ i) else config i

/-- `amlnand_info_error_handle`. -/
def amlnandInfoErrorHandle (fl : Flash) : Act St Unit := do
  let saveConfig : Act St Unit := do
    let s ← get
    if (s.info .ncnf).argValid ∧ (s.info .ncnf).updateFlag then
      modify fun s => { s with config := sealConfig s.config }
      let s ← get
      let _ ← saveInfo fl .ncnf s.config nandConfigSize
      modifyInfo .ncnf fun a => { a with updateFlag := false }
    else
      pure ()
  let s ← get
  if (s.info .nbbt).argValid ∧ (s.info .nbbt).updateFlag then
    let ret ← amlnandUpdateBbt fl (blockMarkbadOp fl)
    modifyInfo .nbbt fun a => { a with updateFlag := false }
    if ret ≠ 0 then pure () else saveConfig
  else
    saveConfig

/-- One round of the count of used-bad reserved blocks: the loop variables are the block, the
blocks that are not factory bad and the used-bad ones found, at most 128. -/
def usedBadRound (fl : Flash) (v : ℕ × ℕ × List ℕ) : Act St ((ℕ × ℕ × List ℕ) ⊕ List ℕ) := do
  if v.2.1 < reservedBlockCnt then
    let ret ← lookBlock fl v.1
    if ret = 2 then
      pure (Sum.inl (v.1 + 1, v.2.1, v.2.2))
    else if ret = 1 ∧ v.2.2.length < 128 then
      pure (Sum.inl (v.1 + 1, v.2.1 + 1, v.2.2 ++ [v.1]))
    else
      pure (Sum.inl (v.1 + 1, v.2.1 + 1, v.2.2))
  else
    pure (Sum.inr v.2.2)

/-- The used-bad blocks among the reserved ones. -/
def usedBadBlocks (fl : Flash) : Act St (List ℕ) := do
  modify fun s => { s with opsPara := {} }
  loopUntil (usedBadRound fl) scanFuel (fl.startBlk, 0, [])

/-- Visit pages `1, …, pages_per_blk` behind the start of a block; the page address is advanced
before the first visit. `some` means that a visit failed. -/
def repairPass (fl : Flash) (b : ℕ) (visit : Act St Bool) : Act St (Option Unit) := do
  modify fun s => { s with opsPara := { s.opsPara with pageAddr := fl.resPage b } }
  forPages fl.ppb fun _ => do
    modify fun s => { s with opsPara := { s.opsPara with pageAddr := s.opsPara.pageAddr + 1 } }
    let ok ← visit
    pure (if ok then none else some ())

/-- Test one block and make it good in the table if it passes. The table is changed before the
test and changed back when it fails. -/
def repairBlock (fl : Flash) (b : ℕ) : Act St Unit := do
  let giveUp : Act St Unit := do
    modify fun s => { s with opsPara := { s.opsPara with pageAddr := fl.resPage b } }
    let _ ← blkModifyBbtChipOp fl blockUsedBad
  seekBlock fl b
  let _ ← blkModifyBbtChipOp fl blockGood
  let ret ← eraseBlock fl
  if ret ≠ 0 then
    giveUp
  else
    let wrote ← repairPass fl b do
      let ret ← writePage fl (some fun _ => 0) none
      pure (decide (ret = 0))
    if wrote.isSome then
      giveUp
    else
      let read ← repairPass fl b do
        let r ← readPage fl true false
        let s ← get
        pure (!(s.opsPara.eccErr || decide (r.ret < 0)))
      if read.isSome then
        giveUp
      else
        modify fun s => { s with opsPara := { s.opsPara with pageAddr := fl.resPage b } }
        let ret ← eraseBlock fl
        if ret ≠ 0 then giveUp else pure ()

/-- Repair a list of blocks. -/
def repairBlocks (fl : Flash) : List ℕ → Act St Unit
  | [] => pure ()
  | b :: bs => do
    repairBlock fl b
    repairBlocks fl bs

/-- `repair_reserved_bad_block`. -/
def repairReservedBadBlock (fl : Flash) : Act St Unit := do
  let bad ← usedBadBlocks fl
  if 6 < bad.length then
    nandGetChip
    repairBlocks fl bad
    nandReleaseChip
    let _ ← amlnandUpdateBbt fl (blockMarkbadOp fl)
  else
    pure ()

/-! ## Bring-up -/

/-- `amlnand_get_dev_configs` up to the search for the bad-block table. -/
def bringUpPrelude (fl : Flash) : Act St ℤ := do
  amlnandConfigBufMalloc
  let ret ← readretrySlcInit fl
  if ret < 0 then
    pure ret
  else
    amlnandSetConfigAttribute
    pure 0

/-- Search for the bad-block table and load it. The code `amlnand_info_init` returns is only
printed. -/
def loadBbt (fl : Flash) : Act St Unit := do
  let (_, buf) ← amlnandInfoInit fl .nbbt (fun _ => 0) blockStatusSize
  modify fun s => { s with blkStatus := blockStatusOf buf }

/-- `aml_sys_info_init`, key and secure storage being compiled out. -/
def amlSysInfoInit (fl : Flash) : Act St ℤ := do
  let s ← get
  if (s.info .nenv).argValid then pure 0 else amlUbootenvInit fl

/-- Load the configuration and enter the block of the factory table it names in the list. -/
def loadConfig (fl : Flash) : Act St ℤ := do
  let (ret, config) ← amlnandInfoInit fl .ncnf (fun _ => 0) nandConfigSize
  modify fun s => { s with config := config }
  if ret < 0 then
    pure ret
  else
    when ((← get).info .ncnf).argValid (do
      modifyInfo .fbbt fun a => { a with validBlkAddr := fbbtBlkAddr config }
      modify fun s => { s with reservedBlk := enlist s.reservedBlk (fbbtBlkAddr config) })
    pure ret

/-- `amlnand_get_dev_configs` after the search for the bad-block table. -/
def bringUpRest (fl : Flash) : Act St ℤ := do
  let s ← get
  if ¬(s.info .nbbt).argValid then
    pure (-nandReadFailed)
  else
    let ret ← loadConfig fl
    if ret < 0 then
      pure ret
    else
      let ret ← amlSysInfoInit fl
      if ret < 0 then
        pure ret
      else
        amlnandInfoErrorHandle fl
        repairReservedBadBlock fl
        pure ret

/-- `amlnand_get_dev_configs`. -/
def amlnandGetDevConfigs (fl : Flash) : Act St ℤ := do
  let ret ← bringUpPrelude fl
  if ret < 0 then
    pure ret
  else
    loadBbt fl
    bringUpRest fl

end Amlnf
