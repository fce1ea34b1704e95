import Amlnf.Dev.Phydev

set_option relaxedAutoImplicit false
set_option autoImplicit false

/-!
# The boot area

`boot_operation.c`: the boot device holds four copies of the boot image, 256 pages each. The
first page of a copy is the boot info page, the image follows it.

## Main definitions

* `nandBootInfoPrepare` — contents of the boot info page.
* `bootRound`, `bootCopies`, `writeUboot` — one page of a copy, the copies, the whole of
  `write_uboot`.
* `bootWriteLen`, `bootAccepts` — the length `roomboot_nand_write` works with and the requests
  it accepts.
* `roombootNandWrite`, `ubootWrite` — erase the boot area and write the copies; the write
  entry of the character device.

## Design

A pointer into the caller's buffer is the memory from there on, so that what lies behind the
buffer can be seen in what is programmed. The sizes of the boot device are those of one page
and one block of one chip. The switches of the ECC engine and of the scrambler around the info
page have no counterpart, and neither has a failed allocation.
-/

namespace Amlnf

open Act

/-- `BOOT_COPY_NUM`. -/
def bootCopyNum : ℕ := 4

/-- `BOOT_PAGES_PER_COPY`. -/
def bootPagesPerCopy : ℕ := 256

/-! ## The boot info page -/

/-- `NAND_PAGELIST_CNT`. -/
def nandPagelistCnt : ℕ := 16

/-- What `nand_boot_info_prepare` reads besides the geometry. -/
structure BootCfg where
  /-- The read command of the data pages: `NFC_CMD_N2M`. -/
  configureData : ℕ
  /-- `ce_bit_mask`. -/
  ceBitMask : ℕ

/-- Byte `k` of a little-endian word. -/
def wordByte (w k : ℕ) : UInt8 := UInt8.ofNat (w >>> (8 * k))

/-- `ext` of `struct nand_page0_cfg_t`. -/
def page0Ext (fl : Flash) (cfg : BootCfg) : ℕ :=
  cfg.configureData ||| 1 <<< 23 ||| 1 <<< 22 ||| 2 <<< 20 ||| 1 <<< 19
    ||| (if fl.newType.slc then 1 <<< 26 else 0)
    ||| (if fl.newType = .sandisk19nm then 1 <<< 24 else 0)

/-- `list` of `struct nand_page0_cfg_t`. -/
def page0List (fl : Flash) (i : ℕ) : ℕ :=
  if fl.newType.isHynix then fl.newType.pagelist.getD (i + 1) 0
  else if fl.newType = .sandisk19nm ∧ i + 1 < nandPagelistCnt then (i + 1) <<< 1
  else 0

/-- `struct nand_page0_info_t`, word by word. -/
def page0Info (fl : Flash) (cfg : BootCfg) : List ℕ :=
  [fl.chipNum, fl.newType.code, fl.ppb, 0, cfg.ceBitMask, 0, 0, 0]

/-- `nand_boot_info_prepare`: the configuration at the start of the page, the info words
before byte 384. -/
def nandBootInfoPrepare (fl : Flash) (cfg : BootCfg) : Buf := fun i =>
  if i < 4 then wordByte (page0Ext fl cfg) i
  else if 8 ≤ i ∧ i < 8 + nandPagelistCnt then UInt8.ofNat (page0List fl (i - 8))
  else if 352 ≤ i ∧ i < 384 then wordByte ((page0Info fl cfg).getD ((i - 352) / 4) 0) (i % 4)
  else 0

/-! ## Writing the copies -/

/-- `fill_buf`. -/
def fillBuf : Buf := fun _ => 0xff

/-- The page byte `addr` of the boot area lies in. -/
def bootPage (fl : Flash) (addr : ℕ) : ℕ := addr % 2 ^ 32 / fl.pagesize

/-- Set `page_addr` and leave the rest of `ops_para` as it is. -/
def seekBoot (p : ℕ) : Act St Unit :=
  modify fun s => { s with opsPara := { s.opsPara with pageAddr := p } }

/-- `priv_lsb`: the list page before that of `p`. -/
def privLsb (fl : Flash) (p : ℕ) : ℕ :=
  (p - p % fl.ppb) ||| fl.listed (p % bootPagesPerCopy - 1)

/-- The pages between the list page before `p` and that of `p`, which `HYNIX_1YNM_8GB` wants
filled. Failures are ignored. -/
def fillBetween (fl : Flash) (p : ℕ) : Act St Unit :=
  if fl.newType = .hynix1ynm8gb ∧ 1 < p % bootPagesPerCopy then do
    let _ ← forPages (fl.slcAddr p - (privLsb fl p + 1)) fun k => do
      seekBoot (privLsb fl p + 1 + k)
      let _ ← writePage fl (some fillBuf) none
      pure (none : Option Unit)
    seekBoot (fl.slcAddr p)
  else
    pure ()

/-- What the inner loop of `write_uboot` changes. -/
structure CopyLocals where
  addr : ℕ
  writelen : ℕ := 0
  /-- The memory `devops->datbuf` points to. -/
  datbuf : Buf

/-- What follows a page of a copy that was written: the next page, or the end with the entry of
`write_boot_status` and `writelen`. The info page is followed by no test; behind it the length
and the end of the block are compared after each page. -/
def bootNext (fl : Flash) (len : ℕ) (v : CopyLocals) : CopyLocals ⊕ (Bool × ℕ) :=
  let addr := v.addr + fl.pagesize
  if bootPage fl v.addr % bootPagesPerCopy = 0 then
    Sum.inl { v with addr := addr }
  else
    let writelen := v.writelen + fl.pagesize
    let datbuf : Buf :=
      if len ≤ writelen ∧ writelen < fl.blocksize then fillBuf
      else fun i => v.datbuf (fl.pagesize + i)
    let stop := if fl.newType.slc then fl.blocksize >>> 1 else fl.blocksize
    if (len + 2 ^ 64 - fl.pagesize) % 2 ^ 64 ≤ writelen ∨ addr % 2 ^ 32 % stop = 0 then
      Sum.inr (false, writelen)
    else
      Sum.inl ⟨addr, writelen, datbuf⟩

/-- One page of a copy, in which `len` bytes are to be written. -/
def bootRound (fl : Flash) (info : Buf) (len : ℕ) (v : CopyLocals) :
    Act St (CopyLocals ⊕ (Bool × ℕ)) := do
  let p := bootPage fl v.addr
  seekBoot (fl.slcAddr p)
  fillBetween fl p
  let ret ← writePage fl (some (if p % bootPagesPerCopy = 0 then info else v.datbuf)) none
  if ret < 0 then pure (Sum.inr (true, v.writelen)) else pure (bootNext fl len v)

/-- One copy. The test for the end of a block ends the loop within a block. -/
def bootCopy (fl : Flash) (info : Buf) (len : ℕ) (datbuf : Buf) (i : ℕ) : Act St (Bool × ℕ) :=
  loopUntil (bootRound fl info len) (fl.ppb + 1)
    { addr := fl.pagesize * (bootPagesPerCopy * i), datbuf := datbuf }

/-- The copies of a list, in order: `write_boot_status` and `writelen` of each. -/
def bootCopies (fl : Flash) (info : Buf) (len : ℕ) (datbuf : Buf) :
    List ℕ → Act St (List (Bool × ℕ))
  | [] => pure []
  | i :: is => do
    let r ← bootCopy fl info len datbuf i
    let rs ← bootCopies fl info len datbuf is
    pure (r :: rs)

/-- What `write_uboot` computes. -/
structure BootResult where
  ret : ℤ
  /-- `write_boot_status`. -/
  status : List Bool := List.replicate bootCopyNum false
  retlen : ℕ := 0

/-- `write_uboot` for the request `addr`, `len`, `datbuf`; `ooblen` is zero. -/
def writeUboot (fl : Flash) (cfg : BootCfg) (addr len : ℕ) (datbuf : Buf) : Act St BootResult := do
  if (bootDev fl).size < (addr + len) % 2 ^ 64 then
    pure { ret := -nandArgumentFailure }
  else if len = 0 ∨ addr ≠ 0 then
    pure { ret := 0 }
  else
    modify fun s => { s with opsPara := { option := { slc := fl.newType.slc } } }
    let rs ← bootCopies fl (nandBootInfoPrepare fl cfg) len datbuf (List.range bootCopyNum)
    let status := rs.map Prod.fst
    pure { ret := if status.count true < 2 then 0 else 1
           status := status
           retlen := (rs.getLastD (false, 0)).2 }

/-! ## The request -/

/-- `write_len`: at least a block, half a block for the types with SLC pages, rounded up to
pages in `unsigned int`. -/
def bootWriteLen (fl : Flash) (len : ℕ) : ℕ :=
  let w := if len < fl.blocksize then fl.blocksize else len
  let w := if fl.newType.slc then fl.blocksize >>> 1 else w
  (w + fl.pagesize - 1) % 2 ^ 32 / fl.pagesize * fl.pagesize

/-- The requests `roomboot_nand_write` does not turn down. -/
def bootAccepts (fl : Flash) (addr len : ℕ) : Prop :=
  addr = 0 ∧ bootWriteLen fl len % fl.pagesize = 0 ∧
    bootWriteLen fl len ≤ (bootDev fl).size / bootCopyNum

instance (fl : Flash) (addr len : ℕ) : Decidable (bootAccepts fl addr len) :=
  inferInstanceAs (Decidable (_ ∧ _))

/-- One block of the erase loop of `roomboot_nand_write`. A factory-bad block is passed over
and the result of the erase is ignored. -/
def eraseBootRound (fl : Flash) (addr : ℕ) : Act St (ℕ ⊕ Unit) := do
  seekBoot (bootPage fl addr)
  let ret ← blockIsbad fl
  when (ret ≠ 2) do
    when (fl.newType = .sandisk19nm) (seekBoot (fl.slcAddr (bootPage fl addr)))
    let _ ← eraseBlock fl
  if addr + fl.blocksize < 1024 * fl.pagesize then pure (Sum.inl (addr + fl.blocksize))
  else pure (Sum.inr ())

/-- `roomboot_nand_write`. -/
def roombootNandWrite (fl : Flash) (cfg : BootCfg) (addr len : ℕ) (buffer : Buf) :
    Act St BootResult := do
  if addr ≠ 0 then
    pure { ret := -1 }
  else
    let writeLen := bootWriteLen fl len
    if writeLen % fl.pagesize ≠ 0 then
      pure { ret := -nandWriteFailed }
    else if (bootDev fl).size / bootCopyNum < writeLen then
      pure { ret := -nandWriteFailed }
    else
      modify fun s =>
        { s with opsPara := { option := { slc := decide (fl.newType = .sandisk19nm) } } }
      loopUntil (eraseBootRound fl) (fl.startBlk + 1) addr
      writeUboot fl cfg addr writeLen buffer

/-- The buffer of `uboot_write`: `count` bytes of the user, zeros up to a whole page, and then
whatever the memory behind it holds. -/
def ubootBuf (user memory : Buf) (count alignCount : ℕ) : Buf := fun i =>
  if i < count then user i else if i < alignCount then 0 else memory i

/-- `uboot_write`: the number of bytes reported as written. -/
def ubootWrite (fl : Flash) (cfg : BootCfg) (user memory : Buf) (count : ℕ) : Act St ℕ := do
  let alignCount := (count + fl.pagesize - 1) % 2 ^ 32 / fl.pagesize * fl.pagesize
  let r ← withDevice .writing
    (roombootNandWrite fl cfg 0 alignCount (ubootBuf user memory count alignCount))
  pure (if r.ret < 0 then 0 else count)

end Amlnf
