import Mathlib.Data.List.Basic
import Mathlib.Tactic.Ring
import Amlnf.Lib.Act

set_option relaxedAutoImplicit false
set_option autoImplicit false

/-!
# Geometry, flash image and driver state

The data the physical layer of the driver works on: the geometry found at identification
(`struct nand_flash` and the constant part of `struct hw_controller`), the contents of the
chips, and the mutable part of `struct amlnand_chip`.

## Main definitions

* `Flash` — the geometry; the fields carry the facts the identification tables guarantee.
* `Flash.startBlk`, `Flash.resPage` — first reserved block and the reserved-area mapping from
  a block number to a page address on one chip.
* `Flash.slcAddr` — the SLC remapping of a page address.
* `Page`, `Image` — contents of one page and of all chips.
* `FlashOp`, `Image.replay` — program and erase commands and their effect.
* `St` — the driver state; `St.plan` supplies the outcome of each chip operation.

## Design

Page and block numbers are those the driver computes, before the fold of the address onto
the internal dies of a chip, which every chip operation applies alike. Programming a page
that is not erased leaves it uncorrectable. Each chip operation takes its outcome from
`St.plan` at position `St.tick`, so that quantifying over the plan quantifies over every
behaviour of the chip.
-/

namespace Amlnf

/-- A byte buffer. Only the bytes below the length a function is told about matter. -/
abbrev Buf := ℕ → UInt8

/-! ## Geometry -/

/-- The `new_type` values the identification tables give; `none` is the value `0`. -/
inductive NewType
  | none
  | hynix26nm4gb
  | hynix26nm8gb
  | hynix20nm4gb
  | hynix20nm8gb
  | hynix1ynm8gb
  | toshiba2xnm
  | toshibaA19nm
  | sumsung2xnm
  | sandisk19nm
  | sandisk24nm
  | sandiskA19nm
  | sandiskA19nm4g
  | micron20nm
  | intel20nm
  deriving DecidableEq, Repr

/-- The number of a flash type in the source. -/
def NewType.code : NewType → ℕ
  | .none => 0
  | .hynix26nm4gb => 1
  | .hynix26nm8gb => 2
  | .hynix20nm4gb => 3
  | .hynix20nm8gb => 4
  | .hynix1ynm8gb => 6
  | .toshiba2xnm => 20
  | .toshibaA19nm => 21
  | .sumsung2xnm => 30
  | .sandisk19nm => 40
  | .sandisk24nm => 41
  | .sandiskA19nm => 42
  | .sandiskA19nm4g => 53
  | .micron20nm => 50
  | .intel20nm => 60

/-- The types whose SLC pages come from a page list: `0 < new_type < 10`. -/
def NewType.isHynix (n : NewType) : Bool := 0 < n.code && n.code < 10

/-- The types for which the record functions set `DEV_SLC_MODE`. -/
def NewType.slc (n : NewType) : Bool := n.isHynix || n == .sandisk19nm

/-- `pagelist_hynix256`. -/
def pagelistHynix256 : List ℕ :=
  [0x00, 0x01, 0x02, 0x03, 0x06, 0x07, 0x0A, 0x0B,
   0x0E, 0x0F, 0x12, 0x13, 0x16, 0x17, 0x1A, 0x1B,
   0x1E, 0x1F, 0x22, 0x23, 0x26, 0x27, 0x2A, 0x2B,
   0x2E, 0x2F, 0x32, 0x33, 0x36, 0x37, 0x3A, 0x3B,
   0x3E, 0x3F, 0x42, 0x43, 0x46, 0x47, 0x4A, 0x4B,
   0x4E, 0x4F, 0x52, 0x53, 0x56, 0x57, 0x5A, 0x5B,
   0x5E, 0x5F, 0x62, 0x63, 0x66, 0x67, 0x6A, 0x6B,
   0x6E, 0x6F, 0x72, 0x73, 0x76, 0x77, 0x7A, 0x7B,
   0x7E, 0x7F, 0x82, 0x83, 0x86, 0x87, 0x8A, 0x8B,
   0x8E, 0x8F, 0x92, 0x93, 0x96, 0x97, 0x9A, 0x9B,
   0x9E, 0x9F, 0xA2, 0xA3, 0xA6, 0xA7, 0xAA, 0xAB,
   0xAE, 0xAF, 0xB2, 0xB3, 0xB6, 0xB7, 0xBA, 0xBB,
   0xBE, 0xBF, 0xC2, 0xC3, 0xC6, 0xC7, 0xCA, 0xCB,
   0xCE, 0xCF, 0xD2, 0xD3, 0xD6, 0xD7, 0xDA, 0xDB,
   0xDE, 0xDF, 0xE2, 0xE3, 0xE6, 0xE7, 0xEA, 0xEB,
   0xEE, 0xEF, 0xF2, 0xF3, 0xF6, 0xF7, 0xFA, 0xFB]

/-- `pagelist_1ynm_hynix256`. -/
def pagelist1ynmHynix256 : List ℕ :=
  [0x00, 0x01, 0x03, 0x05, 0x07, 0x09, 0x0b, 0x0d,
   0x0f, 0x11, 0x13, 0x15, 0x17, 0x19, 0x1b, 0x1d,
   0x1f, 0x21, 0x23, 0x25, 0x27, 0x29, 0x2b, 0x2d,
   0x2f, 0x31, 0x33, 0x35, 0x37, 0x39, 0x3b, 0x3d,
   0x3f, 0x41, 0x43, 0x45, 0x47, 0x49, 0x4b, 0x4d,
   0x4f, 0x51, 0x53, 0x55, 0x57, 0x59, 0x5b, 0x5d,
   0x5f, 0x61, 0x63, 0x65, 0x67, 0x69, 0x6b, 0x6d,
   0x6f, 0x71, 0x73, 0x75, 0x77, 0x79, 0x7b, 0x7d,
   0x7f, 0x81, 0x83, 0x85, 0x87, 0x89, 0x8b, 0x8d,
   0x8f, 0x91, 0x93, 0x95, 0x97, 0x99, 0x9b, 0x9d,
   0x9f, 0xa1, 0xa3, 0xa5, 0xa7, 0xa9, 0xab, 0xad,
   0xaf, 0xb1, 0xb3, 0xb5, 0xb7, 0xb9, 0xbb, 0xbd,
   0xbf, 0xc1, 0xc3, 0xc5, 0xc7, 0xc9, 0xcb, 0xcd,
   0xcf, 0xd1, 0xd3, 0xd5, 0xd7, 0xd9, 0xdb, 0xdd,
   0xdf, 0xe1, 0xe3, 0xe5, 0xe7, 0xe9, 0xeb, 0xed,
   0xef, 0xf1, 0xf3, 0xf5, 0xf7, 0xf9, 0xfb, 0xfd]

/-- `slc_info->pagelist` as `amlnand_set_readretry_slc_para` sets it. -/
def NewType.pagelist : NewType → List ℕ
  | .hynix1ynm8gb => pagelist1ynmHynix256
  | _ => pagelistHynix256

/-- `RESERVED_BLOCK_CNT`. -/
def reservedBlockCnt : ℕ := 48

/-- `MAX_CHIP_NUM`. -/
def maxChipNum : ℕ := 4

/-- `MAX_BLK_NUM`. -/
def maxBlkNum : ℕ := 8192

/-- The most blocks a chip of the identification table has. -/
def maxChipBlks : ℕ := 2 ^ 15

/-- The geometry of the chips behind the controller as identification leaves it. Page and
block sizes are powers of two, given by their shifts; the bounds on them are those of the
identification tables. Four chips of the tables have more blocks than the bad-block table has
entries for a chip. -/
structure Flash where
  /-- `ffs(pagesize) - 1`. -/
  pageShift : ℕ
  /-- `ffs(blocksize) - ffs(pagesize)`. -/
  ppbShift : ℕ
  /-- `controller->chip_num`. -/
  chipNum : ℕ
  /-- `flash->chipsize`, in MiB. -/
  chipsize : ℕ
  newType : NewType
  /-- `flash->option & NAND_MULTI_PLANE_MODE`. -/
  multiPlane : Bool
  /-- What lies in memory behind the 128 entries of the page list, by index. -/
  behindList : ℕ → UInt8
  chipNum_pos : 0 < chipNum
  chipNum_le : chipNum ≤ maxChipNum
  /-- The boot area of 1024 pages is at least one block. -/
  ppbShift_le : ppbShift ≤ 10
  /-- No chip has fewer than 32 pages per block. -/
  ppbShift_ge : 5 ≤ ppbShift
  /-- The page list of the Hynix types is written for 256 pages per block. -/
  hynix_ppb : newType.isHynix → ppbShift = 8
  /-- The erase size over four chips and two planes fits an `unsigned int`. -/
  shift_lt : pageShift + 10 + 3 < 32
  chipsize_le : chipsize * 2 ^ 20 ≤ maxChipBlks * 2 ^ (pageShift + ppbShift)
  /-- Two-plane mode is switched off when there are four chips. -/
  multiPlane_lt : multiPlane = true → chipNum < maxChipNum

namespace Flash

variable (fl : Flash)

/-- `flash->pagesize`. -/
def pagesize : ℕ := 2 ^ fl.pageShift

/-- `pages_per_blk`. -/
def ppb : ℕ := 2 ^ fl.ppbShift

/-- `flash->blocksize`. -/
def blocksize : ℕ := 2 ^ (fl.pageShift + fl.ppbShift)

/-- First reserved block: `(1024 * pagesize) >> phys_erase_shift`, also kept as `tmp_blk`. -/
def startBlk : ℕ := (1024 * fl.pagesize) >>> (fl.pageShift + fl.ppbShift)

/-- Block row of reserved block `b` on its chip. -/
def resRow (b : ℕ) : ℕ :=
  (b - b % fl.chipNum) / fl.chipNum + fl.startBlk - fl.startBlk / fl.chipNum

/-- Page address of the first page of reserved block `b`. -/
def resPage (b : ℕ) : ℕ := fl.resRow b * fl.ppb

/-- Chip that holds reserved block `b`. -/
def resChip (b : ℕ) : ℕ := b % fl.chipNum

/-- `pages_read`: how many pages of a block the record functions use. -/
def pagesRead : ℕ := if fl.newType.slc then fl.ppb >>> 1 else fl.ppb

/-- `slc_info->pagelist[i]`; an index past the list reads the memory behind it. -/
def listed (i : ℕ) : ℕ := fl.newType.pagelist.getD i (fl.behindList i).toNat

/-- The SLC remapping the record functions apply to a page address. -/
def slcAddr (p : ℕ) : ℕ :=
  if fl.newType.isHynix then (p - p % fl.ppb) ||| fl.listed (p % 256)
  else if fl.newType = .sandisk19nm then (p - p % fl.ppb) ||| ((p % fl.ppb) <<< 1)
  else p

/-- Page address of the `i`-th record page of reserved block `b`. -/
def recPage (b i : ℕ) : ℕ := fl.slcAddr (fl.resPage b + i)

/-- `arg_pages`: pages one copy of a record of `size` bytes takes. -/
def argPages (size : ℕ) : ℕ := (size >>> fl.pageShift) + 1

lemma argPages_eq (size : ℕ) : fl.argPages size = size / fl.pagesize + 1 := by
  rw [argPages, Nat.shiftRight_eq_div_pow, pagesize]

lemma ppb_pos : 0 < fl.ppb := Nat.two_pow_pos _

lemma pagesize_pos : 0 < fl.pagesize := Nat.two_pow_pos _

lemma blocksize_eq : fl.blocksize = fl.pagesize * fl.ppb := by
  rw [blocksize, pagesize, ppb, pow_add]

lemma ppb_le : fl.ppb ≤ 1024 := by
  calc fl.ppb = 2 ^ fl.ppbShift := rfl
    _ ≤ 2 ^ 10 := Nat.pow_le_pow_right (by omega) fl.ppbShift_le
    _ = 1024 := by norm_num

/-- The boot area in blocks. -/
lemma startBlk_eq : fl.startBlk = 2 ^ (10 - fl.ppbShift) := by
  have h := fl.ppbShift_le
  rw [startBlk, Nat.shiftRight_eq_div_pow, pagesize]
  have h1 : (1024 : ℕ) * 2 ^ fl.pageShift
      = 2 ^ (10 - fl.ppbShift) * 2 ^ (fl.pageShift + fl.ppbShift) := by
    rw [show (1024 : ℕ) = 2 ^ 10 by norm_num, ← pow_add, ← pow_add]
    congr 1
    omega
  rw [h1, Nat.mul_div_cancel _ (Nat.two_pow_pos _)]

lemma startBlk_mul_ppb : fl.startBlk * fl.ppb = 1024 := by
  rw [startBlk_eq, ppb, ← pow_add, Nat.sub_add_cancel fl.ppbShift_le]
  norm_num

lemma startBlk_pos : 0 < fl.startBlk := by
  rw [startBlk_eq]
  exact Nat.two_pow_pos _

lemma startBlk_le : fl.startBlk ≤ 1024 := by
  have h := fl.startBlk_mul_ppb
  have h2 := Nat.le_mul_of_pos_right fl.startBlk fl.ppb_pos
  omega

/-- The reserved-area row without the subtraction of the remainder. -/
lemma resRow_eq (b : ℕ) :
    fl.resRow b = b / fl.chipNum + (fl.startBlk - fl.startBlk / fl.chipNum) := by
  have h : (b - b % fl.chipNum) / fl.chipNum = b / fl.chipNum := by
    rw [← Nat.div_mul_self_eq_mod_sub_self, Nat.mul_div_cancel _ fl.chipNum_pos]
  have h2 : fl.startBlk / fl.chipNum ≤ fl.startBlk := Nat.div_le_self _ _
  rw [resRow, h, Nat.add_sub_assoc h2]

lemma resChip_lt (b : ℕ) : fl.resChip b < fl.chipNum := Nat.mod_lt _ fl.chipNum_pos

/-- Distinct reserved blocks lie on distinct chips or distinct rows. -/
lemma res_injective {b b' : ℕ} (hc : fl.resChip b = fl.resChip b')
    (hr : fl.resRow b = fl.resRow b') : b = b' := by
  rw [resRow_eq, resRow_eq] at hr
  unfold resChip at hc
  have h : b / fl.chipNum = b' / fl.chipNum := by omega
  rw [← Nat.div_add_mod b fl.chipNum, ← Nat.div_add_mod b' fl.chipNum, h, hc]

/-- The chip `H27UBG8T2A` of the identification table, `n` of them: 8 KiB pages, 256 pages
per block, two planes that are used for up to three chips. -/
def h27ubg8t2a (n : ℕ) (h0 : 0 < n) (h4 : n ≤ maxChipNum) : Flash where
  pageShift := 13
  ppbShift := 8
  chipNum := n
  chipsize := 4096
  newType := .none
  multiPlane := decide (n < maxChipNum)
  behindList := fun _ => 0
  chipNum_pos := h0
  chipNum_le := h4
  ppbShift_le := by decide
  ppbShift_ge := by decide
  hynix_ppb := by decide
  shift_lt := by decide
  chipsize_le := by decide
  multiPlane_lt := of_decide_eq_true

/-- The chip `H27UCG8T2A` of the identification table, a Hynix chip with read retry and SLC
mode. -/
def h27ucg8t2a : Flash where
  pageShift := 13
  ppbShift := 8
  chipNum := 1
  chipsize := 8192
  newType := .hynix20nm8gb
  multiPlane := true
  behindList := fun _ => 0
  chipNum_pos := by decide
  chipNum_le := by decide
  ppbShift_le := by decide
  ppbShift_ge := by decide
  hynix_ppb := by decide
  shift_lt := by decide
  chipsize_le := by decide
  multiPlane_lt := fun _ => by decide

/-- One chip `H27UBG8T2A`. -/
def oneChip : Flash := h27ubg8t2a 1 (by decide) (by decide)

end Flash

/-! ## Flash contents -/

/-- The reserved-area records. -/
inductive RecName
  | nbbt
  | fbbt
  | ncnf
  | nkey
  | nsec
  | nhix
  | nenv
  deriving DecidableEq, Repr

/-- The tag in the spare bytes of a record page (`struct _nand_arg_oobinfo`). -/
structure Tag where
  name : RecName
  timestamp : UInt16
  deriving DecidableEq, Repr

/-- Contents of one page. The spare bytes matter only as far as they start with the name of
a record. -/
inductive Page
  | erased
  | written (data : Buf) (oob : Option Tag)
  /-- Reads as uncorrectable. -/
  | bad

/-- Contents of all chips: chip, then page address. -/
abbrev Image := ℕ → ℕ → Page

/-- Data bytes a correctable page reads as. -/
def Page.data : Page → Buf
  | .written d _ => d
  | _ => fun _ => 0xff

/-- Tag a correctable page reads as; an erased page reads `0xff`. -/
def Page.oob : Page → Option Tag
  | .written _ o => o
  | _ => none

/-- Does the page read as uncorrectable? -/
def Page.isBad : Page → Bool
  | .bad => true
  | _ => false

/-- What programming `data` and `oob` makes of a page. -/
def Page.program (p : Page) (data : Buf) (oob : Option Tag) : Page :=
  match p with
  | .erased => .written data oob
  | _ => .bad

/-- A command that reached a chip. -/
inductive FlashOp
  | program (chip page : ℕ) (data : Buf) (oob : Option Tag)
  | erase (chip block : ℕ)

/-- Effect of one command that succeeds. -/
def Image.apply (fl : Flash) (m : Image) : FlashOp → Image
  | .program c p d o => fun c' p' => if c' = c ∧ p' = p then (m c p).program d o else m c' p'
  | .erase c b => fun c' p' => if c' = c ∧ p' / fl.ppb = b then .erased else m c' p'

/-- Effect of a sequence of commands that succeed. -/
def Image.replay (fl : Flash) (m : Image) (ops : List FlashOp) : Image :=
  ops.foldl (Image.apply fl) m

@[simp] lemma Image.replay_nil (fl : Flash) (m : Image) : m.replay fl [] = m := rfl

@[simp] lemma Image.replay_cons (fl : Flash) (m : Image) (op : FlashOp) (ops : List FlashOp) :
    m.replay fl (op :: ops) = (m.apply fl op).replay fl ops := rfl

lemma Image.replay_append (fl : Flash) (m : Image) (xs ys : List FlashOp) :
    m.replay fl (xs ++ ys) = (m.replay fl xs).replay fl ys :=
  List.foldl_append

/-- The page a command changes, or one of them. -/
def FlashOp.Hits (fl : Flash) : FlashOp → ℕ → ℕ → Prop
  | .program c p _ _, c', p' => c' = c ∧ p' = p
  | .erase c b, c', p' => c' = c ∧ p' / fl.ppb = b

instance (fl : Flash) (op : FlashOp) (c p : ℕ) : Decidable (op.Hits fl c p) :=
  match op with
  | .program _ _ _ _ => inferInstanceAs (Decidable (_ ∧ _))
  | .erase _ _ => inferInstanceAs (Decidable (_ ∧ _))

lemma Image.apply_of_not_hits (fl : Flash) (m : Image) {op : FlashOp} {c p : ℕ}
    (h : ¬op.Hits fl c p) : m.apply fl op c p = m c p := by
  cases op <;> exact if_neg h

/-- Commands that change other pages leave a page alone. -/
lemma Image.replay_of_not_hits (fl : Flash) (m : Image) (ops : List FlashOp) {c p : ℕ}
    (h : ∀ op ∈ ops, ¬op.Hits fl c p) : m.replay fl ops c p = m c p := by
  induction ops generalizing m with
  | nil => rfl
  | cons op ops ih =>
    rw [Image.replay_cons, ih _ fun o ho => h o (List.mem_cons_of_mem _ ho),
      Image.apply_of_not_hits fl m (h op List.mem_cons_self)]

/-! ## Outcomes of chip operations -/

/-- How a program or erase ends: done, or reported as failed with a negative code
`-(code + 1)`, in which case the pages concerned are left as `left` says. -/
inductive OpResult
  | done
  | failed (code : ℕ) (left : Image)

/-- How a page read ends: the ECC engine delivers the data (perhaps after correcting many
bits), gives up, or the read stops with the negative code `-(code + 1)`. -/
inductive ReadResult
  | clean (bitFlip : Bool)
  | uncorrectable
  | failed (code : ℕ)

/-- Everything one step may observe of the hardware. -/
structure Outcome where
  prog : OpResult
  erase : OpResult
  read : ReadResult
  /-- Bytes delivered by an uncorrectable read. -/
  garbage : Buf
  /-- Does `pinctrl_select_state` succeed? -/
  pin : Bool

/-- A step in which nothing fails. -/
def Outcome.Fine (o : Outcome) : Prop :=
  o.prog = .done ∧ o.erase = .done ∧ (∃ b, o.read = .clean b) ∧ o.pin = true

/-- An outcome in which nothing fails. -/
def Outcome.fine : Outcome := ⟨.done, .done, .clean false, fun _ => 0, true⟩

lemma Outcome.fine_fine : Outcome.fine.Fine := ⟨rfl, rfl, ⟨false, rfl⟩, rfl⟩

/-! ## Driver state -/

/-- `arg_type` of a record. -/
inductive ArgType
  | fullBlk
  | fullPage
  deriving DecidableEq, Repr

/-- `struct _nand_arg_info`. -/
structure ArgInfo where
  argType : ArgType := .fullBlk
  validBlkAddr : ℕ := 0
  validPageAddr : ℕ := 0
  freeBlkAddr : ℕ := 0
  argValid : Bool := false
  timestamp : UInt16 := 0
  updateFlag : Bool := false
  deriving DecidableEq

/-- The bits of `ops_para->option`. -/
structure OpsOption where
  slc : Bool := false
  multiChip : Bool := false
  multiPlane : Bool := false
  eccSoft : Bool := false
  deriving DecidableEq, Repr

/-- The option word: `DEV_SLC_MODE`, `DEV_MULTI_CHIP_MODE`, `DEV_MULTI_PLANE_MODE` and
`DEV_ECC_SOFT_MODE` from bit 0 up. -/
def OpsOption.bits (o : OpsOption) : UInt16 :=
  (if o.slc then 1 else 0) ||| (if o.multiChip then 2 else 0) |||
    (if o.multiPlane then 4 else 0) ||| (if o.eccSoft then 8 else 0)

/-- `struct chip_ops_para`; the buffers are passed to the operations directly. -/
structure ChipOpsPara where
  pageAddr : ℕ := 0
  chipnr : ℕ := 0
  option : OpsOption := {}
  eccErr : Bool := false
  bitFlip : Bool := false

/-- `chip_state_t`. -/
inductive ChipState
  | ready
  | reading
  | writing
  | erasing
  | shutdown
  deriving DecidableEq, Repr

/-- A bad-block table: chip, block, status. The rows of the source have `MAX_BLK_NUM` entries: of a
chip with more blocks the entries behind are kept here, where the source reads the next chip's
row. -/
abbrev BlkStatus := ℕ → ℕ → UInt16

/-- The driver state. -/
structure St where
  image : Image
  /-- Commands issued to the chips so far, oldest first. -/
  log : List FlashOp
  plan : ℕ → Outcome
  tick : ℕ
  /-- `block_status->blk_status`. -/
  blkStatus : BlkStatus
  /-- `nand_bbtinfo`, `shipped_bbtinfo`, `config_msg`, `nand_key`, `nand_secure`, the
  Hynix record and `uboot_env`. -/
  info : RecName → ArgInfo
  reservedBlk : List UInt8
  /-- The bytes of `config_ptr`. -/
  config : Buf
  opsPara : ChipOpsPara
  /-- Name tag in `user_oob_buf`. -/
  userOob : Option Tag
  /-- `amlnf_readonly`, `amlnf_allow_meta`, `amlnf_allow_markbad`: non-zero or not. -/
  readonly : Bool
  allowMeta : Bool
  allowMarkbad : Bool
  /-- Is `spi_nand_mutex` held? -/
  mutex : Bool
  /-- `nand_idleflag`. -/
  idleflag : Bool
  /-- Has the mutex been locked while it was held, or unlocked while it was not? -/
  lockFault : Bool
  state : ChipState
  /-- The parameters of the chip operations a device has called so far, oldest first. -/
  handed : List ChipOpsPara

/-- The record types `amlnand_set_config_attribute` sets; the Hynix record keeps the zero. -/
def argTypeOf : RecName → ArgType
  | .nkey => .fullPage
  | .nsec => .fullPage
  | .nenv => .fullPage
  | _ => .fullBlk

/-- A driver with erased chips, an empty bad-block table and no record found, in which every
kind of writing is allowed. -/
def St.blank : St where
  image := fun _ _ => .erased
  log := []
  plan := fun _ => .fine
  tick := 0
  blkStatus := fun _ _ => 0
  info := fun n => { argType := argTypeOf n }
  reservedBlk := List.replicate reservedBlockCnt 0xff
  config := fun _ => 0
  opsPara := {}
  userOob := none
  readonly := false
  allowMeta := true
  allowMarkbad := true
  mutex := false
  idleflag := false
  lockFault := false
  state := .ready
  handed := []

end Amlnf
