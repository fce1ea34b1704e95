import Mathlib.Data.Nat.Bits
import Mathlib.Tactic

set_option relaxedAutoImplicit false
set_option autoImplicit false

/-!
# Identification of the chip

`id_table.c` and `get_flash_type`: the chips the driver knows, and what it computes of the one it
finds.

## Main definitions

* `flashIdsSlc`, `flashIdsMlc` — the tables of known chips.
* `getFlashType` — the lookup, with the geometry of the chip found.

## Main results

* `getFlashType_wellFormed` — what every chip that is accepted has in common.

## Design

Of a table entry we keep what the address arithmetic needs. The entries of the first table have no
number of internal dies; the division by it that follows is one by zero, for which the division
routine of the kernel returns zero, as Lean does.
-/

namespace Amlnf

/-- `struct nand_flash`, as far as addresses go. -/
structure NandFlash where
  id : List ℕ
  pagesize : ℕ
  /-- In MiB. -/
  chipsize : ℕ
  blocksize : ℕ
  internalChipnr : ℕ
  deriving DecidableEq, Repr

/-- `flash_ids_slc`. -/
def flashIdsSlc : List NandFlash :=
  [ ⟨[0, 0x79], 512, 128, 0x4000, 0⟩,
    ⟨[0, 0x71], 512, 256, 0x4000, 0⟩,
    ⟨[0, 0xf2], 0, 64, 0, 0⟩,
    ⟨[0, 0xf1], 0, 128, 0, 0⟩,
    ⟨[0, 0xda], 0, 256, 0, 0⟩,
    ⟨[0, 0xdc], 0, 512, 0, 0⟩,
    ⟨[0, 0xd3], 0, 1024, 0, 0⟩ ]

/-- `flash_ids_mlc`. -/
def flashIdsMlc : List NandFlash :=
  [ ⟨[0xad, 0xd5, 0x94, 0x25, 0x44, 0x41], 4096, 2048, 0x80000, 1⟩,
    ⟨[0xad, 0xd7, 0x94, 0x9a, 0x74, 0x42], 8192, 4096, 0x200000, 1⟩,
    ⟨[0xad, 0xd5, 0x94, 0x9a, 0x74, 0x42], 8192, 2048, 0x200000, 1⟩,
    ⟨[0xad, 0xd7, 0x94, 0xda, 0x74, 0xc3], 8192, 4096, 0x200000, 1⟩,
    ⟨[0xad, 0xde, 0x94, 0xd2, 0x04, 0x43], 8192, 8192, 0x200000, 1⟩,
    ⟨[0xad, 0xd7, 0x94, 0x91, 0x60, 0x44], 8192, 4096, 0x200000, 1⟩,
    ⟨[0xad, 0xde, 0x94, 0xda, 0x74, 0xc4], 8192, 8192, 0x200000, 1⟩,
    ⟨[0xad, 0xde, 0x94, 0xeb, 0x74, 0x44], 16384, 8192, 0x400000, 1⟩,
    ⟨[0xad, 0xde, 0x14, 0xa7, 0x42, 0x4a], 16384, 8192, 0x400000, 1⟩,
    ⟨[0x2c, 0x64, 0x44, 0x4b, 0xa9], 8192, 8192, 0x200000, 1⟩,
    ⟨[0x2c, 0x44, 0x44, 0x4b, 0xa9], 8192, 4096, 0x200000, 1⟩,
    ⟨[0x89, 0x88, 0x24, 0x4b, 0xa9, 0x84], 8192, 8192, 0x200000, 1⟩,
    ⟨[0x89, 0x88, 0x24, 0x4b, 0xa9, 0x84], 8192, 16384, 0x200000, 1⟩,
    ⟨[0x2c, 0xd7, 0x94, 0x3e, 0x84], 4096, 4096, 0x80000, 1⟩,
    ⟨[0x2c, 0xd9, 0xd5, 0x3e, 0x88], 4096, 16384, 0x80000, 1⟩,
    ⟨[0x2c, 0x68, 0x04, 0x46, 0x89], 4096, 4096, 0x100000, 1⟩,
    ⟨[0x2c, 0x88, 0x05, 0xc6, 0x89], 4096, 8192, 0x100000, 1⟩,
    ⟨[0x2c, 0x68, 0x04, 0x4a, 0xa9], 4096, 4096, 0x100000, 1⟩,
    ⟨[0x2c, 0x88, 0x04, 0x4b, 0xa9], 8192, 8192, 0x200000, 1⟩,
    ⟨[0x2c, 0xa8, 0x05, 0xcb, 0xa9], 8192, 16384, 0x200000, 2⟩,
    ⟨[0x89, 0x68, 0x04, 0x46, 0xa9], 4096, 4096, 0x100000, 1⟩,
    ⟨[0x89, 0x88, 0x24, 0x4b, 0xa9], 8192, 8192, 0x200000, 1⟩,
    ⟨[0x98, 0xd5, 0x94, 0x32, 0x76, 0x54], 8192, 2048, 0x100000, 1⟩,
    ⟨[0x98, 0xd7, 0x94, 0x32, 0x76, 0x54], 8192, 4096, 0x100000, 1⟩,
    ⟨[0x98, 0xd5, 0x94, 0x32, 0x76, 0x55], 8192, 2076, 0x100000, 1⟩,
    ⟨[0x98, 0xd7, 0x94, 0x32, 0x76, 0x55], 8192, 4096, 0x100000, 1⟩,
    ⟨[0x98, 0xde, 0x94, 0x32, 0x76, 0x55], 8192, 8192, 0x100000, 1⟩,
    ⟨[0x98, 0xde, 0x95, 0x32, 0x7a, 0x55], 8192, 8200, 0x100000, 2⟩,
    ⟨[0x98, 0xd7, 0x94, 0x32, 0x76, 0x56], 8192, 4096, 0x100000, 1⟩,
    ⟨[0x98, 0xde, 0x94, 0x82, 0x76, 0x56], 8192, 8192, 0x200000, 1⟩,
    ⟨[0x98, 0xde, 0x84, 0x93, 0x72, 0x57], 16384, 8192, 0x400000, 1⟩,
    ⟨[0x98, 0xd7, 0x84, 0x93, 0x72, 0x57], 16384, 4096, 0x400000, 1⟩,
    ⟨[0x98, 0x3a, 0x85, 0x93, 0x76, 0x57], 16384, 16384, 0x400000, 2⟩,
    ⟨[0x98, 0xd7, 0x84, 0x93, 0x72, 0x50], 16384, 4096, 0x400000, 1⟩,
    ⟨[0x98, 0xde, 0x94, 0x93, 0x76, 0x50], 16384, 8192, 0x400000, 1⟩,
    ⟨[0x45, 0xde, 0x94, 0x93, 0x76, 0x57], 16384, 8192, 0x400000, 1⟩,
    ⟨[0x45, 0xd7, 0x84, 0x93, 0x72, 0x57], 16384, 4096, 0x400000, 1⟩,
    ⟨[0x45, 0xde, 0xa4, 0x82, 0x76, 0x56], 8192, 8192, 0x200000, 1⟩,
    ⟨[0x45, 0xde, 0x94, 0x93, 0x76, 0x50], 16384, 8192, 0x400000, 1⟩,
    ⟨[0x45, 0xd7, 0x84, 0x93, 0x72, 0x50], 16384, 4096, 0x400000, 1⟩,
    ⟨[0xec, 0xd5, 0x14, 0xb6, 0x74], 4096, 2048, 0x80000, 1⟩,
    ⟨[0xec, 0xd5, 0x94, 0x29, 0x34, 0x41], 4096, 2048, 0x80000, 1⟩,
    ⟨[0xec, 0xd5, 0x84, 0x72, 0x50, 0x42], 8192, 2048, 0x100000, 1⟩,
    ⟨[0xec, 0xd5, 0x94, 0x76, 0x54, 0x43], 8192, 2048, 0x100000, 1⟩,
    ⟨[0xec, 0xd7, 0xc5, 0x72, 0x54, 0x42], 8192, 4096, 0x100000, 1⟩,
    ⟨[0xec, 0xde, 0xc5, 0x72, 0x54, 0x42], 8192, 8192, 0x100000, 1⟩,
    ⟨[0xec, 0xd7, 0x94, 0x7a, 0x54, 0x43], 8192, 4152, 0x100000, 1⟩,
    ⟨[0xec, 0xde, 0xd5, 0x7a, 0x58, 0x43], 8192, 8304, 0x100000, 1⟩,
    ⟨[0xec, 0xd7, 0x94, 0x7e, 0x64, 0x44], 8192, 4096, 0x100000, 1⟩,
    ⟨[0xec, 0xde, 0xa4, 0x7a, 0x68, 0xc4], 8192, 8192, 0x100000, 1⟩,
    ⟨[0xec, 0xde, 0xd5, 0x7e, 0x68, 0x44], 8192, 8192, 0x100000, 1⟩ ]

/-- `ffs`: the position of the lowest set bit, from one. -/
def ffs (x : ℕ) : ℕ := ((List.range 32).find? fun i => x.testBit i).elim 0 (· + 1)

/-- What `get_flash_type` leaves in `aml_chip->flash` and in the controller. -/
structure ChipId where
  flash : NandFlash
  pageShift : ℕ
  blockShift : ℕ
  internalPageNums : ℕ
  deriving DecidableEq, Repr

namespace ChipId

variable (c : ChipId)

/-- The pages of the chip. -/
def pages : ℕ := (c.flash.chipsize <<< (20 - c.pageShift)) % 2 ^ 32

/-- `1 << pages_per_blk_shift`. -/
def ppb : ℕ := 1 <<< (c.blockShift - c.pageShift)

end ChipId

/-- `strncmp` of the id bytes of an entry with the bytes the chip sent, over the length of the
former. -/
def idMatches (devId : List ℕ) (f : NandFlash) : Bool := f.id.isPrefixOf devId

/-- The lookup in the two tables. -/
def lookupId (devId : List ℕ) : Option NandFlash :=
  match flashIdsSlc.find? fun f => devId[1]? = f.id[1]? with
  | some f => some f
  | none => flashIdsMlc.find? (idMatches devId)

/-- The geometry a newer SLC chip tells in its fourth id byte; none for a bus of 16 bits. -/
def decodeExtid (f : NandFlash) (extid : ℕ) : Option NandFlash :=
  if f.pagesize = 0 then
    if (extid >>> 6) &&& 2 ≠ 0 then
      none
    else
      some { f with
        pagesize := 1024 <<< (extid &&& 3)
        blocksize := (64 * 1024) <<< ((extid >>> 4) &&& 3) }
  else
    some f

/-- The shifts and the pages of a die. -/
def chipOf (f : NandFlash) : ChipId :=
  let pageShift := ffs f.pagesize - 1
  { flash := f
    pageShift := pageShift
    blockShift := ffs f.blocksize - 1
    internalPageNums := (f.chipsize <<< (20 - pageShift)) % 2 ^ 32 / f.internalChipnr }

/-- `get_flash_type`, from the id bytes the chip sends; none when it fails. -/
def getFlashType (devId : List ℕ) (extid : ℕ) : Option ChipId := do
  let f ← lookupId devId
  let f ← decodeExtid f extid
  pure (chipOf f)

/-! ## The accepted chips -/

/-- What the accepted chips have in common. -/
@[mk_iff]
structure ChipId.WellFormed (c : ChipId) : Prop where
  /-- `erase_block` computes the pages of a block from the sizes. -/
  ffs_sub : ffs c.flash.blocksize - ffs c.flash.pagesize = c.blockShift - c.pageShift
  /-- There are at most two dies, of the same number of blocks. -/
  dies : c.flash.internalChipnr = 0 ∧ c.internalPageNums = 0 ∨
    c.flash.internalChipnr = 1 ∧ c.internalPageNums = c.pages ∨
    c.flash.internalChipnr = 2 ∧ c.pages = 2 * c.internalPageNums ∧
      c.internalPageNums % c.ppb = 0 ∧ 0 < c.internalPageNums
  pages_le : c.pages ≤ 2 ^ 22

instance (c : ChipId) : Decidable c.WellFormed :=
  decidable_of_iff _ (ChipId.wellFormed_iff c).symm

lemma wellFormed_mlc : ∀ f ∈ flashIdsMlc, 0 < f.pagesize ∧ (chipOf f).WellFormed := by
  decide +kernel

/-- The fourth id byte has four page sizes and four block sizes to offer. -/
lemma wellFormed_slc : ∀ f ∈ flashIdsSlc, (0 < f.pagesize → (chipOf f).WellFormed) ∧
    ∀ i < 4, ∀ j < 4, (chipOf { f with
      pagesize := 1024 <<< i
      blocksize := (64 * 1024) <<< j }).WellFormed := by
  decide +kernel

lemma lookupId_mem {devId : List ℕ} {f : NandFlash} (h : lookupId devId = some f) :
    f ∈ flashIdsSlc ∨ f ∈ flashIdsMlc := by
  unfold lookupId at h
  split at h
  · cases h
    rename_i hfind
    exact .inl (List.mem_of_find?_eq_some hfind)
  · exact .inr (List.mem_of_find?_eq_some h)

/-- Every accepted chip is well formed. -/
lemma getFlashType_wellFormed {devId : List ℕ} {extid : ℕ} {c : ChipId}
    (h : getFlashType devId extid = some c) : c.WellFormed := by
  obtain ⟨f, hf, h⟩ := Option.bind_eq_some_iff.mp h
  obtain ⟨g, hg, hc⟩ := Option.bind_eq_some_iff.mp h
  cases hc
  have hle : ∀ x, x &&& 3 < 4 := fun x => Nat.lt_succ_of_le Nat.and_le_right
  unfold decodeExtid at hg
  split at hg
  · rename_i hzero
    split at hg
    · cases hg
    · cases hg
      rcases lookupId_mem hf with hmem | hmem
      · exact (wellFormed_slc f hmem).2 _ (hle _) _ (hle _)
      · have hpos := (wellFormed_mlc f hmem).1
        omega
  · rename_i hpos
    cases hg
    rcases lookupId_mem hf with hmem | hmem
    · exact (wellFormed_slc f hmem).1 (Nat.pos_of_ne_zero hpos)
    · exact (wellFormed_mlc f hmem).2

end Amlnf
