import Amlnf.Phy.BbtLoad

set_option relaxedAutoImplicit false
set_option autoImplicit false

/-!
# What the record checksum covers

`aml_info_check_datasum` adds up the bytes of a part of the record and compares the sum with
the one stored in front. A single byte changed inside that part always changes the sum. The
part is given by its start and a length, and the length passed for the bad-block table is its
number of entries: of the two bytes an entry has, the bytes of the first two chips are added
and the other two chips are not. For the configuration the sum ends with the device
parameters, before the number of devices.

## Main definitions

* `UsedField` — the fields of the two records that the driver acts on, with their place.
* `UsedField.Covered` — the fields inside the summed part.

## Main results

* `amlInfoChecksum_update_ne` — a changed byte of the summed part changes the sum.
* `rejects_iff_covered` — a changed byte of a field is noticed exactly when the field is
  covered.
-/

namespace Amlnf

/-! ## One changed byte -/

section Update

variable {buf : Buf} {off len k : ℕ} {v : UInt8}

/-- The sum before it is cut to 32 bits. -/
def byteSum (buf : Buf) (off len : ℕ) : ℕ :=
  (List.range len).foldl (fun c i => c + (buf (off + i)).toNat) 0

lemma byteSum_succ (buf : Buf) (off len : ℕ) :
    byteSum buf off (len + 1) = byteSum buf off len + (buf (off + len)).toNat := by
  unfold byteSum
  rw [List.range_succ, List.foldl_append]
  rfl

/-- A byte outside the range does not enter the sum. -/
lemma byteSum_update_of_outside (h : k < off ∨ off + len ≤ k) :
    byteSum (Function.update buf k v) off len = byteSum buf off len := by
  induction len with
  | zero => rfl
  | succ len ih =>
    have hne : off + len ≠ k := by omega
    rw [byteSum_succ, byteSum_succ, ih (by omega), Function.update_of_ne hne]

/-- A byte inside the range enters the sum once. -/
lemma byteSum_update_of_inside (buf : Buf) (v : UInt8) (h1 : off ≤ k) (h2 : k < off + len) :
    byteSum (Function.update buf k v) off len + (buf k).toNat =
      byteSum buf off len + v.toNat := by
  induction len with
  | zero => omega
  | succ len ih =>
    rw [byteSum_succ, byteSum_succ]
    obtain rfl | hlt : k = off + len ∨ k < off + len := by omega
    · rw [byteSum_update_of_outside (Or.inr (Nat.le_refl _)), Function.update_self]
      omega
    · rw [Function.update_of_ne (by omega)]
      have := ih hlt
      omega

/-- A byte outside the range does not change the checksum. -/
lemma amlInfoChecksum_update_of_outside (h : k < off ∨ off + len ≤ k) :
    amlInfoChecksum (Function.update buf k v) off len = amlInfoChecksum buf off len := by
  change byteSum _ off len % 2 ^ 32 = byteSum _ off len % 2 ^ 32
  rw [byteSum_update_of_outside h]

/-- **A changed byte of the range changes the checksum**, also after the sum is cut to 32
bits: the two sums differ by less than 256. -/
lemma amlInfoChecksum_update_ne (h1 : off ≤ k) (h2 : k < off + len) (hv : v ≠ buf k) :
    amlInfoChecksum (Function.update buf k v) off len ≠ amlInfoChecksum buf off len := by
  have hsum := byteSum_update_of_inside buf v h1 h2
  have hne : v.toNat ≠ (buf k).toNat := fun h => hv (UInt8.toNat_inj.1 h)
  have hlt : v.toNat < 256 := v.toNat_lt
  have hlt' : (buf k).toNat < 256 := (buf k).toNat_lt
  change byteSum _ off len % 2 ^ 32 ≠ byteSum _ off len % 2 ^ 32
  omega

/-- The stored checksum is read from the four bytes in front. -/
lemma leNat_update (h : 4 ≤ k) : leNat (Function.update buf k v) 0 4 = leNat buf 0 4 := by
  simp only [leNat]
  rw [Function.update_of_ne (by omega), Function.update_of_ne (by omega),
    Function.update_of_ne (by omega), Function.update_of_ne (by omega)]

/-- When a record is accepted. -/
lemma checkDatasum_eq_zero_iff {name : RecName} (hrange : checksumRange name = some (off, len)) :
    amlInfoCheckDatasum buf name = 0 ↔ amlInfoChecksum buf off len = leNat buf 0 4 := by
  simp only [amlInfoCheckDatasum, hrange]
  split
  · rename_i h
    simp [h]
  · rename_i h
    simp [h, nandReadFailed]

/-- The verdict on a record whose checksum was right and of which one byte behind the checksum
is changed. -/
lemma checkDatasum_update {name : RecName} (hrange : checksumRange name = some (off, len))
    (hok : amlInfoCheckDatasum buf name = 0) (hk : 4 ≤ k) (hv : v ≠ buf k) :
    amlInfoCheckDatasum (Function.update buf k v) name = -nandReadFailed ↔
      off ≤ k ∧ k < off + len := by
  have hsum := (checkDatasum_eq_zero_iff hrange).1 hok
  have hcheck : amlInfoCheckDatasum (Function.update buf k v) name =
      if amlInfoChecksum (Function.update buf k v) off len = amlInfoChecksum buf off len then 0
      else -nandReadFailed := by
    simp only [amlInfoCheckDatasum, hrange, leNat_update hk, hsum]
  rw [hcheck]
  constructor
  · intro h
    by_contra hout
    rw [if_pos (amlInfoChecksum_update_of_outside (by omega))] at h
    exact absurd h (by decide)
  · rintro ⟨h1, h2⟩
    exact if_neg (amlInfoChecksum_update_ne h1 h2 hv)

end Update

/-! ## The fields the driver acts on -/

/-- `MAX_DEVICE_NUM`. -/
def maxDeviceNum : ℕ := 4

/-- `MAX_NAND_PART_NUM`. -/
def maxNandPartNum : ℕ := 16

/-- The fields of `struct block_status` and `struct nand_config` the driver acts on. A
partition stands for its name, size, offset and mask flags. -/
inductive UsedField
  | blkStatus (chip block : ℕ)
  | devName (dev : ℕ)
  | devSize (dev : ℕ)
  | partition (dev part : ℕ)
  | nrPartitions (dev : ℕ)
  | devOption (dev : ℕ)
  | devNum
  deriving DecidableEq, Repr

namespace UsedField

/-- The record a field is in. -/
def record : UsedField → RecName
  | blkStatus _ _ => .nbbt
  | _ => .ncnf

/-- Its first byte. A `struct dev_para` takes 680 bytes and starts at byte 8, a
`struct amlnf_partition` takes 40 bytes, of which the last four are a pointer. -/
def offset : UsedField → ℕ
  | blkStatus chip block => 4 + 2 * (chip * maxBlkNum + block)
  | devName dev => 8 + 680 * dev
  | devSize dev => 8 + 680 * dev + 24
  | partition dev part => 8 + 680 * dev + 32 + 40 * part
  | nrPartitions dev => 8 + 680 * dev + 672
  | devOption dev => 8 + 680 * dev + 676
  | devNum => 2732

/-- Its number of bytes. -/
def width : UsedField → ℕ
  | blkStatus _ _ => 2
  | devName _ => 16
  | devSize _ => 8
  | partition _ _ => 36
  | nrPartitions _ => 1
  | devOption _ => 4
  | devNum => 1

/-- The field is one of the record's: its indices are inside the arrays. -/
def Exists : UsedField → Prop
  | blkStatus chip block => chip < maxChipNum ∧ block < maxBlkNum
  | partition dev part => dev < maxDeviceNum ∧ part < maxNandPartNum
  | devName dev | devSize dev | nrPartitions dev | devOption dev => dev < maxDeviceNum
  | devNum => True

/-- The bytes of the field enter the checksum: the status of a block of the first two chips,
or anything inside the device parameters. -/
def Covered : UsedField → Prop
  | blkStatus chip _ => chip < 2
  | devNum => False
  | _ => True

/-- `Covered` says where a field lies. -/
lemma covered_iff {f : UsedField} (hf : f.Exists) {j : ℕ} (hj : j < f.width) :
    ∃ off len, checksumRange f.record = some (off, len) ∧ 4 ≤ f.offset + j ∧
      (f.Covered ↔ off ≤ f.offset + j ∧ f.offset + j < off + len) := by
  cases f with
  | blkStatus chip block =>
    simp only [Exists, maxChipNum, maxBlkNum, width] at hf hj
    refine ⟨4, 4 * 8192, rfl, ?_, ?_⟩
    · simp only [offset]
      omega
    · simp only [Covered, offset, maxBlkNum]
      omega
  | devNum =>
    simp only [width] at hj
    refine ⟨8, 4 * 680, rfl, ?_, ?_⟩
    · simp only [offset]
      omega
    · simp only [Covered, offset, false_iff]
      omega
  | partition dev part =>
    simp only [Exists, maxDeviceNum, maxNandPartNum, width] at hf hj
    refine ⟨8, 4 * 680, rfl, ?_, ?_⟩ <;> simp only [Covered, offset, true_iff] <;> omega
  | devName dev | devSize dev | nrPartitions dev | devOption dev =>
    simp only [Exists, maxDeviceNum, width] at hf hj
    refine ⟨8, 4 * 680, rfl, ?_, ?_⟩ <;> simp only [Covered, offset, true_iff] <;> omega

end UsedField

/-- **A changed byte of a field the driver acts on is noticed exactly when the field is
covered**: for every record with the right checksum, every existing field, every byte of it
and every other value of that byte. -/
theorem rejects_iff_covered (f : UsedField) (hf : f.Exists) (j : ℕ) (hj : j < f.width)
    (buf : Buf) (hok : amlInfoCheckDatasum buf f.record = 0) (v : UInt8)
    (hv : v ≠ buf (f.offset + j)) :
    amlInfoCheckDatasum (Function.update buf (f.offset + j) v) f.record = -nandReadFailed ↔
      f.Covered := by
  obtain ⟨off, len, hrange, hk, hcov⟩ := f.covered_iff hf hj
  rw [hcov]
  exact checkDatasum_update hrange hok hk hv

/-- On a table of good blocks, the change of an entry of chip 1 is noticed. -/
theorem rejects_iff_covered_chipOne :
    UsedField.Covered (.blkStatus 1 5) ∧
      amlInfoCheckDatasum
        (Function.update (fun _ => 0) ((UsedField.blkStatus 1 5).offset + 0) 1) .nbbt =
          -nandReadFailed := by
  have hok : amlInfoCheckDatasum (fun _ => 0) .nbbt = 0 :=
    (checkDatasum_eq_zero_iff rfl).2 (amlInfoChecksum_zero fun _ _ => rfl)
  have hcov : UsedField.Covered (.blkStatus 1 5) := show 1 < 2 by decide
  exact ⟨hcov, (rejects_iff_covered (.blkStatus 1 5) ⟨by decide, by decide⟩ 0 (by decide)
    (fun _ => 0) hok 1 (by decide)).2 hcov⟩

/-- A good block of chip 2 becomes used bad, and a configuration without devices gets one,
under the checksums of the records they were changed from. -/
theorem not_rejects_outside :
    amlInfoCheckDatasum (fun _ => 0) .nbbt = 0 ∧ amlInfoCheckDatasum (fun _ => 0) .ncnf = 0 ∧
      amlInfoCheckDatasum (Function.update (fun _ => 0) ((UsedField.blkStatus 2 5).offset + 0) 1)
        .nbbt = 0 ∧
      amlInfoCheckDatasum (Function.update (fun _ => 0) (UsedField.devNum.offset + 0) 1)
        .ncnf = 0 := by
  have hsum : ∀ off len, amlInfoChecksum (fun _ => 0) off len = 0 :=
    fun _ _ => amlInfoChecksum_zero fun _ _ => rfl
  refine ⟨(checkDatasum_eq_zero_iff rfl).2 (hsum _ _), (checkDatasum_eq_zero_iff rfl).2 (hsum _ _),
    (checkDatasum_eq_zero_iff rfl).2 ?_, (checkDatasum_eq_zero_iff rfl).2 ?_⟩
  · rw [amlInfoChecksum_update_of_outside (Or.inr (by decide)), hsum, leNat_update (by decide)]
    rfl
  · rw [amlInfoChecksum_update_of_outside (Or.inr (by decide)), hsum, leNat_update (by decide)]
    rfl

end Amlnf
