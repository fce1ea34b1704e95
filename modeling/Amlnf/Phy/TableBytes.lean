import Amlnf.Phy.BbtLoad
import Amlnf.Phy.RecordStore

set_option relaxedAutoImplicit false
set_option autoImplicit false

/-!
# The bad-block table and the configuration as bytes

`amlnand_update_bbt` stores `struct block_status` with a checksum in front, and bring-up reads it
back and compares. What is stored is read back entry by entry, and its checksum is the one
`aml_info_check_datasum` computes, also where the sum counts fewer bytes than the table has.

## Main definitions

* `HasEntry` — the entries `struct block_status` has.

## Main results

* `blockStatusOf_of_agree` — the entries are read back.
* `checkDatasum_ncnf` — the checksum stored in a configuration is accepted.
-/

namespace Amlnf

/-- The entries of `blk_status`. -/
def HasEntry (c b : ℕ) : Prop := c < maxChipNum ∧ b < maxBlkNum

section

variable {tbl : BlkStatus} {buf out : Buf}

/-- The bytes of a number are read back as the number. -/
lemma leNat_of_bytes {k off n : ℕ} (h : ∀ i < k, buf (off + i) = UInt8.ofNat (n / 256 ^ i)) :
    leNat buf off k = n % 256 ^ k := by
  induction k generalizing off n with
  | zero => simp [leNat, Nat.mod_one]
  | succ k ih =>
    have hrest : leNat buf (off + 1) k = n / 256 % 256 ^ k := by
      refine ih fun i hi => ?_
      rw [Nat.add_assoc, Nat.add_comm 1 i, h (i + 1) (by omega), Nat.pow_succ',
        ← Nat.div_div_eq_div_mul]
    have hfirst : (buf off).toNat = n % 256 := by
      have h0 := h 0 (by omega)
      rw [Nat.add_zero, Nat.pow_zero, Nat.div_one] at h0
      rw [h0]
      exact UInt8.toNat_ofNat'
    rw [leNat, hfirst, hrest, Nat.pow_succ', Nat.mod_mul]

/-- A checksum fits the four bytes in front of the record. -/
lemma leNat_checksum {a : Buf} {off len : ℕ}
    (h : ∀ i < 4, buf i = UInt8.ofNat (amlInfoChecksum a off len / 256 ^ i)) :
    leNat buf 0 4 = amlInfoChecksum a off len := by
  have hlt : amlInfoChecksum a off len < 256 ^ 4 := Nat.mod_lt _ (by decide)
  rw [leNat_of_bytes (n := amlInfoChecksum a off len) fun i hi => by rw [Nat.zero_add, h i hi]]
  exact Nat.mod_eq_of_lt hlt

/-- **The entries of a stored table are read back.** -/
lemma blockStatusOf_of_agree (h : ∀ i < blockStatusSize, out i = blockStatusBuf tbl i) {c b : ℕ}
    (hcb : HasEntry c b) : blockStatusOf out c b = tbl c b := by
  have hsize : blockStatusSize = 65540 := rfl
  have hc : c < 4 := hcb.1
  have hb : b < 8192 := hcb.2
  -- entry `e` of the table, and its two bytes
  obtain ⟨e, he⟩ : ∃ e, e = c * 8192 + b := ⟨_, rfl⟩
  have hentry : tbl (e / maxBlkNum) (e % maxBlkNum) = tbl c b := by
    rw [maxBlkNum, show e / 8192 = c by omega, show e % 8192 = b by omega]
  have hlo : out (4 + 2 * e) = UInt8.ofNat (tbl c b).toNat := by
    rw [h _ (by omega), blockStatusBuf, if_neg (by omega), tableByte,
      show (4 + 2 * e - 4) / 2 = e by omega, hentry, if_pos (by omega)]
  have hhi : out (4 + 2 * e + 1) = UInt8.ofNat ((tbl c b).toNat / 256) := by
    rw [h _ (by omega), blockStatusBuf, if_neg (by omega), tableByte,
      show (4 + 2 * e + 1 - 4) / 2 = e by omega, hentry, if_neg (by omega)]
  have hnum : leNat out (4 + 2 * e) 2 = (tbl c b).toNat := by
    have hlt := (tbl c b).toNat_lt
    rw [leNat_of_bytes (n := (tbl c b).toNat), Nat.mod_eq_of_lt (by omega)]
    intro i hi
    obtain rfl | rfl : i = 0 ∨ i = 1 := by omega
    · simpa using hlo
    · simpa using hhi
  rw [blockStatusOf, maxBlkNum, ← he, hnum, UInt16.ofNat_toNat]

/-- The checksum of a sealed configuration is accepted. -/
lemma checkDatasum_ncnf {config : Buf} (h : ∀ i < nandConfigSize, out i = sealConfig config i) :
    amlInfoCheckDatasum out .ncnf = 0 := by
  have hsize : nandConfigSize = 2736 := rfl
  have hstored : leNat out 0 4 = amlInfoChecksum config 8 (4 * 680) := by
    refine leNat_checksum fun i hi => ?_
    rw [h i (by omega), sealConfig, if_pos hi]
  have hsum : amlInfoChecksum out 8 (4 * 680) = amlInfoChecksum config 8 (4 * 680) := by
    refine amlInfoChecksum_congr fun i hi => ?_
    rw [h _ (by omega), sealConfig, if_neg (by omega)]
  rw [amlInfoCheckDatasum, checksumRange]
  exact if_pos (hsum.trans hstored.symm)

end

end Amlnf
