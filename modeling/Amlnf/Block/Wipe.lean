import Amlnf.Block.Nftl

set_option relaxedAutoImplicit false
set_option autoImplicit false

/-!
# Wiping a disk

A disk is wiped by `aml_nftl_reinit_part`. When its device has several partitions, the function
goes through the partition table, adds up the sizes once more, and discards every partition
whose name starts with the name of the disk: `memcmp` compares as many characters as the name
of the disk has.

## Main definitions

* `LogicPartition` — a partition with the offset field that the wipe looks at.
* `amlNftlReinitPart`, `amlNftlWipePart` — what is asked of the translation layer.
* `curOffset` — the offset with which `aml_nftl_add_ntd` reaches a partition.
* `WipesOwn` — the names and fields of the table under which a wipe stays at home.

## Main results

* `mem_wipeParts_iff` — the calls of the loop over the partitions.
* `addDisks_getElem?` — the range `aml_nftl_add_ntd` gives to a disk.
* `wipe_own_iff` — a wipe passes on the range of its disk only, exactly under `WipesOwn`.
-/

namespace Amlnf

/-- `0xffffffffffffffff`: the rest of the device. -/
def restOfDevice : ℕ := 2 ^ 64 - 1

/-- `struct ntd_partition`. The name is a C string in 16 bytes. -/
structure LogicPartition extends NtdPartition where
  /-- The `offset` field, an `uint64_t`. -/
  offset : ℕ
  offset_lt : offset < 2 ^ 64
  name_lt : name.utf8ByteSize < 16

/-- What `aml_nftl_reinit_part` asks of the translation layer; ranges are in bytes. -/
inductive WipeCall
  | setStatus (status : ℕ)
  | checkMapping (offset size : ℕ)
  | discardPartition (offset size : ℕ)
  | erasePart
  | nftlInitialize
  deriving DecidableEq, Repr

/-- The range of bytes a call is about, if it is about one. -/
def WipeCall.range? : WipeCall → Option (ℕ × ℕ)
  | checkMapping offset size | discardPartition offset size => some (offset, size)
  | _ => none

/-- The size `aml_nftl_reinit_part` passes on for a partition. -/
def LogicPartition.wipedSize (part : LogicPartition) : ℕ :=
  if part.offset ≠ restOfDevice ∧ part.size ≠ restOfDevice then part.size else restOfDevice

/-- `memcmp(logic_partition->name, nftl_blk->name, strlen(nftl_blk->name)) == 0`. -/
def LogicPartition.matchesName (part : LogicPartition) (name : String) : Bool :=
  name.toList.isPrefixOf part.name.toList

/-- The calls for one partition; `mapped` is what `check_mapping` answers. -/
def wipeOne (offset size : ℕ) (mapped : Bool) : List WipeCall :=
  .checkMapping offset size :: if mapped then [.discardPartition offset size] else []

/-- `tmp_offset` behind a partition. -/
def LogicPartition.nextTmp (part : LogicPartition) (tmpOffset : ℕ) : ℕ :=
  if part.size ≠ restOfDevice then (tmpOffset + part.size) % 2 ^ 64 else tmpOffset

/-- The loop of `aml_nftl_reinit_part` over the partitions. -/
def wipeParts (name : String) (mapped : ℕ → Bool) : List LogicPartition → ℕ → ℕ → List WipeCall
  | [], _, _ => []
  | part :: parts, tmpOffset, i =>
    (if part.matchesName name then wipeOne tmpOffset part.wipedSize (mapped i) else []) ++
      wipeParts name mapped parts (part.nextTmp tmpOffset) (i + 1)

/-- `aml_nftl_reinit_part`: the result and the calls. A device with a single partition is erased
as a whole, `eraseRet` being the code of `aml_nftl_erase_part`. -/
def amlNftlReinitPart (parts : List LogicPartition) (blk : NftlBlk) (mapped : ℕ → Bool)
    (eraseRet : ℤ) : ℤ × List WipeCall :=
  if 1 < parts.length then
    (0, .setStatus 0 :: wipeParts blk.name mapped parts 0 0)
  else
    (eraseRet, [.setStatus 0, .erasePart, .nftlInitialize])

/-- `aml_nftl_wipe_part`. -/
def amlNftlWipePart (parts : List LogicPartition) (blk : NftlBlk) (mapped : ℕ → Bool)
    (eraseRet : ℤ) : ℤ × List WipeCall :=
  amlNftlReinitPart parts blk mapped eraseRet

/-! ## The two running offsets -/

/-- `cur_offset` when the loop of `aml_nftl_add_ntd` reaches partition `i`, from `cur` on. -/
def curOffset : List NtdPartition → ℕ → ℕ → ℕ
  | part :: parts, cur, i + 1 => curOffset parts ((cur + part.size) % 2 ^ 64) i
  | _, cur, _ => cur

/-- `tmp_offset` when the loop of `aml_nftl_reinit_part` reaches partition `i`, from `cur` on. -/
def tmpOffset : List LogicPartition → ℕ → ℕ → ℕ
  | part :: parts, cur, i + 1 => tmpOffset parts (part.nextTmp cur) i
  | _, cur, _ => cur

/-- The table of the attach loop. -/
def ntdParts (parts : List LogicPartition) : List NtdPartition :=
  parts.map LogicPartition.toNtdPartition

/-- Only the last partition may take the rest of the device. -/
def RestLast (parts : List LogicPartition) : Prop :=
  ∀ part ∈ parts.dropLast, part.size ≠ restOfDevice

/-- With the rest of the device at most at the end, both loops add up the same offsets. -/
lemma tmpOffset_eq_curOffset (parts : List LogicPartition) (hrest : RestLast parts) (cur i : ℕ)
    (hi : i < parts.length) : tmpOffset parts cur i = curOffset (ntdParts parts) cur i := by
  induction parts generalizing cur i with
  | nil => exact absurd hi (Nat.not_lt_zero i)
  | cons part parts ih =>
    cases i with
    | zero => rfl
    | succ i =>
      have hlt : i < parts.length := Nat.lt_of_succ_lt_succ hi
      obtain ⟨q, qs, rfl⟩ : ∃ q qs, parts = q :: qs :=
        List.exists_cons_of_ne_nil (List.ne_nil_of_length_pos (by omega))
      have hpart : part.size ≠ restOfDevice := hrest part List.mem_cons_self
      have hnext : part.nextTmp cur = (cur + part.size) % 2 ^ 64 := if_pos hpart
      change tmpOffset (q :: qs) (part.nextTmp cur) i = _
      rw [hnext, ih (fun p hp => hrest p (List.mem_cons_of_mem _ hp)) _ _ hlt]
      rfl

/-- **The range given to a disk**: disk `i` carries the name of partition `i` and was made by
`aml_blktrans_initialize` from its running offset and its size. -/
lemma addDisks_getElem? (cap : ℕ) (ok : ℕ → Bool) (parts : List NtdPartition) (cur n i : ℕ)
    {d : NftlBlk} (hd : (addDisks cap ok parts cur n)[i]? = some d) :
    ∃ part, parts[i]? = some part ∧ d.name = part.name ∧
      amlBlktransInitialize cap (curOffset parts cur i) part.size = some (d.offset, d.size) := by
  induction parts generalizing cur n i with
  | nil => exact absurd hd (by simp [addDisks])
  | cons part parts ih =>
    rw [addDisks] at hd
    split at hd
    · exact absurd hd (by simp)
    · rename_i offset size hinit
      split at hd
      · cases i with
        | zero =>
          obtain rfl := Option.some.inj hd
          exact ⟨part, rfl, rfl, hinit⟩
        | succ i => exact ih _ _ _ hd
      · exact absurd hd (by simp)

/-! ## The calls of a wipe -/

/-- A call for one partition is about the range given. -/
lemma range_of_mem_wipeOne {offset size : ℕ} {mapped : Bool} {c : WipeCall}
    (h : c ∈ wipeOne offset size mapped) : c.range? = some (offset, size) := by
  unfold wipeOne at h
  rcases List.mem_cons.1 h with rfl | h
  · rfl
  · split at h
    · obtain rfl := List.mem_singleton.1 h
      rfl
    · cases h

/-- **The calls of the loop**: those for the partitions whose name starts with the name of the
disk, at their running offset. -/
lemma mem_wipeParts_iff (name : String) (mapped : ℕ → Bool) (parts : List LogicPartition)
    (cur n : ℕ) (c : WipeCall) :
    c ∈ wipeParts name mapped parts cur n ↔
      ∃ j part, parts[j]? = some part ∧ part.matchesName name = true ∧
        c ∈ wipeOne (tmpOffset parts cur j) part.wipedSize (mapped (n + j)) := by
  induction parts generalizing cur n with
  | nil => simp [wipeParts]
  | cons part parts ih =>
    rw [wipeParts, List.mem_append, ih]
    constructor
    · rintro (h | ⟨j, q, hq, hname, h⟩)
      · split at h
        · exact ⟨0, part, rfl, ‹_›, h⟩
        · cases h
      · refine ⟨j + 1, q, hq, hname, ?_⟩
        rw [← Nat.add_assoc, Nat.add_right_comm]
        exact h
    · rintro ⟨j, q, hq, hname, h⟩
      cases j with
      | zero =>
        obtain rfl := Option.some.inj hq
        left
        rw [if_pos hname]
        exact h
      | succ j =>
        right
        refine ⟨j, q, hq, hname, ?_⟩
        rw [Nat.add_right_comm, Nat.add_assoc]
        exact h

/-- The table keeps a wipe of disk `i` at home: the offset field of the partition does not say
"rest of the device" unless its size does, and no other partition has a name that starts with
the name of the disk, except one that occupies the very same range. -/
def WipesOwn (parts : List LogicPartition) (i : ℕ) (part : LogicPartition) : Prop :=
  (part.offset = restOfDevice → part.size = restOfDevice) ∧
    ∀ j q, j ≠ i → parts[j]? = some q → part.name.toList <+: q.name.toList →
      curOffset (ntdParts parts) 0 j = curOffset (ntdParts parts) 0 i ∧
        q.wipedSize = part.size

/-- The size passed on for the partition itself. -/
lemma wipedSize_eq_iff (part : LogicPartition) :
    part.wipedSize = part.size ↔ (part.offset = restOfDevice → part.size = restOfDevice) := by
  unfold LogicPartition.wipedSize
  split
  · rename_i h
    simp [h.1]
  · rename_i h
    constructor
    · intro hs _
      exact hs.symm
    · intro himp
      by_contra hne
      exact h ⟨fun ho => hne (himp ho).symm, fun hs => hne hs.symm⟩

/-- **A wipe passes on the byte range of its disk only, exactly under `WipesOwn`**: for every
table of more than one partition, of which only the last may take the rest of the device, every
disk made from it and every answer of `check_mapping`. The range is the one with which
`aml_nftl_add_ntd` made the disk.

**Proof sketch.** The two loops agree on the offsets, and every partition whose name starts
with the name of the disk is at least looked up. So the ranges passed on are those of these
partitions, and the partition of the disk is one of them. -/
theorem wipe_own_iff (cap : ℕ) (ok : ℕ → Bool) (parts : List LogicPartition)
    (hlen : 1 < parts.length) (hrest : RestLast parts) (i : ℕ) (d : NftlBlk)
    (hd : (amlNftlAddNtd cap ok (ntdParts parts))[i]? = some d) (mapped : ℕ → Bool)
    (eraseRet : ℤ) :
    ∃ part, parts[i]? = some part ∧
      amlBlktransInitialize cap (curOffset (ntdParts parts) 0 i) part.size =
        some (d.offset, d.size) ∧
      ((∀ c ∈ (amlNftlWipePart parts d mapped eraseRet).2, ∀ r, c.range? = some r →
          r = (curOffset (ntdParts parts) 0 i, part.size)) ↔ WipesOwn parts i part) := by
  obtain ⟨part', hpart', hname, hinit⟩ := addDisks_getElem? cap ok _ 0 0 i hd
  obtain ⟨part, hpart, rfl⟩ : ∃ part, parts[i]? = some part ∧ part.toNtdPartition = part' := by
    simpa [ntdParts] using hpart'
  refine ⟨part, hpart, hinit, ?_⟩
  have htmp : ∀ {j q}, parts[j]? = some q →
      tmpOffset parts 0 j = curOffset (ntdParts parts) 0 j := fun hq =>
    tmpOffset_eq_curOffset parts hrest 0 _ (List.getElem?_eq_some_iff.1 hq).1
  have hmatch : ∀ q : LogicPartition,
      q.matchesName d.name = true ↔ part.name.toList <+: q.name.toList := by
    intro q
    rw [LogicPartition.matchesName, List.isPrefixOf_iff_prefix, hname]
  have hcalls : (amlNftlWipePart parts d mapped eraseRet).2 =
      .setStatus 0 :: wipeParts d.name mapped parts 0 0 := by
    rw [amlNftlWipePart, amlNftlReinitPart, if_pos hlen]
  rw [hcalls]
  constructor
  · intro h
    -- every partition that matches is at least looked up
    have hrange : ∀ j q, parts[j]? = some q → part.name.toList <+: q.name.toList →
        (curOffset (ntdParts parts) 0 j, q.wipedSize) =
          (curOffset (ntdParts parts) 0 i, part.size) := by
      intro j q hq hpre
      rw [← htmp hq]
      refine h (.checkMapping (tmpOffset parts 0 j) q.wipedSize) (List.mem_cons_of_mem _ ?_) _ rfl
      rw [mem_wipeParts_iff]
      exact ⟨j, q, hq, (hmatch q).2 hpre, List.mem_cons_self⟩
    refine ⟨?_, fun j q _ hq hpre => Prod.mk.inj (hrange j q hq hpre)⟩
    rw [← wipedSize_eq_iff]
    exact (Prod.mk.inj (hrange i part hpart List.prefix_rfl)).2
  · rintro ⟨hown, hother⟩ c hc r hr
    rcases List.mem_cons.1 hc with rfl | hc
    · cases hr
    obtain ⟨j, q, hq, hqname, hmem⟩ := (mem_wipeParts_iff _ _ _ _ _ _).1 hc
    rw [range_of_mem_wipeOne hmem, htmp hq, Option.some_inj] at hr
    rw [← hr]
    by_cases hji : j = i
    · subst hji
      obtain rfl := Option.some.inj (hq.symm.trans hpart)
      rw [(wipedSize_eq_iff q).2 hown]
    · obtain ⟨h1, h2⟩ := hother j q hji hq ((hmatch q).1 hqname)
      rw [h1, h2]

/-- Two partitions of 1 MiB and the rest of the device. -/
def threeParts (first second : String) (h1 : first.utf8ByteSize < 16)
    (h2 : second.utf8ByteSize < 16) : List LogicPartition :=
  [{ name := first, size := 2 ^ 20, offset := 0, size_lt := by decide, offset_lt := by decide,
     name_lt := h1 },
    { name := second, size := 2 ^ 20, offset := 0, size_lt := by decide, offset_lt := by decide,
      name_lt := h2 },
    { name := "media", size := restOfDevice, offset := 0, size_lt := by decide,
      offset_lt := by decide, name_lt := by decide }]

/-- Wiping `cache` next to `data`. -/
theorem wipe_own_iff_cache :
    ∃ part, (threeParts "cache" "data" (by decide) (by decide))[0]? = some part ∧
      WipesOwn (threeParts "cache" "data" (by decide) (by decide)) 0 part ∧
      ∀ c ∈ (amlNftlWipePart (threeParts "cache" "data" (by decide) (by decide))
          ⟨"cache", 0, 2048⟩ (fun _ => true) 0).2,
        ∀ r, c.range? = some r → r = (0, 2 ^ 20) := by
  obtain ⟨part, hpart, -, hiff⟩ := wipe_own_iff 8192 (fun _ => true)
    (threeParts "cache" "data" (by decide) (by decide)) (by decide)
    (by unfold RestLast; decide) 0 ⟨"cache", 0, 2048⟩ rfl (fun _ => true) 0
  obtain rfl := Option.some.inj hpart
  have hown : WipesOwn (threeParts "cache" "data" (by decide) (by decide)) 0
      ((threeParts "cache" "data" (by decide) (by decide)).get ⟨0, by decide⟩) := by
    refine ⟨fun h => absurd h (by decide), fun j q hj hq hpre => ?_⟩
    rcases j with - | - | - | j
    · exact absurd rfl hj
    · obtain rfl := Option.some.inj hq
      exact absurd hpre (by decide)
    · obtain rfl := Option.some.inj hq
      exact absurd hpre (by decide)
    · cases hq
  exact ⟨_, rfl, hown, hiff.2 hown⟩

/-- Wiping `data` next to `data2` discards `data2` as well: 1 MiB from 1 MiB on. -/
theorem wipe_data_discards_data2 :
    (amlNftlAddNtd 8192 (fun _ => true)
        (ntdParts (threeParts "data" "data2" (by decide) (by decide))))[0]? =
          some ⟨"data", 0, 2048⟩ ∧
      WipeCall.discardPartition (2 ^ 20) (2 ^ 20) ∈
        (amlNftlWipePart (threeParts "data" "data2" (by decide) (by decide))
          ⟨"data", 0, 2048⟩ (fun _ => true) 0).2 := by
  exact ⟨rfl, by decide⟩

end Amlnf
