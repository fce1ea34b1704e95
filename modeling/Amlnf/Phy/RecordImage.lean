import Mathlib.Data.List.GetD
import Mathlib.Tactic.IntervalCases
import Amlnf.Phy.Reserve

set_option relaxedAutoImplicit false
set_option autoImplicit false

/-!
# Records on the chips

Where the pages of a record lie, and what scanning and reading a record amount to on chips that
report no failure, as functions of the contents of the blocks.

## Main definitions

* `Image.recAt` — record page `i` of reserved block `b`.
* `firstTag`, `scanInfo` — first pass of a scan: the first readable page of a block, and the
  choice of a block.
* `copyScan` — second pass: the choice of a copy in the block.
* `readCopy` — reading a copy.

## Main results

* `Flash.recPage_eq`, `Flash.slot_injOn` — record pages are distinct pages of their block.
* `hits_recPage_iff`, `not_hits_paired`, `hits_erase_iff` — the record pages that programming and
  erasing change.
-/

namespace Amlnf

namespace Flash

variable (fl : Flash)

/-- Page of a block that record page `i` is mapped to. -/
def slot (i : ℕ) : ℕ :=
  if fl.newType.isHynix then fl.listed i
  else if fl.newType = .sandisk19nm then 2 * i
  else i

/-- Hynix blocks have 256 pages. -/
lemma ppb_eq_of_hynix (h : fl.newType.isHynix = true) : fl.ppb = 256 := by
  rw [ppb, fl.hynix_ppb h]
  norm_num

/-- A block has a record page at least. -/
lemma pagesRead_pos : 0 < fl.pagesRead := by
  have h : 32 ≤ fl.ppb := by
    calc 32 = 2 ^ 5 := by norm_num
      _ ≤ fl.ppb := Nat.pow_le_pow_right (by omega) fl.ppbShift_ge
  rw [pagesRead, Nat.shiftRight_eq_div_pow]
  split <;> omega

/-- The record pages lie in a block. -/
lemma pagesRead_le : fl.pagesRead ≤ fl.ppb := by
  rw [pagesRead, Nat.shiftRight_eq_div_pow]
  split <;> omega

/-- On Hynix blocks 128 of them. -/
lemma pagesRead_of_hynix (h : fl.newType.isHynix = true) : fl.pagesRead = 128 := by
  have hs : fl.newType.slc = true := by rw [NewType.slc, h]; rfl
  rw [pagesRead, if_pos hs, fl.ppb_eq_of_hynix h]
  rfl

/-- On SanDisk blocks every other page is one. -/
lemma pagesRead_of_sandisk (h : fl.newType = .sandisk19nm) : 2 * fl.pagesRead = fl.ppb := by
  have hs : fl.newType.slc = true := by rw [h]; rfl
  have hp : fl.ppb = 2 * 2 ^ (fl.ppbShift - 1) := by
    have := fl.ppbShift_ge
    rw [ppb, ← pow_succ', Nat.sub_add_cancel (by omega)]
  rw [pagesRead, if_pos hs, hp, Nat.shiftRight_eq_div_pow]
  omega

set_option maxRecDepth 2000 in

/-- A page list has 128 different pages of a block. -/
lemma pagelist_facts (n : NewType) :
    n.pagelist.length = 128 ∧ n.pagelist.Nodup ∧ ∀ p ∈ n.pagelist, p < 256 := by
  have h : ∀ l, l = pagelist1ynmHynix256 ∨ l = pagelistHynix256 →
      l.length = 128 ∧ l.IsChain (· < ·) ∧ ∀ p ∈ l, p < 256 := by
    rintro l (rfl | rfl) <;> decide
  have hn : n.pagelist.length = 128 ∧ n.pagelist.IsChain (· < ·) ∧ ∀ p ∈ n.pagelist, p < 256 := by
    cases n <;> first | exact h _ (Or.inr rfl) | exact h _ (Or.inl rfl)
  -- both lists ascend
  exact ⟨hn.1, (List.isChain_iff_pairwise.1 hn.2.1).imp Nat.ne_of_lt, hn.2.2⟩

/-- A record page is a page of the block. -/
lemma slot_lt {i : ℕ} (hi : i < fl.pagesRead) : fl.slot i < fl.ppb := by
  unfold slot
  split
  · rename_i h
    obtain ⟨hlen, -, hlt⟩ := pagelist_facts fl.newType
    have hr := fl.pagesRead_of_hynix h
    rw [fl.ppb_eq_of_hynix h, listed, List.getD_eq_getElem _ _ (by omega)]
    exact hlt _ (List.getElem_mem _)
  · split
    · rename_i h
      have := fl.pagesRead_of_sandisk h
      omega
    · exact hi.trans_le fl.pagesRead_le

/-- Distinct record pages are distinct pages of the block. -/
lemma slot_injOn {i j : ℕ} (hi : i < fl.pagesRead) (hj : j < fl.pagesRead)
    (h : fl.slot i = fl.slot j) : i = j := by
  unfold slot at h
  split at h
  · rename_i hx
    obtain ⟨hlen, hnd, -⟩ := pagelist_facts fl.newType
    have hr := fl.pagesRead_of_hynix hx
    rw [listed, listed, List.getD_eq_getElem _ _ (by omega),
      List.getD_eq_getElem _ _ (by omega)] at h
    exact (List.Nodup.getElem_inj_iff hnd).1 h
  · split at h <;> omega

/-- A page inside a block is added to the number of its first page. -/
lemma mul_ppb_or {x : ℕ} (r : ℕ) (hx : x < fl.ppb) : r * fl.ppb ||| x = r * fl.ppb + x := by
  rw [Nat.mul_comm]
  exact (Nat.two_pow_add_eq_or_of_lt hx r).symm

/-- Record page `i` of block `b` by block row and page. -/
lemma recPage_eq (b : ℕ) {i : ℕ} (hi : i < fl.pagesRead) :
    fl.recPage b i = fl.resRow b * fl.ppb + fl.slot i := by
  have hlt := fl.slot_lt hi
  have hmod : (fl.resPage b + i) % fl.ppb = i := by
    rw [resPage, Nat.add_comm, Nat.add_mul_mod_self_right]
    exact Nat.mod_eq_of_lt (hi.trans_le fl.pagesRead_le)
  have hsub : fl.resPage b + i - i = fl.resRow b * fl.ppb := by rw [Nat.add_sub_cancel, resPage]
  unfold slot at hlt ⊢
  unfold recPage slcAddr
  rw [hmod, hsub]
  split
  · rename_i h
    rw [if_pos h] at hlt
    have h256 : (fl.resPage b + i) % 256 = i := by rw [← fl.ppb_eq_of_hynix h, hmod]
    rw [h256]
    exact fl.mul_ppb_or _ hlt
  · rename_i h
    rw [if_neg h] at hlt
    split
    · rename_i h'
      rw [if_pos h'] at hlt
      rw [Nat.shiftLeft_eq, Nat.mul_comm i, pow_one]
      exact fl.mul_ppb_or _ hlt
    · rfl

/-- A record page lies in its reserved block. -/
lemma recPage_div (b : ℕ) {i : ℕ} (hi : i < fl.pagesRead) :
    fl.recPage b i / fl.ppb = fl.resRow b := by
  rw [recPage_eq fl b hi, Nat.add_comm, Nat.add_mul_div_right _ _ fl.ppb_pos,
    Nat.div_eq_of_lt (fl.slot_lt hi), Nat.zero_add]

/-- Chip and record page determine block and page number. -/
lemma recPage_injective {b b' i j : ℕ} (hi : i < fl.pagesRead) (hj : j < fl.pagesRead)
    (hc : fl.resChip b = fl.resChip b') (h : fl.recPage b i = fl.recPage b' j) :
    b = b' ∧ i = j := by
  have hrow : fl.resRow b = fl.resRow b' := by rw [← recPage_div fl b hi, h, recPage_div fl b' hj]
  have hb := fl.res_injective hc hrow
  subst hb
  rw [recPage_eq fl b hi, recPage_eq fl b hj] at h
  exact ⟨rfl, fl.slot_injOn hi hj (Nat.add_left_cancel h)⟩

set_option maxRecDepth 2000 in
/-- The pages of the `HYNIX_1YNM_8GB` list, the first apart, are odd. -/
lemma pagelist1ynm_odd : ∀ p ∈ pagelist1ynmHynix256.tail, p + 1 < 256 ∧ p % 2 = 1 := by
  decide

/-- The page that follows a record page of the `HYNIX_1YNM_8GB` type, the first apart, lies in
the same block and is no record page. -/
lemma paired_facts (h : fl.newType = .hynix1ynm8gb) {i : ℕ} (hi : i < fl.pagesRead) (h1 : 1 ≤ i) :
    fl.slot i + 1 < fl.ppb ∧ ∀ j < fl.pagesRead, fl.slot i + 1 ≠ fl.slot j := by
  have hx : fl.newType.isHynix = true := by rw [h]; decide
  have hr := fl.pagesRead_of_hynix hx
  have hp := fl.ppb_eq_of_hynix hx
  have hslot : ∀ k < 128, fl.slot k = pagelist1ynmHynix256.getD k 0 := by
    intro k hk
    have hlen : NewType.hynix1ynm8gb.pagelist.length = 128 := rfl
    rw [slot, if_pos hx, listed, h, List.getD_eq_getElem _ _ (by omega)]
    exact List.getElem_eq_getD 0
  have hodd : ∀ k < 127, pagelist1ynmHynix256.getD (k + 1) 0 + 1 < 256 ∧
      pagelist1ynmHynix256.getD (k + 1) 0 % 2 = 1 := by
    intro k hk
    have hk' : k < pagelist1ynmHynix256.tail.length := hk
    apply pagelist1ynm_odd
    change pagelist1ynmHynix256.tail.getD k 0 ∈ pagelist1ynmHynix256.tail
    rw [List.getD_eq_getElem _ _ hk']
    exact List.getElem_mem hk'
  obtain ⟨h2, h3⟩ := hodd (i - 1) (by omega)
  rw [Nat.sub_add_cancel h1] at h2 h3
  refine ⟨by rw [hslot i (by omega), hp]; exact h2, fun j hj => ?_⟩
  rw [hslot i (by omega), hslot j (by omega)]
  cases j with
  | zero =>
    have h0 : pagelist1ynmHynix256.getD 0 0 = 0 := rfl
    omega
  | succ j =>
    have := (hodd j (by omega)).2
    omega

end Flash

/-! ## Record pages of an image -/

section RecAt

variable {fl : Flash}

/-- Record page `i` of reserved block `b`. -/
def Image.recAt (fl : Flash) (m : Image) (b i : ℕ) : Page := m (fl.resChip b) (fl.recPage b i)

/-- Programming record page `i` of block `b` changes that record page only. -/
lemma hits_recPage_iff {b b' i j : ℕ} (hi : i < fl.pagesRead) (hj : j < fl.pagesRead) (d : Buf)
    (o : Option Tag) :
    (FlashOp.program (fl.resChip b) (fl.recPage b i) d o).Hits fl (fl.resChip b') (fl.recPage b' j) ↔
      b' = b ∧ j = i := by
  constructor
  · rintro ⟨hc, hp⟩
    exact fl.recPage_injective hj hi hc hp
  · rintro ⟨rfl, rfl⟩
    exact ⟨rfl, rfl⟩

/-- Programming the page that follows a record page changes no record page. -/
lemma not_hits_paired (hx : fl.newType = .hynix1ynm8gb) {b b' i j : ℕ} (hi : i < fl.pagesRead)
    (h1 : 1 ≤ i) (hj : j < fl.pagesRead) (d : Buf) (o : Option Tag) :
    ¬(FlashOp.program (fl.resChip b) (fl.recPage b i + 1) d o).Hits fl (fl.resChip b')
      (fl.recPage b' j) := by
  rintro ⟨hc, hp⟩
  obtain ⟨hlt, hne⟩ := fl.paired_facts hx hi h1
  rw [fl.recPage_eq b hi, Nat.add_assoc] at hp
  have hrow : fl.resRow b' = fl.resRow b := by
    rw [← fl.recPage_div b' hj, hp, Nat.add_comm, Nat.add_mul_div_right _ _ fl.ppb_pos,
      Nat.div_eq_of_lt hlt, Nat.zero_add]
  rw [fl.recPage_eq b' hj, hrow] at hp
  exact hne j hj (Nat.add_left_cancel hp).symm

/-- Erasing a reserved block changes its record pages. -/
lemma hits_erase_iff {b b' j : ℕ} (hj : j < fl.pagesRead) :
    (FlashOp.erase (fl.resChip b) (fl.resRow b)).Hits fl (fl.resChip b') (fl.recPage b' j) ↔
      b' = b := by
  constructor
  · rintro ⟨hc, hr⟩
    rw [fl.recPage_div b' hj] at hr
    exact fl.res_injective hc hr
  · rintro rfl
    exact ⟨rfl, fl.recPage_div b' hj⟩

/-- Commands that change other pages leave a record page alone. -/
lemma Image.recAt_replay (m : Image) {ops : List FlashOp} {b i : ℕ}
    (h : ∀ op ∈ ops, ¬op.Hits fl (fl.resChip b) (fl.recPage b i)) :
    (m.replay fl ops).recAt fl b i = m.recAt fl b i := Image.replay_of_not_hits fl m ops h

/-- The record page a program command changes. -/
lemma Image.recAt_program_self (m : Image) (b i : ℕ) (d : Buf) (o : Option Tag) :
    (m.apply fl (.program (fl.resChip b) (fl.recPage b i) d o)).recAt fl b i =
      (m.recAt fl b i).program d o := if_pos ⟨rfl, rfl⟩

/-- The record pages an erase command changes. -/
lemma Image.recAt_erase_self (m : Image) {b i : ℕ} (hi : i < fl.pagesRead) :
    (m.apply fl (.erase (fl.resChip b) (fl.resRow b))).recAt fl b i = .erased :=
  if_pos ⟨rfl, fl.recPage_div b hi⟩

end RecAt

/-! ## Scanning as a function of the contents -/

section Scan

variable (fl : Flash)

/-- Where the first pass looks after `k` pages that could not be read. -/
def scanPos (size k : ℕ) : ℕ :=
  if k ≤ 8 then k * fl.argPages size
  else if k = 9 then fl.argPages size * ((fl.ppb / fl.argPages size) >>> 1)
  else fl.argPages size * (fl.ppb / fl.argPages size) + (k - 10) * fl.argPages size

/-- Tag of the first page along a list of positions that can be read. -/
def firstTag (blk : ℕ → Page) : List ℕ → Option Tag
  | [] => none
  | p :: ps =>
    if p < fl.pagesRead then
      if (blk p).isBad then firstTag blk ps else (blk p).oob
    else none

/-- What the first pass sees of a block. -/
def blockTag (size : ℕ) (blk : ℕ → Page) : Option Tag :=
  firstTag fl blk ((List.range 12).map (scanPos fl size))

/-- The `arg_info` after a block whose first readable page has tag `t`. -/
def scanTag (name : RecName) (b : ℕ) (t : Option Tag) (a : ArgInfo) : ArgInfo :=
  match t with
  | some t => if t.name = name then scanFound b t.timestamp a else a
  | none => a

/-- The first pass over a list of blocks. -/
def scanInfo (tbl : BlkStatus) (name : RecName) (size : ℕ) (r : ℕ → ℕ → Page) :
    List ℕ → ArgInfo → ArgInfo
  | [], a => a
  | b :: bs, a =>
    if resStatus fl tbl b = blockGood then
      let a' := scanTag name b (blockTag fl size (r b)) a
      if a'.argType = .fullBlk ∧ a'.argValid ∧ a'.validBlkAddr ≠ 0 then a'
      else scanInfo tbl name size r bs a'
    else scanInfo tbl name size r bs a

/-- From one copy of a `FULL_PAGE` record to the next: on the `HYNIX_1YNM_8GB` type a dummy page
lies between. -/
def copyStep (size : ℕ) : ℕ := fl.argPages size + if fl.newType = .hynix1ynm8gb then 1 else 0

/-- The second pass from page `i` of a block on. -/
def copyScan (name : RecName) (size : ℕ) (blk : ℕ → Page) : ℕ → ℕ → ArgInfo → ArgInfo
  | 0, _, a => a
  | n + 1, i, a =>
    if i < fl.pagesRead then
      if (blk i).isBad then
        copyScan name size blk n (i + fl.argPages size) { a with updateFlag := true }
      else
        match (blk i).oob, a.argType with
        | some t, .fullBlk =>
          if t.name = name then { a with validPageAddr := i, timestamp := t.timestamp }
          else copyScan name size blk n (i + fl.argPages size) a
        | none, .fullBlk => copyScan name size blk n (i + fl.argPages size) a
        | some t, .fullPage =>
          if t.name = name then
            copyScan name size blk n (i + copyStep fl size)
              { a with validPageAddr := i, timestamp := t.timestamp }
          else a
        | none, .fullPage => a
    else a

section CopyScan

variable {fl} {name : RecName} {size n i : ℕ} {blk : ℕ → Page} {a : ArgInfo} {t : Tag}

/-- The second pass ends behind the record pages. -/
lemma copyScan_end (hi : ¬i < fl.pagesRead) : copyScan fl name size blk (n + 1) i a = a := by
  rw [copyScan, if_neg hi]

/-- A page that cannot be read is skipped by one copy. -/
lemma copyScan_bad (hi : i < fl.pagesRead) (hb : (blk i).isBad = true) :
    copyScan fl name size blk (n + 1) i a =
      copyScan fl name size blk n (i + fl.argPages size) { a with updateFlag := true } := by
  rw [copyScan, if_pos hi, if_pos hb]

variable (hi : i < fl.pagesRead) (hb : (blk i).isBad = false)

include hi hb

/-- A `FULL_BLK` record is taken from the first copy found. -/
lemma copyScan_found_fullBlk (ht : (blk i).oob = some t) (hn : t.name = name)
    (ha : a.argType = .fullBlk) : copyScan fl name size blk (n + 1) i a =
      { a with validPageAddr := i, timestamp := t.timestamp } := by
  simp [copyScan, hi, hb, ht, hn, ha]

/-- Until then the pass goes on copy by copy. -/
lemma copyScan_pass_fullBlk (ht : tagged (blk i).oob name = false) (ha : a.argType = .fullBlk) :
    copyScan fl name size blk (n + 1) i a =
      copyScan fl name size blk n (i + fl.argPages size) a := by
  unfold tagged at ht
  split at ht
  · rename_i o ho
    simp only [decide_eq_false_iff_not] at ht
    simp [copyScan, hi, hb, ho, ht, ha]
  · rename_i ho
    simp [copyScan, hi, hb, ho, ha]

/-- A `FULL_PAGE` record is taken from every copy found, the last one counts. -/
lemma copyScan_found_fullPage (ht : (blk i).oob = some t) (hn : t.name = name)
    (ha : a.argType = .fullPage) : copyScan fl name size blk (n + 1) i a =
      copyScan fl name size blk n (i + copyStep fl size)
        { a with validPageAddr := i, timestamp := t.timestamp } := by
  simp [copyScan, hi, hb, ht, hn, ha]

/-- It ends at the first page without the name. -/
lemma copyScan_stop_fullPage (ht : tagged (blk i).oob name = false) (ha : a.argType = .fullPage) :
    copyScan fl name size blk (n + 1) i a = a := by
  unfold tagged at ht
  split at ht
  · rename_i o ho
    simp only [decide_eq_false_iff_not] at ht
    simp [copyScan, hi, hb, ho, ht, ha]
  · rename_i ho
    simp [copyScan, hi, hb, ho, ha]

end CopyScan

/-- The `arg_info` a scan arrives at. -/
def checkInfo (tbl : BlkStatus) (name : RecName) (size : ℕ) (r : ℕ → ℕ → Page) (a : ArgInfo) :
    ArgInfo :=
  let a' := scanInfo fl tbl name size r (List.range' fl.startBlk reservedBlockCnt) a
  if a'.argValid then copyScan fl name size (r a'.validBlkAddr) (fl.pagesRead + 1) 0 a' else a'

/-- Reading a copy from page `v` of a block on, piece `i` first. -/
def readCopy (name : RecName) (size : ℕ) (blk : ℕ → Page) (v : ℕ) : ℕ → ℕ → Buf → Buf
  | 0, _, buf => buf
  | n + 1, i, buf =>
    if i * fl.pagesize < size then
      if (blk (v + i)).isBad then buf
      else if tagged (blk (v + i)).oob name then
        readCopy name size blk v n (i + 1) (blit buf (i * fl.pagesize)
          (min fl.pagesize (size - i * fl.pagesize)) (blk (v + i)).data)
      else readCopy name size blk v n (i + 1) buf
    else buf

end Scan

end Amlnf
