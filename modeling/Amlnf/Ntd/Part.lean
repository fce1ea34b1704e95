import Amlnf.Dev.Pages
import Amlnf.Phy.IdTable

set_option relaxedAutoImplicit false
set_option autoImplicit false

/-!
# Pages and blocks of a partition

`aml_ntdpart.c` offers each device to the translation layer as a partition of pages and blocks.
The methods of a partition turn a page or block number into a byte address of the device and pass
the request on.

## Main definitions

* `NtdPart`, `Phydev.ntdPart` — a partition and the one `allocate_partition` makes of a device.
* `readPageWithOob`, `writePageWithOob`, `partErase` — the methods.

## Main results

* `readPageWithOob_ends`, `writePageWithOob_ends`, `partErase_ends` — a request for a page or
  block inside the device reaches exactly its pages; any other is refused and changes nothing.

## Design

`part_block_isbad` is `partBlockIsbad`. The spare bytes a read delivers are left out.
-/

namespace Amlnf

open Act

/-! ## The methods of a partition -/

/-- `struct ntd_info`, as far as the methods use it. -/
structure NtdPart where
  blocksize : ℕ
  pagesize : ℕ
  oobsize : ℕ
  blocksizeShift : ℕ
  pagesizeShift : ℕ
  priv : Phydev

/-- The partition `allocate_partition` makes of a device. -/
def Phydev.ntdPart (master : Phydev) (oobavail : ℕ) : NtdPart where
  blocksize := master.erasesize
  pagesize := master.writesize
  oobsize := oobavail
  blocksizeShift := ffs master.erasesize - 1
  pagesizeShift := ffs master.writesize - 1
  priv := master

/-- `byte_addr` of a `uint32_t` number. -/
def byteAddr (number shift : ℕ) : ℕ := ((number % 2 ^ 32) <<< shift) % 2 ^ 64

/-- The request for a page. -/
def NtdPart.pageOps (ntd : NtdPart) (page : ℕ) (oob : Option Tag) (buf : Buf) : DevOps where
  addr := byteAddr page ntd.pagesizeShift
  len := ntd.pagesize
  ooblen := ntd.oobsize
  datbuf := some buf
  oobbuf := oob

/-- The request for a block. -/
def NtdPart.blockOps (ntd : NtdPart) (block : ℕ) : DevOps where
  addr := byteAddr block ntd.blocksizeShift
  len := ntd.blocksize

/-- `read_page_with_oob`: return code and buffer. -/
def readPageWithOob (fl : Flash) (ntd : NtdPart) (page : ℕ) (buf : Buf) : Act St (ℤ × Buf) := do
  let r ← nandRead fl ntd.priv (ntd.pageOps page none buf)
  pure (r.1, r.2.2)

/-- `write_page_with_oob`. -/
def writePageWithOob (fl : Flash) (ntd : NtdPart) (page : ℕ) (oob : Option Tag) (buf : Buf) :
    Act St ℤ := do
  let r ← nandWrite fl ntd.priv (ntd.pageOps page oob buf)
  pure r.1

/-- `part_erase`. -/
def partErase (fl : Flash) (ntd : NtdPart) (block : ℕ) : Act St ℤ := do
  let r ← nandErase fl ntd.priv (ntd.blockOps block)
  pure r.1

/-! ## Sizes and shifts -/

/-- The first bit set in a power of two. -/
lemma ffs_two_pow {k : ℕ} (hk : k < 32) : ffs (2 ^ k) = k + 1 := by
  have hfind : (List.range 32).find? (fun i => (2 ^ k).testBit i) = some k := by
    rw [List.find?_range_eq_some]
    refine ⟨by simp, by simpa using hk, fun j hj => ?_⟩
    simp only [Nat.testBit_two_pow, Bool.not_eq_eq_eq_not, Bool.not_true, decide_eq_false_iff_not]
    omega
  rw [ffs, hfind]
  rfl

section Address

variable {fl : Flash} {dev : Phydev} {n : ℕ}

namespace Phydev.Striped

variable (h : dev.Striped fl) (oobavail : ℕ)

include h

lemma shift_le_31 : dev.writesizeShift + fl.ppbShift ≤ 31 := by
  have h1 := h.shift_le
  have h2 := fl.shift_lt
  have h3 := fl.ppbShift_le
  omega

lemma erasesize_eq_pow : dev.erasesize = 2 ^ (dev.writesizeShift + fl.ppbShift) := by
  rw [h.erasesize_eq, h.writesize_eq, Flash.ppb, pow_add]

lemma pagesizeShift_eq : (dev.ntdPart oobavail).pagesizeShift = dev.writesizeShift := by
  have hle := h.shift_le_31
  change ffs dev.writesize - 1 = _
  rw [h.writesize_eq, ffs_two_pow (by omega), Nat.add_sub_cancel]

lemma blocksizeShift_eq :
    (dev.ntdPart oobavail).blocksizeShift = dev.writesizeShift + fl.ppbShift := by
  have hle := h.shift_le_31
  change ffs dev.erasesize - 1 = _
  rw [h.erasesize_eq_pow, ffs_two_pow (by omega), Nat.add_sub_cancel]

omit h in
/-- A number of 32 bits in units of at most 2^31 bytes is an address of 64 bits. -/
lemma byteAddr_eq {k : ℕ} (hk : k ≤ 31) (hn : n < 2 ^ 32) :
    byteAddr n k = n * 2 ^ k ∧ n * 2 ^ k + 2 ^ k < 2 ^ 64 := by
  have hpow : 2 ^ k ≤ 2 ^ 31 := Nat.pow_le_pow_right (by omega) hk
  have hmul : (n + 1) * 2 ^ k ≤ 2 ^ 32 * 2 ^ 31 := Nat.mul_le_mul (by omega) hpow
  rw [Nat.succ_mul] at hmul
  have hlt : n * 2 ^ k + 2 ^ k < 2 ^ 64 := lt_of_le_of_lt hmul (by norm_num)
  refine ⟨?_, hlt⟩
  rw [byteAddr, Nat.mod_eq_of_lt hn, Nat.shiftLeft_eq,
    Nat.mod_eq_of_lt ((Nat.le_add_right _ _).trans_lt hlt)]

/-- The address of a page. -/
lemma byteAddr_page (hn : n < 2 ^ 32) :
    byteAddr n (dev.ntdPart oobavail).pagesizeShift = n * dev.writesize ∧
      n * dev.writesize + dev.writesize < 2 ^ 64 := by
  have hle := h.shift_le_31
  rw [h.pagesizeShift_eq, h.writesize_eq]
  exact byteAddr_eq (by omega) hn

/-- The address of a block. -/
lemma byteAddr_block (hn : n < 2 ^ 32) :
    byteAddr n (dev.ntdPart oobavail).blocksizeShift = n * dev.erasesize ∧
      n * dev.erasesize + dev.erasesize < 2 ^ 64 := by
  rw [h.blocksizeShift_eq, h.erasesize_eq_pow]
  exact byteAddr_eq h.shift_le_31 hn

/-- A data device is set up switched on. -/
lemma shutDown_eq : dev.shutDown = false := by
  obtain ⟨para, hpara⟩ := h.modes
  rw [hpara]
  rfl

/-- Requests for a page stay in the device exactly when the page does. -/
lemma outOfSpace_page (hn : n < 2 ^ 32) (o : Option Tag) (d : Buf) :
    dev.outOfSpace ((dev.ntdPart oobavail).pageOps n o d) = false ↔ dev.HasPage n := by
  obtain ⟨heq, hlt⟩ := h.byteAddr_page oobavail hn
  change decide (dev.size < (byteAddr n (dev.ntdPart oobavail).pagesizeShift + dev.writesize) %
    2 ^ 64) = false ↔ _
  rw [heq, Nat.mod_eq_of_lt hlt, decide_eq_false_iff_not, not_lt, h.hasPage_iff]

/-- Requests for a block stay in the device exactly when the block does. -/
lemma outOfSpace_block (hn : n < 2 ^ 32) :
    dev.outOfSpace ((dev.ntdPart oobavail).blockOps n) = false ↔
      n * dev.erasesize < dev.size := by
  obtain ⟨heq, hlt⟩ := h.byteAddr_block oobavail hn
  change decide (dev.size < (byteAddr n (dev.ntdPart oobavail).blocksizeShift + dev.erasesize) %
    2 ^ 64) = false ↔ _
  rw [heq, Nat.mod_eq_of_lt hlt, decide_eq_false_iff_not, not_lt, h.block_iff]

/-- The pages behind a request for a page. -/
lemma opPages_page (hn : n < 2 ^ 32) (o : Option Tag) (d : Buf) :
    opPages fl (dev.para ((dev.ntdPart oobavail).pageOps n o d).addr) = dev.pages fl n := by
  rw [NtdPart.pageOps, (h.byteAddr_page oobavail hn).1, pages]

/-- The blocks behind a request for a block. -/
lemma opBlocks_block (hn : n < 2 ^ 32) :
    opBlocks fl (dev.para ((dev.ntdPart oobavail).blockOps n).addr) = dev.blocks fl n := by
  rw [NtdPart.blockOps, (h.byteAddr_block oobavail hn).1, blocks]

end Phydev.Striped

end Address

/-! ## What the methods do -/

section Methods

variable {fl : Flash} {dev : Phydev} {s t : St} {n oobavail : ℕ} {ret : ℤ}

/-- `write_page_with_oob` programs its page or fails, and is refused outside the device. -/
lemma writePageWithOob_ends (h : dev.Striped fl) (hn : n < 2 ^ 32) {o : Option Tag} {d : Buf}
    (hrun : writePageWithOob fl (dev.ntdPart oobavail) n o d s = (some ret, t)) :
    (dev.HasPage n → WriteEnds fl (dev.pages fl n) d o s ret t ∧ t.plan = s.plan ∧
      t.readonly = s.readonly) ∧ (¬dev.HasPage n → ret < 0 ∧ t = s) := by
  obtain ⟨y, v, hwrite, hpure⟩ := bind_eq_some hrun
  cases hpure
  have hspace := h.outOfSpace_page oobavail hn o d
  refine ⟨fun hin => ?_, fun hout => ?_⟩
  · have hend := nandWrite_page rfl h.writesize_pos rfl rfl h.shutDown_eq (hspace.2 hin) hwrite
    rwa [h.opPages_page oobavail hn] at hend
  · have hrefused : dev.outOfSpace ((dev.ntdPart oobavail).pageOps n o d) = true := by
      simpa using fun hs => hout (hspace.1 hs)
    cases (nandWrite_refused hrefused s).symm.trans hwrite
    exact ⟨by decide, rfl⟩

/-- `part_erase` erases its block or fails, and is refused outside the device. -/
lemma partErase_ends (h : dev.Striped fl) (hn : n < 2 ^ 32)
    (hrun : partErase fl (dev.ntdPart oobavail) n s = (some ret, t)) :
    (n * dev.erasesize < dev.size → EraseEnds fl (dev.blocks fl n) s ret t ∧ t.plan = s.plan ∧
      t.readonly = s.readonly) ∧ (¬n * dev.erasesize < dev.size → ret < 0 ∧ t = s) := by
  obtain ⟨y, v, herase, hpure⟩ := bind_eq_some hrun
  cases hpure
  have hspace := h.outOfSpace_block oobavail hn
  refine ⟨fun hin => ?_, fun hout => ?_⟩
  · have hend := nandErase_block rfl h.erasesize_pos h.shutDown_eq (hspace.2 hin) herase
    rwa [h.opBlocks_block oobavail hn] at hend
  · have hrefused : dev.outOfSpace ((dev.ntdPart oobavail).blockOps n) = true := by
      simpa using fun hs => hout (hspace.1 hs)
    cases (nandErase_refused hrefused s).symm.trans herase
    exact ⟨by decide, rfl⟩

/-- `read_page_with_oob` changes no page. It returns `0` or `-EUCLEAN` only with the bytes of its
page, and always when the page is correctable and nothing fails. It is refused outside the
device. -/
lemma readPageWithOob_ends (h : dev.Striped fl) (hn : n < 2 ^ 32)
    (hcode : ∀ k, (s.plan k).read ≠ .failed 116) {buf : Buf} {y : ℤ × Buf}
    (hrun : readPageWithOob fl (dev.ntdPart oobavail) n buf s = (some y, t)) :
    (dev.HasPage n → t.image = s.image ∧ t.plan = s.plan ∧ t.readonly = s.readonly ∧
      (y.1 = 0 ∨ y.1 = -117 → s.image.Holds fl (dev.pages fl n) dev.writesize y.2) ∧
      (s.Calm → (∀ e ∈ dev.pages fl n, (s.image e.1 e.2).isBad = false) →
        y.1 = 0 ∨ y.1 = -117)) ∧
    (¬dev.HasPage n → y.1 = -nandArgumentFailure ∧ t = s) := by
  obtain ⟨z, v, hread, hpure⟩ := bind_eq_some hrun
  cases hpure
  have hspace := h.outOfSpace_page oobavail hn none buf
  refine ⟨fun hin => ?_, fun hout => ?_⟩
  · have hend := nandRead_page rfl h.writesize_pos rfl rfl (hspace.2 hin) hcode hread
    rwa [h.opPages_page oobavail hn] at hend
  · have hrefused : dev.outOfSpace ((dev.ntdPart oobavail).pageOps n none buf) = true := by
      simpa using fun hs => hout (hspace.1 hs)
    cases (nandRead_refused hrefused s).symm.trans hread
    exact ⟨rfl, rfl⟩

/-! ### Idle drivers -/

/-- An idle driver serves a request to write a page and is idle again. -/
lemma writePageWithOob_idle (h : dev.Striped fl) (oobavail n : ℕ) (o : Option Tag) (d : Buf) (hs : s.Idle) :
    ∃ ret t, writePageWithOob fl (dev.ntdPart oobavail) n o d s = (some ret, t) ∧ t.Idle := by
  obtain ⟨y, t, hrun, ht⟩ := nandWrite_idle fl dev (d := d)
    (r := (dev.ntdPart oobavail).pageOps n o d) rfl h.writesize_pos rfl rfl h.shutDown_eq hs
  exact ⟨y.1, t, (bind_some hrun).trans rfl, ht⟩

/-- An idle driver serves a request to erase a block and is idle again. -/
lemma partErase_idle (h : dev.Striped fl) (oobavail n : ℕ) (hs : s.Idle) :
    ∃ ret t, partErase fl (dev.ntdPart oobavail) n s = (some ret, t) ∧ t.Idle := by
  obtain ⟨y, t, hrun, ht⟩ := nandErase_idle fl dev
    (r := (dev.ntdPart oobavail).blockOps n) rfl h.erasesize_pos h.shutDown_eq hs
  exact ⟨y.1, t, (bind_some hrun).trans rfl, ht⟩

/-- An idle driver serves a request to read a page and is idle again. -/
lemma readPageWithOob_idle (h : dev.Striped fl) (oobavail n : ℕ) (buf : Buf) (hs : s.Idle) :
    ∃ y t, readPageWithOob fl (dev.ntdPart oobavail) n buf s = (some y, t) ∧ t.Idle := by
  obtain ⟨y, t, hrun, ht⟩ := nandRead_idle fl dev
    (r := (dev.ntdPart oobavail).pageOps n none buf) rfl h.writesize_pos rfl rfl hs
  exact ⟨(y.1, y.2.2), t, (bind_some hrun).trans rfl, ht⟩

end Methods

end Amlnf
