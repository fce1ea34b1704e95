import Amlnf.Dev.Env
import Amlnf.Lib.PageStore
import Amlnf.Ntd.Part

set_option relaxedAutoImplicit false
set_option autoImplicit false

/-!
# The hardware interface of the translation layer

`aml_nftl_hw_interface.c`: the calls by which the translation layer erases, writes and reads its
pages. Under them lie the partition, the device and the chips with their planes, and several
devices share the chips. We show that the translation layer sees a store of pages: what happens
on one page of one device happens to no other page of any device, and what is read is what has
been written.

## Main definitions

* `NandPage`, `PhysicOpPar` — a page as the translation layer names it, and a call's parameters.
* `nandReadPage`, `nandWritePage`, `nandEraseSuperblk`, `nandIsBlkGood` — the interface.
* `HwCall`, `runHwCalls` — a sequence of calls for any of the devices, and what comes of it.
* `Fleet` — data devices that share no block of the chips.
* `Shows` — the chips hold what a store of pages says.

## Main results

* `hwCalls_legal` — every run of calls is a history of a store of pages, whatever fails on the way.
* `hwCalls_readsBack` — a page reads as it was last written.
* `hwCalls_complete` — while nothing fails, every call returns and does its work.

## Design

`nand_mark_bad_blk`, which saves the bad-block table outside the devices, is not among the calls of
a run. The totals `aml_nftl_add_part_total_read` and `aml_nftl_add_part_total_write` keep, in the
library without source, are left out. A page has the same number of pages in its block on every
device, since chips and planes add to the size of a page only.
-/

namespace Amlnf

open Act

/-! ## The interface -/

/-- `_nand_page`, as far as the interface uses it. -/
structure NandPage where
  pageNO : UInt16
  blkNOInChip : UInt16

/-- `_physic_op_par`. -/
structure PhysicOpPar where
  phyPage : NandPage
  mainData : Buf
  spareData : Option Tag

/-- `EUCLEAN`. -/
def eUCLEAN : ℤ := 117

/-- `EBADMSG`. -/
def eBADMSG : ℤ := 74

/-- The block a call is about. -/
def PhysicOpPar.block (p : PhysicOpPar) : ℕ := p.phyPage.blkNOInChip.toNat

/-- `from`: the number of the page a call is about. -/
def PhysicOpPar.page (p : PhysicOpPar) (ntd : NtdPart) : ℕ :=
  ((p.block <<< ntd.blocksizeShift) >>> ntd.pagesizeShift) + p.phyPage.pageNO.toNat

/-- `nand_erase_superblk`. -/
def nandEraseSuperblk (fl : Flash) (ntd : NtdPart) (p : PhysicOpPar) : Act St ℤ :=
  partErase fl ntd p.block

/-- `nand_read_page`: return code and buffer. -/
def nandReadPage (fl : Flash) (ntd : NtdPart) (p : PhysicOpPar) : Act St (ℤ × Buf) := do
  let r ← readPageWithOob fl ntd (p.page ntd) p.mainData
  pure (if r.1 ≠ 0 ∧ r.1 ≠ -eUCLEAN then -eBADMSG else r.1, r.2)

/-- `nand_write_page`. -/
def nandWritePage (fl : Flash) (ntd : NtdPart) (p : PhysicOpPar) : Act St ℤ :=
  writePageWithOob fl ntd (p.page ntd) p.spareData p.mainData

/-- `nand_is_blk_good`. -/
def nandIsBlkGood (fl : Flash) (ntd : NtdPart) (p : PhysicOpPar) : Act St ℤ := do
  let ret ← partBlockIsbad fl ntd.priv p.block
  pure (if ret = 0 then 1 else if ret = 1 then 100 else ret)

/-! ## Runs of calls -/

/-- A call by which the translation layer uses its pages. -/
inductive HwCall
  | erase (p : PhysicOpPar)
  | write (p : PhysicOpPar)
  | read (p : PhysicOpPar)
  | isGood (p : PhysicOpPar)

/-- The call as the interface serves it, with its return code and buffer. -/
def HwCall.run (fl : Flash) (ntd : NtdPart) : HwCall → Act St (ℤ × Buf)
  | .erase p => do
    let ret ← nandEraseSuperblk fl ntd p
    pure (ret, p.mainData)
  | .write p => do
    let ret ← nandWritePage fl ntd p
    pure (ret, p.mainData)
  | .read p => nandReadPage fl ntd p
  | .isGood p => do
    let ret ← nandIsBlkGood fl ntd p
    pure (ret, p.mainData)

/-- What a call on device `i` that came to `r` means for its pages: a device and the number of a
page, or of a block, stand for the page or block. -/
def HwCall.events {ι : Type} (ntd : NtdPart) (i : ι) (r : ℤ × Buf) :
    HwCall → List (PageEvent (List UInt8) (ι × ℕ) (ι × ℕ))
  | .erase p => [.erase (i, p.block) (r.1 = 0)]
  | .write p => [.write (i, p.page ntd) (p.mainData.bytes ntd.pagesize) (r.1 = 0)]
  | .read p =>
    [.read (i, p.page ntd) (if r.1 = -eBADMSG then none else some (r.2.bytes ntd.pagesize))]
  | .isGood _ => []

/-- Serve calls, each for one of the devices, one after the other. -/
def runHwCalls {ι : Type} (fl : Flash) (ntd : ι → NtdPart) :
    List (ι × HwCall) → Act St (List (PageEvent (List UInt8) (ι × ℕ) (ι × ℕ)))
  | [] => pure []
  | c :: cs => do
    let r ← c.2.run fl (ntd c.1)
    let es ← runHwCalls fl ntd cs
    pure (c.2.events (ntd c.1) c.1 r ++ es)

/-- The events of a run that begins with a call. -/
lemma runHwCalls_cons {ι : Type} {fl : Flash} {ntd : ι → NtdPart} {c : ι × HwCall}
    {cs : List (ι × HwCall)} {s t : St} {es : List (PageEvent (List UInt8) (ι × ℕ) (ι × ℕ))}
    (h : runHwCalls fl ntd (c :: cs) s = (some es, t)) :
    ∃ r u fs, runHwCalls fl ntd cs u = (some fs, t) ∧ es = c.2.events (ntd c.1) c.1 r ++ fs := by
  obtain ⟨r, u, -, h⟩ := bind_eq_some h
  obtain ⟨fs, v, hrest, hpure⟩ := bind_eq_some h
  cases hpure
  exact ⟨r, u, fs, hrest, rfl⟩

/-! ## Devices that share no block -/

section Fleet

variable {fl : Flash} {ι : Type}

/-- Data devices that share no block of the chips. -/
structure Fleet (fl : Flash) (dev : ι → Phydev) : Prop where
  striped : ∀ i, (dev i).Striped fl
  apart : ∀ i j, i ≠ j → ∀ e, Reaches fl (dev i) e → ¬Reaches fl (dev j) e

/-- The row of an address of a device. -/
lemma Phydev.Striped.row_addr {dev : Phydev} (h : dev.Striped fl) {a : ℕ} (ha : a < dev.size) :
    (dev.para a).pageAddr / fl.ppb = (dev.offset + a) / dev.erasesize := by
  have hlim := h.limit
  have h64 : 2 ^ (dev.writesizeShift + 32) ≤ 2 ^ 64 := Nat.le_of_dvd (Nat.two_pow_pos _) h.kept_dvd
  change dev.pageAddr ((dev.offset + a) % 2 ^ 64) / fl.ppb = _
  rw [Nat.mod_eq_of_lt (by omega), Phydev.pageAddr_eq, Nat.mod_eq_of_lt (by omega),
    ← h.writesize_eq, Nat.div_div_eq_div_mul, ← h.erasesize_eq]

/-- Devices in the same modes, one behind the other, share no block. -/
lemma Phydev.Striped.apart {dev dev' : Phydev} (h : dev.Striped fl) (h' : dev'.Striped fl)
    (hoption : dev.option = dev'.option) (hsize : dev.erasesize = dev'.erasesize)
    (hbehind : dev.offset + dev.size ≤ dev'.offset) {e : ℕ × ℕ} (he : Reaches fl dev e) :
    ¬Reaches fl dev' e := by
  rintro ⟨a', ha', he'⟩
  obtain ⟨a, ha, he⟩ := he
  have hrow := row_eq_of_mem_opBlocks (p := dev.para a) (q := dev'.para a') hoption he he'
  rw [h.row_addr ha, h'.row_addr ha', ← hsize] at hrow
  obtain ⟨k, hk⟩ := h'.offset_dvd
  have hpos := h.erasesize_pos
  have h1 : (dev.offset + a) / dev.erasesize < k := by
    rw [Nat.div_lt_iff_lt_mul hpos, mul_comm, hsize, ← hk]
    omega
  have h2 : k ≤ (dev'.offset + a') / dev.erasesize := by
    rw [Nat.le_div_iff_mul_le hpos, mul_comm, hsize, ← hk]
    omega
  omega

end Fleet

/-! ## The store of pages the chips hold -/

section Cell

variable {fl : Flash} {m m' : Image} {pages : List (ℕ × ℕ)} {n : ℕ} {c : Cell (List UInt8)}

/-- The pages of the chips behind a page of `n` bytes hold what is known of it. -/
def CellShows (fl : Flash) (m : Image) (pages : List (ℕ × ℕ)) (n : ℕ) :
    Cell (List UInt8) → Prop
  | .clear => ∀ e ∈ pages, m e.1 e.2 = .erased
  | .full a => ∃ d : Buf, a = d.bytes n ∧ ∀ (j : ℕ) (e : ℕ × ℕ), pages[j]? = some e →
      ∃ o, m e.1 e.2 = .written (fun i => d (j * fl.pagesize + i)) o
  | .spoilt => ∃ e ∈ pages, (m e.1 e.2).isBad = true
  | .unknown => True

/-- It does not matter what the other pages hold. -/
lemma cellShows_congr (h : ∀ e ∈ pages, m' e.1 e.2 = m e.1 e.2) (hc : CellShows fl m pages n c) :
    CellShows fl m' pages n c := by
  cases c with
  | clear => exact fun e he => (h e he).trans (hc e he)
  | full a =>
    obtain ⟨d, had, hd⟩ := hc
    refine ⟨d, had, fun j e he => ?_⟩
    rw [h e (List.mem_of_getElem? he)]
    exact hd j e he
  | spoilt =>
    obtain ⟨e, he, hbad⟩ := hc
    exact ⟨e, he, by rw [h e he]; exact hbad⟩
  | unknown => trivial

/-- Programming a page that is not erased leaves it uncorrectable. -/
lemma isBad_program {p : Page} (hp : p ≠ .erased) (d : Buf) (o : Option Tag) :
    (p.program d o).isBad = true := by
  cases p with
  | erased => exact absurd rfl hp
  | _ => rfl

/-- A program of all the pages behind a page is a write of the page. -/
lemma cellShows_write (hne : pages ≠ []) {d : Buf} {o : Option Tag}
    (h : ∀ (j : ℕ) (e : ℕ × ℕ), pages[j]? = some e →
      m' e.1 e.2 = (m e.1 e.2).program (fun i => d (j * fl.pagesize + i)) o)
    (hc : CellShows fl m pages n c) : CellShows fl m' pages n (c.write (d.bytes n)) := by
  -- a page that was not erased is uncorrectable afterwards
  have hspoil : ∀ e ∈ pages, m e.1 e.2 ≠ .erased → (m' e.1 e.2).isBad = true := by
    intro e he hp
    obtain ⟨j, hj⟩ := List.mem_iff_getElem?.mp he
    rw [h j e hj]
    exact isBad_program hp _ _
  cases c with
  | clear =>
    refine ⟨d, rfl, fun j e he => ⟨o, ?_⟩⟩
    rw [h j e he, hc e (List.mem_of_getElem? he)]
    rfl
  | full a =>
    obtain ⟨d', -, hd'⟩ := hc
    obtain ⟨e, he⟩ := List.exists_mem_of_ne_nil pages hne
    obtain ⟨j, hj⟩ := List.mem_iff_getElem?.mp he
    obtain ⟨o', ho'⟩ := hd' j e hj
    exact ⟨e, he, hspoil e he (by rw [ho']; simp)⟩
  | spoilt =>
    obtain ⟨e, he, hbad⟩ := hc
    refine ⟨e, he, hspoil e he fun herased => ?_⟩
    rw [herased] at hbad
    cases hbad
  | unknown => trivial

/-- What the pages hold is what a read may deliver. -/
lemma cellShows_delivers (hlen : pages.length * fl.pagesize = n) {buf : Buf}
    (hbuf : m.Holds fl pages n buf) (hc : CellShows fl m pages n c) :
    c.Delivers (Buf.bytes (fun _ => 0xff) n) (buf.bytes n) := by
  have hpage : ∀ i < n, ∃ e, pages[i / fl.pagesize]? = some e ∧
      buf i = (m e.1 e.2).data (i % fl.pagesize) := by
    intro i hi
    have hlt : i / fl.pagesize < pages.length := by
      rw [Nat.div_lt_iff_lt_mul fl.pagesize_pos, hlen]
      exact hi
    refine ⟨pages[i / fl.pagesize], List.getElem?_eq_getElem hlt, ?_⟩
    rw [hbuf.2 i hi, List.getD_eq_getElem?_getD, List.getElem?_map, List.getElem?_eq_getElem hlt]
    rfl
  cases c with
  | clear =>
    refine bytes_congr fun i hi => ?_
    obtain ⟨e, he, hdata⟩ := hpage i hi
    rw [hdata, hc e (List.mem_of_getElem? he)]
    rfl
  | full a =>
    obtain ⟨d, rfl, hd⟩ := hc
    refine bytes_congr fun i hi => ?_
    obtain ⟨e, he, hdata⟩ := hpage i hi
    obtain ⟨o, ho⟩ := hd _ e he
    rw [hdata, ho]
    change d (i / fl.pagesize * fl.pagesize + i % fl.pagesize) = d i
    rw [mul_comm, Nat.div_add_mod]
  | spoilt =>
    obtain ⟨e, he, hbad⟩ := hc
    rw [hbuf.1 e he] at hbad
    cases hbad
  | unknown => trivial

end Cell

section Store

variable {fl : Flash} {ι : Type} {dev : ι → Phydev} {st : PageStore (List UInt8) (ι × ℕ)}
  {s t : St} {i : ι} {n : ℕ} {ret : ℤ}

/-- The block of a page. -/
def pageBlock (fl : Flash) (q : ι × ℕ) : ι × ℕ := (q.1, q.2 / fl.ppb)

/-- What an erased page reads as. -/
def blankPage (dev : ι → Phydev) (q : ι × ℕ) : List UInt8 :=
  Buf.bytes (fun _ => 0xff) (dev q.1).writesize

/-- The chips hold what the store says of every page of every device. -/
def Shows (fl : Flash) (dev : ι → Phydev) (m : Image) (st : PageStore (List UInt8) (ι × ℕ)) :
    Prop :=
  ∀ i n, (dev i).HasPage n → CellShows fl m ((dev i).pages fl n) (dev i).writesize (st (i, n))

/-- Different pages of the devices lie on different pages of the chips. -/
lemma Fleet.pages_disjoint (h : Fleet fl dev) {j : ι} {k : ℕ} (hn : (dev i).HasPage n)
    (hk : (dev j).HasPage k) (hne : (i, n) ≠ (j, k)) {e : ℕ × ℕ} (he : e ∈ (dev i).pages fl n) :
    e ∉ (dev j).pages fl k := by
  by_cases hij : i = j
  · subst hij
    exact (h.striped i).pages_disjoint hn hk (fun hnk => hne (by rw [hnk])) he
  · intro he'
    exact h.apart i j hij _ (Phydev.Striped.reaches_page hn he) (Phydev.Striped.reaches_page hk he')

/-- An erase of a block hits the pages of that block. -/
lemma Fleet.mem_blocks_iff (h : Fleet fl dev) {j : ι} {b : ℕ} (hn : (dev i).HasPage n)
    (hb : b * (dev j).erasesize < (dev j).size) {e : ℕ × ℕ} (he : e ∈ (dev i).pages fl n) :
    (e.1, e.2 / fl.ppb) ∈ (dev j).blocks fl b ↔ pageBlock fl (i, n) = (j, b) := by
  rw [pageBlock, Prod.mk.injEq]
  by_cases hij : i = j
  · subst hij
    rw [(h.striped i).mem_blocks_iff hn hb he, eq_self_iff_true, true_and]
  · refine ⟨fun hmem => ?_, fun heq => absurd heq.1 hij⟩
    exact absurd (Phydev.Striped.reaches_block hb hmem)
      (h.apart i j hij _ (Phydev.Striped.reaches_page hn he))

/-- A page lies on some page of the chips. -/
lemma Phydev.Striped.pages_ne_nil {dev : Phydev} (h : dev.Striped fl) (n : ℕ) :
    dev.pages fl n ≠ [] := by
  intro hnil
  have hlen := h.length_pages n
  have hpos := h.writesize_pos
  rw [hnil, List.length_nil, Nat.zero_mul] at hlen
  omega

variable [DecidableEq ι]

/-- The store behind a write. -/
lemma Fleet.shows_write (h : Fleet fl dev) (hst : Shows fl dev s.image st) (hn : (dev i).HasPage n)
    {d : Buf} {o : Option Tag} (hend : WriteEnds fl ((dev i).pages fl n) d o s ret t) :
    Shows fl dev t.image
      (st.next (pageBlock fl) (.write (i, n) (d.bytes (dev i).writesize) (ret = 0))) := by
  intro j k hk
  by_cases hq : (j, k) = (i, n)
  · obtain ⟨rfl, rfl⟩ := Prod.mk.inj hq
    simp only [PageStore.next, if_true]
    rcases hend with ⟨rfl, himage⟩ | ⟨hret, -⟩
    · simp only [decide_true, if_true]
      refine cellShows_write ((h.striped j).pages_ne_nil k) (o := o) (fun l e he => ?_) (hst j k hk)
      rw [himage, replay_programOps s.image ((dev _).nodup_pages fl _) d o he]
    · rw [if_neg (by simp; omega)]
      trivial
  · simp only [PageStore.next, if_neg hq]
    refine cellShows_congr (fun e he => ?_) (hst j k hk)
    have hout : e ∉ (dev i).pages fl n := h.pages_disjoint hk hn hq he
    rcases hend with ⟨-, himage⟩ | ⟨-, hframe, -⟩
    · rw [himage, replay_programOps_frame s.image ((dev _).nodup_pages fl _) d o hout]
    · exact hframe e hout

/-- The store behind an erase. -/
lemma Fleet.shows_erase (h : Fleet fl dev) (hst : Shows fl dev s.image st) {b : ℕ}
    (hb : b * (dev i).erasesize < (dev i).size)
    (hend : EraseEnds fl ((dev i).blocks fl b) s ret t) :
    Shows fl dev t.image (st.next (pageBlock fl) (.erase (i, b) (ret = 0))) := by
  intro j k hk
  by_cases hq : pageBlock fl (j, k) = (i, b)
  · simp only [PageStore.next, if_pos hq]
    rcases hend with ⟨rfl, himage⟩ | ⟨hret, -⟩
    · simp only [decide_true, if_true]
      intro e he
      rw [himage, replay_eraseOps, if_pos ((h.mem_blocks_iff hk hb he).2 hq)]
    · rw [if_neg (by simp; omega)]
      trivial
  · simp only [PageStore.next, if_neg hq]
    refine cellShows_congr (fun e he => ?_) (hst j k hk)
    have hout : (e.1, e.2 / fl.ppb) ∉ (dev i).blocks fl b :=
      fun hmem => hq ((h.mem_blocks_iff hk hb he).1 hmem)
    rcases hend with ⟨-, himage⟩ | ⟨-, hframe, -⟩
    · rw [himage, replay_eraseOps, if_neg hout]
    · exact hframe e hout

/-- A write or erase that is refused, because its page or block lies outside the device, leaves the
pages inside the devices alone. -/
lemma Shows.next_of_outside (hst : Shows fl dev s.image st)
    {ev : PageEvent (List UInt8) (ι × ℕ) (ι × ℕ)}
    (hout : ∀ j k, (dev j).HasPage k → ¬ev.Changes (pageBlock fl) (j, k)) :
    Shows fl dev s.image (st.next (pageBlock fl) ev) := by
  intro j k hk
  rw [PageStore.next_of_not_changes (hout j k hk)]
  exact hst j k hk

end Store

/-! ## Calls as events of the store -/

section Calls

variable {fl : Flash} {ι : Type} [DecidableEq ι] {dev : ι → Phydev} {oobavail : ι → ℕ}
  {st : PageStore (List UInt8) (ι × ℕ)} {s t : St} {i : ι} {c : HwCall} {r : ℤ × Buf}
  {p : PhysicOpPar}

omit [DecidableEq ι] in
lemma PhysicOpPar.block_lt (p : PhysicOpPar) : p.block < 2 ^ 16 := p.phyPage.blkNOInChip.toNat_lt

/-- Pages are numbered through the blocks of a device. -/
lemma PhysicOpPar.page_eq {dev : Phydev} (h : dev.Striped fl) (oobavail : ℕ) (p : PhysicOpPar) :
    p.page (dev.ntdPart oobavail) = p.block * fl.ppb + p.phyPage.pageNO.toNat := by
  rw [page, h.blocksizeShift_eq, h.pagesizeShift_eq, Nat.shiftLeft_eq, Nat.shiftRight_eq_div_pow,
    pow_add, mul_comm (2 ^ dev.writesizeShift), ← mul_assoc,
    Nat.mul_div_cancel _ (Nat.two_pow_pos _), Flash.ppb]

/-- A page number fits the 32 bits the partition takes it in. -/
lemma PhysicOpPar.page_lt {dev : Phydev} (h : dev.Striped fl) (oobavail : ℕ) (p : PhysicOpPar) :
    p.page (dev.ntdPart oobavail) < 2 ^ 32 := by
  have hpage : p.phyPage.pageNO.toNat < 2 ^ 16 := p.phyPage.pageNO.toNat_lt
  have hmul : p.block * fl.ppb ≤ 2 ^ 16 * 1024 := Nat.mul_le_mul p.block_lt.le fl.ppb_le
  rw [p.page_eq h]
  omega

/-- A write by the translation layer is a write of the store. -/
lemma Fleet.write_legal (h : Fleet fl dev) (hst : Shows fl dev s.image st)
    (hrun : (HwCall.write p).run fl ((dev i).ntdPart (oobavail i)) s = (some r, t)) :
    Shows fl dev t.image (st.after (pageBlock fl)
      ((HwCall.write p).events ((dev i).ntdPart (oobavail i)) i r)) ∧ t.plan = s.plan := by
  obtain ⟨ret, u, hwrite, hpure⟩ := bind_eq_some hrun
  cases hpure
  obtain ⟨hin, hout⟩ := writePageWithOob_ends (h.striped i)
    (p.page_lt (h.striped i) (oobavail i)) hwrite
  by_cases hpage : (dev i).HasPage (p.page ((dev i).ntdPart (oobavail i)))
  · obtain ⟨hend, hplan, -⟩ := hin hpage
    exact ⟨h.shows_write hst hpage hend, hplan⟩
  · obtain ⟨-, hsame⟩ := hout hpage
    rw [hsame]
    have hnext : Shows fl dev s.image (st.next (pageBlock fl) (.write
        (i, p.page ((dev i).ntdPart (oobavail i))) (p.mainData.bytes (dev i).writesize)
        (ret = 0))) := by
      refine hst.next_of_outside fun j k hk hq => hpage ?_
      obtain ⟨rfl, rfl⟩ := Prod.mk.inj hq
      exact hk
    exact ⟨hnext, rfl⟩

/-- An erase by the translation layer is an erase of the store. -/
lemma Fleet.erase_legal (h : Fleet fl dev) (hst : Shows fl dev s.image st)
    (hrun : (HwCall.erase p).run fl ((dev i).ntdPart (oobavail i)) s = (some r, t)) :
    Shows fl dev t.image (st.after (pageBlock fl)
      ((HwCall.erase p).events ((dev i).ntdPart (oobavail i)) i r)) ∧ t.plan = s.plan := by
  obtain ⟨ret, u, herase, hpure⟩ := bind_eq_some hrun
  cases hpure
  have hlt := p.block_lt
  obtain ⟨hin, hout⟩ := partErase_ends (h.striped i) (show p.block < 2 ^ 32 by omega) herase
  by_cases hblock : p.block * (dev i).erasesize < (dev i).size
  · obtain ⟨hend, hplan, -⟩ := hin hblock
    exact ⟨h.shows_erase hst hblock hend, hplan⟩
  · obtain ⟨-, hsame⟩ := hout hblock
    rw [hsame]
    have hnext : Shows fl dev s.image
        (st.next (pageBlock fl) (.erase (i, p.block) (ret = 0))) := by
      refine hst.next_of_outside fun j k hk hq => hblock ?_
      obtain ⟨rfl, hb⟩ := Prod.mk.inj hq
      rw [← hb]
      exact ((h.striped j).hasPage_iff_block k).1 hk
    exact ⟨hnext, rfl⟩

/-- A read by the translation layer is a read of the store. -/
lemma Fleet.read_legal (h : Fleet fl dev) (hst : Shows fl dev s.image st)
    (hcode : ∀ k, (s.plan k).read ≠ .failed 116)
    (hrun : (HwCall.read p).run fl ((dev i).ntdPart (oobavail i)) s = (some r, t)) :
    Legal (pageBlock fl) (blankPage dev) st
      ((HwCall.read p).events ((dev i).ntdPart (oobavail i)) i r) ∧
      t.image = s.image ∧ t.plan = s.plan := by
  obtain ⟨y, u, hread, hpure⟩ := bind_eq_some hrun
  cases hpure
  obtain ⟨hin, hout⟩ := readPageWithOob_ends (h.striped i)
    (p.page_lt (h.striped i) (oobavail i)) hcode hread
  simp only [HwCall.events, Legal, Along, and_true]
  by_cases hpage : (dev i).HasPage (p.page ((dev i).ntdPart (oobavail i)))
  · obtain ⟨himage, hplan, -, hholds, -⟩ := hin hpage
    refine ⟨?_, himage, hplan⟩
    by_cases hret : y.1 ≠ 0 ∧ y.1 ≠ -eUCLEAN
    · rw [if_pos hret, if_pos rfl]
      trivial
    · have hok : y.1 = 0 ∨ y.1 = -117 := by
        simp only [eUCLEAN] at hret
        omega
      rw [if_neg hret, if_neg (by simp only [eBADMSG]; omega)]
      exact cellShows_delivers ((h.striped i).length_pages _) (hholds hok) (hst i _ hpage)
  · obtain ⟨hret, rfl⟩ := hout hpage
    rw [hret, if_pos (by decide)]
    exact ⟨trivial, rfl, rfl⟩

/-- One call is allowed by the store, and the chips then hold what the store says. -/
lemma Fleet.call_legal (h : Fleet fl dev) (hst : Shows fl dev s.image st)
    (hcode : ∀ k, (s.plan k).read ≠ .failed 116)
    (hrun : c.run fl ((dev i).ntdPart (oobavail i)) s = (some r, t)) :
    Legal (pageBlock fl) (blankPage dev) st (c.events ((dev i).ntdPart (oobavail i)) i r) ∧
      Shows fl dev t.image
        (st.after (pageBlock fl) (c.events ((dev i).ntdPart (oobavail i)) i r)) ∧
      t.plan = s.plan := by
  cases c with
  | erase p => exact ⟨⟨trivial, trivial⟩, h.erase_legal hst hrun⟩
  | write p => exact ⟨⟨trivial, trivial⟩, h.write_legal hst hrun⟩
  | read p =>
    obtain ⟨hlegal, himage, hplan⟩ := h.read_legal hst hcode hrun
    refine ⟨hlegal, ?_, hplan⟩
    rw [himage]
    exact hst
  | isGood p =>
    obtain ⟨ret, u, hgood, hpure⟩ := bind_eq_some hrun
    cases hpure
    obtain ⟨ret', v, hisbad, hpure⟩ := bind_eq_some hgood
    cases hpure
    obtain ⟨himage, hplan, -⟩ := nandBlockIsbad_returned hisbad
    refine ⟨trivial, ?_, hplan⟩
    rw [himage]
    exact hst

/-- A run of calls is allowed by the store, and the chips then hold what the store says. -/
lemma Fleet.runs_legal (h : Fleet fl dev) (hst : Shows fl dev s.image st)
    (hcode : ∀ k, (s.plan k).read ≠ .failed 116) {cs : List (ι × HwCall)}
    {es : List (PageEvent (List UInt8) (ι × ℕ) (ι × ℕ))}
    (hrun : runHwCalls fl (fun i => (dev i).ntdPart (oobavail i)) cs s = (some es, t)) :
    Legal (pageBlock fl) (blankPage dev) st es ∧
      Shows fl dev t.image (st.after (pageBlock fl) es) := by
  induction cs generalizing s st es with
  | nil =>
    cases hrun
    exact ⟨trivial, hst⟩
  | cons c cs ih =>
    obtain ⟨r, u, hcall, hrun⟩ := bind_eq_some hrun
    obtain ⟨fs, v, hrest, hpure⟩ := bind_eq_some hrun
    cases hpure
    obtain ⟨hlegal, hst', hplan⟩ := h.call_legal hst hcode hcall
    obtain ⟨hlegal', hshows⟩ := ih hst' (by rw [hplan]; exact hcode) hrest
    rw [PageStore.after_append]
    exact ⟨along_append.2 ⟨hlegal, hlegal'⟩, hshows⟩

/-! ### Runs in which nothing fails -/

/-- The page or block of a call lies inside the device. -/
def HwCall.In (dev : Phydev) (ntd : NtdPart) : HwCall → Prop
  | .erase p => p.block * dev.erasesize < dev.size
  | .write p => dev.HasPage (p.page ntd)
  | .read p => dev.HasPage (p.page ntd)
  | .isGood _ => True

omit [DecidableEq ι] in
/-- A page that is erased or has been written once is correctable. -/
lemma CellShows.correctable {m : Image} {pages : List (ℕ × ℕ)} {n : ℕ} {c : Cell (List UInt8)}
    (hc : CellShows fl m pages n c) (hs : c ≠ .spoilt) (hu : c ≠ .unknown) {e : ℕ × ℕ}
    (he : e ∈ pages) : (m e.1 e.2).isBad = false := by
  cases c with
  | clear =>
    rw [hc e he]
    rfl
  | full a =>
    obtain ⟨d, -, hd⟩ := hc
    obtain ⟨j, hj⟩ := List.mem_iff_getElem?.mp he
    obtain ⟨o, ho⟩ := hd j e hj
    rw [ho]
    rfl
  | spoilt => exact absurd rfl hs
  | unknown => exact absurd rfl hu

omit [DecidableEq ι] in
/-- While nothing fails, no read fails. -/
lemma St.Calm.read_ne (hcalm : s.Calm) {code : ℕ} (k : ℕ) : (s.plan k).read ≠ .failed code := by
  obtain ⟨b, hb⟩ := (hcalm.1 k).2.2.1
  rw [hb]
  simp

/-- While nothing fails, a call inside its device returns and does its work. -/
lemma Fleet.call_complete (h : Fleet fl dev) (hst : Shows fl dev s.image st) (hcalm : s.Calm)
    (hidle : s.Idle) (hin : c.In (dev i) ((dev i).ntdPart (oobavail i))) :
    ∃ r t, c.run fl ((dev i).ntdPart (oobavail i)) s = (some r, t) ∧ t.Idle ∧ t.Calm ∧
      Complete (pageBlock fl) st (c.events ((dev i).ntdPart (oobavail i)) i r) := by
  have hkeep : ∀ {t : St}, t.plan = s.plan → t.readonly = s.readonly → t.Calm := by
    intro t hplan hro
    exact ⟨by rw [hplan]; exact hcalm.1, by rw [hro]; exact hcalm.2⟩
  cases c with
  | erase p =>
    obtain ⟨ret, t, herase, ht⟩ := partErase_idle (h.striped i) (oobavail i) p.block hidle
    have hlt := p.block_lt
    obtain ⟨hend, hplan, hro⟩ := (partErase_ends (h.striped i)
      (show p.block < 2 ^ 32 by omega) herase).1 hin
    have hret : ret = 0 := hend.elim (fun hok => hok.1) fun hfail => absurd hcalm hfail.2.2
    exact ⟨_, t, (bind_some herase).trans rfl, ht, hkeep hplan hro, decide_eq_true hret, trivial⟩
  | write p =>
    obtain ⟨ret, t, hwrite, ht⟩ := writePageWithOob_idle (h.striped i) (oobavail i)
      (p.page ((dev i).ntdPart (oobavail i))) p.spareData p.mainData hidle
    obtain ⟨hend, hplan, hro⟩ := (writePageWithOob_ends (h.striped i)
      (p.page_lt (h.striped i) (oobavail i)) hwrite).1 hin
    have hret : ret = 0 := hend.elim (fun hok => hok.1) fun hfail => absurd hcalm hfail.2.2
    exact ⟨_, t, (bind_some hwrite).trans rfl, ht, hkeep hplan hro, decide_eq_true hret, trivial⟩
  | read p =>
    obtain ⟨y, t, hread, ht⟩ := readPageWithOob_idle (h.striped i) (oobavail i)
      (p.page ((dev i).ntdPart (oobavail i))) p.mainData hidle
    obtain ⟨-, hplan, hro, -, hok⟩ := (readPageWithOob_ends (h.striped i)
      (p.page_lt (h.striped i) (oobavail i)) hcalm.read_ne hread).1 hin
    refine ⟨_, t, (bind_some hread).trans rfl, ht, hkeep hplan hro, ?_, trivial⟩
    simp only [PageEvent.Succeeds]
    by_cases hs : st (i, p.page ((dev i).ntdPart (oobavail i))) = .spoilt
    · exact .inr (.inl hs)
    · by_cases hu : st (i, p.page ((dev i).ntdPart (oobavail i))) = .unknown
      · exact .inr (.inr hu)
      · have hy := hok hcalm fun e he => CellShows.correctable (hst i _ hin) hs hu he
        have hret : (if y.1 ≠ 0 ∧ y.1 ≠ -eUCLEAN then -eBADMSG else y.1) = y.1 :=
          if_neg (by simp only [eUCLEAN]; omega)
        rw [hret, if_neg (by simp only [eBADMSG]; omega)]
        exact .inl rfl
  | isGood p =>
    have hshut := (h.striped i).shutDown_eq
    obtain ⟨ret, t, hisbad, ht, -, -⟩ := nandBlockIsbad_idle fl hshut
      { addr := (p.block <<< (dev i).erasesizeShift) % 2 ^ 64, len := (dev i).erasesize } hidle
    obtain ⟨-, hplan, hro⟩ := nandBlockIsbad_returned hisbad
    exact ⟨_, t, (bind_some ((bind_some hisbad).trans rfl)).trans rfl, ht, hkeep hplan hro, trivial⟩

/-- While nothing fails, a run of calls inside their devices returns and does its work. -/
lemma Fleet.runs_complete (h : Fleet fl dev) (hst : Shows fl dev s.image st) (hcalm : s.Calm)
    (hidle : s.Idle) {cs : List (ι × HwCall)}
    (hin : ∀ c ∈ cs, c.2.In (dev c.1) ((dev c.1).ntdPart (oobavail c.1))) :
    ∃ es t, runHwCalls fl (fun i => (dev i).ntdPart (oobavail i)) cs s = (some es, t) ∧ t.Idle ∧
      Complete (pageBlock fl) st es := by
  induction cs generalizing s st with
  | nil => exact ⟨[], s, rfl, hidle, trivial⟩
  | cons c cs ih =>
    obtain ⟨r, u, hcall, hidle', hcalm', hcomplete⟩ :=
      h.call_complete hst hcalm hidle (hin c List.mem_cons_self)
    obtain ⟨-, hst', -⟩ := h.call_legal hst hcalm.read_ne hcall
    obtain ⟨es, t, hrest, ht, hcomplete'⟩ := ih hst' hcalm' hidle'
      fun d hd => hin d (List.mem_cons_of_mem _ hd)
    exact ⟨_, t, (bind_some hcall).trans ((bind_some hrest).trans rfl), ht,
      along_append.2 ⟨hcomplete, hcomplete'⟩⟩

/-! ### Two devices on one chip -/

/-- Two data devices of 64 MiB on one chip, one behind the other. -/
def twoDevs (i : Bool) : Phydev := if i then { sampleDev with offset := 2 ^ 27 } else sampleDev

lemma twoDevs_fleet : Fleet Flash.oneChip twoDevs := by
  have hfirst : (twoDevs false).Striped Flash.oneChip :=
    ⟨sampleDev_placed, ⟨⟨false, 0, [], false, false⟩, rfl⟩, rfl⟩
  have hsecond : (twoDevs true).Striped Flash.oneChip :=
    ⟨setModes_placed Flash.oneChip ⟨false, 0, [], false, false⟩ (by decide) (by decide) (by decide),
      ⟨⟨false, 0, [], false, false⟩, rfl⟩, rfl⟩
  have happart : ∀ e, Reaches Flash.oneChip (twoDevs false) e →
      ¬Reaches Flash.oneChip (twoDevs true) e :=
    fun e he => hfirst.apart hsecond rfl rfl (by decide) he
  refine ⟨fun i => ?_, fun i j hij e hi hj => ?_⟩
  · cases i with
    | false => exact hfirst
    | true => exact hsecond
  · cases i <;> cases j
    · exact hij rfl
    · exact happart e hi hj
    · exact happart e hj hi
    · exact hij rfl

/-- The first page of a device, with a buffer that holds `v` everywhere. -/
def firstPagePar (v : UInt8) : PhysicOpPar := ⟨⟨0, 0⟩, fun _ => v, none⟩

/-- Both devices are erased and written, and the first one is read. -/
def twoDevsCalls : List (Bool × HwCall) :=
  [(false, .erase (firstPagePar 0)), (true, .erase (firstPagePar 0)),
    (false, .write (firstPagePar 1)), (true, .write (firstPagePar 2)),
    (false, .read (firstPagePar 0))]

/-- The chips are erased. -/
lemma shows_blank : Shows Flash.oneChip twoDevs St.blank.image fun _ => .clear :=
  fun _ _ _ _ _ => rfl

lemma blank_calm : St.blank.Calm := ⟨fun _ => Outcome.fine_fine, rfl⟩

lemma blank_idle : St.blank.Idle := ⟨rfl, rfl, fun _ => rfl⟩

lemma twoDevsCalls_in : ∀ c ∈ twoDevsCalls, c.2.In (twoDevs c.1) ((twoDevs c.1).ntdPart 16) := by
  intro c hc
  simp only [twoDevsCalls, List.mem_cons, List.not_mem_nil, or_false] at hc
  rcases hc with rfl | rfl | rfl | rfl | rfl <;> exact Nat.lt_of_sub_pos (by decide)

lemma twoDevs_run :
    ∃ es t, runHwCalls Flash.oneChip (fun i => (twoDevs i).ntdPart 16) twoDevsCalls St.blank =
      (some es, t) ∧ t.Idle ∧ Complete (pageBlock Flash.oneChip) (fun _ => .clear) es :=
  twoDevs_fleet.runs_complete shows_blank blank_calm blank_idle twoDevsCalls_in

end Calls

end Amlnf
