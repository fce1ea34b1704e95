import Amlnf.Dev.Lookups
import Amlnf.Dev.Range

set_option relaxedAutoImplicit false
set_option autoImplicit false

/-!
# The pages and blocks of a data device

A data device is written in pages that lie across chips and planes and erased in blocks of such
pages. A request for one page or one block is one call of a chip operation, and what it does to
the chips is decided by the pages and blocks behind the address.

## Main definitions

* `Phydev.Striped` — a data device with a write size as large as its shift says.
* `Phydev.pages`, `Phydev.blocks` — the pages of the chips behind a page of the device, and the
  blocks behind a block.
* `Serves` — an action that returns from every state with the lock as it was.

## Main results

* `Striped.pages_disjoint`, `Striped.mem_blocks_iff` — pages of a device share no page of the
  chips, and an erase of a block hits the pages of that block.
* `write_serves`, `erase_serves`, `read_serves` — the effect of a request for one page or block.
-/

namespace Amlnf

open Act

/-! ## Chips and planes -/

section Footprint

variable {fl : Flash} {p q : ChipOpsPara}

/-- A page is touched when its block is and it has the number of the page inside its block. -/
lemma mem_opPages_iff (e : ℕ × ℕ) :
    e ∈ opPages fl p ↔ (e.1, e.2 / fl.ppb) ∈ opBlocks fl p ∧ e.2 % fl.ppb = p.pageAddr % fl.ppb := by
  have hpos := fl.ppb_pos
  have hlt := Nat.mod_lt p.pageAddr hpos
  simp only [opPages, List.mem_map]
  constructor
  · rintro ⟨t, ht, rfl⟩
    have hdiv : (t.2 * fl.ppb + p.pageAddr % fl.ppb) / fl.ppb = t.2 := by
      rw [Nat.mul_comm, Nat.mul_add_div hpos, Nat.div_eq_of_lt hlt, Nat.add_zero]
    refine ⟨by simp only [hdiv]; exact ht, ?_⟩
    rw [Nat.mul_comm, Nat.mul_add_mod, Nat.mod_mod]
  · rintro ⟨hb, hr⟩
    refine ⟨_, hb, Prod.ext rfl ?_⟩
    simp only
    rw [← hr, Nat.mul_comm]
    exact Nat.div_add_mod _ _

/-- Operations in one mode on one block row touch the same blocks. -/
lemma opBlocks_congr (ho : p.option = q.option) (hc : p.chipnr = q.chipnr)
    (hr : p.pageAddr / fl.ppb = q.pageAddr / fl.ppb) : opBlocks fl p = opBlocks fl q := by
  simp only [opBlocks, opChips, opRows, ho, hc, hr]

/-- Operations in one mode that share a block are on one block row. -/
lemma row_eq_of_mem_opBlocks {e : ℕ × ℕ} (ho : p.option = q.option) (hp : e ∈ opBlocks fl p)
    (hq : e ∈ opBlocks fl q) : p.pageAddr / fl.ppb = q.pageAddr / fl.ppb := by
  have h1 := ((mem_opBlocks_iff fl _ e).1 hp).2
  have h2 := ((mem_opBlocks_iff fl _ e).1 hq).2
  rw [opRows] at h1 h2
  rw [ho] at h1
  by_cases hplane : q.option.multiPlane = true
  · simp only [hplane, if_true, List.mem_cons, List.not_mem_nil, or_false] at h1 h2
    omega
  · rw [if_neg hplane, List.mem_singleton] at h1 h2
    exact h1.symm.trans h2

/-- No block is touched twice. -/
lemma nodup_opBlocks (p : ChipOpsPara) : (opBlocks fl p).Nodup := by
  have hchips : (opChips fl p).Nodup := by
    unfold opChips
    split
    · exact List.nodup_range
    · exact List.nodup_singleton _
  have hrows : (opRows fl p).Nodup := by
    unfold opRows
    split
    · simp
    · exact List.nodup_singleton _
  exact hchips.product hrows

/-- No page is touched twice. -/
lemma nodup_opPages (p : ChipOpsPara) : (opPages fl p).Nodup := by
  refine (nodup_opBlocks p).map fun a b hab => ?_
  have h := Prod.mk.inj hab
  have h2 : a.2 * fl.ppb = b.2 * fl.ppb := by omega
  exact Prod.ext h.1 (Nat.eq_of_mul_eq_mul_right fl.ppb_pos h2)

/-- The pages of an operation are counted by chips and rows. -/
lemma length_opPages (p : ChipOpsPara) :
    (opPages fl p).length = (opChips fl p).length * (opRows fl p).length := by
  rw [opPages, List.length_map, opBlocks]
  simp [List.length_flatMap]

end Footprint

/-! ## Programs and erases -/

section Effect

variable {fl : Flash}

/-- The program commands of `programOps`, with the slices counted from `k`. -/
lemma programOps_from (fl : Flash) (pages : List (ℕ × ℕ)) (d : Buf) (o : Option Tag) (k : ℕ) (m : Image)
    (hnd : pages.Nodup) :
    let ops := (pages.zipIdx k).map fun t =>
      FlashOp.program t.1.1 t.1.2 (fun i => d (t.2 * fl.pagesize + i)) o
    (∀ e ∉ pages, m.replay fl ops e.1 e.2 = m e.1 e.2) ∧
      ∀ (j : ℕ) (e : ℕ × ℕ), pages[j]? = some e → m.replay fl ops e.1 e.2 =
        (m e.1 e.2).program (fun i => d ((k + j) * fl.pagesize + i)) o := by
  induction pages generalizing k m with
  | nil => simp
  | cons t pages ih =>
    rw [List.nodup_cons] at hnd
    obtain ⟨hframe, hhit⟩ := ih (k + 1)
      (m.apply fl (.program t.1 t.2 (fun i => d (k * fl.pagesize + i)) o)) hnd.2
    simp only [List.zipIdx_cons, List.map_cons, Image.replay_cons]
    have hother : ∀ e : ℕ × ℕ, e ≠ t →
        m.apply fl (.program t.1 t.2 (fun i => d (k * fl.pagesize + i)) o) e.1 e.2 = m e.1 e.2 :=
      fun e he => if_neg fun h => he (Prod.ext h.1 h.2)
    refine ⟨fun e he => ?_, fun j e he => ?_⟩
    · rw [List.mem_cons, not_or] at he
      rw [hframe e he.2, hother e he.1]
    · cases j with
      | zero =>
        rw [List.getElem?_cons_zero, Option.some.injEq] at he
        subst he
        rw [hframe t hnd.1, Nat.add_zero]
        exact if_pos ⟨rfl, rfl⟩
      | succ j =>
        rw [List.getElem?_cons_succ] at he
        have hne : e ≠ t := fun h => hnd.1 (h ▸ List.mem_of_getElem? he)
        rw [hhit j e he, hother e hne, Nat.add_assoc, Nat.add_comm 1 j]

/-- A program of several pages programs each of them with its slice of the buffer. -/
lemma replay_programOps (m : Image) {pages : List (ℕ × ℕ)} (hnd : pages.Nodup) (d : Buf)
    (o : Option Tag) {j : ℕ} {e : ℕ × ℕ} (he : pages[j]? = some e) :
    m.replay fl (programOps fl pages d o) e.1 e.2 =
      (m e.1 e.2).program (fun i => d (j * fl.pagesize + i)) o := by
  have h := (programOps_from fl pages d o 0 m hnd).2 j e he
  rwa [Nat.zero_add] at h

/-- Pages that are not programmed stay. -/
lemma replay_programOps_frame (m : Image) {pages : List (ℕ × ℕ)} (hnd : pages.Nodup) (d : Buf)
    (o : Option Tag) {e : ℕ × ℕ} (he : e ∉ pages) :
    m.replay fl (programOps fl pages d o) e.1 e.2 = m e.1 e.2 :=
  (programOps_from fl pages d o 0 m hnd).1 e he

/-- An erase of several blocks erases their pages. -/
lemma replay_eraseOps (m : Image) (blocks : List (ℕ × ℕ)) (c p : ℕ) :
    m.replay fl (eraseOps blocks) c p =
      if (c, p / fl.ppb) ∈ blocks then Page.erased else m c p := by
  induction blocks generalizing m with
  | nil => rfl
  | cons t blocks ih =>
    rw [eraseOps, List.map_cons, Image.replay_cons]
    change Image.replay fl _ (eraseOps blocks) c p = _
    rw [ih]
    have happly : m.apply fl (.erase t.1 t.2) c p =
        if (c, p / fl.ppb) = t then Page.erased else m c p := by
      change (if c = t.1 ∧ p / fl.ppb = t.2 then _ else _) = _
      simp only [Prod.ext_iff]
    rw [happly]
    by_cases h1 : (c, p / fl.ppb) ∈ blocks <;> simp [h1]

end Effect

/-! ## Data devices -/

/-- A data device in modes of the chips, at an aligned place on them, whose write size is as large
as its shift says. It is not when three chips share a row. -/
structure Phydev.Striped (fl : Flash) (dev : Phydev) : Prop extends dev.Placed fl where
  modes : ∃ para, dev = { setModes fl para with offset := dev.offset, size := dev.size }
  writesize_eq : dev.writesize = 2 ^ dev.writesizeShift

/-- Number of the first page of a device among the pages of its mode. -/
def Phydev.firstPage (dev : Phydev) : ℕ := dev.offset / dev.writesize

/-- The pages of the chips behind page `n` of a device, in buffer order. -/
def Phydev.pages (fl : Flash) (dev : Phydev) (n : ℕ) : List (ℕ × ℕ) :=
  opPages fl (dev.para (n * dev.writesize))

/-- The blocks of the chips behind block `b` of a device. -/
def Phydev.blocks (fl : Flash) (dev : Phydev) (b : ℕ) : List (ℕ × ℕ) :=
  opBlocks fl (dev.para (b * dev.erasesize))

/-- The pages of a device page are different. -/
lemma Phydev.nodup_pages (fl : Flash) (dev : Phydev) (n : ℕ) : (dev.pages fl n).Nodup :=
  nodup_opPages _

/-- Page `n` lies inside the device. -/
def Phydev.HasPage (dev : Phydev) (n : ℕ) : Prop := n * dev.writesize < dev.size

namespace Phydev.Striped

variable {fl : Flash} {dev : Phydev} (h : dev.Striped fl)

include h

lemma erasesize_pos : 0 < dev.erasesize := by
  rw [h.erasesize_eq]
  exact Nat.mul_pos h.writesize_pos fl.ppb_pos

/-- A page that starts inside the device ends there. -/
lemma hasPage_iff (n : ℕ) : dev.HasPage n ↔ n * dev.writesize + dev.writesize ≤ dev.size := by
  have hpos := h.writesize_pos
  have hdvd : dev.writesize ∣ dev.size := by
    have he := h.size_dvd
    rw [h.erasesize_eq] at he
    exact (Nat.dvd_mul_right _ _).trans he
  obtain ⟨k, hk⟩ := hdvd
  rw [HasPage, hk, mul_comm dev.writesize k, Nat.mul_lt_mul_right hpos, ← Nat.succ_mul,
    Nat.mul_le_mul_right_iff hpos, Nat.succ_le_iff]

/-- A block that starts inside the device ends there. -/
lemma block_iff (b : ℕ) :
    b * dev.erasesize < dev.size ↔ b * dev.erasesize + dev.erasesize ≤ dev.size := by
  have hpos := h.erasesize_pos
  obtain ⟨k, hk⟩ := h.size_dvd
  rw [hk, mul_comm dev.erasesize k, Nat.mul_lt_mul_right hpos, ← Nat.succ_mul,
    Nat.mul_le_mul_right_iff hpos, Nat.succ_le_iff]

/-- A page lies inside the device when its block does. -/
lemma hasPage_iff_block (n : ℕ) : dev.HasPage n ↔ n / fl.ppb * dev.erasesize < dev.size := by
  obtain ⟨k, hk⟩ := h.size_dvd
  have hpos := h.writesize_pos
  rw [HasPage, hk, mul_comm dev.erasesize k, Nat.mul_lt_mul_right h.erasesize_pos,
    h.erasesize_eq, ← mul_assoc, mul_right_comm, Nat.mul_lt_mul_right hpos,
    Nat.div_lt_iff_lt_mul fl.ppb_pos]

omit h in
/-- All requests of a device are made in its mode. -/
lemma para_option (x y : ℕ) : (dev.para x).option = (dev.para y).option := rfl

/-- Pages are numbered on from the first page of the device. -/
lemma pageAddr_page {n : ℕ} (hn : dev.HasPage n) :
    (dev.para (n * dev.writesize)).pageAddr = dev.firstPage + n := by
  have hlim := h.limit
  have hdvd := h.kept_dvd
  have hn' : n * dev.writesize < dev.size := hn
  have h64 : 2 ^ (dev.writesizeShift + 32) ≤ 2 ^ 64 := Nat.le_of_dvd (Nat.two_pow_pos _) hdvd
  change dev.pageAddr ((dev.offset + n * dev.writesize) % 2 ^ 64) = _
  rw [Nat.mod_eq_of_lt (by omega), pageAddr_eq, Nat.mod_eq_of_lt (by omega), ← h.writesize_eq,
    Nat.add_mul_div_right _ _ h.writesize_pos, firstPage]

/-- The device starts with a block. -/
lemma ppb_dvd_firstPage : fl.ppb ∣ dev.firstPage := by
  obtain ⟨k, hk⟩ := h.offset_dvd
  refine ⟨k, ?_⟩
  rw [firstPage, hk, h.erasesize_eq, mul_assoc, Nat.mul_div_cancel_left _ h.writesize_pos]

/-- The row of a page. -/
lemma row_page {n : ℕ} (hn : dev.HasPage n) :
    (dev.para (n * dev.writesize)).pageAddr / fl.ppb = dev.firstPage / fl.ppb + n / fl.ppb := by
  rw [h.pageAddr_page hn, Nat.add_div_of_dvd_right h.ppb_dvd_firstPage]

/-- The row of a block. -/
lemma row_block {b : ℕ} (hb : b * dev.erasesize < dev.size) :
    (dev.para (b * dev.erasesize)).pageAddr / fl.ppb = dev.firstPage / fl.ppb + b := by
  have heq : b * dev.erasesize = b * fl.ppb * dev.writesize := by
    rw [h.erasesize_eq]
    ring
  have hpage : dev.HasPage (b * fl.ppb) := by
    rw [HasPage, ← heq]
    exact hb
  rw [heq, h.row_page hpage, Nat.mul_div_cancel _ fl.ppb_pos]

/-- Different pages of a device lie on different pages of the chips. -/
lemma pages_disjoint {n m : ℕ} (hn : dev.HasPage n) (hm : dev.HasPage m) (hne : n ≠ m)
    {e : ℕ × ℕ} (he : e ∈ dev.pages fl n) : e ∉ dev.pages fl m := by
  intro he'
  rw [pages, mem_opPages_iff] at he he'
  have hrow := row_eq_of_mem_opBlocks (para_option _ _) he.1 he'.1
  have hcol := he.2.symm.trans he'.2
  have heq := Nat.div_add_mod (dev.para (n * dev.writesize)).pageAddr fl.ppb
  rw [hrow, hcol, Nat.div_add_mod, h.pageAddr_page hn, h.pageAddr_page hm] at heq
  omega

/-- An erase of a block hits the pages of that block and no other page of the device. -/
lemma mem_blocks_iff {n b : ℕ} (hn : dev.HasPage n) (hb : b * dev.erasesize < dev.size)
    {e : ℕ × ℕ} (he : e ∈ dev.pages fl n) :
    (e.1, e.2 / fl.ppb) ∈ dev.blocks fl b ↔ n / fl.ppb = b := by
  rw [pages, mem_opPages_iff] at he
  constructor
  · intro hmem
    have hrow := row_eq_of_mem_opBlocks (para_option _ _) he.1 hmem
    rw [h.row_page hn, h.row_block hb] at hrow
    omega
  · intro hnb
    have hrow : (dev.para (n * dev.writesize)).pageAddr / fl.ppb =
        (dev.para (b * dev.erasesize)).pageAddr / fl.ppb := by
      rw [h.row_page hn, h.row_block hb, hnb]
    have heq := opBlocks_congr (para_option (n * dev.writesize) (b * dev.erasesize)) rfl hrow
    rw [blocks, ← heq]
    exact he.1

omit h in
/-- The device reaches the blocks of its pages. -/
lemma reaches_page {n : ℕ} (hn : dev.HasPage n) {e : ℕ × ℕ} (he : e ∈ dev.pages fl n) :
    Reaches fl dev (e.1, e.2 / fl.ppb) := by
  rw [pages, mem_opPages_iff] at he
  exact ⟨_, hn, he.1⟩

omit h in
/-- The device reaches its blocks. -/
lemma reaches_block {b : ℕ} (hb : b * dev.erasesize < dev.size) {e : ℕ × ℕ}
    (he : e ∈ dev.blocks fl b) : Reaches fl dev e := ⟨_, hb, he⟩

/-- The pages of the chips behind a page hold its bytes. -/
lemma length_pages (n : ℕ) : (dev.pages fl n).length * fl.pagesize = dev.writesize := by
  obtain ⟨para, hpara⟩ := h.modes
  have hoption : (dev.para (n * dev.writesize)).option = (setModes fl para).option := by
    rw [Phydev.para, hpara]
  have hsize : dev.writesize = (setModes fl para).writesize := by rw [hpara]
  have hchips : (opChips fl (dev.para (n * dev.writesize))).length =
      if para.multiChip ∧ 1 < fl.chipNum then fl.chipNum else 1 := by
    rw [opChips, hoption]
    by_cases hm : para.multiChip = true ∧ 1 < fl.chipNum
    · rw [if_pos hm, if_pos ⟨by simp [setModes, hm], hm.2⟩, List.length_range]
    · rw [if_neg hm, if_neg (fun hc => hm (by simpa [setModes] using hc.1)), List.length_singleton]
  have hrows : (opRows fl (dev.para (n * dev.writesize))).length =
      if para.multiPlane ∧ fl.multiPlane then 2 else 1 := by
    rw [opRows, hoption]
    by_cases hm : para.multiPlane = true ∧ fl.multiPlane = true
    · rw [if_pos hm, if_pos (by simp [setModes, hm])]
      rfl
    · rw [if_neg hm, if_neg (fun hc => hm (by simpa [setModes] using hc))]
      rfl
  rw [pages, length_opPages, hchips, hrows, hsize, mul_comm]
  simp only [setModes]

end Phydev.Striped

/-! ## Requests for one page or one block -/

section Requests

variable {fl : Flash} {dev : Phydev} {α : Type} {x : Act St α} {Q : St → α → St → Prop}
  {s t : St} {a : α}

/-- From every state `x` returns, with the lock, the plan and the write protection as they were,
and `Q` relates the states before and after and the value. -/
def Serves (x : Act St α) (Q : St → α → St → Prop) : Prop :=
  ∀ s, ∃ a t, x s = (some a, t) ∧ Q s a t ∧ t.plan = s.plan ∧ t.readonly = s.readonly ∧
    t.mutex = s.mutex ∧ t.idleflag = s.idleflag

/-- What a request that returned did while it held the device. -/
lemma withDevice_returned (hx : Serves x Q) {st : ChipState}
    (h : withDevice st x s = (some a, t)) :
    ∃ u, Q { s with state := st, mutex := true, idleflag := true, tick := s.tick + 1 } a u ∧
      t = { u with state := .ready, mutex := false, idleflag := false } ∧ t.plan = s.plan ∧
      t.readonly = s.readonly := by
  obtain ⟨_, v, hget, h⟩ := bind_eq_some h
  obtain ⟨-, -, -, rfl⟩ := amlnandGetDevice_returned hget
  obtain ⟨b, u, hrun, hQ, hplan, hro, hmutex, hidle⟩ :=
    hx { s with state := st, mutex := true, idleflag := true, tick := s.tick + 1 }
  rw [bind_some hrun, bind_some (amlnandReleaseDevice_held hmutex hidle), pure_apply] at h
  cases h
  exact ⟨u, hQ, rfl, hplan, hro⟩

/-- An idle driver serves a request and is idle again. -/
lemma withDevice_idle (hx : Serves x Q) (st : ChipState) (hs : s.Idle) :
    ∃ a t, withDevice st x s = (some a, t) ∧ t.Idle := by
  obtain ⟨b, u, hrun, -, hplan, -, hmutex, hidle⟩ :=
    hx { s with state := st, mutex := true, idleflag := true, tick := s.tick + 1 }
  refine ⟨b, _, withDevice_run st hs.ready hs.free (hs.pin s.tick) hrun hmutex hidle, rfl, rfl,
    fun k => ?_⟩
  simp only [hplan]
  exact hs.pin k

/-- A command that is issued succeeds and is carried out, or fails and spoils what it is about. -/
lemma issue_serves (fl : Flash) (ops : List FlashOp) (hit : ℕ → ℕ → Bool) (r : Outcome → OpResult)
    (hr : ∀ o : Outcome, o.Fine → r o = .done) :
    Serves (issue fl ops hit r) fun s ret t => t.opsPara = s.opsPara ∧
      ((ret = 0 ∧ t.image = s.image.replay fl ops) ∨
        (ret < 0 ∧ (∀ c p, hit c p = false → t.image c p = s.image c p) ∧ ¬s.Calm)) := by
  intro s
  rw [issue]
  cases hres : r (s.plan s.tick) with
  | done => exact ⟨_, _, rfl, ⟨rfl, .inl ⟨rfl, rfl⟩⟩, rfl, rfl, rfl, rfl⟩
  | failed code left =>
    refine ⟨_, _, rfl, ⟨rfl, .inr ⟨by omega, fun c p hp => ?_, fun hcalm => ?_⟩⟩, rfl, rfl, rfl, rfl⟩
    · simp [hp]
    · rw [hr _ (hcalm.1 s.tick)] at hres
      cases hres

/-- A command behind the write protection is carried out, or fails and spoils at most what it is
about. -/
lemma guardedIssue_serves (fl : Flash) (ops : St → List FlashOp) (hit : St → ℕ → ℕ → Bool)
    (r : Outcome → OpResult) (hr : ∀ o : Outcome, o.Fine → r o = .done) :
    Serves (do
        let s ← get
        if s.readonly then pure (-eROFS) else issue fl (ops s) (hit s) r)
      fun s ret t => t.opsPara = s.opsPara ∧
        ((ret = 0 ∧ t.image = s.image.replay fl (ops s)) ∨
          (ret < 0 ∧ (∀ c p, hit s c p = false → t.image c p = s.image c p) ∧ ¬s.Calm)) := by
  intro s
  rw [get_bind]
  by_cases hro : s.readonly = true
  · rw [if_pos hro]
    refine ⟨_, s, rfl, ⟨rfl, .inr ⟨by decide, fun _ _ _ => rfl, fun hcalm => ?_⟩⟩, rfl, rfl, rfl, rfl⟩
    rw [hcalm.2] at hro
    cases hro
  · rw [if_neg hro]
    exact issue_serves fl (ops s) (hit s) r hr s

/-- `write_page` with a buffer. -/
lemma writePage_serves (fl : Flash) (d : Buf) (o : Option Tag) :
    Serves (writePage fl (some d) o) fun s ret t => t.opsPara = s.opsPara ∧
      ((ret = 0 ∧ t.image = s.image.replay fl (programOps fl (opPages fl s.opsPara) d o)) ∨
        (ret < 0 ∧ (∀ e ∉ opPages fl s.opsPara, t.image e.1 e.2 = s.image e.1 e.2) ∧ ¬s.Calm)) := by
  intro s
  obtain ⟨ret, t, hrun, ⟨hpara, hres⟩, hrest⟩ := guardedIssue_serves fl
    (fun s => programOps fl (opPages fl s.opsPara) d o)
    (fun s c p => (opPages fl s.opsPara).contains (c, p)) Outcome.prog (fun o ho => ho.1) s
  refine ⟨ret, t, hrun, ⟨hpara, hres.imp id fun hfail => ⟨hfail.1, fun e he => ?_, hfail.2.2⟩⟩, hrest⟩
  exact hfail.2.1 e.1 e.2 (by simpa using he)

/-- `erase_block`. -/
lemma eraseBlock_serves (fl : Flash) :
    Serves (eraseBlock fl) fun s ret t => t.opsPara = s.opsPara ∧
      ((ret = 0 ∧ t.image = s.image.replay fl (eraseOps (opBlocks fl s.opsPara))) ∨
        (ret < 0 ∧ (∀ e : ℕ × ℕ, (e.1, e.2 / fl.ppb) ∉ opBlocks fl s.opsPara →
          t.image e.1 e.2 = s.image e.1 e.2) ∧ ¬s.Calm)) := by
  intro s
  obtain ⟨ret, t, hrun, ⟨hpara, hres⟩, hrest⟩ := guardedIssue_serves fl
    (fun s => eraseOps (opBlocks fl s.opsPara))
    (fun s c p => (opBlocks fl s.opsPara).contains (c, p / fl.ppb)) Outcome.erase
    (fun o ho => ho.2.1) s
  refine ⟨ret, t, hrun, ⟨hpara, hres.imp id fun hfail => ⟨hfail.1, fun e he => ?_, hfail.2.2⟩⟩, hrest⟩
  exact hfail.2.1 e.1 e.2 (by simpa using he)

/-- Pages that are not uncorrectable, and the bytes they hold. -/
def Image.Holds (fl : Flash) (m : Image) (pages : List (ℕ × ℕ)) (n : ℕ) (buf : Buf) : Prop :=
  (∀ e ∈ pages, (m e.1 e.2).isBad = false) ∧
    ∀ i < n, buf i = ((pages.map fun e => m e.1 e.2).getD (i / fl.pagesize) .erased).data
      (i % fl.pagesize)

/-- `read_page`: an error code that is not zero is that of the hardware. -/
lemma readPageInto_serves (fl : Flash) :
    Serves (readPageInto fl) fun s b t => t.image = s.image ∧
      ((∃ code, (s.plan s.tick).read = .failed code ∧ b.ret = -(code + 1 : ℤ)) ∨
        (b.ret = 0 ∧ t.opsPara.eccErr = true ∧
          (s.Calm → ∃ e ∈ opPages fl s.opsPara, (s.image e.1 e.2).isBad = true)) ∨
        (b.ret = 0 ∧ t.opsPara.eccErr = s.opsPara.eccErr ∧
          ∀ n, s.image.Holds fl (opPages fl s.opsPara) n b.data)) := by
  intro s
  rw [readPageInto, get_bind, bind_some (x := nextOutcome) (s := s) rfl]
  cases hres : (s.plan s.tick).read with
  | failed code => exact ⟨_, _, rfl, ⟨rfl, .inl ⟨code, hres, rfl⟩⟩, rfl, rfl, rfl, rfl⟩
  | uncorrectable =>
    refine ⟨_, _, rfl, ⟨rfl, .inr (.inl ⟨rfl, rfl, fun hcalm => ?_⟩)⟩, rfl, rfl, rfl, rfl⟩
    obtain ⟨b, hb⟩ := (hcalm.1 s.tick).2.2.1
    rw [hb] at hres
    cases hres
  | clean bitFlip =>
    simp only
    by_cases hbad : ((opPages fl s.opsPara).map fun t => s.image t.1 t.2).any Page.isBad = true
    · rw [if_pos hbad]
      refine ⟨_, _, rfl, ⟨rfl, .inr (.inl ⟨rfl, rfl, fun _ => ?_⟩)⟩, rfl, rfl, rfl, rfl⟩
      obtain ⟨_, hmem, hpage⟩ := List.any_eq_true.mp hbad
      obtain ⟨e, he, rfl⟩ := List.mem_map.mp hmem
      exact ⟨e, he, hpage⟩
    · rw [if_neg hbad]
      refine ⟨_, _, rfl, ⟨rfl, .inr (.inr ⟨rfl, rfl, fun n => ⟨fun e he => ?_, fun _ _ => rfl⟩⟩)⟩,
        rfl, rfl, rfl, rfl⟩
      rw [List.any_eq_true] at hbad
      by_contra hpage
      exact hbad ⟨_, List.mem_map_of_mem he, by simpa using hpage⟩

/-! ### A write of one page -/

variable {r : DevOps} {d : Buf}

/-- What a request to write the pages `pages` comes to. -/
def WriteEnds (fl : Flash) (pages : List (ℕ × ℕ)) (d : Buf) (o : Option Tag) (s : St) (ret : ℤ)
    (t : St) : Prop :=
  (ret = 0 ∧ t.image = s.image.replay fl (programOps fl pages d o)) ∨
    (ret < 0 ∧ (∀ e ∉ pages, t.image e.1 e.2 = s.image e.1 e.2) ∧ ¬s.Calm)

/-- The walk of `nand_write` over one page. -/
lemma write_serves (hlen : r.len = dev.writesize) (hd : r.datbuf = some d)
    (hsoft : r.softEcc = false) :
    Serves (do setPara dev r.softEcc; loopUntil (writeDevRound fl dev r) (r.len + 1) (dev.start r, 0))
      fun s x t => WriteEnds fl (opPages fl (dev.para r.addr)) d r.oobbuf s x.1 t := by
  intro s
  obtain ⟨ret, t, hrun, ⟨-, hres⟩, hrest⟩ := writePage_serves fl d r.oobbuf
    { s with opsPara := dev.para r.addr, handed := s.handed ++ [dev.para r.addr] }
  have hround : writeDevRound fl dev r (dev.start r, 0) { s with opsPara := { option := dev.option } } =
      (some (Sum.inr (ret, if ret < 0 then 0 else dev.writesize)), t) := by
    have hdat : (r.datbuf.map fun d i => d (0 + i)) = some d := by
      rw [hd, Option.map_some]
      simp only [Nat.zero_add]
    rw [writeDevRound, seekAddr, modify_bind, hdat]
    refine (bind_some (a := ret) (t := t) hrun).trans ?_
    simp only [hlen, Nat.zero_add, le_refl, if_true]
    split <;> rfl
  refine ⟨(ret, if ret < 0 then 0 else dev.writesize), t, ?_, hres, hrest⟩
  rw [setPara, hsoft, Bool.or_false, modify_bind]
  exact loopUntil_inr _ hround

/-- A write of one page that returned. -/
lemma nandWrite_page {y : ℤ × ℕ} (hlen : r.len = dev.writesize) (hpos : 0 < dev.writesize)
    (hd : r.datbuf = some d) (hsoft : r.softEcc = false) (hshut : dev.shutDown = false)
    (hin : dev.outOfSpace r = false) (h : nandWrite fl dev r s = (some y, t)) :
    WriteEnds fl (opPages fl (dev.para r.addr)) d r.oobbuf s y.1 t ∧ t.plan = s.plan ∧
      t.readonly = s.readonly := by
  rw [nandWrite, hin, if_neg Bool.false_ne_true, hshut, if_neg (by simp; omega)] at h
  obtain ⟨u, hend, rfl, hplan, hro⟩ := withDevice_returned (write_serves hlen hd hsoft) h
  exact ⟨hend, hplan, hro⟩

/-- A write past the end is refused. -/
lemma nandWrite_refused (hout : dev.outOfSpace r = true) (s : St) :
    nandWrite fl dev r s = (some (-nandArgumentFailure, 0), s) := by
  rw [nandWrite, if_pos hout, pure_apply]

/-- An idle driver serves a write of one page. -/
lemma nandWrite_idle (fl : Flash) (dev : Phydev) (hlen : r.len = dev.writesize) (hpos : 0 < dev.writesize)
    (hd : r.datbuf = some d) (hsoft : r.softEcc = false) (hshut : dev.shutDown = false)
    (hs : s.Idle) : ∃ y t, nandWrite fl dev r s = (some y, t) ∧ t.Idle := by
  rw [nandWrite]
  split
  · exact ⟨_, s, rfl, hs⟩
  · rw [hshut, if_neg (by simp; omega)]
    exact withDevice_idle (write_serves hlen hd hsoft) .writing hs

/-! ### An erase of one block -/

/-- What a request to erase the blocks `blocks` comes to. -/
def EraseEnds (fl : Flash) (blocks : List (ℕ × ℕ)) (s : St) (ret : ℤ) (t : St) : Prop :=
  (ret = 0 ∧ t.image = s.image.replay fl (eraseOps blocks)) ∨
    (ret < 0 ∧ (∀ e : ℕ × ℕ, (e.1, e.2 / fl.ppb) ∉ blocks → t.image e.1 e.2 = s.image e.1 e.2) ∧
      ¬s.Calm)

/-- The walk of `nand_erase` over one block. -/
lemma erase_serves (hlen : r.len = dev.erasesize) :
    Serves (do setPara dev false; loopUntil (eraseDevRound fl dev r.len) (r.len + 1) (dev.start r, 0))
      fun s x t => EraseEnds fl (opBlocks fl (dev.para r.addr)) s x.1 t := by
  intro s
  obtain ⟨ret, t, hrun, ⟨-, hres⟩, hrest⟩ := eraseBlock_serves fl
    { s with opsPara := dev.para r.addr, handed := s.handed ++ [dev.para r.addr] }
  have hround : eraseDevRound fl dev r.len (dev.start r, 0)
      { s with opsPara := { option := dev.option } } =
      (some (Sum.inr (ret, if ret < 0 then 0 else dev.erasesize)), t) := by
    rw [eraseDevRound, seekAddr, modify_bind]
    refine (bind_some (a := ret) (t := t) hrun).trans ?_
    simp only [hlen, Nat.zero_add, le_refl, if_true]
    split <;> rfl
  refine ⟨(ret, if ret < 0 then 0 else dev.erasesize), t, ?_, hres, hrest⟩
  rw [setPara, Bool.or_false, modify_bind]
  exact loopUntil_inr _ hround

/-- An erase of one block that returned. -/
lemma nandErase_block {y : ℤ × ℕ} (hlen : r.len = dev.erasesize) (hpos : 0 < dev.erasesize)
    (hshut : dev.shutDown = false) (hin : dev.outOfSpace r = false)
    (h : nandErase fl dev r s = (some y, t)) :
    EraseEnds fl (opBlocks fl (dev.para r.addr)) s y.1 t ∧ t.plan = s.plan ∧
      t.readonly = s.readonly := by
  rw [nandErase, hin, if_neg Bool.false_ne_true, hshut, if_neg (by simp; omega)] at h
  obtain ⟨u, hend, rfl, hplan, hro⟩ := withDevice_returned (erase_serves hlen) h
  exact ⟨hend, hplan, hro⟩

/-- An erase past the end is refused. -/
lemma nandErase_refused (hout : dev.outOfSpace r = true) (s : St) :
    nandErase fl dev r s = (some (-nandArgumentFailure, 0), s) := by
  rw [nandErase, if_pos hout, pure_apply]

/-- An idle driver serves an erase of one block. -/
lemma nandErase_idle (fl : Flash) (dev : Phydev) (hlen : r.len = dev.erasesize) (hpos : 0 < dev.erasesize)
    (hshut : dev.shutDown = false) (hs : s.Idle) :
    ∃ y t, nandErase fl dev r s = (some y, t) ∧ t.Idle := by
  rw [nandErase]
  split
  · exact ⟨_, s, rfl, hs⟩
  · rw [hshut, if_neg (by simp; omega)]
    exact withDevice_idle (erase_serves hlen) .erasing hs

/-! ### A read of one page -/

/-- What a request to read the pages `pages` comes to, before the error flags are looked at. -/
def ReadEnds (fl : Flash) (pages : List (ℕ × ℕ)) (n : ℕ) (s : St) (x : ℤ × ℕ × Buf) (t : St) :
    Prop :=
  t.image = s.image ∧
    ((∃ k code, (s.plan k).read = .failed code ∧ x.1 = -(code + 1 : ℤ)) ∨
      (x.1 = 0 ∧ t.opsPara.eccErr = true ∧
        (s.Calm → ∃ e ∈ pages, (s.image e.1 e.2).isBad = true)) ∨
      (x.1 = 0 ∧ t.opsPara.eccErr = false ∧ s.image.Holds fl pages n x.2.2))

/-- The walk of `nand_read` over one page. -/
lemma read_serves (fl : Flash) (dev : Phydev) (buf : Buf) (hd : r.datbuf = some d)
    (hsoft : r.softEcc = false) :
    Serves (do
        setPara dev r.softEcc
        loopUntil (readDevRound fl dev r dev.writesize) (dev.writesize + 1) (dev.start r, 0, buf))
      fun s x t => ReadEnds fl (opPages fl (dev.para r.addr)) dev.writesize s x t := by
  intro s
  obtain ⟨b, t, hrun, ⟨himage, hres⟩, hrest⟩ := readPageInto_serves fl
    { s with opsPara := dev.para r.addr, handed := s.handed ++ [dev.para r.addr] }
  have hround : readDevRound fl dev r dev.writesize (dev.start r, 0, buf)
      { s with opsPara := { option := dev.option } } =
      (some (Sum.inr (if t.opsPara.eccErr = true ∨ b.ret < 0 then (b.ret, 0, buf)
        else (b.ret, dev.writesize, blit buf 0 dev.writesize b.data))), t) := by
    rw [readDevRound, seekAddr, modify_bind, hd, Option.isSome_some, readPage_data]
    refine (bind_some (a := b) (t := t) hrun).trans ?_
    rw [get_bind]
    by_cases herr : t.opsPara.eccErr = true ∨ b.ret < 0
    · rw [if_pos herr, if_pos herr, pure_apply]
    · rw [if_neg herr, if_neg herr]
      simp only [Nat.zero_add, le_refl, if_true, pure_apply]
  refine ⟨if t.opsPara.eccErr = true ∨ b.ret < 0 then (b.ret, 0, buf)
    else (b.ret, dev.writesize, blit buf 0 dev.writesize b.data), t, ?_, ⟨himage, ?_⟩, hrest⟩
  · rw [setPara, hsoft, Bool.or_false, modify_bind]
    exact loopUntil_inr _ hround
  · rcases hres with ⟨code, hcode, hret⟩ | ⟨hret, hecc, hbad⟩ | ⟨hret, hecc, hholds⟩
    · have hneg : b.ret < 0 := by omega
      refine .inl ⟨s.tick, code, hcode, ?_⟩
      rw [if_pos (.inr hneg)]
      exact hret
    · refine .inr (.inl ⟨?_, hecc, hbad⟩)
      rw [if_pos (.inl hecc)]
      exact hret
    · have herr : ¬(t.opsPara.eccErr = true ∨ b.ret < 0) := by
        rw [hecc, hret]
        simp [Phydev.para]
      refine .inr (.inr ⟨?_, hecc, (hholds dev.writesize).1, fun i hi => ?_⟩)
      · rw [if_neg herr]
        exact hret
      · rw [if_neg herr]
        simp only [blit, Nat.zero_le, Nat.zero_add, hi, and_self, if_true, Nat.sub_zero]
        exact (hholds dev.writesize).2 i hi

/-- A read of one page that returned: the code is `0` or `-EUCLEAN` only when the bytes of the
pages have been delivered, and always when no page is uncorrectable and nothing fails. -/
lemma nandRead_page {y : ℤ × ℕ × Buf} (hlen : r.len = dev.writesize) (hpos : 0 < dev.writesize)
    (hd : r.datbuf = some d) (hsoft : r.softEcc = false) (hin : dev.outOfSpace r = false)
    (hcode : ∀ k, (s.plan k).read ≠ .failed 116) (h : nandRead fl dev r s = (some y, t)) :
    t.image = s.image ∧ t.plan = s.plan ∧ t.readonly = s.readonly ∧
      (y.1 = 0 ∨ y.1 = -117 →
        s.image.Holds fl (opPages fl (dev.para r.addr)) dev.writesize y.2.2) ∧
      (s.Calm → (∀ e ∈ opPages fl (dev.para r.addr), (s.image e.1 e.2).isBad = false) →
        y.1 = 0 ∨ y.1 = -117) := by
  rw [nandRead, hin, if_neg Bool.false_ne_true, if_neg (by omega), hlen,
    if_neg (Nat.pos_iff_ne_zero.mp hpos)] at h
  obtain ⟨⟨ret, retlen, buf⟩, v, hrun, h⟩ := bind_eq_some h
  obtain ⟨u, ⟨himage, hend⟩, rfl, hplan, hro⟩ := withDevice_returned (read_serves fl dev _ hd hsoft) hrun
  simp only [get_bind] at h
  rcases hend with ⟨k, code, hfail, hret⟩ | ⟨hret, hecc, hbad⟩ | ⟨hret, hecc, hholds⟩
  · have hne : ret ≠ 0 := by
      simp only at hret
      omega
    rw [if_neg hne, pure_apply] at h
    cases h
    refine ⟨himage, hplan, hro, fun hy => ?_, fun hcalm => ?_⟩
    · have h116 : code = 116 := by
        simp only at hy hret
        omega
      exact absurd (h116 ▸ hfail) (hcode k)
    · obtain ⟨b, hb⟩ := (hcalm.1 k).2.2.1
      exact absurd (hb.symm.trans hfail) (by simp)
  · rw [if_pos hret, if_pos hecc, pure_apply] at h
    cases h
    refine ⟨himage, hplan, hro, fun hy => ?_, fun hcalm hgood => ?_⟩
    · simp at hy
    · obtain ⟨e, he, hpage⟩ := hbad hcalm
      rw [hgood e he] at hpage
      cases hpage
  · rw [if_pos hret, if_neg (by simp [hecc])] at h
    split at h
    · cases h
      exact ⟨himage, hplan, hro, fun _ => hholds, fun _ _ => .inr rfl⟩
    · cases h
      exact ⟨himage, hplan, hro, fun _ => hholds, fun _ _ => .inl hret⟩

/-- A read past the end is refused. -/
lemma nandRead_refused (hout : dev.outOfSpace r = true) (s : St) :
    nandRead fl dev r s = (some (-nandArgumentFailure, 0, r.datbuf.getD fun _ => 0), s) := by
  rw [nandRead, if_pos hout, pure_apply]

/-- An idle driver serves a read of one page. -/
lemma nandRead_idle (fl : Flash) (dev : Phydev) (hlen : r.len = dev.writesize)
    (hpos : 0 < dev.writesize) (hd : r.datbuf = some d) (hsoft : r.softEcc = false)
    (hs : s.Idle) : ∃ y t, nandRead fl dev r s = (some y, t) ∧ t.Idle := by
  rw [nandRead]
  split
  · exact ⟨_, s, rfl, hs⟩
  · rw [if_neg (by omega), hlen, if_neg (Nat.pos_iff_ne_zero.mp hpos)]
    obtain ⟨⟨ret, retlen, buf⟩, u, hrun, hu⟩ := withDevice_idle
      (read_serves fl dev (r.datbuf.getD fun _ => 0) hd hsoft)
      .reading hs
    rw [bind_some hrun]
    simp only [get_bind]
    split_ifs <;> exact ⟨_, u, rfl, hu⟩

/-! ### A look into the bad-block table -/

/-- A block query reads the table only. -/
lemma isbad_serves :
    Serves (do setPara dev false; seekAddr dev (dev.start r); hand (blockIsbad fl) : Act St ℤ)
      fun s _ t => t.image = s.image :=
  fun s => ⟨_, _, isbad_apply fl dev r s, rfl, rfl, rfl, rfl, rfl⟩

/-- `nand_block_isbad` changes no page. -/
lemma nandBlockIsbad_returned {ret : ℤ} (h : nandBlockIsbad fl dev r s = (some ret, t)) :
    t.image = s.image ∧ t.plan = s.plan ∧ t.readonly = s.readonly := by
  rw [nandBlockIsbad, blockOp] at h
  split at h
  · cases h
    exact ⟨rfl, rfl, rfl⟩
  · split at h
    · cases h
      exact ⟨rfl, rfl, rfl⟩
    · obtain ⟨u, himage, rfl, hplan, hro⟩ := withDevice_returned isbad_serves h
      exact ⟨himage, hplan, hro⟩

end Requests

end Amlnf
