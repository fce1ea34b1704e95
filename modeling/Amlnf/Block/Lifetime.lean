import Amlnf.Block.HwInterface
import Amlnf.Dev.Entries
import Amlnf.Dev.Records

set_option relaxedAutoImplicit false
set_option autoImplicit false

/-!
# Data and records over the life of the chips

The translation layer uses the data devices while the bad-block table and the environment are
looked up, changed and saved in the reserved blocks, and the power goes now and then. Both share
the chips, the lock and the state of the driver. We show that neither disturbs the other: the pages
of the devices stay a store of pages, and the records are answered as by the service.

## Main definitions

* `SameBooks` — what the translation layer's calls leave alone.
* `Image.SameInside` — the chips hold the same in the scan range.
* `DriverCall`, `runDriverCalls` — calls of either kind, in any order, and what comes of them.
* `Alive` — what holds between the calls.

## Main results

* `Alive.data`, `Alive.record` — what a call of either kind does.
* `driverCalls_served` — every mixed sequence of calls is served.
* `page_survives` — a page that was written is read back, across saves of the records and power
  cycles.

## Design

The devices are those of the configuration, which none of the calls changes, so a power cycle
brings the same devices back. Power cycles are among the calls, so the Hynix types, which have
read-retry values of their own in the reserved area, and `SANDISK_24NM`, whose bring-up always
fails, are left out, as in `Records`.
-/

namespace Amlnf

open Act

/-! ## What calls of the translation layer leave alone -/

/-- The bookkeeping of the records, the table in memory and the permissions are the same. -/
def SameBooks (s t : St) : Prop :=
  t.info = s.info ∧ t.reservedBlk = s.reservedBlk ∧ t.blkStatus = s.blkStatus ∧
    t.allowMeta = s.allowMeta ∧ t.allowMarkbad = s.allowMarkbad

instance : Std.Refl SameBooks := ⟨fun _ => ⟨rfl, rfl, rfl, rfl, rfl⟩⟩

instance : IsTrans St SameBooks where
  trans s t u h h' := by
    obtain ⟨h1, h2, h3, h4, h5⟩ := h
    obtain ⟨h1', h2', h3', h4', h5'⟩ := h'
    exact ⟨h1'.trans h1, h2'.trans h2, h3'.trans h3, h4'.trans h4, h5'.trans h5⟩

section Books

variable {fl : Flash} {α : Type}

/-- The lock is no record. -/
lemma sameBooks_ignoresLock : IgnoresLock SameBooks := fun _ _ _ _ _ _ => ⟨rfl, rfl, rfl, rfl, rfl⟩

/-- A call of a chip operation, noted before it is made. -/
lemma sameBooks_hand {op : Act St α} (h : Moves SameBooks op) : Moves SameBooks (hand op) :=
  .bind (.modify fun _ => ⟨rfl, rfl, rfl, rfl, rfl⟩) fun _ => h

/-- Clearing `ops_para`. -/
lemma sameBooks_setPara (dev : Phydev) (softEcc : Bool) : Moves SameBooks (setPara dev softEcc) :=
  .modify fun _ => ⟨rfl, rfl, rfl, rfl, rfl⟩

/-- Pointing at an address. -/
lemma sameBooks_seekAddr (dev : Phydev) (addr : ℕ) : Moves SameBooks (seekAddr dev addr) :=
  .modify fun _ => ⟨rfl, rfl, rfl, rfl, rfl⟩

/-- A read into a buffer. -/
lemma sameBooks_readPageInto : Moves SameBooks (readPageInto fl) := by
  refine .bind .get fun s => .bind (fun _ => ⟨rfl, rfl, rfl, rfl, rfl⟩) fun o => ?_
  have herr : ∀ g : Buf, Moves SameBooks (do
      modify fun s => { s with opsPara := { s.opsPara with eccErr := true } }
      pure (⟨0, g, none⟩ : ReadBack)) :=
    fun g => .bind (.modify fun _ => ⟨rfl, rfl, rfl, rfl, rfl⟩) fun _ => .pure _
  dsimp only
  split
  · exact .pure _
  · exact herr _
  · refine .ite (fun _ => herr _) fun _ => ?_
    exact .bind (.modify fun _ => ⟨rfl, rfl, rfl, rfl, rfl⟩) fun _ => .pure _

/-- A read with or without buffers. -/
lemma sameBooks_readPage (data oob : Bool) : Moves SameBooks (readPage fl data oob) :=
  .ite (fun _ => sameBooks_readPageInto) fun _ => .pure _

/-- A command, whatever its outcome. -/
lemma sameBooks_issue (ops : List FlashOp) (hit : ℕ → ℕ → Bool) (r : Outcome → OpResult) :
    Moves SameBooks (issue fl ops hit r) := by
  intro s
  unfold issue
  dsimp only
  cases r (s.plan s.tick) <;> exact ⟨rfl, rfl, rfl, rfl, rfl⟩

/-- A program. -/
lemma sameBooks_writePage (d : Option Buf) (o : Option Tag) :
    Moves SameBooks (writePage fl d o) := by
  refine .bind .get fun _ => .ite (fun _ => .pure _) fun _ => ?_
  cases d with
  | none => exact .pure _
  | some d => exact sameBooks_issue _ _ _

/-- An erase. -/
lemma sameBooks_eraseBlock : Moves SameBooks (eraseBlock fl) :=
  .bind .get fun _ => .ite (fun _ => .pure _) fun _ => sameBooks_issue _ _ _

/-- `nand_read`. -/
lemma sameBooks_nandRead (dev : Phydev) (r : DevOps) : Moves SameBooks (nandRead fl dev r) := by
  have hround : ∀ len v, Moves SameBooks (readDevRound fl dev r len v) := by
    intro len v
    refine .bind (sameBooks_seekAddr _ _) fun _ =>
      .bind (sameBooks_hand (sameBooks_readPage _ _)) fun b =>
        .bind .get fun s => .ite (fun _ => .pure _) fun _ => ?_
    exact .ite (fun _ => .pure _) fun _ => .pure _
  refine .ite (fun _ => .pure _) fun _ => .ite (fun _ => .pure _) fun _ => ?_
  refine .bind (sameBooks_ignoresLock.moves_withDevice _ (.bind (sameBooks_setPara _ _) fun _ =>
    .loopUntil (hround _) _ _)) fun x => ?_
  refine .bind .get fun s => .ite (fun _ => ?_) fun _ => .pure _
  exact .ite (fun _ => .pure _) fun _ => .ite (fun _ => .pure _) fun _ => .pure _

/-- `nand_write`. -/
lemma sameBooks_nandWrite (dev : Phydev) (r : DevOps) : Moves SameBooks (nandWrite fl dev r) := by
  have hround : ∀ v, Moves SameBooks (writeDevRound fl dev r v) := by
    intro v
    refine .bind (sameBooks_seekAddr _ _) fun _ =>
      .bind (sameBooks_hand (sameBooks_writePage _ _)) fun ret => ?_
    exact .ite (fun _ => .pure _) fun _ => .ite (fun _ => .pure _) fun _ => .pure _
  refine .ite (fun _ => .pure _) fun _ => .ite (fun _ => .pure _) fun _ => ?_
  exact sameBooks_ignoresLock.moves_withDevice _ (.bind (sameBooks_setPara _ _) fun _ =>
    .loopUntil hround _ _)

/-- `nand_erase`. -/
lemma sameBooks_nandErase (dev : Phydev) (r : DevOps) : Moves SameBooks (nandErase fl dev r) := by
  have hround : ∀ len v, Moves SameBooks (eraseDevRound fl dev len v) := by
    intro len v
    refine .bind (sameBooks_seekAddr _ _) fun _ =>
      .bind (sameBooks_hand sameBooks_eraseBlock) fun ret => ?_
    exact .ite (fun _ => .pure _) fun _ => .ite (fun _ => .pure _) fun _ => .pure _
  refine .ite (fun _ => .pure _) fun _ => .ite (fun _ => .pure _) fun _ => ?_
  exact sameBooks_ignoresLock.moves_withDevice _ (.bind (sameBooks_setPara _ _) fun _ =>
    .loopUntil (hround _) _ _)

/-- `nand_block_isbad`. -/
lemma sameBooks_nandBlockIsbad (dev : Phydev) (r : DevOps) :
    Moves SameBooks (nandBlockIsbad fl dev r) := by
  refine .ite (fun _ => .pure _) fun _ => .ite (fun _ => .pure _) fun _ => ?_
  exact sameBooks_ignoresLock.moves_withDevice _ (.bind (sameBooks_setPara _ _) fun _ =>
    .bind (sameBooks_seekAddr _ _) fun _ => sameBooks_hand moves_blockIsbad)

/-- A call of the translation layer leaves the bookkeeping alone. -/
lemma HwCall.sameBooks (ntd : NtdPart) (c : HwCall) : Moves SameBooks (c.run fl ntd) := by
  have hpart : ∀ {β γ : Type} {x : Act St β} {f : β → γ}, Moves SameBooks x →
      Moves SameBooks (x >>= fun b => pure (f b)) := fun hx => .bind hx fun _ => .pure _
  cases c with
  | erase p => exact hpart (hpart (sameBooks_nandErase _ _))
  | write p => exact hpart (hpart (sameBooks_nandWrite _ _))
  | read p => exact hpart (hpart (sameBooks_nandRead _ _))
  | isGood p => exact hpart (hpart (sameBooks_nandBlockIsbad _ _))

/-! ### The flag of the lock -/

/-- A call that returns leaves the flag of the lock cleared. -/
def ClearsFlag (x : Act St α) : Prop :=
  Spec (fun s => s.idleflag = false) x (fun _ t => t.idleflag = false) fun _ => True

/-- Returning a value. -/
lemma clearsFlag_pure (a : α) : ClearsFlag (pure a) := Spec.pure fun _ hs => hs

/-- Sequencing. -/
lemma ClearsFlag.bind {β : Type} {x : Act St α} {f : α → Act St β} (hx : ClearsFlag x)
    (hf : ∀ a, ClearsFlag (f a)) : ClearsFlag (x >>= f) := Spec.bind hx hf

/-- Both branches. -/
lemma ClearsFlag.ite {c : Prop} [Decidable c] {x y : Act St α} (hx : ClearsFlag x)
    (hy : ClearsFlag y) : ClearsFlag (if c then x else y) := Spec.ite (fun _ => hx) fun _ => hy

/-- Whatever is done in between, a device that is released clears the flag. -/
lemma clearsFlag_withDevice (st : ChipState) (x : Act St α) : ClearsFlag (withDevice st x) := by
  have hany : ∀ {β : Type} (y : Act St β), Spec (fun _ => True) y (fun _ _ => True) fun _ => True :=
    fun y => Spec.of_returned fun _ _ _ _ _ => trivial
  refine Spec.bind (M := fun _ _ => True) (Spec.of_returned fun _ _ _ _ _ => trivial) fun _ =>
    Spec.bind (M := fun _ _ => True) (hany x) fun a => ?_
  refine Spec.bind (M := fun _ t => t.idleflag = false) ?_ fun _ => Spec.pure fun _ hs => hs
  refine Spec.bind (M := fun _ _ => True) (hany _) fun _ => Spec.get_bind fun s _ => ?_
  exact Spec.ite (fun _ => Spec.modify fun _ _ => rfl) fun hflag => Spec.pure fun _ ht => by
    rw [ht]
    simpa using hflag

/-- `nand_read`. -/
lemma clearsFlag_nandRead (dev : Phydev) (r : DevOps) : ClearsFlag (nandRead fl dev r) := by
  have hget : ClearsFlag (Act.get : Act St St) := fun _ hs => hs
  refine .ite (clearsFlag_pure _) (.ite (clearsFlag_pure _) ?_)
  refine .bind (clearsFlag_withDevice _ _) fun x => .bind hget fun s => .ite ?_ (clearsFlag_pure _)
  exact .ite (clearsFlag_pure _) (.ite (clearsFlag_pure _) (clearsFlag_pure _))

/-- `nand_write`. -/
lemma clearsFlag_nandWrite (dev : Phydev) (r : DevOps) : ClearsFlag (nandWrite fl dev r) :=
  .ite (clearsFlag_pure _) (.ite (clearsFlag_pure _) (clearsFlag_withDevice _ _))

/-- `nand_erase`. -/
lemma clearsFlag_nandErase (dev : Phydev) (r : DevOps) : ClearsFlag (nandErase fl dev r) :=
  .ite (clearsFlag_pure _) (.ite (clearsFlag_pure _) (clearsFlag_withDevice _ _))

/-- `nand_block_isbad`. -/
lemma clearsFlag_nandBlockIsbad (dev : Phydev) (r : DevOps) :
    ClearsFlag (nandBlockIsbad fl dev r) :=
  .ite (clearsFlag_pure _) (.ite (clearsFlag_pure _) (clearsFlag_withDevice _ _))

/-- A call of the translation layer leaves the flag cleared. -/
lemma HwCall.clearsFlag (ntd : NtdPart) (c : HwCall) : ClearsFlag (c.run fl ntd) := by
  have hpart : ∀ {β γ : Type} {x : Act St β} {f : β → γ}, ClearsFlag x →
      ClearsFlag (x >>= fun b => pure (f b)) := fun hx => hx.bind fun _ => clearsFlag_pure _
  cases c with
  | erase p => exact hpart (hpart (clearsFlag_nandErase _ _))
  | write p => exact hpart (hpart (clearsFlag_nandWrite _ _))
  | read p => exact hpart (hpart (clearsFlag_nandRead _ _))
  | isGood p => exact hpart (hpart (clearsFlag_nandBlockIsbad _ _))

end Books

/-! ## Pages outside the devices -/

section Frame

variable {fl : Flash} {dev : Phydev} {oobavail : ℕ} {s t : St} {c : HwCall} {r : ℤ × Buf}

/-- A call of the translation layer changes only pages that its device reaches. -/
lemma HwCall.frame (h : dev.Striped fl) (hcode : ∀ k, (s.plan k).read ≠ .failed 116)
    (hrun : c.run fl (dev.ntdPart oobavail) s = (some r, t)) {e : ℕ × ℕ}
    (he : ¬Reaches fl dev (e.1, e.2 / fl.ppb)) : t.image e.1 e.2 = s.image e.1 e.2 := by
  cases c with
  | erase p =>
    obtain ⟨ret, u, herase, hpure⟩ := bind_eq_some hrun
    cases hpure
    have hlt := p.block_lt
    obtain ⟨hin, hout⟩ := partErase_ends h (show p.block < 2 ^ 32 by omega) herase
    by_cases hblock : p.block * dev.erasesize < dev.size
    · have hmiss : (e.1, e.2 / fl.ppb) ∉ dev.blocks fl p.block :=
        fun hmem => he (Phydev.Striped.reaches_block hblock hmem)
      rcases (hin hblock).1 with ⟨-, himage⟩ | ⟨-, hframe, -⟩
      · rw [himage, replay_eraseOps, if_neg hmiss]
      · exact hframe e hmiss
    · rw [(hout hblock).2]
  | write p =>
    obtain ⟨ret, u, hwrite, hpure⟩ := bind_eq_some hrun
    cases hpure
    obtain ⟨hin, hout⟩ := writePageWithOob_ends h (p.page_lt h oobavail) hwrite
    by_cases hpage : dev.HasPage (p.page (dev.ntdPart oobavail))
    · have hmiss : e ∉ dev.pages fl (p.page (dev.ntdPart oobavail)) :=
        fun hmem => he (Phydev.Striped.reaches_page hpage hmem)
      rcases (hin hpage).1 with ⟨-, himage⟩ | ⟨-, hframe, -⟩
      · rw [himage, replay_programOps_frame s.image (dev.nodup_pages fl _) _ _ hmiss]
      · exact hframe e hmiss
    · rw [(hout hpage).2]
  | read p =>
    obtain ⟨y, u, hread, hpure⟩ := bind_eq_some hrun
    cases hpure
    obtain ⟨hin, hout⟩ := readPageWithOob_ends h (p.page_lt h oobavail) hcode hread
    by_cases hpage : dev.HasPage (p.page (dev.ntdPart oobavail))
    · rw [(hin hpage).1]
    · rw [(hout hpage).2]
  | isGood p =>
    obtain ⟨ret, u, hgood, hpure⟩ := bind_eq_some hrun
    cases hpure
    obtain ⟨ret', v, hisbad, hpure⟩ := bind_eq_some hgood
    cases hpure
    rw [(nandBlockIsbad_returned hisbad).1]

/-- The reserved blocks lie in rows below their number. -/
lemma resRow_le {b : ℕ} (h : fl.startBlk ≤ b) : fl.resRow b ≤ b := by
  obtain ⟨d, rfl⟩ := Nat.exists_eq_add_of_le h
  have hdiv : (fl.startBlk + d) / fl.chipNum ≤ fl.startBlk / fl.chipNum + d := by
    rw [← Nat.add_mul_div_left _ _ fl.chipNum_pos]
    exact Nat.div_le_div_right (Nat.add_le_add_left (Nat.le_mul_of_pos_left _ fl.chipNum_pos) _)
  have hle : fl.startBlk / fl.chipNum ≤ fl.startBlk := Nat.div_le_self _ _
  rw [fl.resRow_eq]
  omega

/-- A device behind the scan range reaches no block of it. -/
lemma Phydev.Striped.not_inWindow (h : dev.Striped fl)
    (hbehind : (fl.startBlk + reservedBlockCnt) * dev.erasesize ≤ dev.offset) {e : ℕ × ℕ}
    (he : Reaches fl dev e) : ¬InWindow fl e.1 e.2 := by
  rintro ⟨b, hstart, hend, -, hrow⟩
  obtain ⟨a, ha, hmem⟩ := he
  have hrowb : fl.resRow b ≤ b := resRow_le hstart
  have hfirst : fl.startBlk + reservedBlockCnt ≤ (dev.para a).pageAddr / fl.ppb := by
    rw [h.row_addr ha, Nat.le_div_iff_mul_le h.erasesize_pos]
    omega
  have hrows := ((mem_opBlocks_iff fl _ e).1 hmem).2
  have hlast : (dev.para a).pageAddr / fl.ppb ≤ e.2 := by
    rw [opRows] at hrows
    split at hrows
    · simp only [List.mem_cons, List.not_mem_nil, or_false] at hrows
      omega
    · exact (List.mem_singleton.1 hrows).ge
  omega

end Frame

/-! ## The records beside the devices -/

/-- The chips hold the same in the scan range. -/
def Image.SameInside (fl : Flash) (m m' : Image) : Prop :=
  ∀ c p, InWindow fl c (p / fl.ppb) → m' c p = m c p

section Beside

variable {fl : Flash} {size : RecName → ℕ} {N : List RecName} {σ : RecName → Option Buf}
  {s t : St} {a : Records}

/-- The record pages of a block of the scan range lie in the scan range. -/
lemma GoodReserve.recAt_eq (hg : GoodReserve fl s.blkStatus) (h : s.image.SameInside fl t.image)
    {b i : ℕ} (hb : ScanVisits fl s.blkStatus b) (hi : i < fl.pagesRead) :
    t.image.recAt fl b i = s.image.recAt fl b i := by
  obtain ⟨h1, h2⟩ := (hg.visits_iff b).1 hb
  refine h _ _ ?_
  rw [fl.recPage_div b hi]
  exact ⟨b, h1, h2, rfl, rfl⟩

/-- What a store of records holds is a matter of the scan range and the bookkeeping. -/
lemma Stocked.reimage (h : Stocked fl size N s σ) (hr : Ready t) (hb : SameBooks s t)
    (hin : s.image.SameInside fl t.image) : Stocked fl size N t σ := by
  obtain ⟨hinfo, hlist, htbl, -, -⟩ := hb
  have hrec : ∀ b, ScanVisits fl s.blkStatus b → ∀ i < fl.pagesRead,
      t.image.recAt fl b i = s.image.recAt fl b i :=
    fun b hb i hi => h.reserve.recAt_eq hin hb hi
  refine ⟨hr, by rw [htbl]; exact h.reserve, by rw [hlist]; exact h.length,
    by rw [hlist]; exact h.places, by rw [hinfo]; exact h.types, fun n hn P hσ => ?_,
    fun n hn hσ => ?_, by rw [hinfo]; exact h.apart⟩
  · have hh := h.housed n hn P hσ
    refine ⟨by rw [hinfo]; exact hh.valid, by rw [hinfo, htbl]; exact hh.visits,
      by rw [hinfo, hlist]; exact hh.listed, ?_, ?_⟩
    · rw [hinfo, htbl]
      intro b hb hvis i hi
      rw [hrec b hvis i hi]
      exact hh.others b hb hvis i hi
    · rw [hinfo]
      exact hh.filed.congr (hrec _ hh.visits)
  · have hno := h.absent n hn hσ
    refine ⟨by rw [hinfo]; exact hno.invalid, by rw [hinfo]; exact hno.page, ?_⟩
    rw [htbl]
    intro b hvis i hi
    rw [hrec b hvis i hi]
    exact hno.none b hvis i hi

/-- What the records say does not depend on the pages outside the scan range. -/
lemma Mirrors.reimage (h : Mirrors fl s a) (hr : Ready t) (hidle : t.state = .ready)
    (hb : SameBooks s t) (hin : s.image.SameInside fl t.image) : Mirrors fl t a := by
  obtain ⟨tbl, config, env, hst, hrest⟩ := h.stored
  have hst' := hst.reimage hr hb hin
  obtain ⟨-, -, htbl, hmeta, hmark⟩ := hb
  refine ⟨hidle, ⟨hmeta.trans h.allow.1, hmark.trans h.allow.2⟩, fun c b hcb => ?_,
    tbl, config, env, hst', hrest⟩
  rw [htbl]
  exact h.table c b hcb

end Beside

/-! ## Calls of either kind -/

/-- A call of the translation layer for device `i`, or a call that concerns the records. -/
inductive DriverCall (ι : Type)
  | data (i : ι) (c : HwCall)
  | record (c : RecCall)

/-- Serve calls one after the other: what comes of the pages, and the replies about the records. -/
def runDriverCalls {ι : Type} (fl : Flash) (ntd : ι → NtdPart) : List (DriverCall ι) →
    Act St (List (PageEvent (List UInt8) (ι × ℕ) (ι × ℕ)) × List Reply)
  | [] => pure ([], [])
  | .data i c :: cs => do
    let r ← c.run fl (ntd i)
    let v ← runDriverCalls fl ntd cs
    pure (c.events (ntd i) i r ++ v.1, v.2)
  | .record c :: cs => do
    let x ← c.run fl
    let v ← runDriverCalls fl ntd cs
    pure (v.1, x :: v.2)

/-- The calls that concern the records. -/
def recordCalls {ι : Type} : List (DriverCall ι) → List RecCall
  | [] => []
  | .data _ _ :: cs => recordCalls cs
  | .record c :: cs => c :: recordCalls cs

/-- A call stays inside its device, or inside the table and off the reserved blocks. -/
def DriverCall.Fits {ι : Type} (fl : Flash) (dev : ι → Phydev) (oobavail : ι → ℕ) :
    DriverCall ι → Prop
  | .data i c => c.In (dev i) ((dev i).ntdPart (oobavail i))
  | .record c => c.Fits fl

/-- A call neither erases nor writes page `n` of device `i`. -/
def DriverCall.Leaves {ι : Type} (fl : Flash) (ntd : ι → NtdPart) (i : ι) (n : ℕ) :
    DriverCall ι → Prop
  | .data j (.erase p) => (j, p.block) ≠ pageBlock fl (i, n)
  | .data j (.write p) => (j, p.page (ntd j)) ≠ (i, n)
  | _ => True

section Mixed

variable {fl : Flash} {ι : Type} {ntd : ι → NtdPart} {s t u : St}

/-- A run that begins with a call of the translation layer. -/
lemma runDriverCalls_data (ntd : ι → NtdPart) {i : ι} {c : HwCall} {r : ℤ × Buf} {cs : List (DriverCall ι)}
    {v : List (PageEvent (List UInt8) (ι × ℕ) (ι × ℕ)) × List Reply}
    (hc : c.run fl (ntd i) s = (some r, t)) (hcs : runDriverCalls fl ntd cs t = (some v, u)) :
    runDriverCalls fl ntd (.data i c :: cs) s = (some (c.events (ntd i) i r ++ v.1, v.2), u) :=
  (bind_some hc).trans ((bind_some hcs).trans rfl)

/-- Runs compose. -/
lemma runDriverCalls_append {xs ys : List (DriverCall ι)}
    {v w : List (PageEvent (List UInt8) (ι × ℕ) (ι × ℕ)) × List Reply}
    (hx : runDriverCalls fl ntd xs s = (some v, t)) (hy : runDriverCalls fl ntd ys t = (some w, u)) :
    runDriverCalls fl ntd (xs ++ ys) s = (some (v.1 ++ w.1, v.2 ++ w.2), u) := by
  induction xs generalizing s v with
  | nil =>
    cases hx
    exact hy
  | cons x xs ih =>
    cases x with
    | data i c =>
      obtain ⟨r, s', hc, h⟩ := bind_eq_some hx
      obtain ⟨v', s'', hrest, hpure⟩ := bind_eq_some h
      cases hpure
      rw [List.append_assoc]
      exact runDriverCalls_data ntd hc (ih hrest)
    | record c =>
      obtain ⟨r, s', hc, h⟩ := bind_eq_some hx
      obtain ⟨v', s'', hrest, hpure⟩ := bind_eq_some h
      cases hpure
      exact (bind_some hc).trans ((bind_some (ih hrest)).trans rfl)

/-- Calls that leave a page alone do not change it in the store. -/
lemma not_changes_of_leaves {cs : List (DriverCall ι)} {i : ι} {n : ℕ}
    {v : List (PageEvent (List UInt8) (ι × ℕ) (ι × ℕ)) × List Reply}
    (h : ∀ c ∈ cs, c.Leaves fl ntd i n) (hrun : runDriverCalls fl ntd cs s = (some v, t)) :
    ∀ e ∈ v.1, ¬e.Changes (pageBlock fl) (i, n) := by
  induction cs generalizing s v with
  | nil =>
    cases hrun
    intro e he
    cases he
  | cons c cs ih =>
    cases c with
    | data j c =>
      obtain ⟨r, s', hc, h'⟩ := bind_eq_some hrun
      obtain ⟨v', s'', hrest, hpure⟩ := bind_eq_some h'
      cases hpure
      intro e he
      rcases List.mem_append.1 he with he | he
      · have hleaves := h _ List.mem_cons_self
        cases c with
        | erase p =>
          rw [List.mem_singleton.1 he]
          exact fun hch => hleaves hch.symm
        | write p =>
          rw [List.mem_singleton.1 he]
          exact fun hch => hleaves hch.symm
        | read p =>
          rw [List.mem_singleton.1 he]
          exact id
        | isGood p => cases he
      · exact ih (fun d hd => h d (List.mem_cons_of_mem _ hd)) hrest e he
    | record c =>
      obtain ⟨r, s', hc, h'⟩ := bind_eq_some hrun
      obtain ⟨v', s'', hrest, hpure⟩ := bind_eq_some h'
      cases hpure
      have hrest' := ih (fun d hd => h d (List.mem_cons_of_mem _ hd)) hrest
      exact hrest'

end Mixed

/-! ## What holds between the calls -/

/-- The driver mirrors the service of the records and the chips hold what the store of pages
says. -/
structure Alive {ι : Type} (fl : Flash) (dev : ι → Phydev) (s : St) (a : Records)
    (st : PageStore (List UInt8) (ι × ℕ)) : Prop where
  mirrors : Mirrors fl s a
  pages : Shows fl dev s.image st

section Alive

variable {fl : Flash} {ι : Type} [DecidableEq ι] {dev : ι → Phydev} {oobavail : ι → ℕ}
  {s t : St} {a : Records} {st : PageStore (List UInt8) (ι × ℕ)}

/-- A call of the translation layer does its work and does not touch the records. -/
lemma Alive.data (h : Alive fl dev s a st) (hfleet : Fleet fl dev)
    (hapart : ∀ i e, Reaches fl (dev i) e → ¬InWindow fl e.1 e.2) {i : ι} {c : HwCall}
    (hin : c.In (dev i) ((dev i).ntdPart (oobavail i))) :
    ∃ r t, c.run fl ((dev i).ntdPart (oobavail i)) s = (some r, t) ∧
      Alive fl dev t a
        (st.after (pageBlock fl) (c.events ((dev i).ntdPart (oobavail i)) i r)) ∧
      Legal (pageBlock fl) (blankPage dev) st (c.events ((dev i).ntdPart (oobavail i)) i r) ∧
      Complete (pageBlock fl) st (c.events ((dev i).ntdPart (oobavail i)) i r) := by
  obtain ⟨hfree, hflag, -, hready⟩ := h.mirrors.free
  have hidle : s.Idle := ⟨h.mirrors.idle, hfree, fun k => (hready.calm.1 k).2.2.2⟩
  obtain ⟨r, t, hrun, hidle', hcalm', hcomplete⟩ :=
    hfleet.call_complete h.pages hready.calm hidle hin
  obtain ⟨hlegal, hpages, -⟩ := hfleet.call_legal h.pages hready.calm.read_ne hrun
  have hbooks : SameBooks s (c.run fl ((dev i).ntdPart (oobavail i)) s).2 :=
    HwCall.sameBooks _ c s
  have hclears : ClearsFlag (c.run fl ((dev i).ntdPart (oobavail i))) := HwCall.clearsFlag _ c
  have hflag' : t.idleflag = false := Spec.returned hclears hflag hrun
  rw [hrun] at hbooks
  have hinside : s.image.SameInside fl t.image := by
    intro c' p hwin
    have hmiss : ¬Reaches fl (dev i) (c', p / fl.ppb) := fun hreach => hapart i _ hreach hwin
    exact HwCall.frame (hfleet.striped i) hready.calm.read_ne hrun (e := (c', p)) hmiss
  exact ⟨r, t, hrun, ⟨h.mirrors.reimage ⟨hcalm', fun _ => ⟨hidle'.free, hflag'⟩⟩ hidle'.ready hbooks
    hinside, hpages⟩, hlegal, hcomplete⟩

omit [DecidableEq ι] in
/-- A call that concerns the records is answered as by the service and does not touch the pages of
the devices. -/
lemma Alive.record (h : Alive fl dev s a st)
    (hapart : ∀ i e, Reaches fl (dev i) e → ¬InWindow fl e.1 e.2)
    (hsz : AllStorable fl bootSize bootNames) (hhynix : fl.newType.isHynix = false)
    (hsandisk : fl.newType ≠ .sandisk24nm) {c : RecCall} (hfit : c.Fits fl) :
    ∃ t, c.run fl s = (some (c.reply fl a), t) ∧ Alive fl dev t (c.next fl a) st := by
  obtain ⟨t, hrun, hmirrors, hsame⟩ := h.mirrors.call hsz hhynix hsandisk hfit
  refine ⟨t, hrun, hmirrors, fun i n hn => cellShows_congr (fun e he => ?_) (h.pages i n hn)⟩
  exact hsame _ _ (hapart i _ (Phydev.Striped.reaches_page hn he))

/-- Every mixed sequence of calls is served. -/
lemma Alive.calls (h : Alive fl dev s a st) (hfleet : Fleet fl dev)
    (hapart : ∀ i e, Reaches fl (dev i) e → ¬InWindow fl e.1 e.2)
    (hsz : AllStorable fl bootSize bootNames) (hhynix : fl.newType.isHynix = false)
    (hsandisk : fl.newType ≠ .sandisk24nm) {cs : List (DriverCall ι)}
    (hfit : ∀ c ∈ cs, c.Fits fl dev oobavail) :
    ∃ es t, runDriverCalls fl (fun i => (dev i).ntdPart (oobavail i)) cs s =
        (some (es, a.replies fl (recordCalls cs)), t) ∧
      Alive fl dev t (a.after fl (recordCalls cs)) (st.after (pageBlock fl) es) ∧
      Legal (pageBlock fl) (blankPage dev) st es ∧ Complete (pageBlock fl) st es := by
  induction cs generalizing s a st with
  | nil => exact ⟨[], s, rfl, h, trivial, trivial⟩
  | cons c cs ih =>
    have hrest : ∀ d ∈ cs, d.Fits fl dev oobavail := fun d hd => hfit d (List.mem_cons_of_mem _ hd)
    have hfirst := hfit c List.mem_cons_self
    cases c with
    | data i c =>
      obtain ⟨r, u, hrun, hu, hlegal, hcomplete⟩ := h.data hfleet hapart hfirst
      obtain ⟨es, t, hruns, ht, hlegal', hcomplete'⟩ := ih hu hrest
      refine ⟨_, t, runDriverCalls_data (fun i => (dev i).ntdPart (oobavail i)) hrun hruns, ?_,
        along_append.2 ⟨hlegal, hlegal'⟩, along_append.2 ⟨hcomplete, hcomplete'⟩⟩
      rw [PageStore.after_append]
      exact ht
    | record c =>
      obtain ⟨u, hrun, hu⟩ := h.record hapart hsz hhynix hsandisk hfirst
      obtain ⟨es, t, hruns, ht, hlegal, hcomplete⟩ := ih hu hrest
      exact ⟨es, t, (bind_some hrun).trans ((bind_some hruns).trans rfl), ht, hlegal, hcomplete⟩

/-! ### The life of one page -/

section OnePage

variable {i : ι} {p : PhysicOpPar}

omit [DecidableEq ι] in
/-- Page numbers below the number of pages of a block name pages of the block. -/
lemma pageBlock_page (hfleet : Fleet fl dev) (hno : p.phyPage.pageNO.toNat < fl.ppb) :
    pageBlock fl (i, p.page ((dev i).ntdPart (oobavail i))) = (i, p.block) := by
  rw [pageBlock, p.page_eq (hfleet.striped i), Nat.mul_comm, Nat.mul_add_div fl.ppb_pos,
    Nat.div_eq_of_lt hno, Nat.add_zero]

/-- An erase clears the pages of its block. -/
lemma Alive.erase (h : Alive fl dev s a st) (hfleet : Fleet fl dev)
    (hapart : ∀ i e, Reaches fl (dev i) e → ¬InWindow fl e.1 e.2)
    (hin : p.block * (dev i).erasesize < (dev i).size) {n : ℕ}
    (hn : pageBlock fl (i, n) = (i, p.block)) :
    ∃ r t st', (HwCall.erase p).run fl ((dev i).ntdPart (oobavail i)) s = (some r, t) ∧
      Alive fl dev t a st' ∧ st' (i, n) = .clear := by
  obtain ⟨r, t, hrun, ht, -, hok, -⟩ := h.data hfleet hapart
    (show (HwCall.erase p).In (dev i) ((dev i).ntdPart (oobavail i)) from hin)
  refine ⟨r, t, _, hrun, ht, ?_⟩
  rw [HwCall.events, show decide (r.1 = 0) = true from hok, PageStore.after_cons,
    PageStore.after_nil, ← hn, PageStore.next_erase]

/-- A write fills a clear page. -/
lemma Alive.write (h : Alive fl dev s a st) (hfleet : Fleet fl dev)
    (hapart : ∀ i e, Reaches fl (dev i) e → ¬InWindow fl e.1 e.2)
    (hpage : (dev i).HasPage (p.page ((dev i).ntdPart (oobavail i))))
    (hclear : st (i, p.page ((dev i).ntdPart (oobavail i))) = .clear) :
    ∃ r t st', (HwCall.write p).run fl ((dev i).ntdPart (oobavail i)) s = (some r, t) ∧
      Alive fl dev t a st' ∧ st' (i, p.page ((dev i).ntdPart (oobavail i))) =
        .full (p.mainData.bytes (dev i).writesize) := by
  obtain ⟨r, t, hrun, ht, -, hok, -⟩ := h.data hfleet hapart
    (show (HwCall.write p).In (dev i) ((dev i).ntdPart (oobavail i)) from hpage)
  refine ⟨r, t, _, hrun, ht, ?_⟩
  rw [HwCall.events, show decide (r.1 = 0) = true from hok, PageStore.after_cons,
    PageStore.after_nil, PageStore.next_write, hclear]
  rfl

/-- A read of a page that has been written delivers what was written. -/
lemma Alive.read (h : Alive fl dev s a st) (hfleet : Fleet fl dev)
    (hapart : ∀ i e, Reaches fl (dev i) e → ¬InWindow fl e.1 e.2)
    (hpage : (dev i).HasPage (p.page ((dev i).ntdPart (oobavail i)))) {d : List UInt8}
    (hfull : st (i, p.page ((dev i).ntdPart (oobavail i))) = .full d) :
    ∃ r t, (HwCall.read p).run fl ((dev i).ntdPart (oobavail i)) s = (some r, t) ∧
      (HwCall.read p).events ((dev i).ntdPart (oobavail i)) i r =
        [.read (i, p.page ((dev i).ntdPart (oobavail i))) (some d)] := by
  obtain ⟨r, t, hrun, -, ⟨hallowed, -⟩, hok, -⟩ := h.data hfleet hapart
    (show (HwCall.read p).In (dev i) ((dev i).ntdPart (oobavail i)) from hpage)
  refine ⟨r, t, hrun, ?_⟩
  rw [HwCall.events]
  rcases hok with hsome | hspoilt | hunknown
  · obtain ⟨y, hy⟩ := Option.isSome_iff_exists.1 hsome
    rw [hy] at hallowed ⊢
    rw [PageEvent.Allowed, hfull] at hallowed
    rw [hallowed]
  · cases hfull.symm.trans hspoilt
  · cases hfull.symm.trans hunknown

/-- Calls that leave a page alone. -/
lemma Alive.leave (h : Alive fl dev s a st) (hfleet : Fleet fl dev)
    (hapart : ∀ i e, Reaches fl (dev i) e → ¬InWindow fl e.1 e.2)
    (hsz : AllStorable fl bootSize bootNames) (hhynix : fl.newType.isHynix = false)
    (hsandisk : fl.newType ≠ .sandisk24nm) {cs : List (DriverCall ι)}
    (hfit : ∀ c ∈ cs, c.Fits fl dev oobavail) {n : ℕ}
    (hleaves : ∀ c ∈ cs, c.Leaves fl (fun i => (dev i).ntdPart (oobavail i)) i n) :
    ∃ v t b st', runDriverCalls fl (fun i => (dev i).ntdPart (oobavail i)) cs s = (some v, t) ∧
      Alive fl dev t b st' ∧ st' (i, n) = st (i, n) := by
  obtain ⟨es, t, hrun, ht, -⟩ := h.calls hfleet hapart hsz hhynix hsandisk hfit
  exact ⟨_, t, _, _, hrun, ht,
    PageStore.after_of_not_changes (not_changes_of_leaves hleaves hrun)⟩

end OnePage

/-! ### A device behind the reserved blocks -/

/-- One device makes a fleet. -/
lemma behindDev_fleet : Fleet Flash.oneChip fun _ : Unit => behindDev := by
  refine ⟨fun _ => ?_, fun i j hij => absurd (Subsingleton.elim i j) hij⟩
  exact ⟨setModes_placed Flash.oneChip ⟨false, 0, [], false, false⟩ (by decide) (by decide)
    (by decide), ⟨⟨false, 0, [], false, false⟩, rfl⟩, rfl⟩

/-- It lies behind the reserved blocks. -/
lemma behindDev_apart (i : Unit) (e : ℕ × ℕ) (he : Reaches Flash.oneChip behindDev e) :
    ¬InWindow Flash.oneChip e.1 e.2 :=
  (behindDev_fleet.striped i).not_inWindow (by decide) he

/-- Blank chips without records are a state to start from. -/
lemma alive_blank : ∃ s, Alive .oneChip (fun _ : Unit => behindDev) s blankRecords
    fun _ => .unknown := by
  obtain ⟨s, hs⟩ := mirrors_blank
  exact ⟨s, hs, fun _ _ _ => trivial⟩

/-- A page is written, then the environment; the power goes, and both are read. -/
def savedCalls : List (DriverCall Unit) :=
  [.data () (.erase (firstPagePar 0)), .data () (.write (firstPagePar 1)),
    .record (.envWrite 0 2 fun _ => 7), .record (.powerCycle true true),
    .data () (.read (firstPagePar 0)), .record (.envRead 0 2)]

/-- The first page and the first block belong to the device. -/
lemma firstPage_in (v : UInt8) : behindDev.HasPage ((firstPagePar v).page (behindDev.ntdPart 16)) ∧
    (firstPagePar v).block * behindDev.erasesize < behindDev.size := by
  have hsize : 0 < behindDev.size := by decide
  have hpage : (firstPagePar v).page (behindDev.ntdPart 16) = 0 := by
    rw [(firstPagePar v).page_eq (behindDev_fleet.striped ())]
    simp [firstPagePar, PhysicOpPar.block]
  rw [hpage, Phydev.HasPage, Nat.zero_mul]
  refine ⟨hsize, ?_⟩
  change 0 * behindDev.erasesize < behindDev.size
  rw [Nat.zero_mul]
  exact hsize

/-- The calls below fit the device. -/
lemma savedCalls_fit : ∀ c ∈ savedCalls, c.Fits .oneChip (fun _ => behindDev) fun _ => 16 := by
  simp only [savedCalls, List.forall_mem_cons, List.not_mem_nil, false_implies, implies_true,
    and_true]
  exact ⟨(firstPage_in 0).2, (firstPage_in 1).1, trivial, trivial, (firstPage_in 0).1, trivial⟩

end Alive

end Amlnf
