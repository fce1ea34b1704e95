import Amlnf.Dev.Layout
import Amlnf.Dev.TableGuard
import Amlnf.Dev.WriteGuard
import Amlnf.Phy.BbtLoad
import Amlnf.Phy.BootArea

set_option relaxedAutoImplicit false
set_option autoImplicit false

/-!
# The guard of the reserved area

While `amlnf_allow_meta` and `amlnf_allow_markbad` are off, no record is saved and no block is
marked. The reserved area is still reached: the repair at bring-up erases and programs its used-bad
blocks once there are more than six of them, and a request that goes round 2^64 leaves its device.

## Main definitions

* `FlashOp.ReachesReserve` — a command changes a page of the reserved area.
* `Entry.Guarded` — what the guard promises of an entry.
* `EveryStep` — a property of every step of a run.
* `Entry.MetaSafe` — the entries that keep the promise.

## Main results

* `reserve_guarded` — a run of such entries keeps it.
* `repair_not_guarded` — a bring-up with seven used-bad blocks does not.

## Design

The reserved area is the one that the table in memory after the entry describes. A command belongs
to a device when it is part of a chip operation at an address of that device.
-/

namespace Amlnf

open Act

/-! ## The property -/

/-- The command changes a page of a block of the reserved area. -/
def FlashOp.ReachesReserve (fl : Flash) (tbl : BlkStatus) (op : FlashOp) : Prop :=
  ∃ b p, InReserve fl tbl b ∧ op.Hits fl (fl.resChip b) p ∧ p / fl.ppb = fl.resRow b

/-- The command is part of a chip operation with parameters `q`. -/
def FlashOp.PartOf (fl : Flash) (q : ChipOpsPara) : FlashOp → Prop
  | .program c p _ _ => (c, p) ∈ opPages fl q
  | .erase c b => (c, b) ∈ opBlocks fl q

/-- The command is one of a write or an erase of a data device, inside the range of the device. -/
def Entry.Owns (fl : Flash) : Entry → FlashOp → Prop
  | device e dev _, op =>
    (e = .write ∨ e = .erase) ∧ dev.boot = false ∧ ∃ a < dev.size, op.PartOf fl (dev.para a)
  | _, _ => False

/-- Of the commands the entry issues, those that change the reserved area are its own as a data
device. -/
def Entry.Guarded (fl : Flash) (e : Entry) (s : St) : Prop :=
  Issues (fun op => op.ReachesReserve fl (e.act fl s).2.blkStatus → e.Owns fl op) s (e.act fl s).2

/-- Every step of a run has a property in the state it is taken in. -/
def EveryStep (fl : Flash) (P : Entry → St → Prop) : List Entry → St → Prop
  | [], _ => True
  | e :: es, s => P e s ∧ ∀ t, e.act fl s = (some (), t) → EveryStep fl P es t

/-! ## The condition -/

/-- Byte `a` of the device may be written: it lies inside a data device, or its blocks are none of
the reserved area. -/
def Phydev.Spares (fl : Flash) (tbl : BlkStatus) (dev : Phydev) (a : ℕ) : Prop :=
  (dev.boot = false ∧ a < dev.size) ∨
    ∀ b, InReserve fl tbl b → (fl.resChip b, fl.resRow b) ∉ opBlocks fl (dev.para a)

/-- Requests that write nothing: they are rejected, ask for nothing or meet a device that is shut
down, or bring no data. -/
def DevEntry.Idle (dev : Phydev) (r : DevOps) : DevEntry → Prop
  | .write => dev.outOfSpace r ∨ (r.len = 0 ∧ r.ooblen = 0) ∨ dev.shutDown ∨ r.datbuf = none
  | .erase => dev.outOfSpace r ∨ r.len = 0 ∨ dev.shutDown
  | _ => True

/-- The bytes of one step of a request. -/
def DevEntry.unit (dev : Phydev) : DevEntry → ℕ
  | .erase => dev.erasesize
  | _ => dev.writesize

/-- The entries that keep the promise in a state: the table that bring-up finds has at most six
used-bad blocks in the reserved area, a request stays inside its device or away from the reserved
area, the pages of the boot area lie inside it, and no self-test is asked for. -/
def Entry.MetaSafe (fl : Flash) (e : Entry) (s : St) : Prop :=
  match e with
  | settings _ allowMeta allowMarkbad => allowMeta = false ∧ allowMarkbad = false
  | bringUp => s.readonly = true ∨ ∀ ret p t, bringUpPrelude fl s = (some ret, p) → 0 ≤ ret →
      loadBbt fl p = (some (), t) → FewUsedBad fl t.blkStatus
  | device e dev r => s.readonly = true ∨ e.Idle dev r ∨
      ∀ k, k = 0 ∨ k * e.unit dev < r.len → dev.Spares fl s.blkStatus (r.addr + k * e.unit dev)
  | testBlock _ _ | testBlockChip | testBlockReserved _ => s.readonly = true
  | ubootWrite _ _ _ _ => s.readonly = true ∨ BootFits fl
  | _ => True

section

variable {fl : Flash} {s : St}

/-! ## Commands outside the reserved area -/

/-- Reserved blocks lie in rows from `startBlk` on. -/
lemma resRow_ge {b : ℕ} (h : fl.startBlk ≤ b) : fl.startBlk ≤ fl.resRow b := by
  have hdiv : fl.startBlk / fl.chipNum ≤ b / fl.chipNum := Nat.div_le_div_right h
  have hle : fl.startBlk / fl.chipNum ≤ fl.startBlk := Nat.div_le_self _ _
  rw [fl.resRow_eq]
  omega

/-- The boot area is no part of the reserved area. -/
lemma FlashOp.InBoot.not_reachesReserve {op : FlashOp} (h : op.InBoot fl) (tbl : BlkStatus) :
    ¬op.ReachesReserve fl tbl := by
  rintro ⟨b, p, hb, hhits, hrow⟩
  have hge : fl.startBlk ≤ fl.resRow b := resRow_ge hb.1
  cases op with
  | program c p' d o =>
    obtain ⟨-, rfl⟩ := hhits
    have hlt : p / fl.ppb < fl.startBlk := row_lt_startBlk h
    omega
  | erase c b' =>
    obtain ⟨-, rfl⟩ := hhits
    have hlt : p / fl.ppb < fl.startBlk := h
    omega

/-- An entry that issues nothing is guarded. -/
lemma Entry.guarded_of_log {e : Entry} (h : (e.act fl s).2.log = s.log) : e.Guarded fl s :=
  .of_log h

/-! ## Requests of a device -/

/-- The chips and planes that `ops_para` names are those of the device. -/
structure InMode (dev : Phydev) (q : ChipOpsPara) : Prop where
  chipnr : q.chipnr = 0
  multiChip : q.option.multiChip = dev.option.multiChip
  multiPlane : q.option.multiPlane = dev.option.multiPlane

section Device

variable {dev : Phydev} {q : ChipOpsPara} {op : FlashOp}

/-- The blocks an operation reaches are those of the address it points at. -/
lemma InMode.opBlocks_eq (h : InMode dev q) {a : ℕ} (hpage : q.pageAddr = (dev.para a).pageAddr) :
    opBlocks fl q = opBlocks fl (dev.para a) := by
  unfold opBlocks opChips opRows
  rw [h.chipnr, h.multiChip, h.multiPlane, hpage]
  rfl

/-- So are the commands that are part of it. -/
lemma InMode.partOf_iff (h : InMode dev q) {a : ℕ}
    (hpage : q.pageAddr = (dev.para a).pageAddr) : op.PartOf fl q ↔ op.PartOf fl (dev.para a) := by
  cases op with
  | program c p d o =>
    simp only [FlashOp.PartOf, opPages]
    rw [h.opBlocks_eq hpage, hpage]
  | erase c b =>
    simp only [FlashOp.PartOf]
    rw [h.opBlocks_eq hpage]

/-- The programs of an operation are part of it. -/
lemma partOf_of_mem_programOps {d : Buf} {o : Option Tag}
    (hop : op ∈ programOps fl (opPages fl q) d o) : op.PartOf fl q := by
  obtain ⟨⟨x, k⟩, hx, rfl⟩ := List.mem_map.1 hop
  exact List.fst_mem_of_mem_zipIdx hx

/-- So are its erases. -/
lemma partOf_of_mem_eraseOps (hop : op ∈ eraseOps (opBlocks fl q)) : op.PartOf fl q := by
  obtain ⟨e, he, rfl⟩ := List.mem_map.1 hop
  exact he

/-- A command changes the blocks of its operation only. -/
lemma FlashOp.PartOf.mem_opBlocks (h : op.PartOf fl q) {c p : ℕ} (hhits : op.Hits fl c p) :
    (c, p / fl.ppb) ∈ opBlocks fl q := by
  cases op with
  | program c' p' d o =>
    obtain ⟨rfl, rfl⟩ := hhits
    obtain ⟨e, he, heq⟩ := List.mem_map.1 h
    obtain ⟨rfl, rfl⟩ := Prod.mk.inj heq
    have hdiv : (e.2 * fl.ppb + q.pageAddr % fl.ppb) / fl.ppb = e.2 := by
      rw [Nat.add_comm, Nat.add_mul_div_right _ _ fl.ppb_pos,
        Nat.div_eq_of_lt (Nat.mod_lt _ fl.ppb_pos), Nat.zero_add]
    rw [hdiv]
    exact he
  | erase c' b' =>
    obtain ⟨rfl, rfl⟩ := hhits
    exact h

/-- What may be issued at a page by a device whose modes are set. -/
def PageFree (fl : Flash) (P : FlashOp → Prop) (dev : Phydev) (page : ℕ) : Prop :=
  ∀ q : ChipOpsPara, InMode dev q → q.pageAddr = page → ∀ op : FlashOp, op.PartOf fl q → P op

/-- A byte that may be written, as a page. -/
lemma Phydev.Spares.pageFree {tbl : BlkStatus} {a : ℕ} (h : dev.Spares fl tbl a) {e : DevEntry}
    (he : e = .write ∨ e = .erase) (r : DevOps) :
    PageFree fl (fun op => op.ReachesReserve fl tbl → (Entry.device e dev r).Owns fl op) dev
      (dev.para a).pageAddr := by
  rintro q hq hpage op hop ⟨b, p, hb, hhits, hrow⟩
  have hpart : op.PartOf fl (dev.para a) := (hq.partOf_iff hpage).1 hop
  rcases h with ⟨hboot, ha⟩ | hfree
  · exact ⟨he, hboot, a, ha, hpart⟩
  · refine absurd ?_ (hfree b hb)
    rw [← hrow]
    exact hpart.mem_opBlocks hhits

/-- Where step `k` of a request points. -/
lemma pageAddr_start (dev : Phydev) (r : DevOps) (x : ℕ) :
    dev.pageAddr ((dev.start r + x) % 2 ^ 64) = (dev.para (r.addr + x)).pageAddr := by
  rw [Phydev.start, Nat.mod_add_mod, Phydev.para, add_assoc]

variable {P : FlashOp → Prop} {s₀ : St}

/-- Since `s₀` only what `P` allows has been issued, and the modes of the device are set. -/
structure WalkHeld (P : FlashOp → Prop) (dev : Phydev) (s₀ s : St) : Prop where
  issued : Issues P s₀ s
  mode : InMode dev s.opsPara

/-- One round of a walk that programs or erases at a page where it may. -/
lemma walkHeld_round {α : Type} {x : Act St ℤ} {f : ℤ → Act St α} {addr : ℕ}
    (hfree : PageFree fl P dev (dev.pageAddr addr))
    (hx : ∀ s, (∀ op : FlashOp, op.PartOf fl s.opsPara → P op) → Issues P s (x s).2)
    (hpara : ∀ s, (x s).2.opsPara = s.opsPara) (hf : ∀ ret t, (f ret t).2 = t) :
    Keeps (WalkHeld P dev s₀) (do seekAddr dev addr; let ret ← hand x; f ret) := by
  refine Spec.bind (M := fun _ s => WalkHeld P dev s₀ s ∧ s.opsPara.pageAddr = dev.pageAddr addr)
    (Spec.modify fun s hs => ⟨⟨trans_of (Issues P) hs.issued (.of_log rfl), ?_⟩, rfl⟩) fun _ => ?_
  · exact ⟨hs.mode.chipnr, hs.mode.multiChip, hs.mode.multiPlane⟩
  refine Spec.bind (M := fun _ => WalkHeld P dev s₀) ?_ fun ret => ?_
  · refine Spec.of_final fun s ⟨hs, hpage⟩ => ?_
    let u : St := { s with handed := s.handed ++ [s.opsPara] }
    have hnew : Issues P u (x u).2 := hx u fun op hop => hfree s.opsPara hs.mode hpage op hop
    have hmode : (x u).2.opsPara = s.opsPara := hpara u
    change WalkHeld P dev s₀ (x u).2
    refine ⟨trans_of (Issues P) (trans_of (Issues P) hs.issued (.of_log rfl)) hnew, ?_⟩
    rw [hmode]
    exact hs.mode
  · refine Spec.of_final fun s hs => ?_
    rw [hf ret s]
    exact hs

/-- A walk under the bracket of a device. -/
lemma issues_walk {α β : Type} {unit len : ℕ} {A D : β → ℕ} {body : β → Act St (β ⊕ α)}
    {r : DevOps} (hw : Walk dev unit len A D body) {v : β} (hD : D v = 0) (hA : A v = dev.start r)
    (hfree : ∀ k, k = 0 ∨ k * unit < len →
      PageFree fl P dev (dev.para (r.addr + k * unit)).pageAddr)
    (hround : ∀ w, PageFree fl P dev (dev.pageAddr (A w)) → Keeps (WalkHeld P dev s₀) (body w))
    (st : ChipState) (b : Bool) (n : ℕ) :
    Keeps (Issues P s₀) (withDevice st (do setPara dev b; loopUntil body n v)) := by
  have L := issues_ignoresLock P
  refine .bind (keeps_of_moves (L.moves_amlnandGetDevice st) s₀) fun _ => ?_
  refine .bind ?_ fun _ => .bind (keeps_of_moves L.moves_amlnandReleaseDevice s₀) fun _ => .pure _
  refine Spec.bind (M := fun _ => WalkHeld P dev s₀) (Spec.modify fun s hs => ?_) fun _ => ?_
  · exact ⟨trans_of (Issues P) hs (.of_log rfl), rfl, rfl, rfl⟩
  · refine Spec.mono (hw.keeps (I := PageFree fl P dev) hD (hA ▸ start_lt dev r) (fun k hk => ?_)
      (fun w s hs hI => (hround w hI).final hs) n) (fun _ h => h) (fun _ _ h => h.issued)
      fun _ h => h.issued
    rw [hA, pageAddr_start]
    exact hfree k hk

/-- A write issues commands with `P` where its pages do. -/
lemma issues_nandWrite {r : DevOps} (hfree : ¬DevEntry.write.Idle dev r →
      ∀ k, k = 0 ∨ k * dev.writesize < r.len →
        PageFree fl P dev (dev.para (r.addr + k * dev.writesize)).pageAddr) :
    Keeps (Issues P s₀) (nandWrite fl dev r) := by
  refine .ite (fun _ => .pure _) fun hspace => .ite (fun _ => .pure _) fun hask => ?_
  by_cases hdata : r.datbuf = none
  · -- without data the first page fails before anything is issued
    refine keeps_of_moves ((issues_ignoresLock P).moves_withDevice _ ?_) s₀
    refine .bind (.modify fun _ => .of_log rfl) fun _ => .loopUntil (fun v => ?_) _ _
    refine .bind (.modify fun _ => .of_log rfl) fun _ => .bind (.bind ?_ fun _ => ?_) fun _ => ?_
    · exact .modify fun _ => .of_log rfl
    · refine fun s => issues_writePage _ _ fun d hd => ?_
      rw [hdata] at hd
      cases hd
    · exact .ite (fun _ => .pure _) fun _ => .ite (fun _ => .pure _) fun _ => .pure _
  · have hidle : ¬DevEntry.write.Idle dev r := by
      rintro (h | h | h | h)
      · exact hspace h
      · exact hask (.inl h)
      · exact hask (.inr h)
      · exact hdata h
    refine issues_walk (walk_write fl dev r) rfl rfl (hfree hidle) (fun w hw => ?_) _ _ _
    refine walkHeld_round hw (fun s hs => issues_writePage _ _ fun d _ op hop => ?_)
      (writePage_opsPara _ _) fun ret t => ?_
    · exact hs op (partOf_of_mem_programOps hop)
    · split
      · rfl
      · split <;> rfl

/-- An erase issues commands with `P` where its blocks do. -/
lemma issues_nandErase {r : DevOps} (hfree : ¬DevEntry.erase.Idle dev r →
      ∀ k, k = 0 ∨ k * dev.erasesize < r.len →
        PageFree fl P dev (dev.para (r.addr + k * dev.erasesize)).pageAddr) :
    Keeps (Issues P s₀) (nandErase fl dev r) := by
  refine .ite (fun _ => .pure _) fun hspace => .ite (fun _ => .pure _) fun hask => ?_
  have hidle : ¬DevEntry.erase.Idle dev r := by
    rintro (h | h | h)
    · exact hspace h
    · exact hask (.inl h)
    · exact hask (.inr h)
  refine issues_walk (walk_erase fl dev r.len) rfl rfl (hfree hidle) (fun w hw => ?_) _ _ _
  refine walkHeld_round hw (fun s hs => issues_eraseBlock fun op hop => ?_) eraseBlock_opsPara
    fun ret t => ?_
  · exact hs op (partOf_of_mem_eraseOps hop)
  · split
    · rfl
    · split <;> rfl

end Device

/-! ## What issues nothing -/

/-- While metadata and marking are refused nothing is issued and the table stays. The permissions
stay in any case. -/
structure MetaQuiet (s t : St) : Prop where
  allowMeta : t.allowMeta = s.allowMeta
  allowMarkbad : t.allowMarkbad = s.allowMarkbad
  still : s.allowMeta = false → s.allowMarkbad = false → t.log = s.log ∧ t.blkStatus = s.blkStatus

instance : Std.Refl MetaQuiet := ⟨fun _ => ⟨rfl, rfl, fun _ _ => ⟨rfl, rfl⟩⟩⟩

instance : IsTrans St MetaQuiet where
  trans s t u h h' := by
    refine ⟨h'.allowMeta.trans h.allowMeta, h'.allowMarkbad.trans h.allowMarkbad, fun hm hk => ?_⟩
    obtain ⟨hlog, htable⟩ := h.still hm hk
    obtain ⟨hlog', htable'⟩ := h'.still (h.allowMeta.trans hm) (h.allowMarkbad.trans hk)
    exact ⟨hlog'.trans hlog, htable'.trans htable⟩

/-- Bookkeeping and the calls of a device are quiet. -/
lemma metaQuiet_callFrame : CallFrame (fun _ => True) MetaQuiet where
  soft h _ _ := by
    simp only [St.hard, Prod.mk.injEq] at h
    exact ⟨h.2.2.2.2.1.2.1, h.2.2.2.2.1.2.2, fun _ _ => ⟨h.2.1, h.2.2.1⟩⟩
  call _ _ := ⟨rfl, rfl, fun _ _ => ⟨rfl, rfl⟩⟩

/-- So is the lock. -/
lemma metaQuiet_ignoresLock : IgnoresLock MetaQuiet :=
  fun _ _ _ _ _ _ => ⟨rfl, rfl, fun _ _ => ⟨rfl, rfl⟩⟩

/-- An operation that is refused without the two permissions. -/
lemma metaQuiet_of_refused {V : UInt16 → Prop} {α : Type} {x : Act St α}
    (h : Moves (DriverSteps fl V) x)
    (hrefused : ∀ s : St, s.allowMeta = false → s.allowMarkbad = false → (x s).2 = s) :
    Moves MetaQuiet x := by
  intro s
  obtain ⟨hmeta, hmark⟩ := (h s).permissions
  refine ⟨hmeta, hmark, fun hm hk => ?_⟩
  rw [hrefused s hm hk]
  exact ⟨rfl, rfl⟩

/-- Marking a block bad is quiet. -/
lemma metaQuiet_blockMarkbadOp : Moves MetaQuiet (blockMarkbadOp fl) :=
  metaQuiet_of_refused (V := AnyValue) (moves_store (moves_blockMarkbadOp fl)) fun _ _ hk => by
    rw [blockMarkbadOp_refused hk]

/-- So is setting an entry of the table. -/
lemma metaQuiet_blkModifyBbtChipOp (value : UInt16) :
    Moves MetaQuiet (blkModifyBbtChipOp fl value) :=
  metaQuiet_of_refused (V := AnyValue) (moves_blkModifyBbtChipOp trivial) fun _ _ hk => by
    rw [blkModifyBbtChipOp_refused value hk]

/-- So is a save. -/
lemma metaQuiet_saveInfo (name : RecName) (buf : Buf) (size : ℕ) :
    Moves MetaQuiet (saveInfo fl name buf size) :=
  metaQuiet_of_refused (V := AnyValue) (moves_store (moves_saveInfo name buf size)) fun _ hm _ => by
    rw [saveInfo_refused name buf size hm]

/-- So is rewriting the table. -/
lemma metaQuiet_updateBbt : Moves MetaQuiet (amlnandUpdateBbt fl (blockMarkbadOp fl)) :=
  .bind .get fun _ => metaQuiet_saveInfo _ _ _

/-- Bring-up before the load of the table ends: the table may change, the permissions do not, and
nothing is issued. -/
structure Unwritten (s t : St) : Prop where
  log : t.log = s.log
  allowMeta : t.allowMeta = s.allowMeta
  allowMarkbad : t.allowMarkbad = s.allowMarkbad

instance : Std.Refl Unwritten := ⟨fun _ => ⟨rfl, rfl, rfl⟩⟩

instance : IsTrans St Unwritten where
  trans _ _ _ h h' := ⟨h'.log.trans h.log, h'.allowMeta.trans h.allowMeta,
    h'.allowMarkbad.trans h.allowMarkbad⟩

/-- Bookkeeping writes nothing. -/
lemma unwritten_frame : Frame (fun _ => True) Unwritten where
  soft h _ _ := by
    simp only [St.hard, Prod.mk.injEq] at h
    exact ⟨h.2.1, h.2.2.2.2.1.2.1, h.2.2.2.2.1.2.2⟩

/-- Nor does the lock. -/
lemma unwritten_ignoresLock : IgnoresLock Unwritten := fun _ _ _ _ _ _ => ⟨rfl, rfl, rfl⟩

/-- Bring-up writes nothing before it has found the table. -/
lemma unwritten_bringUpPrelude : Moves Unwritten (bringUpPrelude fl) := by
  refine .bind (.modify fun _ => ⟨rfl, rfl, rfl⟩) fun _ => ?_
  refine .bind (unwritten_frame.moves_readretrySlcInit unwritten_ignoresLock) fun ret => ?_
  refine .ite (fun _ => .pure _) fun _ => .bind (.modify fun _ => ⟨rfl, rfl, rfl⟩) fun _ => .pure _

/-- Nor does it when it loads the table. -/
lemma unwritten_loadBbt : Moves Unwritten (loadBbt fl) :=
  .bind (unwritten_frame.moves_amlnandInfoInit unwritten_ignoresLock trivial _ _) fun _ =>
    .modify fun _ => ⟨rfl, rfl, rfl⟩

/-- The rest of bring-up with few used-bad blocks. -/
lemma metaQuiet_bringUpRest (hmeta : s.allowMeta = false) (hmark : s.allowMarkbad = false)
    (hfew : FewUsedBad fl s.blkStatus) : MetaQuiet s (bringUpRest fl s).2 := by
  have F : Frame (fun _ => True) MetaQuiet := metaQuiet_callFrame.toFrame
  have L := metaQuiet_ignoresLock
  have hrepair : Keeps (MetaQuiet s) (repairReservedBadBlock fl) := by
    refine Spec.of_final fun u hu => ?_
    have hidle : FewUsedBad fl u.blkStatus := by
      rw [(hu.still hmeta hmark).2]
      exact hfew
    obtain ⟨p, hp⟩ := repair_idle hidle
    rw [hp]
    exact ⟨hu.allowMeta, hu.allowMarkbad, hu.still⟩
  have hrest : Keeps (MetaQuiet s) (bringUpRest fl) :=
    (F.readInvariant L s).bringUpRest trivial
      (fun _ => keeps_of_moves (metaQuiet_saveInfo _ _ _) s) trivial
      (keeps_of_moves metaQuiet_updateBbt s)
      (fun b i => keeps_of_moves (F.moves_scanRead L b i) s) trivial trivial hrepair
  exact hrest.final (refl_of MetaQuiet s)

/-- A bring-up that finds a table with few used-bad blocks issues nothing. -/
lemma unwritten_amlnandGetDevConfigs (hmeta : s.allowMeta = false) (hmark : s.allowMarkbad = false)
    (hfew : ∀ ret p t, bringUpPrelude fl s = (some ret, p) → 0 ≤ ret → loadBbt fl p = (some (), t) →
      FewUsedBad fl t.blkStatus) : Unwritten s (amlnandGetDevConfigs fl s).2 := by
  have hp : Unwritten s (bringUpPrelude fl s).2 := unwritten_bringUpPrelude s
  rw [amlnandGetDevConfigs]
  rcases hprelude : bringUpPrelude fl s with ⟨o, p⟩
  rw [hprelude] at hp
  cases o with
  | none =>
    rw [bind_none hprelude]
    exact hp
  | some ret =>
    rw [bind_some hprelude]
    by_cases hret : ret < 0
    · rw [if_pos hret]
      exact hp
    · rw [if_neg hret]
      have ht : Unwritten p (loadBbt fl p).2 := unwritten_loadBbt p
      rcases hload : loadBbt fl p with ⟨o, t⟩
      rw [hload] at ht
      have hst : Unwritten s t := trans_of Unwritten hp ht
      cases o with
      | none =>
        rw [bind_none hload]
        exact hst
      | some u =>
        rw [bind_some hload]
        have hm := hst.allowMeta.trans hmeta
        have hk := hst.allowMarkbad.trans hmark
        have hrest : MetaQuiet t (bringUpRest fl t).2 :=
          metaQuiet_bringUpRest hm hk (hfew ret p t hprelude (not_lt.1 hret) hload)
        exact trans_of Unwritten hst
          ⟨(hrest.still hm hk).1, hrest.allowMeta, hrest.allowMarkbad⟩

/-! ## Entries and runs -/

/-- Only a change of the parameters changes the permissions. -/
lemma permissions_act {e : Entry} (hset : ∀ a b c, e ≠ .settings a b c) (s : St) :
    (e.act fl s).2.allowMeta = s.allowMeta ∧ (e.act fl s).2.allowMarkbad = s.allowMarkbad := by
  let R : St → St → Prop := fun s t => t.allowMeta = s.allowMeta ∧ t.allowMarkbad = s.allowMarkbad
  have : IsTrans St R := ⟨fun _ _ _ h h' => ⟨h'.1.trans h.1, h'.2.trans h.2⟩⟩
  have : Std.Refl R := ⟨fun _ => ⟨rfl, rfl⟩⟩
  by_cases hup : e = .bringUp
  · subst hup
    have hload : ∀ {α : Type} {x : Act St α}, Moves Unwritten x → Moves R x :=
      fun hx => hx.imp fun _ _ h => ⟨h.allowMeta, h.allowMarkbad⟩
    have hrest : Moves R (bringUpRest fl) := moves_bringUpRest.imp fun _ _ h => h.permissions
    have hall : Moves R (amlnandGetDevConfigs fl) := by
      refine .bind (hload unwritten_bringUpPrelude) fun _ => .ite (fun _ => .pure _) fun _ => ?_
      exact .bind (hload unwritten_loadBbt) fun _ => hrest
    exact (moves_discard hall : Moves R (Entry.bringUp.act fl)) s
  · exact DriverSteps.permissions (moves_act hset hup s)

/-- A write or an erase that writes nothing, or only where it may. -/
lemma guarded_device {e : DevEntry} {dev : Phydev} {r : DevOps} (hmark : s.allowMarkbad = false)
    (hw : e = .write ∨ e = .erase) (h : e.Idle dev r ∨
      ∀ k, k = 0 ∨ k * e.unit dev < r.len → dev.Spares fl s.blkStatus (r.addr + k * e.unit dev)) :
    (Entry.device e dev r).Guarded fl s := by
  have htable : ((Entry.device e dev r).act fl s).2.blkStatus = s.blkStatus :=
    DriverSteps.table_of_refused (moves_act (by simp) (by simp) s) hmark
  have hfree : ¬e.Idle dev r → ∀ k, k = 0 ∨ k * e.unit dev < r.len →
      PageFree fl (fun op => op.ReachesReserve fl s.blkStatus → (Entry.device e dev r).Owns fl op)
        dev (dev.para (r.addr + k * e.unit dev)).pageAddr :=
    fun hidle k hk => (h.resolve_left hidle k hk).pageFree hw r
  have hrun : Keeps (Issues (fun op => op.ReachesReserve fl s.blkStatus →
      (Entry.device e dev r).Owns fl op) s) ((Entry.device e dev r).act fl) := by
    rcases hw with rfl | rfl
    · exact .bind (.bind (issues_nandWrite hfree) fun _ => .pure _) fun _ => .pure _
    · exact .bind (.bind (issues_nandErase hfree) fun _ => .pure _) fun _ => .pure _
  rw [Entry.Guarded, htable]
  exact hrun.final (refl_of (Issues _) s)

/-- Step lemma: such an entry keeps the promise. -/
lemma Entry.MetaSafe.guarded {e : Entry} (h : e.MetaSafe fl s) (hmeta : s.allowMeta = false)
    (hmark : s.allowMarkbad = false) : e.Guarded fl s := by
  -- while writing is off nothing is issued at all
  have hoff : (∀ a b c, e ≠ .settings a b c) → s.readonly = true → e.Guarded fl s :=
    fun hset hro => Entry.guarded_of_log ((guarded_act hset s).2 hro)
  have hquiet : ¬e.Programs → e.Duty fl (fun _ _ => True) MetaQuiet → e.Guarded fl s :=
    fun hp hd => Entry.guarded_of_log
      ((metaQuiet_callFrame.moves_act metaQuiet_ignoresLock hp hd s).still hmeta hmark).1
  cases e with
  | settings a b c => exact Entry.guarded_of_log rfl
  | bringUp =>
    rcases h with hro | hfew
    · exact hoff (by simp) hro
    · have hlog := (unwritten_amlnandGetDevConfigs hmeta hmark hfew).log
      refine Entry.guarded_of_log ?_
      rw [Entry.act]
      rcases hx : amlnandGetDevConfigs fl s with ⟨o, t⟩
      rw [hx] at hlog
      cases o with
      | none => rw [bind_none hx]; exact hlog
      | some ret => rw [bind_some hx]; exact hlog
  | device e dev r =>
    rcases h with hro | h
    · exact hoff (by simp) hro
    · by_cases hw : e = .write ∨ e = .erase
      · exact guarded_device hmark hw h
      · exact hquiet hw ⟨fun _ _ => trivial, fun _ => metaQuiet_blockMarkbadOp⟩
  | testBlock dev r => exact hoff (by simp) h
  | testBlockChip => exact hoff (by simp) h
  | testBlockReserved b => exact hoff (by simp) h
  | ubootWrite cfg user memory count =>
    rcases h with hro | hfits
    · exact hoff (by simp) hro
    · obtain ⟨ops, hlog, hops⟩ : Issues (FlashOp.InBoot fl) s
          ((Entry.ubootWrite cfg user memory count).act fl s).2 :=
        (moves_discard (issues_ubootWrite hfits cfg user memory count) :
          Moves (Issues (FlashOp.InBoot fl)) _) s
      exact ⟨ops, hlog, fun op hop hreach => absurd hreach ((hops op hop).not_reachesReserve _)⟩
  | modifybbt dev r value => exact hquiet id (metaQuiet_blkModifyBbtChipOp value)
  | updateBbt dev r => exact hquiet id metaQuiet_updateBbt
  | save name buf size => exact hquiet id (metaQuiet_saveInfo name buf size)
  | envWrite mem pos count data => exact hquiet id fun _ => metaQuiet_saveInfo _ _ _
  | phydevInit config => exact hquiet id trivial
  | envRead mem pos count => exact hquiet id trivial

/-- Such an entry leaves metadata and marking refused. -/
lemma Entry.MetaSafe.refused {e : Entry} (h : e.MetaSafe fl s) (hmeta : s.allowMeta = false)
    (hmark : s.allowMarkbad = false) :
    (e.act fl s).2.allowMeta = false ∧ (e.act fl s).2.allowMarkbad = false := by
  by_cases hset : ∃ a b c, e = .settings a b c
  · obtain ⟨a, b, c, rfl⟩ := hset
    exact h
  · have hkept : (e.act fl s).2.allowMeta = s.allowMeta ∧
        (e.act fl s).2.allowMarkbad = s.allowMarkbad :=
      permissions_act (fun a b c he => hset ⟨a, b, c, he⟩) s
    exact ⟨hkept.1.trans hmeta, hkept.2.trans hmark⟩

end

/-- **What the guard of the metadata protects.** In a run of safe entries, for any chips, tables and
outcomes, while metadata and marking are refused: what an entry programs or erases in the reserved
area it does as a data device and inside its range. -/
theorem reserve_guarded (fl : Flash) (es : List Entry) (s : St) (hmeta : s.allowMeta = false)
    (hmark : s.allowMarkbad = false) (h : EveryStep fl (Entry.MetaSafe fl) es s) :
    EveryStep fl (Entry.Guarded fl) es s := by
  induction es generalizing s with
  | nil => trivial
  | cons e es ih =>
    obtain ⟨he, hes⟩ := h
    refine ⟨he.guarded hmeta hmark, fun t ht => ?_⟩
    have hkept := he.refused hmeta hmark
    rw [ht] at hkept
    exact ih t hkept.1 hkept.2 (hes t ht)

/-- A table in which the first 48 blocks behind the boot area are good. -/
lemma fewUsedBad_of_good {fl : Flash} {tbl : BlkStatus}
    (h : ∀ k < reservedBlockCnt, resStatus fl tbl (fl.startBlk + k) = blockGood) :
    FewUsedBad fl tbl := by
  intro n hn _
  have hcount : Nat.count (NotFactory fl tbl) reservedBlockCnt = reservedBlockCnt := by
    refine Nat.count_of_forall fun k hk => ?_
    rw [NotFactory, h k hk]
    decide
  have hle : n ≤ fl.startBlk + reservedBlockCnt := by
    by_contra hlt
    have hin := hn.2.2 (fl.startBlk + reservedBlockCnt) (by omega) (by omega)
    rw [InReserve, Nat.add_sub_cancel_left, hcount] at hin
    exact lt_irrefl _ hin.2
  have hnil : usedBadIn fl tbl n = [] := by
    refine List.eq_nil_iff_forall_not_mem.2 fun b hb => ?_
    obtain ⟨⟨h1, h2⟩, hused⟩ := mem_usedBadIn.1 hb
    have hgood := h (b - fl.startBlk) (by omega)
    rw [Nat.add_sub_cancel' h1, hused] at hgood
    exact absurd hgood (by decide)
  rw [hnil]
  exact Nat.zero_le _

/-- A chip with a table on it, metadata and marking being refused. -/
def guardedChip (d : ℕ → Buf) : St :=
  { St.withTable d with allowMeta := false, allowMarkbad := false }

/-- A bring-up with a table of good blocks, an erase of the sample device, a save of the environment
and a boot image. -/
theorem reserve_guarded_good :
    EveryStep .oneChip (Entry.Guarded .oneChip)
      [.bringUp, .device .erase sampleDev { addr := 0, len := 2 ^ 22 },
        .save .nenv (fun _ => 0) 64, .ubootWrite ⟨0, 1⟩ (fun _ => 0) (fun _ => 0) 8192]
      (guardedChip fun _ _ => 0) := by
  have hgood : ∀ k < reservedBlockCnt, resStatus .oneChip ((do
      let _ ← bringUpPrelude .oneChip
      loadBbt .oneChip : Act St Unit) (guardedChip fun _ _ => 0)).2.blkStatus
      (Flash.oneChip.startBlk + k) = blockGood := by
    decide +kernel
  refine reserve_guarded .oneChip _ _ rfl rfl ⟨.inr fun ret p t hp _ ht => ?_, fun t1 _ =>
    ⟨.inr (.inr fun k hk => .inl ⟨rfl, ?_⟩), fun t2 _ => ⟨trivial, fun t3 _ =>
      ⟨.inr nofun, fun t4 _ => trivial⟩⟩⟩⟩
  · refine fewUsedBad_of_good fun k hk => ?_
    have hk' := hgood k hk
    rw [bind_some hp, ht] at hk'
    exact hk'
  · change 0 + k * 2 ^ 21 < 2 ^ 26
    have hk' : k = 0 ∨ k * 2 ^ 21 < 2 ^ 22 := hk
    omega

/-- Pages of a table, with its checksum, in which blocks 5 to 11 of the chip went bad in use. -/
def sevenUsedBadPages : ℕ → Buf := fun j i =>
  if j = 0 ∧ i = 0 then 7 else if j = 0 ∧ 14 ≤ i ∧ i ≤ 26 ∧ i % 2 = 0 then 1 else 0

/-- Is block 5 of the first chip erased? -/
def FlashOp.erasesFive : FlashOp → Bool
  | .erase 0 5 => true
  | _ => false

/-- A chip with that table, metadata and marking being refused. The chip reports that programming
fails, which keeps the repair short. -/
def wornChip : St :=
  { guardedChip sevenUsedBadPages with
    plan := fun _ => { Outcome.fine with prog := .failed 0 fun _ _ => .erased } }

/-- Seven used-bad blocks: bring-up erases them although metadata and marking are refused. -/
theorem repair_not_guarded :
    (wornChip.readonly = false ∧ wornChip.allowMeta = false ∧ wornChip.allowMarkbad = false) ∧
      ¬EveryStep .oneChip (Entry.Guarded .oneChip) [.bringUp] wornChip := by
  refine ⟨⟨rfl, rfl, rfl⟩, fun h => ?_⟩
  obtain ⟨⟨ops, hlog, hops⟩, -⟩ := h
  have hany : (Entry.bringUp.act .oneChip wornChip).2.log.any FlashOp.erasesFive = true := by
    decide +kernel
  rw [hlog, show wornChip.log = [] from rfl, List.nil_append] at hany
  obtain ⟨op, hop, hfive⟩ := List.any_eq_true.1 hany
  obtain rfl : op = .erase 0 5 := by
    unfold FlashOp.erasesFive at hfive
    split at hfive
    · rfl
    · cases hfive
  refine hops _ hop ⟨5, 5 * 256, ⟨by decide, ?_⟩, ⟨rfl, rfl⟩, rfl⟩
  exact (Nat.count_le _).trans_lt (by decide)

end Amlnf
