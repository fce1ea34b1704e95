import Amlnf.Phy.RecordRead

set_option relaxedAutoImplicit false
set_option autoImplicit false

/-!
# Saving on chips that report no failure

On chips that report no failure a save issues a definite list of program and erase commands
and updates the `arg_info` and the list of reserved blocks accordingly. One round of a save
either appends a copy to the current block or moves the record to a fresh one.

## Main definitions

* `St.exec` — the state after a list of commands.
* `copyOps`, `fullPageOps`, `fullBlkOps` — the commands that write a record.
* `Appends` — the round goes on in the current block.
* `St.appended`, `St.moved` — the state after a round of either kind.
* `Round`, `Saves` — what a round and a save can do.

## Main results

* `amlnandGetFreeBlock_run` — the search for a free block.
* `saveRound_run` — one round of a save.
* `amlnandSaveInfoByName_run` — a save is one or two rounds.
-/

namespace Amlnf

open Act

section

variable {fl : Flash}

/-! ## Commands -/

/-- The state after commands that succeed. -/
def St.exec (s : St) (fl : Flash) (ops : List FlashOp) : St :=
  { s with image := s.image.replay fl ops, log := s.log ++ ops }

/-- Commands respect what is kept. -/
lemma exec_congr {s t : St} (h : t.kept = s.kept) (ops : List FlashOp) :
    (t.exec fl ops).kept = (s.exec fl ops).kept := by
  have h' := congrArg (fun u : St => u.exec fl ops) h
  exact h'

/-- Commands behind one another. -/
lemma exec_exec (s : St) (xs ys : List FlashOp) :
    (s.exec fl xs).exec fl ys = s.exec fl (xs ++ ys) := by
  simp only [St.exec, Image.replay_append, List.append_assoc]

/-- No commands. -/
lemma exec_nil (s : St) : s.exec fl [] = s := by
  simp [St.exec]

/-- Commands leave a state ready. -/
lemma Ready.exec {s : St} (hs : Ready s) (ops : List FlashOp) : Ready (s.exec fl ops) :=
  ⟨hs.calm, hs.lock⟩

/-- Programming one page. -/
lemma writePage_run {s : St} (hs : s.Calm) (h1 : s.opsPara.option.multiPlane = false)
    (h2 : s.opsPara.option.multiChip = false) (d : Buf) (o : Option Tag) :
    writePage fl (some d) o s = (some 0,
      { s.exec fl [.program s.opsPara.chipnr s.opsPara.pageAddr d o] with tick := s.tick + 1 }) := by
  have hprog := (hs.1 s.tick).1
  rw [writePage, get_bind, if_neg (by simp [hs.2])]
  simp only [issue, hprog, opPages_single h1 h2, programOps, List.zipIdx_singleton, List.map_cons,
    List.map_nil, Nat.zero_mul, Nat.zero_add]
  rfl

/-- Programming one page under the chip lock. -/
lemma withChip_writePage_run (fl : Flash) {s : St} (hs : Ready s) (h1 : s.opsPara.option.multiPlane = false)
    (h2 : s.opsPara.option.multiChip = false) (d : Buf) (o : Option Tag) :
    ∃ t, withChip (writePage fl (some d) o) s = (some 0, t) ∧
      t.kept = (s.exec fl [.program s.opsPara.chipnr s.opsPara.pageAddr d o]).kept ∧
      t.opsPara = s.opsPara := by
  obtain ⟨a, t, ht, hk, ha, hp⟩ := withChip_run (x := writePage fl (some d) o) (s := s)
    (c := s.exec fl [.program s.opsPara.chipnr s.opsPara.pageAddr d o])
    (E := fun a p _ => a = 0 ∧ p = s.opsPara) hs.reads ⟨rfl, rfl, rfl⟩
    fun mu idle tk => ⟨0, _, writePage_run
      (s := { s with mutex := mu, idleflag := idle, tick := tk }) hs.calm h1 h2 d o, rfl, rfl, rfl⟩
  exact ⟨t, by rw [ht, ha], hk, hp⟩

/-- Erasing one block under the chip lock. -/
lemma withChip_eraseBlock_run (fl : Flash) {s : St} (hs : Ready s) (h1 : s.opsPara.option.multiPlane = false)
    (h2 : s.opsPara.option.multiChip = false) :
    ∃ t, withChip (eraseBlock fl) s = (some 0, t) ∧
      t.kept = (s.exec fl [.erase s.opsPara.chipnr (s.opsPara.pageAddr / fl.ppb)]).kept ∧
      t.opsPara = s.opsPara := by
  have hblk : opBlocks fl s.opsPara = [(s.opsPara.chipnr, s.opsPara.pageAddr / fl.ppb)] := by
    simp [opBlocks, opChips, opRows, h1, h2]
  obtain ⟨a, t, ht, hk, ha, hp⟩ := withChip_run (x := eraseBlock fl) (s := s)
    (c := s.exec fl [.erase s.opsPara.chipnr (s.opsPara.pageAddr / fl.ppb)])
    (E := fun a p _ => a = 0 ∧ p = s.opsPara) hs.reads ⟨rfl, rfl, rfl⟩ fun mu idle tk => by
      let u : St := { s with mutex := mu, idleflag := idle, tick := tk }
      refine ⟨0, { u.exec fl [.erase s.opsPara.chipnr (s.opsPara.pageAddr / fl.ppb)] with
        tick := tk + 1 }, ?_, rfl, rfl, rfl⟩
      have herase := (hs.calm.1 tk).2.1
      rw [eraseBlock, get_bind, if_neg (by simp [hs.calm.2])]
      simp only [issue, herase, hblk, eraseOps, List.map_cons, List.map_nil]
      rfl
  exact ⟨t, by rw [ht, ha], hk, hp⟩

/-! ## The plain mode -/

/-- `ops_para` addresses one block of one chip. -/
def Plain (s : St) : Prop :=
  s.opsPara.option.multiPlane = false ∧ s.opsPara.option.multiChip = false

/-- `x` stays in the plain mode. -/
def KeepsPlain {α : Type} (x : Act St α) : Prop := Spec Plain x (fun _ => Plain) fun _ => True

/-- What leaves `ops_para` alone keeps it plain. -/
lemma keepsPlain_of_opsPara {α : Type} {x : Act St α} (h : ∀ s, (x s).2.opsPara = s.opsPara) :
    KeepsPlain x := by
  intro s hs
  have h' := h s
  rcases hx : x s with ⟨o, t⟩
  rw [hx] at h'
  cases o with
  | none => trivial
  | some a =>
    change Plain t
    rw [Plain, h']
    exact hs

/-- A program between taking and releasing the chips. -/
lemma keepsPlain_withChip_writePage (d : Buf) (o : Option Tag) :
    KeepsPlain (withChip (writePage fl (some d) o)) :=
  keepsPlain_of_opsPara fun s => (sameTables_withChip (.bind .get fun _ => .ite (fun _ => .pure _)
    fun _ => sameTables_issue _ _ _) s).2.2.1

/-- The write of a record page. -/
lemma keepsPlain_writeRecPage (tag : Tag) (blk i : ℕ) (d : Buf) :
    KeepsPlain (writeRecPage fl tag blk i d) :=
  Spec.bind (M := fun _ => Plain) (Spec.modify fun _ _ => ⟨rfl, rfl⟩) fun _ =>
    Spec.bind (M := fun _ => Plain) (Spec.modify fun _ hs => hs) fun _ =>
      keepsPlain_withChip_writePage d _

/-- The page behind a record page is programmed with the option word cleared; the word is put
back afterwards. -/
lemma keepsPlain_writePaired : KeepsPlain (writePaired fl) := by
  refine Spec.get_bind fun s hs => ?_
  refine Spec.bind (M := fun _ => Plain) (Spec.modify fun _ _ => ⟨rfl, rfl⟩) fun _ => ?_
  refine Spec.bind (M := fun _ => Plain) (Spec.modify fun _ h => h) fun _ => ?_
  refine Spec.bind (M := fun _ => Plain) (keepsPlain_withChip_writePage _ _) fun _ => ?_
  exact Spec.bind (M := fun _ => Plain) (Spec.modify fun _ _ => hs) fun _ => Spec.pure fun _ h => h

/-- The write of a dummy page. -/
lemma keepsPlain_writeDummy (blk i : ℕ) : KeepsPlain (writeDummy fl blk i) := by
  refine Spec.bind (M := fun _ => Plain) (Spec.modify fun _ _ => ⟨rfl, rfl⟩) fun _ => ?_
  refine Spec.bind (M := fun _ => Plain) (Spec.modify fun _ h => h) fun _ => ?_
  exact Spec.bind (M := fun _ => Plain) (keepsPlain_withChip_writePage _ _) fun _ =>
    keepsPlain_writePaired

/-- The write of a copy. -/
lemma keepsPlain_writeCopy (tag : Tag) (buf : Buf) (size blk base : ℕ) :
    KeepsPlain (writeCopy fl tag buf size blk base) := by
  refine Spec.bind (M := fun _ => Plain) ?_ fun r => ?_
  · refine Spec.mono (Spec.loop (I := fun _ => Plain) (Q := fun (_ : Unit) => Plain) (fun v => ?_) _ _)
      (fun _ h => h) (fun r _ h => by cases r <;> exact h) fun _ h => h
    refine Spec.bind (M := fun _ => Plain) (keepsPlain_writeRecPage _ _ _ _) fun ret => ?_
    refine Spec.ite (fun _ => Spec.pure fun _ h => h) fun _ => Spec.ite (fun _ => ?_) fun _ => ?_
    · exact Spec.bind (M := fun _ => Plain) keepsPlain_writePaired fun _ => Spec.pure fun _ h => h
    · exact Spec.pure fun _ h => h
  · cases r <;> exact Spec.pure fun _ h => h

/-- The write of a `FULL_PAGE` record. -/
lemma keepsPlain_writeFullPage (tag : Tag) (buf : Buf) (size blk base : ℕ) :
    KeepsPlain (writeFullPage fl tag buf size blk base) := by
  refine Spec.bind (M := fun _ => Plain) (keepsPlain_writeCopy _ _ _ _ _) fun r => ?_
  cases r with
  | none => exact Spec.pure fun _ h => h
  | some ret =>
    refine Spec.ite (fun _ => ?_) fun _ => Spec.pure fun _ h => h
    exact Spec.bind (M := fun _ => Plain) (keepsPlain_writeDummy _ _) fun _ => Spec.pure fun _ h => h

/-- The write of a `FULL_BLK` record. -/
lemma keepsPlain_writeFullBlk (tag : Tag) (buf : Buf) (size blk : ℕ) :
    KeepsPlain (writeFullBlk fl tag buf size blk) := by
  refine Spec.loopUntil (I := fun _ => Plain) (fun v => ?_) (fun _ _ _ => trivial) _ _
  refine Spec.ite (fun _ => Spec.ite (fun _ => Spec.ite (fun _ => ?_) fun _ => ?_)
    fun _ => ?_) fun _ => Spec.pure fun _ h => h
  · exact Spec.bind (M := fun _ => Plain) (keepsPlain_writeDummy _ _) fun _ => Spec.pure fun _ h => h
  · exact Spec.pure fun _ h => h
  · refine Spec.bind (M := fun _ => Plain) (keepsPlain_writeCopy _ _ _ _ _) fun r => ?_
    cases r with
    | none => exact Spec.pure fun _ h => h
    | some ret => exact Spec.ite (fun _ => Spec.pure fun _ h => h) fun _ => Spec.pure fun _ h => h

/-- Writing a record stays in the plain mode. -/
lemma keepsPlain_writeRecord (name : RecName) (tag : Tag) (buf : Buf) (size : ℕ) (l : SaveLocals) :
    KeepsPlain (writeRecord fl name tag buf size l) := by
  refine Spec.bind (M := fun _ => Plain) (fun _ h => h) fun s => ?_
  cases (s.info name).argType with
  | fullBlk => exact keepsPlain_writeFullBlk _ _ _ _
  | fullPage => exact keepsPlain_writeFullPage _ _ _ _ _

/-! ## Writing a copy -/

/-- The command that programs a tagged record page. -/
def recOp (fl : Flash) (tag : Tag) (blk i : ℕ) (data : Buf) : FlashOp :=
  .program (fl.resChip blk) (fl.recPage blk i) data (some tag)

/-- The command that programs the page behind a record page. -/
def pairedOp (fl : Flash) (blk i : ℕ) : FlashOp :=
  .program (fl.resChip blk) (fl.recPage blk i + 1) (fun _ => 0xff) none

/-- The commands for piece `j` of a copy that starts at page `base`. -/
def pieceOps (fl : Flash) (tag : Tag) (buf : Buf) (size blk base j : ℕ) : List FlashOp :=
  recOp fl tag blk (base + j) (recSlice fl buf size j) ::
    if fl.newType = .hynix1ynm8gb ∧ 1 ≤ base + j then [pairedOp fl blk (base + j)] else []

/-- The commands that write a copy from page `base` on. -/
def copyOps (fl : Flash) (tag : Tag) (buf : Buf) (size blk base : ℕ) : List FlashOp :=
  (List.range (fl.argPages size)).flatMap (pieceOps fl tag buf size blk base)

/-- The commands that write the dummy page at page `i`. -/
def dummyOps (fl : Flash) (blk i : ℕ) : List FlashOp :=
  [.program (fl.resChip blk) (fl.recPage blk i) (fun _ => 0x5a) none, pairedOp fl blk i]

/-- The commands that append a copy of a `FULL_PAGE` record. -/
def fullPageOps (fl : Flash) (tag : Tag) (buf : Buf) (size blk base : ℕ) : List FlashOp :=
  copyOps fl tag buf size blk base ++
    if fl.newType = .hynix1ynm8gb then dummyOps fl blk (base + fl.argPages size) else []

/-- The commands that fill a block with copies of a `FULL_BLK` record from page `i` on. -/
def fullBlkOps (fl : Flash) (tag : Tag) (buf : Buf) (size blk : ℕ) : ℕ → ℕ → List FlashOp
  | 0, _ => []
  | n + 1, i =>
    if i < fl.pagesRead then
      if fl.pagesRead - i < fl.argPages size then
        if fl.newType = .hynix1ynm8gb then dummyOps fl blk i else []
      else
        copyOps fl tag buf size blk i ++ fullBlkOps fl tag buf size blk n (i + fl.argPages size)
    else []

/-- The commands that write a record of either type. -/
def writeOps (fl : Flash) (type : ArgType) (tag : Tag) (buf : Buf) (size blk base : ℕ) :
    List FlashOp :=
  match type with
  | .fullBlk => fullBlkOps fl tag buf size blk (fl.pagesRead + 1) 0
  | .fullPage => fullPageOps fl tag buf size blk base

/-- What the write of a record page does when nothing fails. -/
lemma writeRecPage_run (fl : Flash) {s : St} (hs : Ready s) (tag : Tag) (blk i : ℕ) (d : Buf) :
    ∃ t, writeRecPage fl tag blk i d s = (some 0, t) ∧
      t.kept = (s.exec fl [recOp fl tag blk i d]).kept ∧
      t.opsPara.pageAddr = fl.recPage blk i ∧ t.opsPara.chipnr = fl.resChip blk := by
  let u : St := { s with
    opsPara := { pageAddr := fl.recPage blk i, chipnr := fl.resChip blk,
                 option := { slc := fl.newType.slc } }
    userOob := some tag }
  obtain ⟨t, ht, hk, hp⟩ := withChip_writePage_run fl (s := u) (hs.of_kept rfl) rfl rfl d
    (some tag)
  exact ⟨t, ht, hk, by rw [hp], by rw [hp]⟩

/-- What the write of the paired page does. -/
lemma writePaired_run (fl : Flash) {s : St} (blk i : ℕ) (hs : Ready s)
    (h1 : s.opsPara.pageAddr = fl.recPage blk i) (h2 : s.opsPara.chipnr = fl.resChip blk) :
    ∃ t, writePaired fl s = (some 0, t) ∧ t.kept = (s.exec fl [pairedOp fl blk i]).kept := by
  let u : St := { s with
    opsPara := { s.opsPara with pageAddr := s.opsPara.pageAddr + 1, option := {} }
    userOob := none }
  obtain ⟨t, ht, hk, -⟩ := withChip_writePage_run fl (s := u) (hs.of_kept rfl) rfl rfl
    (fun _ => 0xff) none
  refine ⟨{ t with opsPara := { t.opsPara with
    pageAddr := s.opsPara.pageAddr, option := s.opsPara.option } }, ?_, ?_⟩
  · rw [writePaired, get_bind, modify_bind, clearOob, modify_bind, bind_some ht, modify_bind, pure_apply]
  · have hop : pairedOp fl blk i =
        .program s.opsPara.chipnr (s.opsPara.pageAddr + 1) (fun _ => 0xff) none := by
      rw [pairedOp, h1, h2]
    rw [hop]
    exact hk

/-- What the write of a dummy page does. -/
lemma writeDummy_run (fl : Flash) {s : St} (hs : Ready s) (blk i : ℕ) :
    ∃ t, writeDummy fl blk i s = (some 0, t) ∧ t.kept = (s.exec fl (dummyOps fl blk i)).kept := by
  let u : St := s.seekRec fl blk i
  obtain ⟨v, hv, hvk, hp⟩ := withChip_writePage_run fl (s := u) (hs.of_kept rfl) rfl rfl
    (fun _ => 0x5a) none
  obtain ⟨t, ht, htk⟩ := writePaired_run fl (s := v) blk i
    (((hs.of_kept (t := u) rfl).exec _).of_kept hvk) (by rw [hp]; rfl) (by rw [hp]; rfl)
  refine ⟨t, ?_, ?_⟩
  · rw [writeDummy, seekRec_bind, bind_some hv, ht]
  · have hu : u.kept = s.kept := rfl
    exact ((htk.trans (exec_congr hvk _)).trans (congrArg St.kept (exec_exec u _ _))).trans
      (exec_congr hu _)

/-- The loop over the pieces of a copy. -/
lemma copyLoop_run (fl : Flash) (tag : Tag) (buf : Buf) (size blk base : ℕ) {s : St} (hs : Ready s) :
    ∀ n j (u : St) (ops : List FlashOp), u.kept = (s.exec fl ops).kept →
      ∃ t, loop (copyRound fl tag buf size blk base) n (j, 0) u = (some (Sum.inl (j + n, 0)), t) ∧
        t.kept = (s.exec fl (ops ++
          (List.range' j n).flatMap (pieceOps fl tag buf size blk base))).kept := by
  intro n
  induction n with
  | zero =>
    intro j u ops hu
    exact ⟨u, rfl, by simpa using hu⟩
  | succ n ih =>
    intro j u ops hu
    obtain ⟨v, hv, hvk, h1, h2⟩ := writeRecPage_run fl (s := u)
      ((hs.exec ops).of_kept hu) tag blk (base + j) (recSlice fl buf size j)
    have hvk' := (hvk.trans (exec_congr hu _)).trans (congrArg St.kept (exec_exec s ops _))
    have hround : ∃ w, copyRound fl tag buf size blk base (j, 0) u =
        (some (Sum.inl (j + 1, 0)), w) ∧
        w.kept = (s.exec fl (ops ++ pieceOps fl tag buf size blk base j)).kept := by
      by_cases hx : fl.newType = .hynix1ynm8gb ∧ 1 ≤ base + j
      · obtain ⟨w, hw, hwk⟩ := writePaired_run fl (s := v) blk (base + j)
          ((hs.exec _).of_kept hvk') h1 h2
        refine ⟨w, ?_, ?_⟩
        · rw [copyRound, bind_some hv, if_neg (by simp), if_pos hx, bind_some hw, pure_apply]
        · refine (hwk.trans (exec_congr hvk' _)).trans ?_
          rw [exec_exec, pieceOps, if_pos hx, List.append_assoc]
          rfl
      · refine ⟨v, ?_, ?_⟩
        · rw [copyRound, bind_some hv, if_neg (by simp), if_neg hx, pure_apply]
        · rw [hvk', pieceOps, if_neg hx]
    obtain ⟨w, hw, hwk⟩ := hround
    obtain ⟨t, ht, htk⟩ := ih (j + 1) w _ hwk
    refine ⟨t, ?_, ?_⟩
    · rw [loop_succ_inl n hw, ht, Nat.add_right_comm, Nat.add_assoc]
    · rw [htk, List.range'_succ, List.flatMap_cons, List.append_assoc]

/-- What the write of a copy does. -/
lemma writeCopy_run (fl : Flash) (tag : Tag) (buf : Buf) (size blk base : ℕ) {s : St} (hs : Ready s) :
    ∃ t, writeCopy fl tag buf size blk base s = (some (some 0), t) ∧
      t.kept = (s.exec fl (copyOps fl tag buf size blk base)).kept := by
  obtain ⟨t, ht, hk⟩ := copyLoop_run fl tag buf size blk base hs (fl.argPages size) 0 s []
    (by rw [exec_nil])
  refine ⟨t, ?_, ?_⟩
  · rw [writeCopy, bind_some ht]
    rfl
  · rw [hk, copyOps, List.nil_append, List.range_eq_range']

/-- What the write of a `FULL_PAGE` record does. -/
lemma writeFullPage_run (fl : Flash) (tag : Tag) (buf : Buf) (size blk base : ℕ) {s : St} (hs : Ready s) :
    ∃ t, writeFullPage fl tag buf size blk base s = (some (some 0), t) ∧
      t.kept = (s.exec fl (fullPageOps fl tag buf size blk base)).kept := by
  obtain ⟨u, hu, huk⟩ := writeCopy_run fl tag buf size blk base hs
  by_cases hx : fl.newType = .hynix1ynm8gb
  · obtain ⟨t, ht, htk⟩ := writeDummy_run fl (s := u) ((hs.exec _).of_kept huk) blk
      (base + fl.argPages size)
    refine ⟨t, ?_, ?_⟩
    · rw [writeFullPage, bind_some hu]
      simp only [if_pos hx]
      rw [bind_some ht, pure_apply]
    · rw [fullPageOps, if_pos hx]
      exact (htk.trans (exec_congr huk _)).trans (congrArg St.kept (exec_exec s _ _))
  · refine ⟨u, ?_, ?_⟩
    · rw [writeFullPage, bind_some hu]
      simp only [if_neg hx, pure_apply]
    · rw [fullPageOps, if_neg hx, List.append_nil, huk]

/-- The loop that fills a block with copies. -/
lemma fullBlkLoop_run (fl : Flash) (tag : Tag) (buf : Buf) (size blk : ℕ) {s : St} (hs : Ready s) :
    ∀ n i (u : St) (ops : List FlashOp), fl.pagesRead < i + n → 1 ≤ n →
      u.kept = (s.exec fl ops).kept →
      ∃ t, loopUntil (fullBlkRound fl tag buf size blk) n (i, 0) u = (some (some 0), t) ∧
        t.kept = (s.exec fl (ops ++ fullBlkOps fl tag buf size blk n i)).kept := by
  intro n
  induction n with
  | zero =>
    intro i u ops _ h1
    omega
  | succ n ih =>
    intro i u ops hn _ hu
    have hpos := argPages_pos fl size
    have hur := (hs.exec ops).of_kept hu
    rw [fullBlkOps]
    by_cases hi : i < fl.pagesRead
    swap
    · refine ⟨u, loopUntil_inr n ?_, ?_⟩
      · rw [fullBlkRound, if_neg hi, pure_apply]
      · rw [if_neg hi, List.append_nil, hu]
    rw [if_pos hi]
    by_cases hroom : fl.pagesRead - i < fl.argPages size
    · rw [if_pos hroom]
      by_cases hx : fl.newType = .hynix1ynm8gb
      · obtain ⟨t, ht, htk⟩ := writeDummy_run fl hur blk i
        refine ⟨t, loopUntil_inr n ?_, ?_⟩
        · rw [fullBlkRound, if_pos hi, if_pos hroom, if_pos hx, bind_some ht, pure_apply]
        · rw [if_pos hx]
          exact (htk.trans (exec_congr hu _)).trans (congrArg St.kept (exec_exec s _ _))
      · refine ⟨u, loopUntil_inr n ?_, ?_⟩
        · rw [fullBlkRound, if_pos hi, if_pos hroom, if_neg hx, pure_apply]
        · rw [if_neg hx, List.append_nil, hu]
    · obtain ⟨v, hv, hvk⟩ := writeCopy_run fl tag buf size blk i hur
      have hround : fullBlkRound fl tag buf size blk (i, 0) u =
          (some (Sum.inl (i + fl.argPages size, 0)), v) := by
        rw [fullBlkRound, if_pos hi, if_neg hroom, bind_some hv]
        rfl
      obtain ⟨t, ht, htk⟩ := ih (i + fl.argPages size) v
        (ops ++ copyOps fl tag buf size blk i) (by omega) (by omega)
        ((hvk.trans (exec_congr hu _)).trans (congrArg St.kept (exec_exec s _ _)))
      refine ⟨t, ?_, ?_⟩
      · rw [loopUntil_inl n hround, ht]
      · rw [htk, if_neg hroom, List.append_assoc]

/-- Writing a record to the chosen block. -/
lemma writeRecord_run (fl : Flash) (name : RecName) (tag : Tag) (buf : Buf) (size : ℕ)
    (l : SaveLocals) {s : St} (hs : Ready s) :
    ∃ t, writeRecord fl name tag buf size l s = (some (some 0), t) ∧
      t.kept = (s.exec fl (writeOps fl (s.info name).argType tag buf size l.blkAddr
        (appendBase fl (s.info name) size l.fullPageFlag))).kept := by
  cases hty : (s.info name).argType with
  | fullBlk =>
    obtain ⟨t, ht, hk⟩ := fullBlkLoop_run fl tag buf size l.blkAddr hs (fl.pagesRead + 1) 0 s
      [] (by omega) (by omega) (by rw [exec_nil])
    refine ⟨t, ?_, hk⟩
    rw [writeRecord, get_bind, hty]
    exact ht
  | fullPage =>
    obtain ⟨t, ht, hk⟩ := writeFullPage_run fl tag buf size l.blkAddr
      (appendBase fl (s.info name) size l.fullPageFlag) hs
    refine ⟨t, ?_, hk⟩
    rw [writeRecord, get_bind, hty]
    exact ht

/-! ## The search for a free block -/

/-- What the search for a free block ends with: the first candidate, erased, or nothing when there
is no candidate. -/
def FreeResult (fl : Flash) (excl : ℕ) (s : St) (o : Option ℕ) (t : St) : Prop :=
  match o with
  | some b => Candidate fl s.blkStatus s.reservedBlk excl b ∧
      (∀ b' < b, ¬Candidate fl s.blkStatus s.reservedBlk excl b') ∧
      t.kept = (s.exec fl [.erase (fl.resChip b) (fl.resRow b)]).kept ∧ Plain t
  | none => (∀ b, ¬Candidate fl s.blkStatus s.reservedBlk excl b) ∧ t.kept = s.kept

/-- **The search for a free block** on chips that report no failure.

**Proof sketch.** Induction on the blocks that remain, no candidate having been met before. -/
lemma amlnandGetFreeBlock_run (markbad : Act St ℤ) {s : St} {n : ℕ} (excl : ℕ) (hs : Ready s)
    (hn : ReserveEnd fl s.blkStatus n) (hfuel : n < fl.startBlk + scanFuel) :
    ∃ o t, amlnandGetFreeBlock fl markbad excl s = (some o, t) ∧ FreeResult fl excl s o t := by
  have hloop : ∀ j b N (u : St), b + j = n → fl.startBlk ≤ b → j < N → u.kept = s.kept →
      (∀ b' < b, ¬Candidate fl s.blkStatus s.reservedBlk excl b') →
      ∃ o t, loopUntil (freeBlockRound fl markbad excl n) N b u = (some o, t) ∧
        FreeResult fl excl s o t := by
    intro j
    induction j with
    | zero =>
      intro b N u hb _ hN hu hno
      obtain ⟨N, rfl⟩ : ∃ m, N = m + 1 := ⟨N - 1, by omega⟩
      obtain rfl : b = n := hb
      refine ⟨none, u, loopUntil_inr N ?_, fun b' hc => ?_, hu⟩
      · rw [freeBlockRound, if_neg (lt_irrefl _), pure_apply]
      · exact hno b' ((hn.lt_iff hc.1.1).2 hc.1) hc
    | succ j ih =>
      intro b N u hb hle hN hu hno
      obtain ⟨N, rfl⟩ : ∃ m, N = m + 1 := ⟨N - 1, by omega⟩
      have ht := kept_blkStatus hu
      have hr := kept_reservedBlk hu
      by_cases hc : Candidate fl s.blkStatus s.reservedBlk excl b
      · let v : St := { u with opsPara := blockPara fl b }
        have hv : v.kept = s.kept := hu
        obtain ⟨t, herase, htk, hp⟩ := withChip_eraseBlock_run fl (s := v) (hs.of_kept hv) rfl
          rfl
        refine ⟨some b, t, loopUntil_inr N ?_, hc, hno, ?_, by rw [Plain, hp]; exact ⟨rfl, rfl⟩⟩
        · rw [freeBlockRound_candidate hn ht hr hc, bind_some herase, if_neg (by simp), pure_apply]
        · rw [show fl.resRow b = v.opsPara.pageAddr / fl.ppb from (resPage_div fl b).symm]
          exact htk.trans (exec_congr hv _)
      · have hp := freeBlockRound_skip markbad hn hle (by omega)
          ht hr hc
        rw [loopUntil_inl N hp]
        refine ih (b + 1) N _ (by omega) (by omega) (by omega) hu fun b' hb' => ?_
        rcases Nat.lt_succ_iff_lt_or_eq.1 hb' with h | rfl
        · exact hno b' h
        · exact hc
  have hp := getLastReserveBlock_eq fl (s := { s with opsPara := {} }) hn hfuel
  have h0 := hn.1
  obtain ⟨o, t, ht, hres⟩ := hloop (n - fl.startBlk) fl.startBlk (n + 1)
    { s with opsPara := blockPara fl (n - 1) }
    (by omega) (le_refl _) (by omega) rfl
    fun b' hb' hc => absurd hc.1.1 (by omega)
  refine ⟨o, t, ?_, hres⟩
  rw [amlnandGetFreeBlock, modify_bind, bind_some hp]
  exact ht

/-! ## One round of a save -/

/-- The round goes on in the current block: two more copies fit behind the last one. -/
def Appends (fl : Flash) (a : ArgInfo) (size : ℕ) : Prop :=
  a.argValid = true ∧ a.updateFlag = false ∧ a.argType = .fullPage ∧
    a.validPageAddr + 2 * fl.argPages size ≤ fl.pagesRead

instance (fl : Flash) (a : ArgInfo) (size : ℕ) : Decidable (Appends fl a size) :=
  inferInstanceAs (Decidable (_ ∧ _ ∧ _ ∧ _))

/-- The tag of the next copy. -/
def nextTag (s : St) (name : RecName) : Tag := ⟨name, (s.info name).timestamp + 1⟩

/-- The block a record leaves when it is moved is erased. -/
def leaveOps (fl : Flash) (a : ArgInfo) : List FlashOp :=
  if a.argValid ∧ a.validBlkAddr ≠ 0 then
    [.erase (fl.resChip a.validBlkAddr) (fl.resRow a.validBlkAddr)]
  else []

/-- Commands of a round that appends. -/
def appendOps (fl : Flash) (s : St) (name : RecName) (buf : Buf) (size : ℕ) : List FlashOp :=
  fullPageOps fl (nextTag s name) buf size (s.info name).validBlkAddr
    ((s.info name).validPageAddr + copyStep fl size)

/-- Commands of a round that moves the record to block `b`. -/
def moveOps (fl : Flash) (s : St) (name : RecName) (buf : Buf) (size b : ℕ) : List FlashOp :=
  .erase (fl.resChip b) (fl.resRow b) ::
    (writeOps fl (s.info name).argType (nextTag s name) buf size b 0 ++ leaveOps fl (s.info name))

/-- The `arg_info` after a round that appends. -/
def appendInfo (fl : Flash) (size : ℕ) (a : ArgInfo) : ArgInfo :=
  { a with
    timestamp := a.timestamp + 1
    validBlkAddr := a.validBlkAddr % 2 ^ 16
    validPageAddr := (a.validPageAddr + copyStep fl size) % 2 ^ 16 }

/-- The `arg_info` after a round that moves the record to block `b`. -/
def moveInfo (b : ℕ) (a : ArgInfo) : ArgInfo :=
  { a with
    timestamp := a.timestamp + 1
    validBlkAddr := b % 2 ^ 16
    validPageAddr := if a.argValid then 0 else a.validPageAddr
    argValid := true }

/-- The list after a round that moves the record to block `b`. -/
def moveList (a : ArgInfo) (b : ℕ) (rl : List UInt8) : List UInt8 :=
  if a.argValid ∧ a.validBlkAddr ≠ 0 then delist (enlist rl b) a.validBlkAddr else enlist rl b

/-- The state after a round that appends. -/
def St.appended (s : St) (fl : Flash) (name : RecName) (buf : Buf) (size : ℕ) : St :=
  (s.exec fl (appendOps fl s name buf size)).setInfo name (appendInfo fl size)

/-- The state after a round that moves the record to block `b`. -/
def St.moved (s : St) (fl : Flash) (name : RecName) (buf : Buf) (size b : ℕ) : St :=
  ((s.exec fl (moveOps fl s name buf size b)).setInfo name (moveInfo b)).setList
    (moveList (s.info name) b s.reservedBlk)

/-- The `arg_info` after a copy was appended. -/
lemma appended_info_self (s : St) (name : RecName) (buf : Buf) (size : ℕ) :
    (s.appended fl name buf size).info name = appendInfo fl size (s.info name) := if_pos rfl

/-- The `arg_info` after the record moved to another block. -/
lemma moved_info_self (s : St) (name : RecName) (buf : Buf) (size b : ℕ) :
    (s.moved fl name buf size b).info name = moveInfo b (s.info name) := if_pos rfl

/-- A round counts the timestamp up first. -/
def stampInfo (a : ArgInfo) : ArgInfo := { a with timestamp := a.timestamp + 1 }

/-- The state at the start of a round, and after one that found no block. -/
def St.stamped (s : St) (name : RecName) : St := s.setInfo name stampInfo

/-- What a round of a save on chips that report no failure can do; `excl` is the block the search
for a free block passes over. -/
inductive Round (fl : Flash) (name : RecName) (buf : Buf) (size excl : ℕ) (s : St) :
    (ℤ ⊕ ℤ × SaveLocals) → St → Prop
  | append {l : SaveLocals} {t : St} (h : Appends fl (s.info name) size)
      (hl : l.fullPageFlag = false) (hb : l.blkAddr = (s.info name).validBlkAddr)
      (ht : t.kept = (s.appended fl name buf size).kept) :
      Round fl name buf size excl s (Sum.inr (0, l)) t
  | move {l : SaveLocals} {t : St} (h : ¬Appends fl (s.info name) size)
      (hl : l.fullPageFlag = false) (hb : Candidate fl s.blkStatus s.reservedBlk excl l.blkAddr)
      (hlow : ∀ b < l.blkAddr, ¬Candidate fl s.blkStatus s.reservedBlk excl b)
      (ht : t.kept = (s.moved fl name buf size l.blkAddr).kept) :
      Round fl name buf size excl s (Sum.inr (0, l)) t
  | full {t : St} (h : ¬Appends fl (s.info name) size)
      (hb : ∀ b, ¬Candidate fl s.blkStatus s.reservedBlk excl b)
      (ht : t.kept = (s.stamped name).kept) :
      Round fl name buf size excl s (Sum.inl (-nandBadBlcokFailure)) t

/-- Between its two rounds a save of a `FULL_PAGE` record clears `update_flag`. -/
def settled (a : ArgInfo) : ArgInfo := { a with updateFlag := false }

/-- What a save on chips that report no failure can do. -/
inductive Saves (fl : Flash) (name : RecName) (buf : Buf) (size : ℕ) (s : St) : ℤ → St → Prop
  | refused (h : s.allowMeta = false) : Saves fl name buf size s (-eROFS) s
  | failed {ret : ℤ} {t : St} (h : s.allowMeta = true) (hr : Round fl name buf size 0 s (Sum.inl ret) t) :
      Saves fl name buf size s ret t
  | once {l : SaveLocals} {t : St} (h : s.allowMeta = true) (hty : (s.info name).argType = .fullBlk)
      (hr : Round fl name buf size 0 s (Sum.inr (0, l)) t) : Saves fl name buf size s 0 t
  | half {l : SaveLocals} {ret : ℤ} {u t : St} (h : s.allowMeta = true)
      (hty : (s.info name).argType = .fullPage)
      (hr : Round fl name buf size 0 s (Sum.inr (0, l)) u)
      (hr' : Round fl name buf size l.blkAddr (u.setInfo name settled) (Sum.inl ret) t) :
      Saves fl name buf size s ret t
  | twice {l l' : SaveLocals} {u t : St} (h : s.allowMeta = true)
      (hty : (s.info name).argType = .fullPage)
      (hr : Round fl name buf size 0 s (Sum.inr (0, l)) u)
      (hr' : Round fl name buf size l.blkAddr (u.setInfo name settled) (Sum.inr (0, l')) t) :
      Saves fl name buf size s 0 t

/-! ## Runs of a round -/

/-- The local variables after a fresh block `b` has been chosen for a round that cannot append. -/
def moveLocals (a : ArgInfo) (l : SaveLocals) (b : ℕ) : SaveLocals :=
  { l with
    blkAddr := b
    fullPageFlag := l.fullPageFlag || (a.argValid && !a.updateFlag && decide (a.argType = .fullPage)) }

/-- A record with room left stays in its block. -/
lemma chooseBlock_append (markbad : Act St ℤ) {name : RecName} {size : ℕ} {s : St}
    (l : SaveLocals) (h : Appends fl (s.info name) size) :
    chooseBlock fl markbad name size l s =
      (some (some { l with blkAddr := (s.info name).validBlkAddr }), s) := by
  obtain ⟨h1, h2, h3, h4⟩ := h
  rw [chooseBlock, get_bind]
  simp only [h1, h2, h3, Bool.false_eq_true, not_false_eq_true, and_self, if_true]
  rw [if_neg (by omega), pure_apply]

/-- The choice of a block when the round cannot append. -/
lemma chooseBlock_move (markbad : Act St ℤ) {name : RecName} {size n : ℕ} {s : St}
    (l : SaveLocals) (hs : Ready s) (hn : ReserveEnd fl s.blkStatus n)
    (hfuel : n < fl.startBlk + scanFuel) (h : ¬Appends fl (s.info name) size) :
    ∃ o t, chooseBlock fl markbad name size l s =
        (some (o.map (moveLocals (s.info name) l)), t) ∧ FreeResult fl l.blkAddr s o t := by
  obtain ⟨o, t, ht, hres⟩ := amlnandGetFreeBlock_run markbad l.blkAddr hs hn hfuel
  refine ⟨o, t, ?_, hres⟩
  rw [chooseBlock, get_bind]
  by_cases hc : (s.info name).argValid = true ∧ ¬(s.info name).updateFlag = true ∧
      (s.info name).argType = .fullPage
  · obtain ⟨h1, h2, h3⟩ := hc
    rw [if_pos ⟨h1, h2, h3⟩, if_pos, bind_some ht]
    · cases o with
      | none => rfl
      | some b => simp [moveLocals, h1, h2, h3]
    · by_contra hroom
      exact h ⟨h1, by simpa using h2, h3, by omega⟩
  · rw [if_neg hc, bind_some ht]
    cases o with
    | none => rfl
    | some b =>
      have hflag : ((s.info name).argValid && !(s.info name).updateFlag &&
          decide ((s.info name).argType = .fullPage)) = false := by
        rw [← Bool.not_eq_true]
        intro hx
        simp only [Bool.and_eq_true, Bool.not_eq_true', decide_eq_true_eq] at hx
        exact hc ⟨hx.1.1, by simp [hx.1.2], hx.2⟩
      simp [moveLocals, hflag]

/-- What follows a copy that was appended. -/
lemma commitCopy_append (markbad : Act St ℤ) {name : RecName} {size : ℕ} {s : St} {l : SaveLocals}
    (hl : l.fullPageFlag = false) (hb : l.blkAddr = (s.info name).validBlkAddr)
    (h : Appends fl (s.info name) size) :
    commitCopy fl markbad name size 0 l s = (some (Sum.inr 0), s.setInfo name fun a =>
      { a with
        validBlkAddr := a.validBlkAddr % 2 ^ 16
        validPageAddr := (a.validPageAddr + copyStep fl size) % 2 ^ 16 }) := by
  obtain ⟨h1, h2, h3, -⟩ := h
  have hm : movedBlock (s.info name) l.fullPageFlag = false := by
    rw [movedBlock, hl, h2, h3]
    rfl
  rw [commitCopy, get_bind, Act.when, if_neg (by simp [h1, hm]), pure_bind, modifyInfo_bind,
    if_neg (by simp [hm]), pure_apply]
  refine congrArg (Prod.mk _) (setInfo_ext s name ?_)
  simp only [movedInfo, hm, h1, hb, if_true, Bool.false_eq_true, if_false, copyStep, Nat.add_assoc]

/-- The address of a record that now starts block `b`. -/
def settleInfo (b : ℕ) (a : ArgInfo) : ArgInfo :=
  { a with
    validBlkAddr := b % 2 ^ 16
    validPageAddr := if a.argValid then 0 else a.validPageAddr }

/-- What follows a copy in a fresh block: the block is entered in the list, and the block the
record has left is erased and taken off the list. -/
lemma commitCopy_move (fl : Flash) (markbad : Act St ℤ) (name : RecName) (size : ℕ) {s : St}
    {l : SaveLocals} (hs : Ready s)
    (hl : (s.info name).argValid = true → movedBlock (s.info name) l.fullPageFlag = true)
    (hp : Plain s) :
    ∃ t, commitCopy fl markbad name size 0 l s = (some (Sum.inr 0), t) ∧
      t.kept = (((s.exec fl (leaveOps fl (s.info name))).setInfo name (settleInfo l.blkAddr)).setList
        (moveList (s.info name) l.blkAddr s.reservedBlk)).kept := by
  set a := s.info name with ha
  have hc : ¬a.argValid = true ∨ movedBlock a l.fullPageFlag = true := by
    by_cases hv : a.argValid = true
    · exact Or.inr (hl hv)
    · exact Or.inl hv
  have hmi : movedInfo fl a size l.blkAddr l.fullPageFlag = settleInfo l.blkAddr a := by
    unfold movedInfo settleInfo
    congr 1
    by_cases hv : a.argValid = true
    · rw [if_pos hv, if_pos hv, if_pos (hl hv)]
    · rw [if_neg hv, if_neg hv]
  let u : St := ({ s with reservedBlk := enlist s.reservedBlk l.blkAddr } : St).setInfo name
    fun a => movedInfo fl a size l.blkAddr l.fullPageFlag
  have hstart : commitCopy fl markbad name size 0 l s =
      (if movedBlock a l.fullPageFlag = true ∧ a.argValid = true ∧ a.validBlkAddr ≠ 0 then do
        let r ← eraseOld fl markbad a.validBlkAddr
        Sum.elim (fun ret => pure (Sum.inl ret)) (fun ret => do
          modify fun s => { s with reservedBlk := delist s.reservedBlk a.validBlkAddr }
          pure (Sum.inr ret)) r
      else pure (Sum.inr 0) : Act St (ℤ ⊕ ℤ)) u := by
    rw [commitCopy, get_bind, Act.when, if_pos hc]
    refine congrFun (ite_congr rfl (fun _ => bind_congr fun r => ?_) fun _ => rfl) u
    cases r <;> rfl
  rw [hstart]
  have hset : ∀ ops, (u.exec fl ops).kept = (((s.exec fl ops).setInfo name
      (settleInfo l.blkAddr)).setList (enlist s.reservedBlk l.blkAddr)).kept := by
    intro ops
    have h := setInfo_ext (s.exec fl ops) name (f := fun a =>
      movedInfo fl a size l.blkAddr l.fullPageFlag) (g := settleInfo l.blkAddr) hmi
    exact congrArg (fun v : St => (v.setList (enlist s.reservedBlk l.blkAddr)).kept) h
  by_cases hv : a.argValid = true ∧ a.validBlkAddr ≠ 0
  · rw [if_pos ⟨hl hv.1, hv⟩]
    let v : St := { u with opsPara :=
      { u.opsPara with pageAddr := fl.resPage a.validBlkAddr, chipnr := fl.resChip a.validBlkAddr } }
    have hvr : Ready v := ⟨hs.calm, hs.lock⟩
    obtain ⟨t, ht, htk, -⟩ := withChip_eraseBlock_run fl hvr hp.1 hp.2
    have herase : eraseOld fl markbad a.validBlkAddr u = (some (Sum.inr 0), t) := by
      rw [eraseOld, modify_bind, bind_some ht, if_neg (by simp), pure_apply]
    rw [bind_some herase]
    refine ⟨t.setList (delist t.reservedBlk a.validBlkAddr), rfl, ?_⟩
    have hrow : v.opsPara.pageAddr / fl.ppb = fl.resRow a.validBlkAddr := resPage_div fl _
    rw [hrow] at htk
    have hk : t.kept = (u.exec fl [.erase (fl.resChip a.validBlkAddr)
        (fl.resRow a.validBlkAddr)]).kept := htk
    have hlist : t.reservedBlk = enlist s.reservedBlk l.blkAddr := (kept_reservedBlk hk).trans rfl
    rw [hlist, leaveOps, if_pos hv, moveList, if_pos hv]
    exact (setList_congr hk _).trans (setList_congr (hset _) _)
  · rw [if_neg fun h => hv h.2, leaveOps, if_neg hv, moveList, if_neg hv]
    refine ⟨u, rfl, ?_⟩
    have h := hset []
    rw [exec_nil] at h
    exact h

/-- Once a block has been chosen the first attempt writes the copy. -/
lemma saveAttempts_wrote {markbad : Act St ℤ} {name : RecName} (tag : Tag) (buf : Buf) {size : ℕ}
    {l l' : SaveLocals} {s t : St} (ht : Ready t)
    (h : chooseBlock fl markbad name size l s = (some (some l'), t)) :
    ∃ u, saveAttempts fl markbad name tag buf size l s = (some (.wrote 0 l'), u) ∧
      u.kept = (t.exec fl (writeOps fl (t.info name).argType tag buf size l'.blkAddr
        (appendBase fl (t.info name) size l'.fullPageFlag))).kept ∧ (Plain t → Plain u) := by
  obtain ⟨u, hu, hk⟩ := writeRecord_run fl name tag buf size l' ht
  refine ⟨u, loopUntil_inr 3 ?_, hk, fun hp => ?_⟩
  · rw [attemptRound, bind_some h]
    exact bind_some hu
  · exact (keepsPlain_writeRecord name tag buf size l').returned hp hu

/-- Without a block there is no attempt. -/
lemma saveAttempts_noBlock {markbad : Act St ℤ} {name : RecName} {tag : Tag} {buf : Buf} {size : ℕ}
    {l : SaveLocals} {s t : St} (h : chooseBlock fl markbad name size l s = (some none, t)) :
    saveAttempts fl markbad name tag buf size l s = (some .noBlock, t) := by
  refine loopUntil_inr 3 ?_
  rw [attemptRound, bind_some h]
  rfl

/-- A round starts by counting the timestamp up and clearing `ops_para`. -/
lemma saveRound_start (markbad : Act St ℤ) (name : RecName) (buf : Buf) (size : ℕ) (l : SaveLocals)
    (s : St) : saveRound fl markbad name buf size l s =
      (do
        match ← saveAttempts fl markbad name (nextTag s name) buf size l with
        | .noBlock => pure (Sum.inl (-nandBadBlcokFailure))
        | .gaveUp => pure (Sum.inl (-nandWriteFailed))
        | .wrote ret l =>
          if ret < 0 then
            pure (Sum.inl (-nandWriteFailed))
          else
            match ← commitCopy fl markbad name size ret l with
            | Sum.inl ret => pure (Sum.inl ret)
            | Sum.inr ret =>
              modifyInfo name fun a => { a with argValid := true }
              pure (Sum.inr (ret, { l with fullPageFlag := false })))
        { s.stamped name with opsPara := {} } := by
  have htag : (⟨name, ((s.stamped name).info name).timestamp⟩ : Tag) = nextTag s name := by
    rw [St.stamped, setInfo_info_self]
    rfl
  rw [← htag]
  rfl

/-- A round whose copy has been written and committed. -/
lemma saveRound_wrote {markbad : Act St ℤ} {name : RecName} {buf : Buf} {size : ℕ}
    {l l' : SaveLocals} {s u v : St}
    (hw : saveAttempts fl markbad name (nextTag s name) buf size l
      { s.stamped name with opsPara := {} } = (some (.wrote 0 l'), u))
    (hc : commitCopy fl markbad name size 0 l' u = (some (Sum.inr 0), v)) :
    saveRound fl markbad name buf size l s = (some (Sum.inr (0, { l' with fullPageFlag := false })),
      v.setInfo name fun a => { a with argValid := true }) := by
  rw [saveRound_start, bind_some hw]
  simp only [Int.lt_irrefl, if_false]
  rw [bind_some hc]
  rfl

/-- A round that appends. -/
lemma saveRound_append (markbad : Act St ℤ) {name : RecName} (buf : Buf) {size : ℕ} {l : SaveLocals}
    {s : St} (hs : Ready s) (hl : l.fullPageFlag = false) (h : Appends fl (s.info name) size) :
    ∃ l' t, saveRound fl markbad name buf size l s = (some (Sum.inr (0, l')), t) ∧
      l'.fullPageFlag = false ∧ l'.blkAddr = (s.info name).validBlkAddr ∧
      t.kept = (s.appended fl name buf size).kept := by
  let u : St := { s.stamped name with opsPara := {} }
  have hu : u.kept = (s.stamped name).kept := rfl
  have hui : u.info name = stampInfo (s.info name) := setInfo_info_self s name stampInfo
  have hua : Appends fl (u.info name) size := by
    rw [hui]
    exact h
  obtain ⟨v, hv, hvk, -⟩ := saveAttempts_wrote (nextTag s name) buf
    ((hs.setInfo name stampInfo).of_kept hu) (chooseBlock_append markbad l hua)
  have hvi : v.info name = u.info name := congrFun ((kept_info hvk).trans rfl) name
  have hbase : appendBase fl (u.info name) size l.fullPageFlag =
      (s.info name).validPageAddr + copyStep fl size := by
    rw [appendBase, hl, if_pos ⟨hua.1, by simp, by simp [hua.2.1]⟩, hui, copyStep, Nat.add_assoc]
    rfl
  have hblk : (u.info name).validBlkAddr = (s.info name).validBlkAddr := by
    rw [hui]
    rfl
  have hvk' : v.kept = ((s.exec fl (appendOps fl s name buf size)).setInfo name stampInfo).kept := by
    rw [hvk, hua.2.2.1]
    simp only [hbase, hblk]
    exact exec_congr hu _
  have hva : Appends fl (v.info name) size := by
    rw [hvi]
    exact hua
  have hcommit := commitCopy_append markbad (l := { l with blkAddr := (u.info name).validBlkAddr }) hl
    (by rw [hvi]) hva
  refine ⟨_, _, saveRound_wrote hv hcommit, rfl, hblk, ?_⟩
  rw [setInfo_setInfo]
  refine (setInfo_congr hvk' _ _).trans ?_
  rw [setInfo_setInfo]
  refine congrArg St.kept (setInfo_ext _ name ?_)
  have hval : (s.info name).argValid = true := h.1
  change _ = appendInfo fl size (s.info name)
  simp only [Function.comp_apply, stampInfo, appendInfo, St.exec, hval]

/-- A record that moves is written from the first page of the block on. -/
lemma writeOps_moveLocals {tag : Tag} {buf : Buf} {size b : ℕ} (a : ArgInfo) (l : SaveLocals) :
    writeOps fl a.argType tag buf size b
        (appendBase fl (stampInfo a) size (moveLocals (stampInfo a) l b).fullPageFlag) =
      writeOps fl a.argType tag buf size b 0 := by
  cases hty : a.argType with
  | fullBlk => rfl
  | fullPage =>
    have hbase : appendBase fl (stampInfo a) size (moveLocals (stampInfo a) l b).fullPageFlag = 0 := by
      refine if_neg ?_
      rintro ⟨h1, h2, h3⟩
      apply h2
      have h3' : (stampInfo a).updateFlag = false := by simpa using h3
      have hty' : (stampInfo a).argType = .fullPage := hty
      simp [moveLocals, h1, h3', hty']
    rw [hbase]

/-- A round that cannot append: the record moves to a fresh block, or there is none. -/
lemma saveRound_move (markbad : Act St ℤ) {name : RecName} (buf : Buf) {size n : ℕ} {l : SaveLocals}
    {s : St} (hs : Ready s) (hn : ReserveEnd fl s.blkStatus n) (hfuel : n < fl.startBlk + scanFuel)
    (hl : l.fullPageFlag = false) (h : ¬Appends fl (s.info name) size) :
    (∃ l' t b, saveRound fl markbad name buf size l s = (some (Sum.inr (0, l')), t) ∧
      l'.fullPageFlag = false ∧ l'.blkAddr = b ∧
      Candidate fl s.blkStatus s.reservedBlk l.blkAddr b ∧
      (∀ b' < b, ¬Candidate fl s.blkStatus s.reservedBlk l.blkAddr b') ∧
      t.kept = (s.moved fl name buf size b).kept) ∨
    ∃ t, saveRound fl markbad name buf size l s = (some (Sum.inl (-nandBadBlcokFailure)), t) ∧
      (∀ b, ¬Candidate fl s.blkStatus s.reservedBlk l.blkAddr b) ∧
      t.kept = (s.stamped name).kept := by
  let u : St := { s.stamped name with opsPara := {} }
  have hu : u.kept = (s.stamped name).kept := rfl
  have hur : Ready u := (hs.setInfo name stampInfo).of_kept hu
  have hui : u.info name = stampInfo (s.info name) := setInfo_info_self s name stampInfo
  have hua : ¬Appends fl (u.info name) size := by
    rw [hui]
    exact h
  obtain ⟨o, v, hv, hres⟩ := chooseBlock_move markbad l hur hn hfuel hua
  cases o with
  | none =>
    refine Or.inr ⟨v, ?_, hres.1, hres.2.trans hu⟩
    rw [saveRound_start, bind_some (saveAttempts_noBlock hv)]
    rfl
  | some b =>
    obtain ⟨hc, hlow, hvk, hvp⟩ := hres
    have hvi : v.info name = stampInfo (s.info name) := (congrFun ((kept_info hvk).trans rfl) name).trans hui
    obtain ⟨w, hw, hwk, hwp⟩ := saveAttempts_wrote (nextTag s name) buf
      ((hur.exec _).of_kept hvk) hv
    have hwi : w.info name = stampInfo (s.info name) := (congrFun ((kept_info hwk).trans rfl) name).trans hvi
    -- a valid record that does not append moves
    have hmove : (s.info name).argValid = true →
        movedBlock (s.info name) (moveLocals (u.info name) l b).fullPageFlag = true := by
      intro hva
      rw [movedBlock, moveLocals, hui, hl]
      simp only [stampInfo, hva, Bool.true_and, Bool.false_or]
      cases (s.info name).argType <;> cases (s.info name).updateFlag <;> rfl
    obtain ⟨t, ht, htk⟩ := commitCopy_move fl markbad name size
      (s := w) (l := moveLocals (u.info name) l b)
      ((((hur.exec _).of_kept hvk).exec _).of_kept hwk) (by rw [hwi]; exact hmove) (hwp hvp)
    refine Or.inl ⟨_, _, b, saveRound_wrote hw ht, rfl, rfl, hc, hlow, ?_⟩
    have hops : writeOps fl (v.info name).argType (nextTag s name) buf size
        (moveLocals (u.info name) l b).blkAddr
        (appendBase fl (v.info name) size (moveLocals (u.info name) l b).fullPageFlag) =
        writeOps fl (s.info name).argType (nextTag s name) buf size b 0 := by
      rw [hvi, hui]
      exact writeOps_moveLocals _ _
    rw [hops] at hwk
    have hwk' : w.kept = ((s.exec fl ([.erase (fl.resChip b) (fl.resRow b)] ++
        writeOps fl (s.info name).argType (nextTag s name) buf size b 0)).setInfo name stampInfo).kept := by
      refine (hwk.trans (exec_congr (hvk.trans (exec_congr hu _)) _)).trans ?_
      rw [exec_exec]
      rfl
    have hwl : w.reservedBlk = s.reservedBlk := (kept_reservedBlk hwk').trans rfl
    have hleave : leaveOps fl (w.info name) = leaveOps fl (s.info name) := by
      rw [hwi]
      rfl
    have hlist : moveList (w.info name) (moveLocals (u.info name) l b).blkAddr w.reservedBlk =
        moveList (s.info name) b s.reservedBlk := by
      rw [hwi, hwl]
      rfl
    rw [hleave, hlist] at htk
    refine (setInfo_congr htk _ _).trans ?_
    refine (setInfo_congr (setList_congr (setInfo_congr (exec_congr hwk' _) _ _) _) _ _).trans ?_
    have hall : ((s.exec fl (moveOps fl s name buf size b)).setInfo name stampInfo).setInfo name
        ((fun a => { a with argValid := true }) ∘ settleInfo (moveLocals (u.info name) l b).blkAddr) =
        (s.exec fl (moveOps fl s name buf size b)).setInfo name (moveInfo b) := by
      rw [setInfo_setInfo]
      rfl
    have hsplit : s.exec fl (moveOps fl s name buf size b) =
        (s.exec fl ([.erase (fl.resChip b) (fl.resRow b)] ++
          writeOps fl (s.info name).argType (nextTag s name) buf size b 0)).exec fl
          (leaveOps fl (s.info name)) := by
      rw [exec_exec]
      rfl
    have hcomm := congrArg (fun x : St => (x.setList (moveList (s.info name) b s.reservedBlk)).kept) hall
    refine Eq.trans ?_ hcomm
    rw [← setInfo_setInfo, hsplit]
    rfl

/-- **One round of a save** on chips that report no failure. -/
lemma saveRound_run (fl : Flash) (markbad : Act St ℤ) (name : RecName) (buf : Buf) (size : ℕ) {n : ℕ}
    {l : SaveLocals} {s : St} (hs : Ready s) (hn : ReserveEnd fl s.blkStatus n)
    (hfuel : n < fl.startBlk + scanFuel) (hl : l.fullPageFlag = false) :
    ∃ r t, saveRound fl markbad name buf size l s = (some r, t) ∧
      Round fl name buf size l.blkAddr s r t := by
  by_cases h : Appends fl (s.info name) size
  · obtain ⟨l', t, ht, hl', hb, hk⟩ := saveRound_append markbad buf hs hl h
    exact ⟨_, t, ht, .append h hl' hb hk⟩
  · rcases saveRound_move markbad buf hs hn hfuel hl h with
      ⟨l', t, b, ht, hl', rfl, hc, hlow, hk⟩ | ⟨t, ht, hc, hk⟩
    · exact ⟨_, t, ht, .move h hl' hc hlow hk⟩
    · exact ⟨_, t, ht, .full h hc hk⟩

/-- A round keeps what it does not work on. -/
lemma Round.keeps {name : RecName} {buf : Buf} {size excl : ℕ} {s t : St} {r : ℤ ⊕ ℤ × SaveLocals}
    (h : Round fl name buf size excl s r t) :
    t.blkStatus = s.blkStatus ∧ t.state = s.state ∧ t.allowMeta = s.allowMeta ∧
      (Ready s → Ready t) ∧ (t.info name).argType = (s.info name).argType := by
  have key : ∀ c : St, t.kept = c.kept → c.blkStatus = s.blkStatus → c.state = s.state →
      c.allowMeta = s.allowMeta → (Ready s → Ready c) →
      (c.info name).argType = (s.info name).argType →
      t.blkStatus = s.blkStatus ∧ t.state = s.state ∧ t.allowMeta = s.allowMeta ∧
        (Ready s → Ready t) ∧ (t.info name).argType = (s.info name).argType := by
    intro c hc h1 h2 h3 h4 h5
    refine ⟨(kept_blkStatus hc).trans h1, (kept_state hc).trans h2, (kept_allowMeta hc).trans h3,
      fun hs => (h4 hs).of_kept hc, ?_⟩
    rw [kept_info hc, h5]
  cases h with
  | append _ _ _ ht =>
    refine key _ ht rfl rfl rfl (fun hs => ⟨hs.calm, hs.lock⟩) ?_
    rw [appended_info_self]
    rfl
  | move _ _ _ _ ht =>
    refine key _ ht rfl rfl rfl (fun hs => ⟨hs.calm, hs.lock⟩) ?_
    rw [moved_info_self]
    rfl
  | full _ _ ht =>
    refine key _ ht rfl rfl rfl (fun hs => ⟨hs.calm, hs.lock⟩) ?_
    rw [St.stamped, setInfo_info_self]
    rfl

/-- **A save** on chips that report no failure is one or two rounds. -/
lemma amlnandSaveInfoByName_run (fl : Flash) (markbad : Act St ℤ) (name : RecName) (buf : Buf)
    (size : ℕ) {n : ℕ} {s : St} (hs : Ready s) (hn : ReserveEnd fl s.blkStatus n)
    (hfuel : n < fl.startBlk + scanFuel) :
    ∃ ret t, amlnandSaveInfoByName fl markbad name buf size s = (some ret, t) ∧
      Saves fl name buf size s ret t := by
  by_cases hm : s.allowMeta = true
  swap
  · refine ⟨-eROFS, s, ?_, .refused (by simpa using hm)⟩
    rw [amlnandSaveInfoByName, get_bind, if_pos (by simpa using hm), pure_apply]
  obtain ⟨r, u, hu, hr⟩ := saveRound_run fl markbad name buf size (l := {}) hs hn
    hfuel rfl
  rcases r with ret | ⟨ret, l⟩
  · refine ⟨ret, u, ?_, .failed hm hr⟩
    rw [amlnandSaveInfoByName, get_bind, if_neg (by simpa using hm), bind_some hu]
    rfl
  obtain ⟨rfl, hl⟩ : ret = 0 ∧ l.fullPageFlag = false := by cases hr <;> exact ⟨rfl, by assumption⟩
  cases hty : (s.info name).argType with
  | fullBlk =>
    refine ⟨0, u, ?_, .once hm hty hr⟩
    rw [amlnandSaveInfoByName, get_bind, if_neg (by simpa using hm), bind_some hu]
    simp only [hty]
    rfl
  | fullPage =>
    obtain ⟨hb, -, -, hready, -⟩ := hr.keeps
    obtain ⟨r, t, ht, hr'⟩ := saveRound_run fl markbad name buf size (l := l)
      (s := u.setInfo name settled) (n := n) ((hready hs).setInfo name settled)
      (by rw [← hb] at hn; exact hn) hfuel hl
    have hstart' : amlnandSaveInfoByName fl markbad name buf size s =
        (some (Sum.elim id Prod.fst r), t) := by
      rw [amlnandSaveInfoByName, get_bind, if_neg (by simpa using hm), bind_some hu]
      simp only [hty, if_true]
      rw [modifyInfo_bind]
      refine (bind_some ht).trans ?_
      rcases r with ret | ⟨ret, l⟩ <;> rfl
    rcases r with ret | ⟨ret, l'⟩
    · exact ⟨_, t, hstart', .half hm hty hr hr'⟩
    · obtain rfl : ret = 0 := by cases hr' <;> rfl
      exact ⟨_, t, hstart', .twice hm hty hr hr'⟩

end

end Amlnf
