import Amlnf.Dev.Entries
import Amlnf.Phy.Repair

set_option relaxedAutoImplicit false
set_option autoImplicit false

/-!
# The guard of the bad-block table

`amlnf_allow_markbad` is documented to refuse marking blocks bad and rewriting the table. Marking
and changing entries test it; rewriting the record of the table does not, and goes through whenever
records may be saved.

## Main definitions

* `FlashOp.IsTablePage` — a page of the table's record is programmed.
* `TableKept` — the table is as before and its record has not been programmed.
* `Entry.TableSafe`, `RestSafe` — the entries and the bring-ups that do not rewrite the record.
* `loadedRun` — a run from the load of the table on.

## Main results

* `tableKept_of` — what a run of such entries keeps while marking is refused.
* `update_not_tableKept` — an update of the table programs the record all the same.

## Design

The self-test programs its pattern with whatever spare bytes were read last. Such pages are no part
of a record, whatever name they carry.
-/

namespace Amlnf

open Act

/-! ## The property -/

/-- A page of the record of the table is programmed. -/
def FlashOp.IsTablePage : FlashOp → Prop
  | .program _ _ d (some t) => t.name = .nbbt ∧ d ≠ fun _ => 0xa5
  | _ => False

/-- The table is as before and no page of its record has been programmed since. -/
structure TableKept (s t : St) : Prop where
  table : t.blkStatus = s.blkStatus
  pages : ∃ ops, t.log = s.log ++ ops ∧ ∀ op ∈ ops, ¬op.IsTablePage

/-- Nothing has happened. -/
lemma TableKept.refl (s : St) : TableKept s s := ⟨rfl, [], (List.append_nil _).symm, nofun⟩

/-- One after the other. -/
lemma TableKept.trans {s t u : St} (h : TableKept s t) (h' : TableKept t u) : TableKept s u := by
  obtain ⟨ops, hlog, hops⟩ := h.pages
  obtain ⟨ops', hlog', hops'⟩ := h'.pages
  refine ⟨h'.table.trans h.table, ops ++ ops', by rw [hlog', hlog, List.append_assoc], ?_⟩
  intro op hop
  rcases List.mem_append.1 hop with hop | hop
  · exact hops op hop
  · exact hops' op hop

/-- A state with the table and the commands of another. -/
lemma TableKept.of_eq {s t : St} (htable : t.blkStatus = s.blkStatus) (hlog : t.log = s.log) :
    TableKept s t := ⟨htable, [], by rw [hlog, List.append_nil], nofun⟩

/-! ## The relation of the guard -/

/-- While marking is refused, and `readonly` and `allow_meta` are as `C` says, the table is kept.
The three settings stay in any case. -/
structure Freezes (C : Bool → Bool → Prop) (s t : St) : Prop where
  readonly : t.readonly = s.readonly
  allowMeta : t.allowMeta = s.allowMeta
  allowMarkbad : t.allowMarkbad = s.allowMarkbad
  kept : s.allowMarkbad = false → C s.readonly s.allowMeta → TableKept s t

/-- Saves do not reach the chips. -/
def Refused (readonly allowMeta : Bool) : Prop := readonly = true ∨ allowMeta = false

/-- Nothing is asked of the other settings. -/
def Always (_ _ : Bool) : Prop := True

section

variable {fl : Flash} {C : Bool → Bool → Prop}

instance : Std.Refl (Freezes C) := ⟨fun s => ⟨rfl, rfl, rfl, fun _ _ => .refl s⟩⟩

instance : IsTrans St (Freezes C) where
  trans s t u h h' := by
    refine ⟨h'.readonly.trans h.readonly, h'.allowMeta.trans h.allowMeta,
      h'.allowMarkbad.trans h.allowMarkbad, fun hoff hC => (h.kept hoff hC).trans ?_⟩
    refine h'.kept (h.allowMarkbad.trans hoff) ?_
    rw [h.readonly, h.allowMeta]
    exact hC

/-- What may be programmed: anything but the name of the table, and the pattern of the self-test. -/
def NotTable (d : Buf) (o : Option Tag) : Prop :=
  (∀ t, o = some t → t.name ≠ .nbbt) ∨ d = fun _ => 0xa5

/-- A program of anything else writes no page of the table. -/
lemma not_isTablePage_of_mem_programOps {pages : List (ℕ × ℕ)} {d : Buf} {o : Option Tag}
    (h : NotTable d o) {op : FlashOp} (hop : op ∈ programOps fl pages d o) : ¬op.IsTablePage := by
  obtain ⟨x, -, rfl⟩ := List.mem_map.1 hop
  cases o with
  | none => exact id
  | some t =>
    rintro ⟨hname, hd⟩
    rcases h with h | h
    · exact h t rfl hname
    · exact hd (by rw [h])

/-- Nor does an erase. -/
lemma not_isTablePage_of_mem_eraseOps {blocks : List (ℕ × ℕ)} {op : FlashOp}
    (hop : op ∈ eraseOps blocks) : ¬op.IsTablePage := by
  obtain ⟨x, -, rfl⟩ := List.mem_map.1 hop
  exact id

/-- Commands none of which programs the record. -/
lemma freezes_issue {ops : List FlashOp} (hops : ∀ op ∈ ops, ¬op.IsTablePage) (hit : ℕ → ℕ → Bool)
    (r : Outcome → OpResult) (s : St) : Freezes C s (issue fl ops hit r s).2 := by
  refine ⟨?_, ?_, ?_, fun _ _ => ⟨issue_blkStatus ops hit r s, ops, issue_log ops hit r s, hops⟩⟩
  all_goals
    unfold issue
    dsimp only
    cases r (s.plan s.tick) <;> rfl

/-- Bookkeeping keeps the table. -/
lemma freezes_soft {s t : St} (h : t.hard = s.hard) : Freezes C s t := by
  simp only [St.hard, Prod.mk.injEq] at h
  obtain ⟨-, hlog, htable, -, ⟨hro, hmeta, hmark⟩, -⟩ := h
  exact ⟨hro, hmeta, hmark, fun _ _ => .of_eq htable hlog⟩

/-- Programs of anything but the record, erases and the calls of the devices keep the table. -/
lemma freezes_frame (fl : Flash) (C : Bool → Bool → Prop) :
    DevFrame fl (fun _ => True) NotTable (Freezes C) where
  soft h _ _ := freezes_soft h
  write d o h := by
    refine Moves.get_bind fun s => ?_
    by_cases hro : s.readonly = true
    · rw [if_pos hro]
      exact refl_of (Freezes C) s
    · rw [if_neg hro]
      exact freezes_issue (fun op hop => not_isTablePage_of_mem_programOps h hop) _ _ s
  erase := by
    refine Moves.get_bind fun s => ?_
    by_cases hro : s.readonly = true
    · rw [if_pos hro]
      exact refl_of (Freezes C) s
    · rw [if_neg hro]
      exact freezes_issue (fun op hop => not_isTablePage_of_mem_eraseOps hop) _ _ s
  pattern _ := .inr rfl
  untagged _ := .inl nofun
  call s p := ⟨rfl, rfl, rfl, fun _ _ => .of_eq rfl rfl⟩

/-- So does the lock. -/
lemma freezes_ignoresLock (C : Bool → Bool → Prop) : IgnoresLock (Freezes C) :=
  fun _ _ _ _ _ _ => freezes_soft rfl

/-! ## Operations on the table -/

/-- A sequence of steps keeps the table where it is shown to. -/
lemma Steps.freezes {s t : St} (h : Steps fl s t)
    (hkept : s.allowMarkbad = false → C s.readonly s.allowMeta → TableKept s t) :
    Freezes C s t := by
  obtain ⟨-, hro, hmeta, hmark⟩ := h.settings
  exact ⟨hro, hmeta, hmark, hkept⟩

/-- Where marking is refused, marking a block bad keeps the table. -/
lemma freezes_blockMarkbadOp : Moves (Freezes C) (blockMarkbadOp fl) := by
  intro s
  refine (moves_blockMarkbadOp fl s).freezes fun hoff _ => ?_
  rw [blockMarkbadOp_refused hoff]
  exact .refl s

/-- So does setting an entry of it. -/
lemma freezes_blkModifyBbtChipOp (value : UInt16) :
    Moves (Freezes C) (blkModifyBbtChipOp fl value) := by
  refine Moves.get_bind fun s => ?_
  by_cases ha : s.allowMarkbad = true
  · rw [if_neg (by simp [ha])]
    refine ⟨rfl, rfl, rfl, fun hoff => ?_⟩
    rw [ha] at hoff
    cases hoff
  · rw [if_pos (by simpa using ha)]
    exact refl_of (Freezes C) s

/-- Saving a record other than the table. -/
lemma freezes_saveInfo {name : RecName} (hname : name ≠ .nbbt) (buf : Buf) (size : ℕ) :
    Moves (Freezes C) (saveInfo fl name buf size) :=
  (freezes_frame fl C).moves_amlnandSaveInfoByName (freezes_ignoresLock C)
    freezes_blockMarkbadOp trivial (fun ts _ => .inl fun t ht => by
      cases ht
      exact hname) buf size

/-- Saving any record while saves do not reach the chips. -/
lemma freezes_saveInfo_refused (name : RecName) (buf : Buf) (size : ℕ) :
    Moves (Freezes Refused) (saveInfo fl name buf size) := by
  intro s
  have hsteps : Steps fl s (saveInfo fl name buf size s).2 := moves_saveInfo name buf size s
  refine hsteps.freezes fun hoff hC => ?_
  rcases hC with hro | hmeta
  · exact .of_eq (DriverSteps.table_of_refused (V := AnyValue)
      (Relation.ReflTransGen.mono (fun _ _ => .store) _ _ hsteps) hoff)
      (Steps.log_of_readonly hsteps hro)
  · rw [saveInfo_refused name buf size hmeta]
    exact .refl s

/-- Where saves are refused, rewriting the table keeps it. -/
lemma freezes_updateBbt_refused :
    Moves (Freezes Refused) (amlnandUpdateBbt fl (blockMarkbadOp fl)) :=
  .bind .get fun _ => freezes_saveInfo_refused _ _ _

/-! ## Entries and bring-up -/

/-- The entries that leave the record alone in a state: they keep marking refused, and an update or
a save of the table comes only while saves do not reach the chips. A device does not program the
name of the table for its caller, and the table is not loaded anew. -/
def Entry.TableSafe (s : St) : Entry → Prop
  | settings _ _ allowMarkbad => allowMarkbad = false
  | bringUp => False
  | device e _ r => e = .write → ∀ t, r.oobbuf = some t → t.name ≠ .nbbt
  | updateBbt _ _ => Refused s.readonly s.allowMeta
  | save name _ _ => name = .nbbt → Refused s.readonly s.allowMeta
  | _ => True

/-- Step lemma: such an entry keeps the table. -/
lemma Entry.TableSafe.kept {e : Entry} {s : St} (h : e.TableSafe s)
    (hoff : s.allowMarkbad = false) :
    TableKept s (e.act fl s).2 ∧ (e.act fl s).2.allowMarkbad = false := by
  have hduty : ∀ C : Bool → Bool → Prop, C s.readonly s.allowMeta →
      e.Duty fl NotTable (Freezes C) →
      TableKept s (e.act fl s).2 ∧ (e.act fl s).2.allowMarkbad = false := by
    intro C hC hd
    have hact := (freezes_frame fl C).moves_act (freezes_ignoresLock C) hd s
    exact ⟨hact.kept hoff hC, hact.allowMarkbad.trans hoff⟩
  cases e with
  | settings a b c => exact ⟨.of_eq rfl rfl, h⟩
  | bringUp => exact h.elim
  | device e dev r =>
    exact hduty Always trivial ⟨fun he d => .inl (h he), fun _ => freezes_blockMarkbadOp⟩
  | modifybbt dev r value => exact hduty Always trivial (freezes_blkModifyBbtChipOp value)
  | updateBbt dev r => exact hduty Refused h freezes_updateBbt_refused
  | save name buf size =>
    by_cases hname : name = .nbbt
    · exact hduty Refused (h hname) (freezes_saveInfo_refused name buf size)
    · exact hduty Always trivial (freezes_saveInfo hname buf size)
  | envWrite mem pos count data =>
    exact hduty Always trivial fun buf => freezes_saveInfo (by decide) buf configEnvSize
  | _ => exact hduty Always trivial trivial

/-- At most six blocks of the reserved area are used bad. -/
def FewUsedBad (fl : Flash) (tbl : BlkStatus) : Prop :=
  ∀ n, ReserveEnd fl tbl n → n < fl.startBlk + scanFuel → (usedBadIn fl tbl n).length ≤ 6

/-- The states in which the rest of bring-up leaves the record alone: saves do not reach the chips,
or all copies of the table could be read and there is nothing to repair. -/
def RestSafe (fl : Flash) (s : St) : Prop :=
  Refused s.readonly s.allowMeta ∨
    ((s.info .nbbt).updateFlag = false ∧ FewUsedBad fl s.blkStatus)

/-- Finding the other records changes neither the chips nor the table nor what is known of the
record of the table. -/
def Finds (s t : St) : Prop := t.hard = s.hard ∧ t.info .nbbt = s.info .nbbt

instance : Std.Refl Finds := ⟨fun _ => ⟨rfl, rfl⟩⟩

instance : IsTrans St Finds := ⟨fun _ _ _ h h' => ⟨h'.1.trans h.1, h'.2.trans h.2⟩⟩

/-- Bookkeeping on other records leaves what was found of the table. -/
lemma finds_frame : Frame (fun n => n ≠ .nbbt) Finds where
  soft h _ hi := ⟨h, hi .nbbt (by simp)⟩

/-- So does the lock. -/
lemma finds_ignoresLock : IgnoresLock Finds := fun _ _ _ _ _ _ => ⟨rfl, rfl⟩

/-- The rest of bring-up keeps the table. -/
lemma RestSafe.kept {s : St} (h : RestSafe fl s) (hoff : s.allowMarkbad = false) :
    TableKept s (bringUpRest fl s).2 ∧ (bringUpRest fl s).2.allowMarkbad = false := by
  rcases h with hC | ⟨hclean, hfew⟩
  · have hrest : Moves (Freezes Refused) (bringUpRest fl) :=
      (freezes_frame fl Refused).moves_bringUpRest (fun v _ => freezes_blkModifyBbtChipOp v)
        (freezes_ignoresLock Refused) freezes_updateBbt_refused trivial trivial trivial trivial
        fun _ => freezes_saveInfo (by decide) _ _
    exact ⟨(hrest s).kept hoff hC, (hrest s).allowMarkbad.trans hoff⟩
  · -- the other records are found, the configuration may be saved, and there is nothing to repair
    let J : St → Prop := fun u => TableKept s u ∧ u.allowMarkbad = false
    have hJ : ∀ u, Finds s u → J u := by
      intro u hu
      have hfrozen : Freezes Always s u := freezes_soft hu.1
      exact ⟨hfrozen.kept hoff trivial, hfrozen.allowMarkbad.trans hoff⟩
    have hfinds : ∀ {x : Act St ℤ}, Moves Finds x → Spec (Finds s) x (fun _ => Finds s) J := by
      intro x hx
      have hkeep : Keeps (Finds s) x := .of_moves hx fun u v huv hu => trans_of Finds hu huv
      exact hkeep.mono (fun _ hu => hu) (fun _ _ hu => hu) hJ
    have herror : Spec (Finds s) (amlnandInfoErrorHandle fl) (fun _ => J) J := by
      refine .of_final fun u hu => ?_
      have hfrozen : Freezes Always u (amlnandInfoErrorHandle fl u).2 :=
        (freezes_frame fl Always).errorHandle_clean (freezes_ignoresLock Always) trivial
          (fun _ => freezes_saveInfo (by decide) _ _) (by rw [hu.2]; exact hclean)
      exact ⟨(hJ u hu).1.trans (hfrozen.kept (hJ u hu).2 trivial),
        hfrozen.allowMarkbad.trans (hJ u hu).2⟩
    have hrepair : Spec J (repairReservedBadBlock fl) (fun _ => J) J := by
      refine .of_final fun u hu => ?_
      have hu' : FewUsedBad fl u.blkStatus := by
        rw [hu.1.table]
        exact hfew
      obtain ⟨p, hp⟩ := repair_idle hu'
      rw [hp]
      exact ⟨hu.1.trans (.of_eq rfl rfl), hu.2⟩
    have hrest : Spec (Finds s) (bringUpRest fl) (fun _ => J) J := by
      refine Spec.bind (M := fun _ => Finds s) (fun u hu => hu) fun u => ?_
      refine .ite (fun _ => .pure fun u hu => hJ u hu) fun _ => ?_
      refine .bind (hfinds
        (finds_frame.moves_loadConfig finds_ignoresLock (by simp) (by simp))) fun ret => ?_
      refine .ite (fun _ => .pure fun u hu => hJ u hu) fun _ => ?_
      refine .bind (hfinds
        (finds_frame.moves_amlSysInfoInit finds_ignoresLock (by simp))) fun ret => ?_
      refine .ite (fun _ => .pure fun u hu => hJ u hu) fun _ => ?_
      exact .bind herror fun _ => .bind hrepair fun _ => .pure fun _ hu => hu
    exact hrest.final (refl_of Finds s)

/-! ## Runs from the load of the table on -/

/-- Every step of a run is safe in the state it is taken in. -/
def SafeRun (fl : Flash) : List Entry → St → Prop
  | [], _ => True
  | e :: es, s => e.TableSafe s ∧ ∀ t, e.act fl s = (some (), t) → SafeRun fl es t

/-- Run lemma: a run of safe steps keeps the table. -/
lemma SafeRun.kept {es : List Entry} {s : St} (h : SafeRun fl es s)
    (hoff : s.allowMarkbad = false) : TableKept s (runEntries fl es s) := by
  induction es generalizing s with
  | nil => exact .refl s
  | cons e es ih =>
    obtain ⟨he, hes⟩ := h
    have hkept : TableKept s (e.act fl s).2 ∧ (e.act fl s).2.allowMarkbad = false := he.kept hoff
    rw [runEntries]
    split
    · next hact =>
      rw [hact] at hkept
      exact hkept.1.trans (ih (hes _ hact) hkept.2)
    · next hact =>
      rw [hact] at hkept
      exact hkept.1

end

/-- A run from the load of the table on: the rest of bring-up, then entries if it succeeded. -/
def loadedRun (fl : Flash) (es : List Entry) (s : St) : St :=
  match bringUpRest fl s with
  | (some ret, t) => if ret < 0 then t else runEntries fl es t
  | (none, t) => t

/-- Every step of a run from the load of the table on is safe. -/
def SafeLoadedRun (fl : Flash) (es : List Entry) (s : St) : Prop :=
  RestSafe fl s ∧ ∀ ret t, bringUpRest fl s = (some ret, t) → 0 ≤ ret → SafeRun fl es t

/-- **What `amlnf_allow_markbad` protects.** In a run of safe steps from the load of the table on,
for any chips and outcomes, while marking is refused: no entry of the table changes and no page of
its record is programmed. -/
theorem tableKept_of (fl : Flash) (es : List Entry) (s : St) (hoff : s.allowMarkbad = false)
    (h : SafeLoadedRun fl es s) : TableKept s (loadedRun fl es s) := by
  obtain ⟨hrest, hrun⟩ := h
  have hkept := hrest.kept hoff
  rw [loadedRun]
  split
  · next ret t hx =>
    rw [hx] at hkept
    split
    · exact hkept.1
    · next hret => exact hkept.1.trans ((hrun ret t hx (not_lt.1 hret)).kept hkept.2)
  · next t hx =>
    rw [hx] at hkept
    exact hkept.1

/-- A fresh table, marking being refused: the environment is saved and read, and the table is saved
once writing is off. -/
theorem tableKept_fresh : TableKept { St.blank with allowMarkbad := false }
    (loadedRun .oneChip [.save .nenv (fun _ => 0) 64, .envRead {} 0 16, .settings true true false,
      .save .nbbt (blockStatusBuf St.blank.blkStatus) blockStatusSize]
      { St.blank with allowMarkbad := false }) := by
  have hfew : FewUsedBad .oneChip St.blank.blkStatus := by
    intro n _ _
    have hnil : usedBadIn .oneChip St.blank.blkStatus n = [] := by
      simp [usedBadIn, resStatus, St.blank, blockUsedBad]
    simp [hnil]
  refine tableKept_of .oneChip _ _ rfl ⟨.inr ⟨rfl, hfew⟩, fun ret t _ _ => ?_⟩
  refine ⟨(fun h => by cases h), fun t1 _ => ⟨trivial, fun t2 _ => ⟨rfl, fun t3 h3 => ⟨fun _ => .inl ?_, ?_⟩⟩⟩⟩
  · cases h3
    rfl
  · exact fun _ _ => trivial

/-- A sufficient test for a page of the record. -/
def FlashOp.showsTable : FlashOp → Bool
  | .program _ _ d (some t) => t.name = .nbbt && d 4 != 0xa5
  | _ => false

/-- The computed test names pages of the table only. -/
lemma FlashOp.isTablePage_of_showsTable {op : FlashOp} (h : op.showsTable = true) :
    op.IsTablePage := by
  match op, h with
  | .program c p d (some t), h =>
    simp only [showsTable, Bool.and_eq_true, decide_eq_true_eq, bne_iff_ne] at h
    refine ⟨h.1, fun hd => h.2 ?_⟩
    rw [hd]

/-- The table loaded from block 5, a copy of it unreadable, and marking refused. From the second
page on the chips report that programming fails. -/
def staleTable : St :=
  { St.blank with
    allowMarkbad := false
    info := fun n => { argType := argTypeOf n, argValid := n = .nbbt, validBlkAddr := 5,
                       updateFlag := n = .nbbt }
    plan := fun k => if k < 196 then Outcome.fine else
      { Outcome.fine with prog := .failed 0 fun _ _ => .erased } }

/-- Bring-up rewrites the record of the table although marking is refused. -/
theorem update_not_tableKept :
    staleTable.allowMarkbad = false ∧ ¬TableKept staleTable (loadedRun .oneChip [] staleTable) := by
  refine ⟨rfl, fun h => ?_⟩
  obtain ⟨ops, hlog, hops⟩ := h.pages
  have hany : (loadedRun .oneChip [] staleTable).log.any FlashOp.showsTable = true := by
    decide +kernel
  rw [hlog, show staleTable.log = [] from rfl, List.nil_append] at hany
  obtain ⟨op, hop, hshows⟩ := List.any_eq_true.1 hany
  exact hops op hop (FlashOp.isTablePage_of_showsTable hshows)

end Amlnf
