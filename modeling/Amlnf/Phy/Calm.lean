import Amlnf.Phy.Chipenv

set_option relaxedAutoImplicit false
set_option autoImplicit false

/-!
# Runs in which the chip reports no failure

While every chip operation succeeds and writing is allowed, the record store never takes its
failure paths: no block is tested, none is marked bad, and the bad-block table stays as it
is, however deep the calls nest.

## Main definitions

* `St.Calm` — the plan holds no failure and `amlnf_readonly` is off.
* `CalmAt` — calm, with a given bad-block table.

## Main results

* `eraseBlock_calm`, `writePage_calm` — the two writing operations return `0`.
* `amlnandSaveInfoByName_calm`, `amlnandUpdateBbt_calm` — a save keeps the table.
-/

namespace Amlnf

open Act

/-- No step fails and writing is allowed. -/
def St.Calm (s : St) : Prop := (∀ k, (s.plan k).Fine) ∧ s.readonly = false

/-- Calm, with bad-block table `tbl`. -/
def CalmAt (tbl : BlkStatus) (s : St) : Prop := s.Calm ∧ s.blkStatus = tbl

/-- `x` stays calm and keeps the table. -/
def KeepsCalm {α : Type} (tbl : BlkStatus) (x : Act St α) : Prop :=
  Spec (CalmAt tbl) x (fun _ => CalmAt tbl) (CalmAt tbl)

section

variable {α β : Type} {tbl : BlkStatus} {fl : Flash}

/-- Returning a value. -/
lemma KeepsCalm.pure (a : α) : KeepsCalm tbl (Pure.pure a : Act St α) := Spec.pure fun _ hs => hs

/-- Not returning. -/
lemma KeepsCalm.hang : KeepsCalm tbl (Act.hang : Act St α) := Spec.hang fun _ hs => hs

/-- Reading the state. -/
lemma KeepsCalm.get : KeepsCalm tbl (Act.get : Act St St) := fun _ hs => hs

/-- Sequencing. -/
lemma KeepsCalm.bind {x : Act St α} {f : α → Act St β} (hx : KeepsCalm tbl x)
    (hf : ∀ a, KeepsCalm tbl (f a)) : KeepsCalm tbl (x >>= f) := Spec.bind hx hf

/-- Changing the state. -/
lemma KeepsCalm.modify {f : St → St} (h : ∀ s, CalmAt tbl s → CalmAt tbl (f s)) :
    KeepsCalm tbl (Act.modify f) := Spec.modify h

/-- Both branches. -/
lemma KeepsCalm.ite {c : Prop} [Decidable c] {x y : Act St α} (hx : KeepsCalm tbl x)
    (hy : KeepsCalm tbl y) : KeepsCalm tbl (if c then x else y) :=
  Spec.ite (fun _ => hx) fun _ => hy

/-- A branch that may be skipped. -/
lemma KeepsCalm.when {c : Prop} [Decidable c] {x : Act St Unit} (hx : KeepsCalm tbl x) :
    KeepsCalm tbl (Act.when c x) := .ite hx (.pure _)

/-- A bounded loop, from its body. -/
lemma KeepsCalm.loop {body : β → Act St (β ⊕ α)} (h : ∀ b, KeepsCalm tbl (body b)) (n : ℕ)
    (b : β) : KeepsCalm tbl (Act.loop body n b) := by
  refine Spec.mono (Spec.loop (I := fun _ => CalmAt tbl) (Q := fun _ => CalmAt tbl)
    (E := CalmAt tbl) (fun b => ?_) n b) (fun _ hs => hs) ?_ (fun _ hs => hs)
  · exact Spec.mono (h b) (fun _ hs => hs) (fun r _ hs => by cases r <;> exact hs)
      (fun _ hs => hs)
  · intro r s hs
    cases r <;> exact hs

/-- A loop that only its body leaves. -/
lemma KeepsCalm.loopUntil {body : β → Act St (β ⊕ α)} (h : ∀ b, KeepsCalm tbl (body b)) (n : ℕ)
    (b : β) : KeepsCalm tbl (Act.loopUntil body n b) := by
  refine KeepsCalm.bind (.loop h n b) fun r => ?_
  cases r with
  | inl _ => exact .hang
  | inr _ => exact .pure _

/-- Taking the chips stays calm, also where it never returns. -/
lemma keepsCalm_nandGetChip : KeepsCalm tbl nandGetChip := by
  have hheld : KeepsCalm tbl lockHeld := .bind (.modify fun _ hs => hs) fun _ => .hang
  refine .bind .get fun s => .ite hheld (.bind (.modify fun _ hs => hs) fun _ => ?_)
  exact .bind (fun _ hs => hs) fun o => .ite (.pure _) hheld

/-- Releasing the chips stays calm. -/
lemma keepsCalm_nandReleaseChip : KeepsCalm tbl nandReleaseChip :=
  .bind .get fun _ => .ite (.modify fun _ hs => hs) (.pure _)

/-- The chip bracket adds nothing but the lock to what the operation guarantees. -/
lemma withChip_calm {x : Act St α} {Q : α → Prop}
    (hx : Spec (CalmAt tbl) x (fun a s => Q a ∧ CalmAt tbl s) (CalmAt tbl)) :
    Spec (CalmAt tbl) (withChip x) (fun a s => Q a ∧ CalmAt tbl s) (CalmAt tbl) := by
  refine Spec.bind (M := fun _ => CalmAt tbl) KeepsCalm.get fun s => ?_
  refine Spec.bind (M := fun _ => CalmAt tbl)
    (KeepsCalm.when keepsCalm_nandGetChip) fun _ => ?_
  refine Spec.bind hx fun a => ?_
  refine Spec.bind (M := fun _ t => Q a ∧ CalmAt tbl t) (fun _ hs => hs) fun t => ?_
  refine Spec.and_left fun hQ => ?_
  refine Spec.bind (M := fun _ => CalmAt tbl) (KeepsCalm.when keepsCalm_nandReleaseChip)
    fun _ => Spec.pure fun _ hs => ⟨hQ, hs⟩

/-- A calm command is carried out and returns `0`. -/
lemma issue_calm (fl : Flash) (ops : List FlashOp) (hit : ℕ → ℕ → Bool) (r : Outcome → OpResult)
    (hr : ∀ o : Outcome, o.Fine → r o = .done) :
    Spec (CalmAt tbl) (issue fl ops hit r) (fun ret s => ret = 0 ∧ CalmAt tbl s) (CalmAt tbl) := by
  intro s hs
  have h := hr _ (hs.1.1 s.tick)
  simp only [issue, h, true_and]
  exact hs

/-- A calm program operation on a buffer returns `0`. -/
lemma writePage_calm (fl : Flash) (d : Buf) (oob : Option Tag) :
    Spec (CalmAt tbl) (writePage fl (some d) oob) (fun ret s => ret = 0 ∧ CalmAt tbl s)
      (CalmAt tbl) := by
  refine Spec.get_bind fun s hs => ?_
  rw [if_neg (by simp [hs.1.2])]
  exact Spec.mono (issue_calm fl _ _ _ fun o ho => ho.1) (by rintro t rfl; exact hs)
    (fun _ _ h => h) fun _ h => h

/-- A calm erase returns `0`. -/
lemma eraseBlock_calm (fl : Flash) :
    Spec (CalmAt tbl) (eraseBlock fl) (fun ret s => ret = 0 ∧ CalmAt tbl s) (CalmAt tbl) := by
  refine Spec.get_bind fun s hs => ?_
  rw [if_neg (by simp [hs.1.2])]
  exact Spec.mono (issue_calm fl _ _ _ fun o ho => ho.2.1) (by rintro t rfl; exact hs)
    (fun _ _ h => h) fun _ h => h

/-- Looking a block up stays calm. -/
lemma keepsCalm_lookBlock (b : ℕ) : KeepsCalm tbl (lookBlock fl b) :=
  .bind (.modify fun _ hs => hs) fun _ => .bind .get fun _ => .pure _

/-- Counting the reserved blocks stays calm. -/
lemma keepsCalm_getLastReserveBlock : KeepsCalm tbl (getLastReserveBlock fl) := by
  refine .bind (.modify fun _ hs => hs) fun _ => .loopUntil (fun v => ?_) _ _
  exact .ite (.bind (keepsCalm_lookBlock _) fun _ => .ite (.pure _) (.pure _)) (.pure _)

/-- The search for a free block marks nothing bad in a calm run. -/
lemma keepsCalm_amlnandGetFreeBlock (markbad : Act St ℤ) (block : ℕ) :
    KeepsCalm tbl (amlnandGetFreeBlock fl markbad block) := by
  refine .bind (.modify fun _ hs => hs) fun _ => .bind keepsCalm_getLastReserveBlock fun n => ?_
  refine .loopUntil (fun b => ?_) _ _
  refine .ite (.bind .get fun s => .ite (.pure _) (.ite (.pure _) ?_)) (.pure _)
  refine .bind (keepsCalm_lookBlock _) fun ret => .ite (.pure _) ?_
  refine Spec.bind (withChip_calm (eraseBlock_calm fl)) fun ret => ?_
  -- the erase returned 0, so the branch that marks the block bad is not taken
  refine Spec.and_left fun hret => ?_
  rw [if_neg (by omega)]
  exact KeepsCalm.pure _

/-- Changing an `arg_info` stays calm. -/
lemma keepsCalm_modifyInfo (name : RecName) (f : ArgInfo → ArgInfo) :
    KeepsCalm tbl (modifyInfo name f) := .modify fun _ hs => hs

/-- Forgetting the name tag stays calm. -/
lemma keepsCalm_clearOob : KeepsCalm tbl clearOob := .modify fun _ hs => hs

/-- A calm write of a record page returns `0`. -/
lemma writeRecPage_calm (tag : Tag) (blk i : ℕ) (d : Buf) :
    Spec (CalmAt tbl) (writeRecPage fl tag blk i d) (fun ret s => ret = 0 ∧ CalmAt tbl s)
      (CalmAt tbl) :=
  Spec.bind (M := fun _ => CalmAt tbl) (Spec.modify fun _ hs => hs) fun _ =>
    Spec.bind (M := fun _ => CalmAt tbl) (Spec.modify fun _ hs => hs) fun _ =>
      withChip_calm (writePage_calm fl d _)

/-- A calm write of the paired page returns `0`. -/
lemma writePaired_calm :
    Spec (CalmAt tbl) (writePaired fl) (fun ret s => ret = 0 ∧ CalmAt tbl s) (CalmAt tbl) := by
  refine Spec.bind (M := fun _ => CalmAt tbl) KeepsCalm.get fun s => ?_
  refine Spec.bind (M := fun _ => CalmAt tbl) (Spec.modify fun _ hs => hs) fun _ => ?_
  refine Spec.bind (M := fun _ => CalmAt tbl) keepsCalm_clearOob fun _ => ?_
  refine Spec.bind (withChip_calm (writePage_calm fl _ _)) fun ret => ?_
  exact Spec.bind (M := fun _ s => ret = 0 ∧ CalmAt tbl s) (Spec.modify fun _ hs => hs) fun _ =>
    Spec.pure fun _ hs => hs

/-- A calm write of a dummy page returns `0`. -/
lemma writeDummy_calm (blk i : ℕ) :
    Spec (CalmAt tbl) (writeDummy fl blk i) (fun ret s => ret = 0 ∧ CalmAt tbl s)
      (CalmAt tbl) := by
  refine Spec.bind (M := fun _ => CalmAt tbl) (Spec.modify fun _ hs => hs) fun _ => ?_
  refine Spec.bind (M := fun _ => CalmAt tbl) keepsCalm_clearOob fun _ => ?_
  refine Spec.bind (withChip_calm (writePage_calm fl _ _)) fun _ => ?_
  exact Spec.mono writePaired_calm (fun _ hs => hs.2) (fun _ _ h => h) fun _ h => h

/-- A calm copy is written to its end. -/
lemma writeCopy_calm (tag : Tag) (buf : Buf) (size blk base : ℕ) :
    Spec (CalmAt tbl) (writeCopy fl tag buf size blk base)
      (fun r s => r = some 0 ∧ CalmAt tbl s) (CalmAt tbl) := by
  refine Spec.bind (M := fun r s => (∃ v : ℕ × ℤ, v.2 = 0 ∧ r = Sum.inl v) ∧ CalmAt tbl s)
    ?_ fun r => ?_
  · refine Spec.mono (Spec.loop (I := fun v s => v.2 = 0 ∧ CalmAt tbl s)
      (Q := fun (_ : Unit) _ => False) (fun v => ?_) _ _) (fun s hs => ⟨rfl, hs⟩) ?_
      fun _ h => h
    · refine Spec.bind (M := fun ret s => ret = 0 ∧ CalmAt tbl s)
        (Spec.mono (writeRecPage_calm tag blk _ _) (fun _ hs => hs.2) (fun _ _ h => h)
          fun _ h => h) fun ret => Spec.and_left fun hret => ?_
      rw [if_neg (by omega)]
      refine Spec.ite (fun _ => Spec.bind writePaired_calm fun ret => ?_) fun _ => ?_
      · exact Spec.pure fun _ h => h
      · exact Spec.pure fun _ h => ⟨hret, h⟩
    · intro r s hs
      cases r with
      | inl v => exact ⟨⟨v, hs.1, rfl⟩, hs.2⟩
      | inr a => exact hs.elim
  · refine Spec.and_left ?_
    rintro ⟨v, hv, rfl⟩
    exact Spec.pure fun _ hs => ⟨by rw [hv], hs⟩

/-- A calm `FULL_BLK` fill is written to its end. -/
lemma writeFullBlk_calm (tag : Tag) (buf : Buf) (size blk : ℕ) :
    Spec (CalmAt tbl) (writeFullBlk fl tag buf size blk)
      (fun r s => r = some 0 ∧ CalmAt tbl s) (CalmAt tbl) := by
  refine Spec.mono (Spec.loopUntil (I := fun v s => v.2 = 0 ∧ CalmAt tbl s) (fun v => ?_)
    (fun _ _ h => h.2) _ (0, 0)) (fun s hs => ⟨rfl, hs⟩) (fun _ _ h => h) fun _ h => h
  refine Spec.ite (fun _ => Spec.ite (fun _ => Spec.ite (fun _ => ?_) fun _ => ?_)
    fun _ => ?_) fun _ => ?_
  · refine Spec.bind (Spec.mono (writeDummy_calm blk _) (fun _ hs => hs.2) (fun _ _ h => h)
      fun _ h => h) fun ret => ?_
    exact Spec.pure fun s hs => ⟨by rw [hs.1], hs.2⟩
  · exact Spec.pure fun s hs => ⟨by rw [hs.1], hs.2⟩
  · refine Spec.bind (Spec.mono (writeCopy_calm tag buf size blk _) (fun _ hs => hs.2)
      (fun _ _ h => h) fun _ h => h) fun r => Spec.and_left ?_
    rintro rfl
    exact Spec.pure fun _ hs => ⟨rfl, hs⟩
  · exact Spec.pure fun s hs => ⟨by rw [hs.1], hs.2⟩

/-- A calm copy of a `FULL_PAGE` record is written to its end. -/
lemma writeFullPage_calm (tag : Tag) (buf : Buf) (size blk base : ℕ) :
    Spec (CalmAt tbl) (writeFullPage fl tag buf size blk base)
      (fun r s => r = some 0 ∧ CalmAt tbl s) (CalmAt tbl) := by
  refine Spec.bind (writeCopy_calm tag buf size blk base) fun r => Spec.and_left ?_
  rintro rfl
  refine Spec.ite (fun _ => Spec.bind (writeDummy_calm blk _) fun ret => ?_)
    fun _ => Spec.pure fun s hs => ⟨rfl, hs⟩
  exact Spec.pure fun s hs => ⟨by rw [hs.1], hs.2⟩

/-- A calm write of a record comes to its end. -/
lemma writeRecord_calm (name : RecName) (tag : Tag) (buf : Buf) (size : ℕ) (l : SaveLocals) :
    Spec (CalmAt tbl) (writeRecord fl name tag buf size l)
      (fun r s => r = some 0 ∧ CalmAt tbl s) (CalmAt tbl) := by
  refine Spec.bind (M := fun _ => CalmAt tbl) KeepsCalm.get fun s => ?_
  cases (s.info name).argType with
  | fullBlk => exact writeFullBlk_calm _ _ _ _
  | fullPage => exact writeFullPage_calm _ _ _ _ _

/-- Choosing a block stays calm. -/
lemma keepsCalm_chooseBlock (markbad : Act St ℤ) (name : RecName) (size : ℕ) (l : SaveLocals) :
    KeepsCalm tbl (chooseBlock fl markbad name size l) := by
  refine .bind .get fun s => .ite (.ite ?_ (.pure _)) ?_
  all_goals
    refine .bind (keepsCalm_amlnandGetFreeBlock _ _) fun r => ?_
    cases r <;> exact .pure _

/-- The first attempt of a calm save succeeds, or there is no block. -/
lemma saveAttempts_calm (markbad : Act St ℤ) (name : RecName) (tag : Tag) (buf : Buf)
    (size : ℕ) (l : SaveLocals) :
    Spec (CalmAt tbl) (saveAttempts fl markbad name tag buf size l)
      (fun _ => CalmAt tbl) (CalmAt tbl) := by
  refine KeepsCalm.loopUntil (fun l => ?_) _ _
  refine .bind (keepsCalm_chooseBlock _ _ _ _) fun r => ?_
  cases r with
  | none => exact .pure _
  | some l =>
    refine Spec.bind (writeRecord_calm name tag buf size l) fun r => Spec.and_left ?_
    rintro rfl
    exact KeepsCalm.pure _

/-- Entering a copy stays calm: the erase of the old block does not fail. -/
lemma keepsCalm_commitCopy (markbad : Act St ℤ) (name : RecName) (size : ℕ) (ret : ℤ)
    (l : SaveLocals) : KeepsCalm tbl (commitCopy fl markbad name size ret l) := by
  refine .bind .get fun s => .bind (.when (.modify fun _ hs => hs)) fun _ => ?_
  refine .bind (keepsCalm_modifyInfo _ _) fun _ => .ite ?_ (.pure _)
  refine .bind ?_ fun r => ?_
  · refine .bind (.modify fun _ hs => hs) fun _ => ?_
    refine Spec.bind (withChip_calm (eraseBlock_calm fl)) fun ret => Spec.and_left fun hret => ?_
    rw [if_neg (by omega)]
    exact KeepsCalm.pure _
  · cases r with
    | inl _ => exact .pure _
    | inr _ => exact .bind (.modify fun _ hs => hs) fun _ => .pure _

/-- One round of a save stays calm. -/
lemma keepsCalm_saveRound (markbad : Act St ℤ) (name : RecName) (buf : Buf) (size : ℕ)
    (l : SaveLocals) : KeepsCalm tbl (saveRound fl markbad name buf size l) := by
  refine .bind (keepsCalm_modifyInfo _ _) fun _ => .bind .get fun s => ?_
  refine .bind (.modify fun _ hs => hs) fun _ => ?_
  refine .bind (saveAttempts_calm _ _ _ _ _ _) fun r => ?_
  cases r with
  | noBlock => exact .pure _
  | gaveUp => exact .pure _
  | wrote ret l =>
    refine .ite (.pure _) (.bind (keepsCalm_commitCopy _ _ _ _ _) fun r => ?_)
    cases r with
    | inl _ => exact .pure _
    | inr _ => exact .bind (keepsCalm_modifyInfo _ _) fun _ => .pure _

/-- **A calm save keeps the bad-block table**, whatever `markbad` would do. -/
lemma amlnandSaveInfoByName_calm (markbad : Act St ℤ) (name : RecName) (buf : Buf) (size : ℕ) :
    KeepsCalm tbl (amlnandSaveInfoByName fl markbad name buf size) := by
  refine .bind .get fun s => .ite (.pure _) (.bind (keepsCalm_saveRound _ _ _ _ _) fun r => ?_)
  rcases r with ret | ⟨ret, l⟩
  · exact .pure _
  · refine .ite (.bind (keepsCalm_modifyInfo _ _) fun _ => ?_) (.pure _)
    refine .bind (keepsCalm_saveRound _ _ _ _ _) fun r => ?_
    rcases r with ret | ⟨ret, l⟩
    · exact .pure _
    · exact .pure _

/-- Updating the bad-block table on flash keeps the table in memory in a calm run. -/
lemma amlnandUpdateBbt_calm (markbad : Act St ℤ) : KeepsCalm tbl (amlnandUpdateBbt fl markbad) :=
  .bind .get fun _ => amlnandSaveInfoByName_calm _ _ _ _

end

end Amlnf
