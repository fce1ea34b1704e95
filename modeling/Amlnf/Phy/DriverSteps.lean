import Amlnf.Phy.BringUpFrame
import Amlnf.Phy.Steps

set_option relaxedAutoImplicit false
set_option autoImplicit false

/-!
# What bring-up can do to the state

The steps of the record store do not cover the repair of reserved blocks, which makes entries of
the bad-block table good again. With one more kind of step, entries set to a value while marking
is allowed, everything bring-up does once the table is loaded is a sequence of steps.

## Main definitions

* `DriverStep`, `DriverSteps` — one step of the driver and a sequence of them; the values table
  entries may take are a parameter.

## Main results

* `moves_bringUpRest` — bring-up after the load of the table is a sequence of driver steps, and
  sets entries to good and used bad only.
* `DriverSteps.table_of_refused` — without the permission to mark, the table stays as it is.
-/

namespace Amlnf

open Act

/-- One step of the driver; `V` are the values that entries of the table are set to. -/
inductive DriverStep (fl : Flash) (V : UInt16 → Prop) : St → St → Prop
  | store {s t : St} (h : Step fl s t) : DriverStep fl V s t
  | modify {s : St} (value : UInt16) (es : List (ℕ × ℕ)) (hv : V value)
      (h : s.allowMarkbad = true) :
      DriverStep fl V s { s with blkStatus := setEntries s.blkStatus value es }
  | hand {s : St} (p : ChipOpsPara) : DriverStep fl V s { s with handed := s.handed ++ [p] }

/-- A sequence of steps of the driver. -/
abbrev DriverSteps (fl : Flash) (V : UInt16 → Prop) : St → St → Prop :=
  Relation.ReflTransGen (DriverStep fl V)

section

variable {fl : Flash} {V : UInt16 → Prop} {α : Type}

/-- Steps of the record store are steps of the driver. -/
lemma moves_store {x : Act St α} (h : Moves (Steps fl) x) : Moves (DriverSteps fl V) x :=
  h.imp fun _ _ hst => Relation.ReflTransGen.mono (fun _ _ => .store) _ _ hst

/-- Setting an entry to a value in `V` is a step. -/
lemma moves_blkModifyBbtChipOp {value : UInt16} (hv : V value) :
    Moves (DriverSteps fl V) (blkModifyBbtChipOp fl value) := by
  refine Moves.get_bind fun s => ?_
  by_cases ha : s.allowMarkbad = true
  · rw [if_neg (by simp [ha])]
    exact .single (.modify value _ hv ha)
  · rw [if_pos (by simpa using ha)]
    exact .refl

/-! ## Preparation -/

/-- Setting up retry and SLC mode is a sequence of steps. -/
lemma moves_readretrySlcInit : Moves (Steps fl) (readretrySlcInit fl) :=
  (steps_frame fl).moves_readretrySlcInit (steps_ignoresLock fl)

/-! ## Rewriting, repair and bring-up -/

/-- Bookkeeping, programs and erases are steps of the driver. -/
lemma driver_frame (fl : Flash) (V : UInt16 → Prop) :
    WriteFrame fl (fun _ => True) (fun _ _ => True) (DriverSteps fl V) where
  soft h _ _ := .single (.store (.soft h))
  write d o _ := moves_store (moves_writePage (some d) o)
  erase := moves_store moves_eraseBlock
  pattern _ := trivial
  untagged _ := trivial

/-- The lock is bookkeeping. -/
lemma driver_ignoresLock (fl : Flash) (V : UInt16 → Prop) : IgnoresLock (DriverSteps fl V) :=
  fun _ _ _ _ _ _ => .single (.store (.soft rfl))

/-- The repair is a sequence of steps with the values it sets. -/
lemma moves_repairReservedBadBlock :
    Moves (DriverSteps fl RepairValue) (repairReservedBadBlock fl) :=
  (driver_frame fl RepairValue).moves_repairReservedBadBlock
    (fun _ hv => moves_blkModifyBbtChipOp hv) (driver_ignoresLock _ _)
    (moves_store (moves_amlnandUpdateBbt (moves_blockMarkbadOp fl)))

/-- Bring-up after the load of the table. -/
lemma moves_bringUpRest : Moves (DriverSteps fl RepairValue) (bringUpRest fl) :=
  (driver_frame fl RepairValue).moves_bringUpRest (fun _ hv => moves_blkModifyBbtChipOp hv)
    (driver_ignoresLock _ _) (moves_store (moves_amlnandUpdateBbt (moves_blockMarkbadOp fl)))
    trivial trivial trivial trivial fun _ => moves_store (moves_saveInfo _ _ _)

end

/-! ## Facts about every sequence of steps -/

section

variable {fl : Flash} {V : UInt16 → Prop} {s t : St}

/-- Entries set to one value are as before or have that value. -/
lemma setEntries_or (tbl : BlkStatus) (value : UInt16) (es : List (ℕ × ℕ)) (c b : ℕ) :
    setEntries tbl value es c b = tbl c b ∨ setEntries tbl value es c b = value := by
  induction es generalizing tbl with
  | nil => exact .inl rfl
  | cons e es ih =>
    have hone : setBlcokStatus tbl e.1 e.2 value c b = tbl c b ∨
        setBlcokStatus tbl e.1 e.2 value c b = value := by
      by_cases h : c = e.1 ∧ b = e.2
      · exact .inr (if_pos h)
      · exact .inl (if_neg h)
    rcases ih (setBlcokStatus tbl e.1 e.2 value) with h | h
    · rcases hone with h' | h'
      · exact .inl (h.trans h')
      · exact .inr (h.trans h')
    · exact .inr h

/-- A command leaves the table alone. -/
lemma issue_blkStatus (ops : List FlashOp) (hit : ℕ → ℕ → Bool) (r : Outcome → OpResult) (s : St) :
    (issue fl ops hit r s).2.blkStatus = s.blkStatus := by
  unfold issue
  dsimp only
  cases r (s.plan s.tick) <;> rfl

/-- A step sets entries of the table to used bad or to a value of `V`, and only while marking is
allowed. -/
lemma DriverStep.table (h : DriverStep fl V s t) :
    t.allowMarkbad = s.allowMarkbad ∧ ∀ c b, t.blkStatus c b = s.blkStatus c b ∨
      (s.allowMarkbad = true ∧ (t.blkStatus c b = blockUsedBad ∨ V (t.blkStatus c b))) := by
  cases h with
  | store hs =>
    refine ⟨?_, fun c b => ?_⟩
    · have := hs.fixed
      simp only [St.fixed, Prod.mk.injEq] at this
      exact this.2.1.2.2
    · cases hs with
      | soft hh =>
        simp only [St.hard, Prod.mk.injEq] at hh
        exact .inl (by rw [hh.2.2.1])
      | issue ops hit r hro => exact .inl (by rw [issue_blkStatus])
      | mark es ha =>
        rcases setEntries_or s.blkStatus blockUsedBad es c b with h | h
        · exact .inl h
        · exact .inr ⟨ha, .inl h⟩
  | modify value es hv ha =>
    refine ⟨rfl, fun c b => ?_⟩
    rcases setEntries_or s.blkStatus value es c b with h | h
    · exact .inl h
    · have hval : V (setEntries s.blkStatus value es c b) := by
        rw [h]
        exact hv
      exact .inr ⟨ha, .inr hval⟩
  | hand p => exact ⟨rfl, fun c b => .inl rfl⟩

/-- What a sequence of steps makes of the table. -/
lemma DriverSteps.table (h : DriverSteps fl V s t) :
    t.allowMarkbad = s.allowMarkbad ∧ ∀ c b, t.blkStatus c b = s.blkStatus c b ∨
      (s.allowMarkbad = true ∧ (t.blkStatus c b = blockUsedBad ∨ V (t.blkStatus c b))) := by
  induction h with
  | refl => exact ⟨rfl, fun _ _ => .inl rfl⟩
  | @tail u v _ hstep ih =>
    obtain ⟨ha, ht⟩ := hstep.table
    refine ⟨ha.trans ih.1, fun c b => ?_⟩
    rcases ht c b with h | h
    · rw [h]
      exact ih.2 c b
    · rw [ih.1] at h
      exact .inr h

/-- No step changes the permissions. -/
lemma DriverSteps.permissions (h : DriverSteps fl V s t) :
    t.allowMeta = s.allowMeta ∧ t.allowMarkbad = s.allowMarkbad := by
  induction h with
  | refl => exact ⟨rfl, rfl⟩
  | tail _ hstep ih =>
    refine ⟨Eq.trans ?_ ih.1, hstep.table.1.trans ih.2⟩
    cases hstep with
    | store hs =>
      have hfix := hs.fixed
      simp only [St.fixed, Prod.mk.injEq] at hfix
      exact hfix.2.1.2.1
    | modify value es hv ha => rfl
    | hand p => rfl

/-- A step only adds commands, and none while `amlnf_readonly` is on, which no step changes. -/
lemma DriverStep.log (h : DriverStep fl V s t) : t.readonly = s.readonly ∧
    ∃ ops, t.log = s.log ++ ops ∧ (s.readonly = true → ops = []) := by
  cases h with
  | store hs =>
    have hfix := hs.fixed
    simp only [St.fixed, Prod.mk.injEq] at hfix
    exact ⟨hfix.2.1.1, hs.log⟩
  | modify value es hv ha => exact ⟨rfl, [], (List.append_nil _).symm, fun _ => rfl⟩
  | hand p => exact ⟨rfl, [], (List.append_nil _).symm, fun _ => rfl⟩

/-- What a sequence of steps does to the commands issued. -/
lemma DriverSteps.log (h : DriverSteps fl V s t) : t.readonly = s.readonly ∧
    ∃ ops, t.log = s.log ++ ops ∧ (s.readonly = true → ops = []) := by
  induction h with
  | refl => exact ⟨rfl, [], (List.append_nil _).symm, fun _ => rfl⟩
  | @tail u v _ hstep ih =>
    obtain ⟨hr, xs, hxs, hx⟩ := ih
    obtain ⟨hr', ys, hys, hy⟩ := hstep.log
    refine ⟨hr'.trans hr, xs ++ ys, by rw [hys, hxs, List.append_assoc], fun h => ?_⟩
    rw [hx h, hy (hr.trans h), List.append_nil]

/-- Without the permission to mark, the table stays as it is. -/
lemma DriverSteps.table_of_refused (h : DriverSteps fl V s t) (ha : s.allowMarkbad = false) :
    t.blkStatus = s.blkStatus := by
  funext c b
  rcases h.table.2 c b with h | ⟨h, -⟩
  · exact h
  · rw [ha] at h
    cases h

/-! ## Refused operations -/

/-- Without the permission to mark, a mark is refused. -/
lemma blockMarkbadOp_refused (ha : s.allowMarkbad = false) :
    blockMarkbadOp fl s = (some (-eROFS), s) := by
  rw [blockMarkbadOp, markbadN, blockMarkbad, get_bind, if_pos (by simp [ha])]
  rfl

/-- Without the permission to mark, a change of an entry is refused. -/
lemma blkModifyBbtChipOp_refused (value : UInt16) (ha : s.allowMarkbad = false) :
    blkModifyBbtChipOp fl value s = (some (-eROFS), s) := by
  rw [blkModifyBbtChipOp, get_bind, if_pos (by simp [ha])]
  rfl

/-- Without the permission to write metadata, a save is refused. -/
lemma saveInfo_refused (name : RecName) (buf : Buf) (size : ℕ) (hmeta : s.allowMeta = false) :
    saveInfo fl name buf size s = (some (-eROFS), s) := by
  rw [saveInfo, amlnandSaveInfoByName, get_bind, if_pos (by simp [hmeta])]
  rfl

end

end Amlnf
