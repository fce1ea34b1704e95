import Amlnf.Phy.BootSettings

set_option relaxedAutoImplicit false
set_option autoImplicit false

/-!
# What does `uboot_write` report, and what does it leave?

`write_uboot` tells its caller by a positive value that two copies or more failed, and the callers
only look at the sign. The settings it switched are put back from what was kept at entry, the
scrambler is switched on whatever it was, and the spare-byte layout is left off when a buffer
cannot be allocated.

## Main definitions

* `Boot.bootPlan`, `Boot.Complete` — the pages of a copy, and a copy of which all were programmed.
* `Boot.goodCopies`, `Boot.failedCopies` — how many copies are complete, and how many had a page
  that failed.

## Main results

* `Boot.ubootWrite_cases` — the settings and the pages `uboot_write` leaves.
* `Boot.reported_iff` — when it reports and restores what it should.
-/

namespace Amlnf.Boot

open Act

/-! ## Copies -/

/-- The pages that are filled before page `p`. -/
def gapPages (fl : Flash) (p : ℕ) : List ℕ :=
  if fl.newType = .hynix1ynm8gb ∧ 1 < p % bootPagesPerCopy then
    (List.range (fl.slcAddr p - (privLsb fl p + 1))).map fun k => privLsb fl p + 1 + k
  else []

/-- The pages written for page `p`: those that are filled, and its own. -/
def pagePlan (fl : Flash) (p : ℕ) : List ℕ := gapPages fl p ++ [fl.slcAddr p]

/-- The pages written for a copy from the loop variables `v` on. -/
def copyPlan (fl : Flash) (len : ℕ) : ℕ → CopyLocals → List ℕ
  | 0, _ => []
  | n + 1, v => pagePlan fl (bootPage fl v.addr) ++ match bootNext fl len v with
    | Sum.inl v' => copyPlan fl len n v'
    | Sum.inr _ => []

/-- The pages written for copy `i`, when `len` bytes are to be written. -/
def bootPlan (fl : Flash) (len i : ℕ) : List ℕ :=
  copyPlan fl len (fl.ppb + 1) { addr := fl.pagesize * (bootPagesPerCopy * i), datbuf := fillBuf }

/-- Copy `i` was programmed completely: its pages and those filled between them were written in
order, and none failed. -/
def Complete (fl : Flash) (len : ℕ) (attempts : List Attempt) (i : ℕ) : Prop :=
  attempts.filter (fun a => a.copy = i) = (bootPlan fl len i).map fun page => ⟨i, page, true⟩

instance (fl : Flash) (len : ℕ) (attempts : List Attempt) (i : ℕ) :
    Decidable (Complete fl len attempts i) := inferInstanceAs (Decidable (_ = _))

/-- A page written for copy `i` failed. -/
def Failed (attempts : List Attempt) (i : ℕ) : Prop := ∃ a ∈ attempts, a.copy = i ∧ a.ok = false

instance (attempts : List Attempt) (i : ℕ) : Decidable (Failed attempts i) :=
  inferInstanceAs (Decidable (∃ a ∈ attempts, _))

/-- How many copies were programmed completely. -/
def goodCopies (fl : Flash) (len : ℕ) (attempts : List Attempt) : ℕ :=
  (List.range bootCopyNum).countP fun i => Complete fl len attempts i

/-- How many copies had a page that failed. -/
def failedCopies (attempts : List Attempt) : ℕ :=
  (List.range bootCopyNum).countP fun i => Failed attempts i

/-- The pages of a copy do not depend on what is written. -/
lemma copyPlan_congr (fl : Flash) (len n : ℕ) {v w : CopyLocals} (ha : v.addr = w.addr)
    (hw : v.writelen = w.writelen) : copyPlan fl len n v = copyPlan fl len n w := by
  induction n generalizing v w with
  | zero => rfl
  | succ n ih =>
    rw [copyPlan, copyPlan, ha]
    congr 1
    simp only [bootNext, ha, hw]
    split_ifs
    any_goals rfl
    all_goals exact ih rfl rfl

/-! ## One copy -/

section Copy

variable {fl : Flash} {call : Call} {tmp : Settings}

/-- The pages `l` written for copy `i`: all pages of `plan` and no failure, or some failure. -/
def CopyDone (i : ℕ) (plan : List ℕ) (l : List Attempt) : Prop :=
  (∀ a ∈ l, a.copy = i) ∧
    ((∃ a ∈ l, a.ok = false) ∨ l = plan.map fun page => ⟨i, page, true⟩)

lemma CopyDone.nil (i : ℕ) : CopyDone i [] [] := ⟨by simp, .inr rfl⟩

/-- One page. -/
lemma CopyDone.page (i q : ℕ) (ok : Bool) : CopyDone i [q] [⟨i, q, ok⟩] := by
  refine ⟨by simp, ?_⟩
  cases ok with
  | true => exact .inr rfl
  | false => exact .inl ⟨_, List.mem_singleton_self _, rfl⟩

lemma CopyDone.append {i : ℕ} {p q : List ℕ} {l m : List Attempt} (hl : CopyDone i p l)
    (hm : CopyDone i q m) : CopyDone i (p ++ q) (l ++ m) := by
  refine ⟨fun a ha => (List.mem_append.mp ha).elim (hl.1 a) (hm.1 a), ?_⟩
  rcases hl.2 with ⟨a, ha, hok⟩ | hl'
  · exact .inl ⟨a, List.mem_append_left _ ha, hok⟩
  · rcases hm.2 with ⟨a, ha, hok⟩ | hm'
    · exact .inl ⟨a, List.mem_append_right _ ha, hok⟩
    · exact .inr (by rw [hl', hm', List.map_append])

lemma when_change_eq {c : Prop} [Decidable c] {g : Settings → Settings} {s t : BootSt} {u : Unit}
    (h : when c (change g) s = (some u, t)) : t = if c then { s with set := g s.set } else s := by
  unfold Act.when at h
  split at h
  · next hc =>
    rw [if_pos hc]
    exact (Prod.mk.inj h).2.symm
  · next hc =>
    rw [if_neg hc]
    exact (Prod.mk.inj h).2.symm

/-- From `s` on the pages `plan` have been handed on for copy `i`. -/
def Tried (s : BootSt) (i : ℕ) (plan : List ℕ) (t : BootSt) : Prop :=
  t.set.oobMod = s.set.oobMod ∧ ∃ l, t.attempts = s.attempts ++ l ∧ CopyDone i plan l

/-- A page that is filled is tried once, and the loop goes on whatever comes of it. -/
lemma fillPage_tried (s : BootSt) (i q : ℕ) (plan : List ℕ) :
    Spec (Tried s i plan) (fillPage fl i q) (fun r t => r = none ∧ Tried s i (plan ++ [q]) t)
      fun _ => True := by
  refine Spec.of_returned fun t r u ht hrun => ?_
  obtain ⟨_, t₁, h₁, h⟩ := bind_eq_some hrun
  obtain ⟨ret, t₂, h₂, h⟩ := bind_eq_some h
  obtain ⟨_, t₃, h₃, h⟩ := bind_eq_some h
  obtain ⟨u₁, -, rfl⟩ := zoom_eq_some h₁
  obtain ⟨u₂, -, rfl⟩ := zoom_eq_some h₂
  obtain ⟨-, rfl⟩ := Prod.mk.inj h₃
  cases h
  obtain ⟨hoob, l, hl, hdone⟩ := ht
  refine ⟨rfl, hoob, l ++ [⟨i, q, decide (0 ≤ ret)⟩], ?_, hdone.append (.page i q _)⟩
  change t.attempts ++ [_] = _
  rw [hl, List.append_assoc]

/-- What filling pages leaves: they have been tried, and `phydev->writesize` is as it was, or put
back. -/
lemma fillGap_eq {i p : ℕ} {s t : BootSt} {u : Unit} (h : fillGap fl tmp i p s = (some u, t)) :
    Tried s i (gapPages fl p) t ∧
      (t.set.writesize = s.set.writesize ∨ t.set.writesize = tmp.writesize) := by
  unfold fillGap Act.when at h
  unfold gapPages
  split at h
  · next hc =>
    rw [if_pos hc]
    obtain ⟨_, s₁, h₁, h⟩ := bind_eq_some h
    obtain ⟨r, s₂, h₂, h⟩ := bind_eq_some h
    obtain ⟨_, s₃, h₃, h⟩ := bind_eq_some h
    obtain ⟨-, rfl⟩ := Prod.mk.inj h₁
    -- after `k` rounds the first `k` pages of the gap have been tried
    have hloop : Spec (Tried s i ((List.range 0).map fun j => privLsb fl p + 1 + j))
        (forPages (fl.slcAddr p - (privLsb fl p + 1)) fun k => fillPage fl i (privLsb fl p + 1 + k))
        (fun r t => r = none ∧ Tried s i ((List.range (fl.slcAddr p - (privLsb fl p + 1))).map
          fun j => privLsb fl p + 1 + j) t) fun _ => True := by
      refine forPages_none
        (I := fun k => Tried s i ((List.range k).map fun j => privLsb fl p + 1 + j)) fun k => ?_
      rw [List.range_succ, List.map_append]
      exact fillPage_tried s i (privLsb fl p + 1 + k) _
    have h0 : Tried s i ((List.range 0).map fun j => privLsb fl p + 1 + j)
        { s with set := fillSettings s.set } := ⟨rfl, [], (List.append_nil _).symm, .nil i⟩
    obtain ⟨-, ht⟩ := hloop.returned h0 h₂
    obtain ⟨u₃, -, rfl⟩ := zoom_eq_some h₃
    obtain ⟨-, rfl⟩ := Prod.mk.inj h
    exact ⟨ht, .inr rfl⟩
  · next hc =>
    rw [if_neg hc]
    obtain ⟨-, rfl⟩ := Prod.mk.inj h
    exact ⟨⟨rfl, [], (List.append_nil _).symm, .nil i⟩, .inl rfl⟩

/-- What a page of a copy leaves. -/
lemma bootRound_attempt (htmp : tmp.writesize = fl.pagesize) (info : Buf) {len i : ℕ}
    {v : CopyLocals} {s t : BootSt} {r : CopyLocals ⊕ (Bool × ℕ)} (hs : Ready fl v s)
    (h : bootRound fl call tmp info len i v s = (some r, t)) :
    t.set.oobMod = s.set.oobMod ∧ ∃ l, t.attempts = s.attempts ++ l ∧
      CopyDone i (pagePlan fl (bootPage fl v.addr)) l ∧
      ((∃ w, r = Sum.inr (true, w)) ∧ (∃ a ∈ l, a.ok = false) ∨
        r = bootNext fl len v ∧ t.set.writesize = fl.pagesize) := by
  obtain ⟨_, s₁, h₁, h⟩ := bind_eq_some h
  obtain ⟨_, s₂, h₂, h⟩ := bind_eq_some h
  obtain ⟨_, s₃, h₃, h⟩ := bind_eq_some h
  obtain ⟨ret, s₄, h₄, h⟩ := bind_eq_some h
  obtain ⟨_, s₅, h₅, h⟩ := bind_eq_some h
  have hs₁ : s₁.attempts = s.attempts ∧ s₁.set.oobMod = s.set.oobMod ∧ Ready fl v s₁ := by
    rw [when_change_eq h₁]
    split
    · next hp => exact ⟨rfl, rfl, .inl hp⟩
    · exact ⟨rfl, rfl, hs⟩
  obtain ⟨u₂, -, rfl⟩ := zoom_eq_some h₂
  obtain ⟨⟨hoob, l, hatt, hdone⟩, hws⟩ := fillGap_eq h₃
  have hready : Ready fl v s₃ := by
    rcases hs₁.2.2 with hp | hw
    · exact .inl hp
    · exact .inr (hws.elim (fun he => he.trans hw) fun he => he.trans htmp)
  obtain ⟨u₄, -, rfl⟩ := zoom_eq_some h₄
  obtain ⟨-, rfl⟩ := Prod.mk.inj h₅
  dsimp only at hatt hoob
  set p := bootPage fl v.addr with hp
  have hpage := hdone.append (.page i (fl.slcAddr p) (decide (0 ≤ ret)))
  split at h
  · next hneg =>
    cases h
    refine ⟨hoob.trans hs₁.2.1, _, ?_, hpage, .inl ⟨⟨_, rfl⟩, ?_⟩⟩
    · change s₃.attempts ++ _ = _
      rw [hatt, hs₁.1, List.append_assoc]
    · exact ⟨_, List.mem_append_right _ (List.mem_singleton_self _), decide_eq_false (by omega)⟩
  · next hneg =>
    obtain ⟨_, s₆, h₆, h⟩ := bind_eq_some h
    rw [get_bind] at h
    obtain ⟨hr, hst⟩ := Prod.mk.inj h
    have hs₆ : s₆.attempts = s₃.attempts ++ [⟨i, fl.slcAddr p, decide (0 ≤ ret)⟩] ∧
        s₆.set.oobMod = s₃.set.oobMod ∧ s₆.set.writesize = fl.pagesize := by
      rw [when_change_eq h₆]
      split
      · exact ⟨rfl, rfl, htmp⟩
      · next hp => exact ⟨rfl, rfl, hready.resolve_left hp⟩
    rw [← hst]
    refine ⟨hs₆.2.1.trans (hoob.trans hs₁.2.1), _, ?_, hpage, .inr ⟨?_, hs₆.2.2⟩⟩
    · rw [hs₆.1, hatt, hs₁.1, List.append_assoc]
    · rw [← Option.some.inj hr, hs₆.2.2]
      rfl

/-- The pages of a copy, from any page of it on. -/
lemma bootCopy_done (htmp : tmp.writesize = fl.pagesize) (info : Buf) {len i : ℕ} :
    ∀ (n : ℕ) (v : CopyLocals) {s t : BootSt} {r : Bool × ℕ}, Ready fl v s →
      loopUntil (bootRound fl call tmp info len i) n v s = (some r, t) →
      t.set.oobMod = s.set.oobMod ∧
        ∃ l, t.attempts = s.attempts ++ l ∧ CopyDone i (copyPlan fl len n v) l := by
  intro n
  induction n with
  | zero =>
    intro v s t r _ h
    cases h
  | succ n ih =>
    intro v s t r hs h
    rcases loopUntil_eq_some h with hlast | ⟨v', u, hround, hrest⟩
    · obtain ⟨hoob, l, hl, hpage, ⟨-, hfail⟩ | ⟨hr, -⟩⟩ := bootRound_attempt htmp info hs hlast
      · exact ⟨hoob, l, hl, hpage.1, .inl hfail⟩
      · refine ⟨hoob, l, hl, ?_⟩
        rw [copyPlan, ← hr]
        exact (List.append_nil (pagePlan fl (bootPage fl v.addr))).symm ▸ hpage
    · obtain ⟨hoob, l, hl, hpage, ⟨⟨w, hw⟩, -⟩ | ⟨hr, hws⟩⟩ := bootRound_attempt htmp info hs hround
      · cases hw
      · obtain ⟨hoob', l', hl', hdone⟩ := ih v' (.inr hws) hrest
        refine ⟨hoob'.trans hoob, l ++ l', by rw [hl', hl, List.append_assoc], ?_⟩
        rw [copyPlan, ← hr]
        exact hpage.append hdone

/-! ## All copies -/

/-- The pages of the copies of a list. -/
def CopiesDone (fl : Flash) (len : ℕ) (is : List ℕ) (l : List Attempt) : Prop :=
  (∀ a ∈ l, a.copy ∈ is) ∧
    ∀ i ∈ is, CopyDone i (bootPlan fl len i) (l.filter fun a => a.copy = i)

lemma bootCopies_done (htmp : tmp.writesize = fl.pagesize) (info : Buf) (len : ℕ) (datbuf : Buf)
    (is : List ℕ) (his : ∀ i ∈ is, i < bootCopyNum) (hnd : is.Nodup) {s t : BootSt}
    {rs : List (Bool × ℕ)} (h : bootCopies fl call tmp info len datbuf is s = (some rs, t)) :
    t.set.oobMod = s.set.oobMod ∧
      ∃ l, t.attempts = s.attempts ++ l ∧ CopiesDone fl len is l := by
  induction is generalizing s rs with
  | nil =>
    cases h
    exact ⟨rfl, [], (List.append_nil _).symm, by simp, by simp⟩
  | cons i is ih =>
    obtain ⟨r, u, hu, h⟩ := bind_eq_some h
    obtain ⟨rs', w, hw, h⟩ := bind_eq_some h
    cases h
    obtain ⟨hnotin, hnd⟩ := List.nodup_cons.mp hnd
    obtain ⟨hoob, l, hl, hcopy, hdone⟩ := bootCopy_done htmp info _ _
      (.inl (bootPage_info (his i List.mem_cons_self))) hu
    obtain ⟨hoob', l', hl', hmem, hall⟩ := ih (fun j hj => his j (List.mem_cons_of_mem _ hj)) hnd hw
    refine ⟨hoob'.trans hoob, l ++ l', by rw [hl', hl, List.append_assoc], fun a ha => ?_, ?_⟩
    · rcases List.mem_append.mp ha with ha | ha
      · rw [hcopy a ha]
        exact List.mem_cons_self
      · exact List.mem_cons_of_mem _ (hmem a ha)
    · intro j hj
      rw [List.filter_append]
      by_cases hji : j = i
      · subst hji
        have h1 : l.filter (fun a => a.copy = j) = l := by
          simpa [List.filter_eq_self] using hcopy
        have h2 : l'.filter (fun a => a.copy = j) = [] := by
          simp only [List.filter_eq_nil_iff, decide_eq_true_eq]
          rintro a ha rfl
          exact hnotin (hmem a ha)
        rw [h1, h2, List.append_nil]
        have hplan : copyPlan fl len (fl.ppb + 1)
            { addr := fl.pagesize * (bootPagesPerCopy * j), datbuf := datbuf } =
              bootPlan fl len j := copyPlan_congr fl len _ rfl rfl
        exact ⟨hcopy, hplan ▸ hdone⟩
      · have h1 : l.filter (fun a => a.copy = j) = [] := by
          simp only [List.filter_eq_nil_iff, decide_eq_true_eq]
          intro a ha haj
          exact hji (haj.symm.trans (hcopy a ha))
        rw [h1, List.nil_append]
        exact hall j ((List.mem_cons.mp hj).resolve_left hji)

/-- A copy is complete exactly when none of its pages failed. -/
lemma CopiesDone.complete_iff {len i : ℕ} {is : List ℕ} {l : List Attempt}
    (h : CopiesDone fl len is l) (hi : i ∈ is) : Complete fl len l i ↔ ¬Failed l i := by
  obtain ⟨-, hdone⟩ := h.2 i hi
  constructor
  · rintro hc ⟨a, ha, hai, hok⟩
    have hmem : a ∈ l.filter fun a => a.copy = i := List.mem_filter.mpr ⟨ha, by simpa using hai⟩
    rw [hc] at hmem
    obtain ⟨_, -, rfl⟩ := List.mem_map.mp hmem
    cases hok
  · intro hf
    refine hdone.resolve_left fun ⟨a, ha, hok⟩ => hf ?_
    obtain ⟨ha, hai⟩ := List.mem_filter.mp ha
    exact ⟨a, ha, of_decide_eq_true hai, hok⟩

/-- Of the four copies, those that are not complete had a page that failed. -/
lemma CopiesDone.goodCopies_add_failedCopies {len : ℕ} {l : List Attempt}
    (h : CopiesDone fl len (List.range bootCopyNum) l) :
    goodCopies fl len l + failedCopies l = bootCopyNum := by
  have hgood : goodCopies fl len l =
      (List.range bootCopyNum).countP fun i => decide ¬decide (Failed l i) = true := by
    refine List.countP_congr fun i hi => ?_
    simp [h.complete_iff hi]
  rw [hgood, failedCopies, Nat.add_comm, ← List.length_eq_countP_add_countP, List.length_range]

end Copy

/-! ## The call -/

section Call

variable {fl : Flash} {call : Call}

/-- What `write_uboot` leaves when it writes: everything is put back but `ran_mode`. -/
lemma writeUboot_cases {len : ℕ} (hlen : 0 < len) (hsize : len ≤ (bootDev fl).size) (datbuf : Buf)
    {s t : BootSt} {r : BootResult} (hs : s.set.writesize = fl.pagesize)
    (h : writeUboot fl call 0 len datbuf s = (some r, t)) :
    t.set = { s.set with ranMode := 1 } ∧
      ((call.bufs = true ∧ ¬r.ret < 0 ∧ ∃ l, t.attempts = s.attempts ++ l ∧
          CopiesDone fl len (List.range bootCopyNum) l) ∨
        (call.bufs = false ∧ r.ret < 0 ∧ t.attempts = s.attempts)) := by
  have hfits : ¬(bootDev fl).size < (0 + len) % 2 ^ 64 := by
    have := Nat.mod_le (0 + len) (2 ^ 64)
    omega
  rw [writeUboot, if_neg hfits, if_neg (by omega), get_bind] at h
  obtain ⟨r', u, hu, h⟩ := bind_eq_some h
  obtain ⟨_, w, hw, h⟩ := bind_eq_some h
  obtain ⟨-, rfl⟩ := Prod.mk.inj hw
  cases h
  unfold writeCopies at hu
  split at hu
  · next hbufs =>
    obtain ⟨_, u₁, hu₁, hu⟩ := bind_eq_some hu
    obtain ⟨v₁, -, rfl⟩ := zoom_eq_some hu₁
    obtain ⟨rs, u₂, hu₂, hu⟩ := bind_eq_some hu
    obtain ⟨hoob, l, hl, hdone⟩ := bootCopies_done hs _ _ _ _
      (fun i hi => List.mem_range.mp hi) List.nodup_range hu₂
    cases hu
    refine ⟨?_, .inl ⟨hbufs, ?_, l, hl, hdone⟩⟩
    · exact congrArg (fun o => { s.set with oobMod := o, ranMode := 1 }) hoob
    · dsimp only
      split <;> decide
  · next hbufs =>
    cases hu
    exact ⟨rfl, .inr ⟨by simpa using hbufs, by decide, rfl⟩⟩

/-- What the part behind the checks leaves: the spare-byte layout is switched on again unless a
buffer was missing. -/
lemma eraseAndWrite_cases {len : ℕ} (hlen : 0 < len) (hsize : len ≤ (bootDev fl).size)
    (buffer : Buf) {s t : BootSt} {r : BootResult} (hs : s.set.writesize = fl.pagesize)
    (h : eraseAndWrite fl call 0 len buffer s = (some r, t)) :
    (call.bufs = true ∧ ¬r.ret < 0 ∧ t.set = { s.set with ranMode := 1 } ∧
        ∃ l, t.attempts = s.attempts ++ l ∧ CopiesDone fl len (List.range bootCopyNum) l) ∨
      (call.bufs = false ∧ r.ret < 0 ∧ t.set = { s.set with ranMode := 1, oobMod := 0 } ∧
        t.attempts = s.attempts) := by
  rw [eraseAndWrite, get_bind] at h
  obtain ⟨_, s₁, h₁, h⟩ := bind_eq_some h
  obtain ⟨_, s₂, h₂, h⟩ := bind_eq_some h
  obtain ⟨_, s₃, h₃, h⟩ := bind_eq_some h
  obtain ⟨r', s₄, h₄, h⟩ := bind_eq_some h
  obtain ⟨_, s₅, h₅, h⟩ := bind_eq_some h
  cases h
  have hs₁ : s₁.set = { s.set with oobMod := 0 } ∧ s₁.attempts = s.attempts := by
    rw [when_change_eq h₁]
    split
    · exact ⟨rfl, rfl⟩
    · next hz =>
      refine ⟨?_, rfl⟩
      rw [← not_not.mp hz]
  obtain ⟨u₂, -, rfl⟩ := zoom_eq_some h₂
  obtain ⟨u₃, -, rfl⟩ := zoom_eq_some h₃
  dsimp only at h₄
  obtain ⟨hset, ⟨hbufs, hret, l, hl, hdone⟩ | ⟨hbufs, hret, hatt⟩⟩ :=
    writeUboot_cases hlen hsize buffer (by rw [hs₁.1]; exact hs) h₄
  · left
    have hset₅ : t.set = { s.set with ranMode := 1 } ∧ t.attempts = s₄.attempts := by
      rw [when_change_eq h₅, hset, hs₁.1]
      split
      · exact ⟨rfl, rfl⟩
      · next hz =>
        have hoob : s.set.oobMod = 0 := not_not.mp fun hne => hz ⟨hret, hne⟩
        refine ⟨?_, rfl⟩
        rw [hset, hs₁.1, ← hoob]
    exact ⟨hbufs, hret, hset₅.1, l, by rw [hset₅.2, hl, hs₁.2], hdone⟩
  · right
    have hset₅ : t = s₄ := by
      rw [when_change_eq h₅, if_neg fun hz => hz.1 hret]
    rw [hset₅]
    exact ⟨hbufs, hret, by rw [hset, hs₁.1], by rw [hatt, hs₁.2]⟩

/-- `align_count` leaves room for a page below `2 ^ 32`. -/
lemma alignCount_add_pagesize_le (count : ℕ) : alignCount fl count + fl.pagesize ≤ 2 ^ 32 := by
  obtain ⟨k, hk⟩ : fl.pagesize ∣ 2 ^ 32 :=
    pow_dvd_pow 2 (by have := fl.shift_lt; omega)
  have hlt : alignCount fl count < fl.pagesize * k := by
    rw [← hk]
    exact (Nat.div_mul_le_self _ _).trans_lt (Nat.mod_lt _ (by norm_num))
  rw [alignCount, Nat.mul_comm, Nat.mul_lt_mul_left fl.pagesize_pos] at hlt
  calc alignCount fl count + fl.pagesize
      = fl.pagesize * ((count + fl.pagesize - 1) % 2 ^ 32 / fl.pagesize + 1) := by
        rw [alignCount, Nat.mul_succ, Nat.mul_comm]
    _ ≤ fl.pagesize * k := Nat.mul_le_mul_left _ hlt
    _ = 2 ^ 32 := hk.symm

/-- `write_len` of a request from `uboot_write` is not zero. -/
lemma bootWriteLen_pos (count : ℕ) : 0 < bootWriteLen fl (alignCount fl count) := by
  have hpos := fl.pagesize_pos
  have halign : alignCount fl count + fl.pagesize ≤ 2 ^ 32 := alignCount_add_pagesize_le count
  have hhalf : fl.pagesize ≤ fl.blocksize >>> 1 := by
    rw [Nat.shiftRight_eq_div_pow, Flash.blocksize, Nat.pow_div (by have := fl.ppbShift_ge; omega)
      (by norm_num)]
    exact Nat.pow_le_pow_right (by norm_num) (by have := fl.ppbShift_ge; omega)
  have hblock : fl.blocksize >>> 1 ≤ fl.blocksize := Nat.shiftRight_le _ _
  have hmax : fl.blocksize + fl.pagesize ≤ 2 ^ 32 := by
    have h1 : fl.blocksize ≤ 2 ^ 31 := Nat.pow_le_pow_right (by norm_num)
      (by have := fl.shift_lt; have := fl.ppbShift_le; omega)
    have h2 : fl.pagesize ≤ 2 ^ 31 := Nat.pow_le_pow_right (by norm_num)
      (by have := fl.shift_lt; omega)
    omega
  have hkey : ∀ w, fl.pagesize ≤ w → w + fl.pagesize ≤ 2 ^ 32 →
      0 < (w + fl.pagesize - 1) % 2 ^ 32 / fl.pagesize * fl.pagesize := by
    intro w h1 h2
    rw [Nat.mod_eq_of_lt (by omega)]
    exact Nat.mul_pos (Nat.div_pos (by omega) hpos) hpos
  refine hkey _ ?_ ?_
  · split_ifs <;> omega
  · split_ifs <;> omega

/-- **What `uboot_write` leaves**, by the allocations and the checks. -/
lemma ubootWrite_cases (user memory : Buf) {count r : ℕ} {s t : BootSt}
    (hs : s.set.writesize = fl.pagesize)
    (h : ubootWrite fl call user memory count s = (some r, t)) :
    (call.alloc .dataBuf = false ∧ r = count ∧ t = s) ∨
      (call.alloc .dataBuf = true ∧ ¬bootAccepts fl 0 (alignCount fl count) ∧ r = 0 ∧
        t.set = s.set) ∨
      (call.alloc .dataBuf = true ∧ bootAccepts fl 0 (alignCount fl count) ∧
        ((call.bufs = true ∧ r = count ∧ t.set = { s.set with ranMode := 1 } ∧
            ∃ l, t.attempts = s.attempts ++ l ∧
              CopiesDone fl (bootWriteLen fl (alignCount fl count)) (List.range bootCopyNum) l) ∨
          (call.bufs = false ∧ r = 0 ∧ t.set = { s.set with ranMode := 1, oobMod := 0 }))) := by
  unfold ubootWrite at h
  cases halloc : call.alloc .dataBuf with
  | false =>
    rw [if_pos (by simp [halloc])] at h
    cases h
    exact .inl ⟨rfl, rfl, rfl⟩
  | true =>
    right
    rw [if_neg (by simp [halloc])] at h
    obtain ⟨_, s₁, h₁, h⟩ := bind_eq_some h
    obtain ⟨r₂, s₂, h₂, h⟩ := bind_eq_some h
    obtain ⟨_, s₃, h₃, h⟩ := bind_eq_some h
    cases h
    obtain ⟨u₁, -, rfl⟩ := zoom_eq_some h₁
    obtain ⟨u₃, -, rfl⟩ := zoom_eq_some h₃
    rw [roombootNandWrite, if_neg (not_not.mpr rfl)] at h₂
    by_cases hmod : bootWriteLen fl (alignCount fl count) % fl.pagesize = 0
    · by_cases hsize : bootWriteLen fl (alignCount fl count) ≤ (bootDev fl).size / bootCopyNum
      · right
        rw [if_neg (not_not.mpr hmod), if_neg (Nat.not_lt.mpr hsize)] at h₂
        refine ⟨rfl, ⟨rfl, hmod, hsize⟩, ?_⟩
        rcases eraseAndWrite_cases (bootWriteLen_pos count) (hsize.trans (Nat.div_le_self _ _)) _
          (s := { s with st := u₁ }) hs h₂ with ⟨hbufs, hret, hset, hl⟩ | ⟨hbufs, hret, hset, -⟩
        · exact .inl ⟨hbufs, if_neg hret, hset, hl⟩
        · exact .inr ⟨hbufs, if_pos hret, hset⟩
      · left
        rw [if_neg (not_not.mpr hmod), if_pos (Nat.not_le.mp hsize)] at h₂
        cases h₂
        exact ⟨rfl, fun hacc => hsize hacc.2.2, if_pos (by decide), rfl⟩
    · left
      rw [if_pos hmod] at h₂
      cases h₂
      exact ⟨rfl, fun hacc => hmod hacc.2.1, if_pos (by decide), rfl⟩

end Call

/-! ## The report -/

/-- A positive count is returned only when three copies are complete, and the settings are those
at entry. -/
structure Reported (fl : Flash) (count : ℕ) (s : BootSt) (r : ℕ) (t : BootSt) : Prop where
  copies : 0 < r →
    3 ≤ goodCopies fl (bootWriteLen fl (alignCount fl count)) t.attempts
  settings : t.set = s.set

/-- No copy is complete when nothing was written. -/
lemma goodCopies_nil (fl : Flash) (len : ℕ) : goodCopies fl len [] = 0 := by
  refine List.countP_eq_zero.mpr fun i _ hi => ?_
  have hc : Complete fl len [] i := of_decide_eq_true hi
  have hlen := congrArg List.length hc
  simp [bootPlan, copyPlan, pagePlan] at hlen

/-- **When does `uboot_write` report and restore what it should?** A buffer is missing at once
only for an empty request; and for a request that is accepted, the scrambler was on, no two copies
fail unless the request is empty, and when a buffer of `write_uboot` is missing the spare-byte
layout was off. -/
theorem reported_iff (fl : Flash) (call : Call) (user memory : Buf) (count : ℕ) (st : St)
    (c : Settings) {r : ℕ} {t : BootSt}
    (h : ubootWrite fl call user memory count (.enter fl st c) = (some r, t)) :
    Reported fl count (.enter fl st c) r t ↔
      (call.alloc .dataBuf = false → count = 0) ∧
      (call.alloc .dataBuf = true → bootAccepts fl 0 (alignCount fl count) →
        c.ranMode = 1 ∧
        (call.bufs = true → 0 < count → failedCopies t.attempts < 2) ∧
        (call.bufs = false → c.oobMod = 0)) := by
  rcases ubootWrite_cases user memory rfl h with ⟨halloc, rfl, rfl⟩ | ⟨halloc, hacc, rfl, hset⟩ |
    ⟨halloc, hacc, ⟨hbufs, rfl, hset, l, hl, hdone⟩ | ⟨hbufs, rfl, hset⟩⟩
  · -- no buffer for the image: the count is returned, nothing was done
    have hgood : ¬3 ≤ goodCopies fl (bootWriteLen fl (alignCount fl r)) (BootSt.enter fl st c).attempts := by
      rw [BootSt.enter, goodCopies_nil]
      decide
    simp only [halloc, true_implies, Bool.false_eq_true, false_implies, and_true]
    exact ⟨fun hR => Nat.eq_zero_of_not_pos fun hpos => hgood (hR.copies hpos),
      fun h0 => ⟨fun hpos => absurd h0 (Nat.pos_iff_ne_zero.mp hpos), rfl⟩⟩
  · -- the request is refused
    simp only [halloc, hacc, false_implies, implies_true, and_true, Bool.true_eq_false]
    exact iff_of_true ⟨fun hpos => absurd hpos (Nat.lt_irrefl 0), hset⟩ trivial
  · -- the copies were written
    have hcount := hdone.goodCopies_add_failedCopies
    obtain rfl : l = t.attempts := hl.symm
    have hran : t.set = (BootSt.enter fl st c).set ↔ c.ranMode = 1 := by
      rw [hset]
      exact ⟨fun he => (congrArg Settings.ranMode he).symm,
        fun he => by rw [BootSt.enter, ← he]⟩
    have hcopies : 3 ≤ goodCopies fl (bootWriteLen fl (alignCount fl r)) t.attempts ↔
        failedCopies t.attempts < 2 := by
      have h4 : bootCopyNum = 4 := rfl
      omega
    simp only [halloc, hacc, hbufs, true_implies, Bool.true_eq_false, false_implies, and_true,
      true_and]
    rw [← hran, ← hcopies]
    exact ⟨fun hR => ⟨hR.settings, hR.copies⟩, fun hR => ⟨hR.2, hR.1⟩⟩
  · -- a buffer of `write_uboot` is missing
    have hrest : t.set = (BootSt.enter fl st c).set ↔ c.ranMode = 1 ∧ c.oobMod = 0 := by
      rw [hset]
      exact ⟨fun he => ⟨(congrArg Settings.ranMode he).symm, (congrArg Settings.oobMod he).symm⟩,
        fun he => by rw [BootSt.enter, ← he.1, ← he.2]⟩
    simp only [halloc, hacc, hbufs, true_implies, Bool.true_eq_false, false_implies, true_and,
      Bool.false_eq_true]
    rw [← hrest]
    exact ⟨fun hR => hR.settings, fun hR => ⟨fun hpos => absurd hpos (Nat.lt_irrefl 0), hR⟩⟩

/-- Settings with the scrambler and the spare-byte layout on. -/
def bothOn : Settings where
  oobMod := 1
  ranMode := 1
  eccUnit := 1024
  eccBytes := 70
  bchMode := 5
  userMode := 2
  eccCntLimit := 36
  eccMax := 40
  eccSteps := 8
  writesize := 8192

/-- A call for which every allocation succeeds. -/
def roomyCall : Call := ⟨⟨0, 1⟩, 640, fun _ => true⟩

/-- One chip with 32 pages in a block. -/
def shortBlocks : Flash where
  pageShift := 13
  ppbShift := 5
  chipNum := 1
  chipsize := 1024
  newType := .none
  multiPlane := false
  behindList := fun _ => 0
  chipNum_pos := Flash.h27ucg8t2a.chipNum_pos
  chipNum_le := Flash.h27ucg8t2a.chipNum_le
  ppbShift_le := by decide
  ppbShift_ge := by decide
  hynix_ppb := by decide
  shift_lt := Flash.h27ucg8t2a.shift_lt
  chipsize_le := by decide
  multiPlane_lt := fun h => absurd h Bool.false_ne_true

/-- An image of one byte, with chips that do what they are told. -/
theorem reported_oneByte :
    ∃ t, ubootWrite shortBlocks roomyCall (fun _ => 0x5a) (fun _ => 0) 1
        (.enter shortBlocks .blank bothOn) = (some 1, t) ∧
      Reported shortBlocks 1 (.enter shortBlocks .blank bothOn) 1 t := by
  obtain ⟨t, ht, hfew⟩ := exists_of_run
    (x := ubootWrite shortBlocks roomyCall (fun _ => 0x5a) (fun _ => 0) 1)
    (s := .enter shortBlocks .blank bothOn) (a := 1)
    (P := fun t => failedCopies t.attempts < 2) (by decide +kernel) (by decide +kernel)
  refine ⟨t, ht, (reported_iff _ _ _ _ _ _ _ ht).mpr ⟨nofun, fun _ _ => ⟨rfl, fun _ _ => hfew, ?_⟩⟩⟩
  exact nofun

/-- Every page program fails, so that no copy is written, and the whole count is returned. -/
theorem not_reported_allFail :
    ∃ t, ubootWrite .oneChip roomyCall (fun _ => 0x5a) (fun _ => 0) 1
        (.enter .oneChip { St.blank with
          plan := fun _ => { Outcome.fine with prog := .failed 13 fun _ _ => .erased } } bothOn) =
        (some 1, t) ∧
      failedCopies t.attempts = 4 ∧
      ¬Reported .oneChip 1 (.enter .oneChip { St.blank with
        plan := fun _ => { Outcome.fine with prog := .failed 13 fun _ _ => .erased } } bothOn) 1 t := by
  obtain ⟨t, ht, hall, hgood⟩ := exists_of_run
    (x := ubootWrite .oneChip roomyCall (fun _ => 0x5a) (fun _ => 0) 1)
    (s := .enter .oneChip { St.blank with
      plan := fun _ => { Outcome.fine with prog := .failed 13 fun _ _ => .erased } } bothOn) (a := 1)
    (P := fun t => failedCopies t.attempts = 4 ∧
      ¬3 ≤ goodCopies .oneChip (bootWriteLen .oneChip (alignCount .oneChip 1)) t.attempts)
    (by decide +kernel) (by decide +kernel)
  exact ⟨t, ht, hall, fun hR => hgood (hR.copies (by decide))⟩

end Amlnf.Boot
