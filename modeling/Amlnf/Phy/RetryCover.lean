import Amlnf.Phy.NewNand

set_option relaxedAutoImplicit false
set_option autoImplicit false

/-!
# Does read retry cover its table?

Over any sequence of reads, the rows a page was retried with before it was counted as
uncorrectable, compared with the table of the flash type.

## Main definitions

* `handleRow`, `handleNext` — the row a handler programs at a counter, and the counter it
  leaves.
* `schedule` — the rows of the first retries from a counter.
* `RetryInv`, `RetryOpen` — the invariant of the counters and episodes, and of an episode that
  is still open.
* `Episode.Covered`, `StartsFresh` — every row of the table was programmed, and no row outside
  it; the condition for it.

## Main results

* `spec_readPages` — every sequence of reads keeps the invariant.
* `covered_iff_startsFresh` — when the retries cover the table.
-/

namespace Amlnf

open Act

/-! ## What one retry does -/

/-- The table the rows for a page come from; most types have one only. -/
def tableKind (n : NewType) (kind : PageKind) : PageKind :=
  match n with
  | .sandisk19nm => kind
  | .sandiskA19nm => kind
  | .sandiskA19nm4g => kind
  | _ => .lower

/-- The rows of that table. -/
def tableRows (n : NewType) (kind : PageKind) : ℕ :=
  match n with
  | .sandisk19nm => if kind = .upper then 20 else 16
  | n => (amlnandSetReadretrySlcPara n).retryCntLp

/-- The row the handler programs when its counter is at `cur`. -/
def handleRow (n : NewType) (cur : ℕ) : Option ℕ :=
  match n with
  | .hynix26nm4gb => some (hynixRow 6 cur)
  | .hynix26nm8gb => some (hynixRow 6 cur)
  | .hynix20nm4gb => some (hynixRow 7 cur)
  | .hynix20nm8gb => some (hynixRow 7 cur)
  | .hynix1ynm8gb => some (hynixRow 7 cur)
  | .intel20nm => none
  | .none => none
  | .sandisk24nm => none
  | _ => some cur

/-- The counter the handler leaves. -/
def handleNext (n : NewType) (kind : PageKind) (cur : ℕ) : ℕ :=
  match n with
  | .hynix26nm4gb => (cur + 1) % 2 ^ 8
  | .hynix26nm8gb => (cur + 1) % 2 ^ 8
  | .hynix20nm4gb => (cur + 1) % 2 ^ 8
  | .hynix20nm8gb => (cur + 1) % 2 ^ 8
  | .hynix1ynm8gb => (cur + 1) % 2 ^ 8
  | .sandiskA19nm => wrapCnt 0 cur
  | .sandiskA19nm4g => wrapCnt 0 cur
  | .none => cur
  | .sandisk24nm => cur
  | n => wrapCnt (tableRows n kind) cur

/-- The bound the counter of a handler keeps. -/
def cntBound (n : NewType) (kind : PageKind) : ℕ :=
  match n with
  | .hynix26nm4gb => 2 ^ 8
  | .hynix26nm8gb => 2 ^ 8
  | .hynix20nm4gb => 2 ^ 8
  | .hynix20nm8gb => 2 ^ 8
  | .hynix1ynm8gb => 2 ^ 8
  | .sandiskA19nm => 1
  | .sandiskA19nm4g => 1
  | .none => 1
  | .sandisk24nm => 1
  | n => tableRows n kind

/-- A table has a row at least. -/
lemma cntBound_pos (n : NewType) (kind : PageKind) : 0 < cntBound n kind := by
  cases n <;> cases kind <;> decide

/-- A counter that wraps stays below its bound. -/
lemma wrapCnt_lt {cnt cur : ℕ} (h : 0 < cnt) : wrapCnt cnt cur < cnt := by
  unfold wrapCnt
  split <;> omega

/-- With no rows it stays at zero. -/
lemma wrapCnt_zero (cur : ℕ) : wrapCnt 0 cur = 0 := if_pos (Nat.zero_le _)

/-- The handlers keep their counters below the bound. -/
lemma handleNext_lt {n : NewType} {kind : PageKind} {cur : ℕ} (h : cur < cntBound n kind) :
    handleNext n kind cur < cntBound n kind := by
  have h256 : (cur + 1) % 2 ^ 8 < 2 ^ 8 := Nat.mod_lt _ (by decide)
  have hpos := cntBound_pos n kind
  cases n with
  | hynix26nm4gb => exact h256
  | hynix26nm8gb => exact h256
  | hynix20nm4gb => exact h256
  | hynix20nm8gb => exact h256
  | hynix1ynm8gb => exact h256
  | sandiskA19nm => exact (wrapCnt_zero cur).trans_lt Nat.zero_lt_one
  | sandiskA19nm4g => exact (wrapCnt_zero cur).trans_lt Nat.zero_lt_one
  | none => exact h
  | sandisk24nm => exact h
  | _ => exact wrapCnt_lt hpos

/-- The row a Hynix handler sets is a row of the table. -/
lemma hynixRow_lt {cnt : ℕ} (h : 0 < cnt) (cur : ℕ) : hynixRow cnt cur < cnt := by
  unfold hynixRow
  split
  · assumption
  · exact Nat.mod_lt _ h

/-- A handler never leaves the table. -/
lemma handleRow_lt {n : NewType} {kind : PageKind} {cur r : ℕ} (h : cur < cntBound n kind)
    (hr : handleRow n cur = some r) : r < tableRows n kind := by
  have h6 := hynixRow_lt (show 0 < 6 by decide) cur
  have h7 := hynixRow_lt (show 0 < 7 by decide) cur
  have hcur : ∀ m, m ≤ tableRows n kind → cur < m → r = cur → r < tableRows n kind := by
    intro m hm hlt he
    omega
  cases n with
  | hynix26nm4gb => exact (Option.some.inj hr) ▸ h6
  | hynix26nm8gb => exact (Option.some.inj hr) ▸ h6
  | hynix20nm4gb => exact (Option.some.inj hr) ▸ h7
  | hynix20nm8gb => exact (Option.some.inj hr) ▸ h7
  | hynix1ynm8gb => exact (Option.some.inj hr) ▸ h7
  | intel20nm => cases hr
  | none => cases hr
  | sandisk24nm => cases hr
  | sandiskA19nm => exact hcur 1 (by cases kind <;> decide) h (Option.some.inj hr).symm
  | sandiskA19nm4g => exact hcur 1 (by cases kind <;> decide) h (Option.some.inj hr).symm
  | _ => exact hcur _ le_rfl h (Option.some.inj hr).symm

/-- What a call of the handler for `chip` may do: the newest episode may get the row the
counter points to, and the counter may go on. When the chip was never busy, both happened. -/
structure Handled (n : NewType) (kind : PageKind) (chip : ℕ) (s t : RetrySt) (e e' : Episode) :
    Prop where
  same : (e'.chip, e'.kind, e'.slc, e'.cnt, e'.eccErr) = (e.chip, e.kind, e.slc, e.cnt, e.eccErr)
  rows : e'.rows = e.rows ∨ ∃ r, handleRow n (handlerCnt n kind s chip) = some r ∧
    e'.rows = e.rows ++ [(chip, tableKind n kind, r)]
  cnt : ∀ k c, handlerCnt n k t c = handlerCnt n k s c ∨
    handlerCnt n k t c = handleNext n k (handlerCnt n k s c)
  clean : e'.timeout = false → e.timeout = false ∧
    handlerCnt n kind t chip = handleNext n kind (handlerCnt n kind s chip) ∧
    e'.rows = e.rows ++ (handleRow n (handlerCnt n kind s chip)).toList.map
      (chip, tableKind n kind, ·)

/-! ## The handlers -/

/-- What follows runs with the answer of the ready line. -/
lemma queneRb_bind {α : Type} (f : Bool → Act RetrySt α) (s : RetrySt) :
    (queneRb >>= f) s = f (s.plan s.tick).rb { s with tick := s.tick + 1 } := rfl

/-- A note goes to the page that is being retried. -/
lemma noteEpisode_cons (f : Episode → Episode) {s : RetrySt} {e : Episode} {es : List Episode}
    (he : s.episodes = e :: es) :
    noteEpisode f s = (some (), { s with episodes := f e :: es }) := by
  rw [noteEpisode, modify_apply, he]

/-- What sending a row leaves: the row and no timeout, or a timeout with or without the row. -/
lemma setRegValue_run (chip : ℕ) (table : PageKind) (row : ℕ) {s : RetrySt} {e : Episode}
    {es : List Episode} (he : s.episodes = e :: es) :
    ∃ ret t e', setRegValue chip table row s = (some ret, t) ∧ t.curCntLp = s.curCntLp ∧
      t.curCntUp = s.curCntUp ∧ t.episodes = e' :: es ∧
      ((ret = 0 ∧ e' = { e with rows := e.rows ++ [(chip, table, row)] }) ∨
        (ret ≠ 0 ∧ (e' = { e with timeout := true } ∨
          e' = { e with rows := e.rows ++ [(chip, table, row)], timeout := true }))) := by
  let u : RetrySt := { s with tick := s.tick + 1 }
  have hu : u.episodes = e :: es := he
  rw [setRegValue, queneRb_bind]
  cases h1 : (s.plan s.tick).rb with
  | false =>
    rw [if_pos (by simp), bind_some (noteEpisode_cons _ hu)]
    exact ⟨_, _, _, rfl, rfl, rfl, rfl, Or.inr ⟨by decide, Or.inl rfl⟩⟩
  | true =>
    let v : RetrySt := { u with episodes := { e with rows := e.rows ++ [(chip, table, row)] } :: es }
    let w : RetrySt := { v with tick := v.tick + 1 }
    have hw : w.episodes = { e with rows := e.rows ++ [(chip, table, row)] } :: es := rfl
    rw [if_neg (by simp), bind_some (noteEpisode_cons _ hu), queneRb_bind]
    cases h2 : (v.plan v.tick).rb with
    | false =>
      rw [if_pos (by simp), bind_some (noteEpisode_cons _ hw)]
      exact ⟨_, _, _, rfl, rfl, rfl, rfl, Or.inr ⟨by decide, Or.inr rfl⟩⟩
    | true =>
      rw [if_neg (by simp)]
      exact ⟨_, _, _, rfl, rfl, rfl, rfl, Or.inl ⟨rfl, rfl⟩⟩

section Handler

variable {n : NewType} {kind : PageKind} {chip : ℕ} {s t : RetrySt} {e e' : Episode}

/-- A retry that sent its row. -/
lemma Handled.of_row {r : ℕ} (hr : handleRow n (handlerCnt n kind s chip) = some r)
    (hcnt : ∀ k c, handlerCnt n k t c = handlerCnt n k s c ∨
      handlerCnt n k t c = handleNext n k (handlerCnt n k s c))
    (hnext : handlerCnt n kind t chip = handleNext n kind (handlerCnt n kind s chip))
    (he : e' = { e with rows := e.rows ++ [(chip, tableKind n kind, r)] }) :
    Handled n kind chip s t e e' := by
  subst he
  refine ⟨rfl, Or.inr ⟨r, hr, rfl⟩, hcnt, fun htime => ⟨htime, hnext, ?_⟩⟩
  rw [hr]
  rfl

/-- A retry that found the chip busy. -/
lemma Handled.of_timeout {r : ℕ} (hr : handleRow n (handlerCnt n kind s chip) = some r)
    (hcnt : ∀ k c, handlerCnt n k t c = handlerCnt n k s c ∨
      handlerCnt n k t c = handleNext n k (handlerCnt n k s c))
    (he : e' = { e with timeout := true } ∨
      e' = { e with rows := e.rows ++ [(chip, tableKind n kind, r)], timeout := true }) :
    Handled n kind chip s t e e' := by
  rcases he with rfl | rfl
  · exact ⟨rfl, Or.inl rfl, hcnt, nofun⟩
  · exact ⟨rfl, Or.inr ⟨r, hr, rfl⟩, hcnt, nofun⟩

/-- The counter that was set. -/
lemma setCnt_self (f : ℕ → ℕ) (c v : ℕ) : setCnt f c v c = v := if_pos rfl

/-- A counter is set by its own chip only. -/
lemma setCnt_cases (f : ℕ → ℕ) (g : ℕ → ℕ) (chip c : ℕ) :
    setCnt f chip (g (f chip)) c = f c ∨ setCnt f chip (g (f chip)) c = g (f c) := by
  unfold setCnt
  split
  · exact Or.inr (by simp [*])
  · exact Or.inl rfl

/-- The handlers that wrap the counter of the lower pages; another kind of page may be counted
apart. -/
lemma handleLp_handled (info : RetryInfo) {es : List Episode} (hs : s.episodes = e :: es)
    (hlp : ∀ c u, handlerCnt n kind u c = u.curCntLp c)
    (hall : ∀ k, (∀ c u, handlerCnt n k u c = u.curCntLp c) ∧
        (∀ cur, handleNext n k cur = wrapCnt info.retryCntLp cur) ∨
      ∀ c u, handlerCnt n k u c = u.curCntUp c)
    (hrow : ∀ cur, handleRow n cur = some cur) (htab : tableKind n kind = .lower)
    (hnext : ∀ cur, handleNext n kind cur = wrapCnt info.retryCntLp cur) :
    ∃ ret t e', handleLp info setRegValue chip s = (some ret, t) ∧ t.episodes = e' :: es ∧
      Handled n kind chip s t e e' := by
  obtain ⟨ret, u, e', hrun, hulp, huup, hue, hres⟩ :=
    setRegValue_run chip .lower (s.curCntLp chip) hs
  rw [handleLp, get_bind, bind_some hrun]
  rcases hres with ⟨rfl, he'⟩ | ⟨hne, he'⟩
  · let v : RetrySt :=
      { u with curCntLp := setCnt u.curCntLp chip (wrapCnt info.retryCntLp (s.curCntLp chip)) }
    have hv : v.curCntLp = setCnt s.curCntLp chip (wrapCnt info.retryCntLp (s.curCntLp chip)) :=
      congrArg (setCnt · chip _) hulp
    have hv' : v.curCntUp = s.curCntUp := huup
    rw [if_neg (by simp)]
    refine ⟨0, v, e', rfl, hue, .of_row (hrow _) (fun k c => ?_) ?_ ?_⟩
    · rcases hall k with ⟨hk, hn⟩ | hk
      · rw [hk, hk, hn, hv]
        exact setCnt_cases s.curCntLp (wrapCnt info.retryCntLp) chip c
      · exact Or.inl (by rw [hk, hk, hv'])
    · rw [hlp, hlp, hnext, hv, setCnt_self]
    · rw [he', htab, hlp]
  · rw [if_pos hne]
    refine ⟨_, u, e', rfl, hue, .of_timeout (hrow _) (fun k c => Or.inl ?_) ?_⟩
    · rcases hall k with ⟨hk, -⟩ | hk
      · rw [hk, hk, hulp]
      · rw [hk, hk, huup]
    · rwa [htab, hlp]

/-- The Hynix handler advances its counter in any case. -/
lemma handleHynix_handled (info : RetryInfo) {es : List Episode} (hs : s.episodes = e :: es)
    (hlp : ∀ k c u, handlerCnt n k u c = u.curCntLp c)
    (hrow : ∀ cur, handleRow n cur = some (hynixRow info.retryCntLp cur))
    (htab : tableKind n kind = .lower)
    (hnext : ∀ k cur, handleNext n k cur = (cur + 1) % 2 ^ 8) :
    ∃ ret t e', readretryHandleHynix info chip s = (some ret, t) ∧ t.episodes = e' :: es ∧
      Handled n kind chip s t e e' := by
  obtain ⟨ret, u, e', hrun, hulp, -, hue, hres⟩ :=
    setRegValue_run chip .lower (hynixRow info.retryCntLp (s.curCntLp chip)) hs
  rw [readretryHandleHynix, get_bind, bind_some hrun, modify_bind]
  let v : RetrySt := { u with curCntLp := setCnt u.curCntLp chip ((u.curCntLp chip + 1) % 2 ^ 8) }
  have hv : v.curCntLp = setCnt s.curCntLp chip ((s.curCntLp chip + 1) % 2 ^ 8) :=
    congrArg (fun f => setCnt f chip ((f chip + 1) % 2 ^ 8)) hulp
  have hcnt : ∀ k c, handlerCnt n k v c = handlerCnt n k s c ∨
      handlerCnt n k v c = handleNext n k (handlerCnt n k s c) := by
    intro k c
    rw [hlp, hlp, hnext, hv]
    exact setCnt_cases s.curCntLp (fun x => (x + 1) % 2 ^ 8) chip c
  rcases hres with ⟨-, he'⟩ | ⟨-, he'⟩
  · refine ⟨0, v, e', rfl, hue, .of_row (hrow _) hcnt ?_ ?_⟩
    · rw [hlp, hlp, hnext, hv, setCnt_self]
    · rw [he', htab, hlp]
  · refine ⟨0, v, e', rfl, hue, .of_timeout (hrow _) hcnt ?_⟩
    rwa [htab, hlp]

/-- The handler of the `A19` types leaves its counter at zero. -/
lemma handleA19_handled (info : RetryInfo) {es : List Episode} (hs : s.episodes = e :: es)
    (hup : ∀ k c u, handlerCnt n k u c = u.curCntUp c)
    (hrow : ∀ cur, handleRow n cur = some cur) (htab : tableKind n kind = kind)
    (hnext : ∀ k cur, handleNext n k cur = wrapCnt info.retryCntUp cur) :
    ∃ ret t e', readretryHandleA19Sandisk info kind chip s = (some ret, t) ∧
      t.episodes = e' :: es ∧ Handled n kind chip s t e e' := by
  obtain ⟨ret, u, e', hrun, -, huup, hue, hres⟩ := setRegValue_run chip kind (s.curCntUp chip) hs
  rw [readretryHandleA19Sandisk, get_bind, bind_some hrun, modify_bind]
  let v : RetrySt :=
    { u with curCntUp := setCnt u.curCntUp chip (wrapCnt info.retryCntUp (s.curCntUp chip)) }
  have hv : v.curCntUp = setCnt s.curCntUp chip (wrapCnt info.retryCntUp (s.curCntUp chip)) :=
    congrArg (setCnt · chip _) huup
  have hcnt : ∀ k c, handlerCnt n k v c = handlerCnt n k s c ∨
      handlerCnt n k v c = handleNext n k (handlerCnt n k s c) := by
    intro k c
    rw [hup, hup, hnext, hv]
    exact setCnt_cases s.curCntUp (wrapCnt info.retryCntUp) chip c
  rcases hres with ⟨-, he'⟩ | ⟨-, he'⟩
  · refine ⟨0, v, e', rfl, hue, .of_row (hrow _) hcnt ?_ ?_⟩
    · rw [hup, hup, hnext, hv, setCnt_self]
    · rw [he', htab, hup]
  · refine ⟨0, v, e', rfl, hue, .of_timeout (hrow _) hcnt ?_⟩
    rwa [htab, hup]

/-- The Intel handler programs nothing. -/
lemma handleIntel_handled {es : List Episode} (hs : s.episodes = e :: es) :
    ∃ ret t e', readretryHandleIntel (amlnandSetReadretrySlcPara .intel20nm) chip s =
        (some ret, t) ∧ t.episodes = e' :: es ∧ Handled .intel20nm kind chip s t e e' := by
  refine ⟨0, { s with curCntLp := setCnt s.curCntLp chip (wrapCnt 7 (s.curCntLp chip)) }, e, rfl,
    hs, rfl, Or.inl rfl, fun k c => setCnt_cases s.curCntLp (wrapCnt 7) chip c, fun h => ⟨h, ?_, ?_⟩⟩
  · exact setCnt_self _ _ _
  · exact (List.append_nil _).symm

/-- The handler of `SANDISK_19NM` for upper pages. -/
lemma handleSandisk_upper_handled {es : List Episode} (hs : s.episodes = e :: es) :
    ∃ ret t e', readretryHandleSandisk (amlnandSetReadretrySlcPara .sandisk19nm) .upper chip s =
        (some ret, t) ∧ t.episodes = e' :: es ∧ Handled .sandisk19nm .upper chip s t e e' := by
  obtain ⟨ret, u, e', hrun, hulp, huup, hue, hres⟩ :=
    setRegValue_run chip .upper (s.curCntUp chip) hs
  rw [readretryHandleSandisk, get_bind, bind_some hrun]
  rcases hres with ⟨rfl, he'⟩ | ⟨hne, he'⟩
  · let v : RetrySt :=
      { u with curCntUp := setCnt u.curCntUp chip (wrapCnt 20 (s.curCntUp chip)) }
    have hv : v.curCntUp = setCnt s.curCntUp chip (wrapCnt 20 (s.curCntUp chip)) :=
      congrArg (setCnt · chip _) huup
    rw [if_neg (by simp)]
    refine ⟨0, v, e', rfl, hue, .of_row rfl (fun k c => ?_) ?_ he'⟩
    · cases k with
      | lower => exact Or.inl (congrFun hulp c)
      | upper =>
        change v.curCntUp c = s.curCntUp c ∨ v.curCntUp c = wrapCnt 20 (s.curCntUp c)
        rw [hv]
        exact setCnt_cases s.curCntUp (wrapCnt 20) chip c
    · change v.curCntUp chip = wrapCnt 20 (s.curCntUp chip)
      rw [hv, setCnt_self]
  · rw [if_pos hne]
    refine ⟨_, u, e', rfl, hue, .of_timeout rfl (fun k c => Or.inl ?_) he'⟩
    cases k with
    | lower => exact congrFun hulp c
    | upper => exact congrFun huup c

/-- **A call of the handler**, for every type. -/
lemma readretryHandle_handled {es : List Episode} (hs : s.episodes = e :: es) (n : NewType)
    (kind : PageKind) (chip : ℕ) :
    ∃ ret t e', readretryHandle n kind chip s = (some ret, t) ∧ t.episodes = e' :: es ∧
      Handled n kind chip s t e e' := by
  have hnone : ∀ n', handleRow n' (handlerCnt n' kind s chip) = none →
      handleNext n' kind (handlerCnt n' kind s chip) = handlerCnt n' kind s chip →
      Handled n' kind chip s s e e := by
    intro n' hr hnext
    refine ⟨rfl, Or.inl rfl, fun _ _ => Or.inl rfl, fun h => ⟨h, hnext.symm, ?_⟩⟩
    rw [hr]
    exact (List.append_nil _).symm
  cases n with
  | hynix26nm4gb => exact handleHynix_handled _ hs (fun _ _ _ => rfl) (fun _ => rfl) rfl fun _ _ => rfl
  | hynix26nm8gb => exact handleHynix_handled _ hs (fun _ _ _ => rfl) (fun _ => rfl) rfl fun _ _ => rfl
  | hynix20nm4gb => exact handleHynix_handled _ hs (fun _ _ _ => rfl) (fun _ => rfl) rfl fun _ _ => rfl
  | hynix20nm8gb => exact handleHynix_handled _ hs (fun _ _ _ => rfl) (fun _ => rfl) rfl fun _ _ => rfl
  | hynix1ynm8gb => exact handleHynix_handled _ hs (fun _ _ _ => rfl) (fun _ => rfl) rfl fun _ _ => rfl
  | sandiskA19nm => exact handleA19_handled _ hs (fun _ _ _ => rfl) (fun _ => rfl) rfl fun _ _ => rfl
  | sandiskA19nm4g => exact handleA19_handled _ hs (fun _ _ _ => rfl) (fun _ => rfl) rfl fun _ _ => rfl
  | intel20nm => exact handleIntel_handled hs
  | none => exact ⟨0, s, e, rfl, hs, hnone .none rfl rfl⟩
  | sandisk24nm => exact ⟨0, s, e, rfl, hs, hnone .sandisk24nm rfl rfl⟩
  | sandisk19nm =>
    cases kind with
    | upper => exact handleSandisk_upper_handled hs
    | lower =>
      refine handleLp_handled _ hs (fun _ _ => rfl) (fun k => ?_) (fun _ => rfl) rfl fun _ => rfl
      cases k with
      | lower => exact Or.inl ⟨fun _ _ => rfl, fun _ => rfl⟩
      | upper => exact Or.inr fun _ _ => rfl
  | _ =>
    exact handleLp_handled _ hs (fun _ _ => rfl) (fun _ => Or.inl ⟨fun _ _ => rfl, fun _ => rfl⟩)
      (fun _ => rfl) rfl fun _ => rfl

end Handler

/-! ## The invariant -/

/-- The rows of the first `k` retries of a chip from counter `cur` on. -/
def schedule (n : NewType) (kind : PageKind) (chip cur : ℕ) : ℕ → List (ℕ × PageKind × ℕ)
  | 0 => []
  | k + 1 => schedule n kind chip cur k ++
    (handleRow n ((handleNext n kind)^[k] cur)).toList.map (chip, tableKind n kind, ·)

/-- What is known of an episode: its counter and rows keep their bounds, and a page that was
given up outside SLC mode, its chip never being busy, was tried with the whole schedule. -/
structure Episode.Ok (n : NewType) (e : Episode) : Prop where
  cnt : e.cnt < cntBound n e.kind
  rows : ∀ x ∈ e.rows, x.2.2 < tableRows n e.kind
  full : e.eccErr = true → e.slc = false → e.timeout = false →
    e.rows = schedule n e.kind e.chip e.cnt (retryBudget n e.kind)

/-- The invariant of the retry state. -/
structure RetryInv (n : NewType) (s : RetrySt) : Prop where
  cnt : ∀ kind chip, handlerCnt n kind s chip < cntBound n kind
  episodes : ∀ e ∈ s.episodes, e.Ok n

/-- The newest episode is about a page that was retried `k` times and not given up. -/
structure RetryOpen (fl : Flash) (req : ReadReq) (chip k : ℕ) (s : RetrySt) : Prop where
  inv : RetryInv fl.newType s
  le : k ≤ retryBudget fl.newType (req.kind fl)
  newest : ∃ e es, s.episodes = e :: es ∧ e.chip = chip ∧ e.kind = req.kind fl ∧
    e.slc = req.slcMode fl ∧ e.eccErr = false ∧ (e.timeout = false →
      handlerCnt fl.newType e.kind s chip = (handleNext fl.newType e.kind)^[k] e.cnt ∧
      e.rows = schedule fl.newType e.kind chip e.cnt k)

/-- What the invariant looks at. -/
def RetrySt.view (s : RetrySt) : (ℕ → ℕ) × (ℕ → ℕ) × List Episode :=
  (s.curCntLp, s.curCntUp, s.episodes)

/-- The counter of a handler is part of the view. -/
lemma handlerCnt_view {s t : RetrySt} (h : t.view = s.view) (n : NewType) (kind : PageKind)
    (chip : ℕ) : handlerCnt n kind t chip = handlerCnt n kind s chip := by
  simp only [RetrySt.view, Prod.mk.injEq] at h
  unfold handlerCnt
  rw [h.1, h.2.1]

/-- The invariant looks at the view only. -/
lemma RetryInv.of_view {n : NewType} {s t : RetrySt} (hs : RetryInv n s) (h : t.view = s.view) :
    RetryInv n t :=
  ⟨fun kind chip => (handlerCnt_view h n kind chip) ▸ hs.cnt kind chip,
    (congrArg (fun x => x.2.2) h : t.episodes = s.episodes) ▸ hs.episodes⟩

/-- So does the record of a page under retry. -/
lemma RetryOpen.of_view {fl : Flash} {req : ReadReq} {chip k : ℕ} {s t : RetrySt}
    (hs : RetryOpen fl req chip k s) (h : t.view = s.view) : RetryOpen fl req chip k t := by
  obtain ⟨e, es, he, hchip, hkind, hslc, herr, hclean⟩ := hs.newest
  have hep : t.episodes = s.episodes := congrArg (fun x => x.2.2) h
  refine ⟨hs.inv.of_view h, hs.le, e, es, hep.trans he, hchip, hkind, hslc, herr, fun htime => ?_⟩
  rw [handlerCnt_view h]
  exact hclean htime

/-- A wait for the chip or for the ECC engine changes nothing the invariant looks at. -/
lemma spec_retryOutcome {P : RetrySt → Prop} {E : RetrySt → Prop}
    (hP : ∀ s t : RetrySt, t.view = s.view → P s → P t) :
    Spec P retryOutcome (fun _ => P) E := fun s hs => hP s _ rfl hs

/-- Asking the ready line keeps what looks at the view only. -/
lemma spec_queneRb {P : RetrySt → Prop} {E : RetrySt → Prop}
    (hP : ∀ s t : RetrySt, t.view = s.view → P s → P t) :
    Spec P queneRb (fun _ => P) E := fun s hs => hP s _ rfl hs

section Run

variable {fl : Flash} {req : ReadReq} {chip k : ℕ}

/-- A handler that advances some counters keeps all of them below the bound. -/
lemma handlerCnt_le (n : NewType) (kind : PageKind) {s t : RetrySt}
    (h : ∀ c, handlerCnt n kind t c = handlerCnt n kind s c ∨
      handlerCnt n kind t c = handleNext n kind (handlerCnt n kind s c))
    (hs : ∀ c, handlerCnt n kind s c < cntBound n kind) (c : ℕ) :
    handlerCnt n kind t c < cntBound n kind := by
  rcases h c with h | h
  · exact h ▸ hs c
  · exact h ▸ handleNext_lt (hs c)

/-- One more retry. -/
lemma spec_readretryHandle (hk : k < retryBudget fl.newType (req.kind fl)) :
    Spec (RetryOpen fl req chip k) (readretryHandle fl.newType (req.kind fl) chip)
      (fun _ => RetryOpen fl req chip (k + 1)) (RetryInv fl.newType) := by
  intro s hs
  obtain ⟨e, es, he, hchip, hkind, hslc, herr, hclean⟩ := hs.newest
  obtain ⟨ret, t, e', hrun, ht, hh⟩ :=
    readretryHandle_handled he fl.newType (req.kind fl) chip
  rw [hrun]
  have hsame := hh.same
  simp only [Prod.mk.injEq] at hsame
  obtain ⟨hc', hk', hs', hcnt', herr'⟩ := hsame
  have hok : e.Ok fl.newType := hs.inv.episodes e (he ▸ List.mem_cons_self)
  have hok' : e'.Ok fl.newType := by
    refine ⟨by rw [hcnt', hk']; exact hok.cnt, fun x hx => ?_, fun h => ?_⟩
    · rw [hk']
      rcases hh.rows with hrows | ⟨r, hr, hrows⟩
      · exact hok.rows x (hrows ▸ hx)
      · rw [hrows, List.mem_append, List.mem_singleton] at hx
        rcases hx with hx | rfl
        · exact hok.rows x hx
        · rw [hkind]
          exact handleRow_lt (hs.inv.cnt _ _) hr
    · rw [herr', herr] at h
      cases h
  refine ⟨⟨fun kind c => ?_, fun x hx => ?_⟩, hk, e', es, ht, hc'.trans hchip, hk'.trans hkind,
    hs'.trans hslc, herr'.trans herr, fun htime => ?_⟩
  · exact handlerCnt_le fl.newType kind (hh.cnt kind) (hs.inv.cnt kind) c
  · rw [ht] at hx
    rcases List.mem_cons.1 hx with rfl | hx
    · exact hok'
    · exact hs.inv.episodes x (he ▸ List.mem_cons_of_mem _ hx)
  · obtain ⟨htime0, hnext, hrows⟩ := hh.clean htime
    obtain ⟨hcur, hsched⟩ := hclean htime0
    rw [hkind] at hcur hsched
    rw [hk', hcnt', hkind, hnext, hrows, hcur, hsched, schedule, Function.iterate_succ_apply']
    exact ⟨rfl, rfl⟩

/-- A new episode. -/
lemma spec_startRetry :
    Spec (RetryInv fl.newType) (startRetry fl req chip)
      (fun _ => RetryOpen fl req chip 0) (RetryInv fl.newType) := by
  refine Spec.modify fun s hs => ?_
  refine ⟨⟨hs.cnt, fun x hx => ?_⟩, Nat.zero_le _, _, _, rfl, rfl, rfl, rfl, rfl,
    fun _ => ⟨rfl, rfl⟩⟩
  rcases List.mem_cons.1 hx with rfl | hx
  · exact ⟨hs.cnt _ _, by simp, nofun⟩
  · exact hs.episodes x hx

/-- A page that is given up after `k` retries; outside SLC mode these were all it has. -/
lemma spec_noteEccErr (hfull : req.slcMode fl = false → k = retryBudget fl.newType (req.kind fl)) :
    Spec (RetryOpen fl req chip k) (noteEpisode fun e => { e with eccErr := true })
      (fun _ => RetryInv fl.newType) (RetryInv fl.newType) := by
  intro s hs
  obtain ⟨e, es, he, hchip, hkind, hslc, herr, hclean⟩ := hs.newest
  rw [noteEpisode_cons _ he]
  have hok : e.Ok fl.newType := hs.inv.episodes e (he ▸ List.mem_cons_self)
  refine ⟨hs.inv.cnt, fun x hx => ?_⟩
  rcases List.mem_cons.1 hx with rfl | hx
  · refine ⟨hok.cnt, hok.rows, fun _ hns htime => ?_⟩
    have hk := hfull (hslc.symm.trans hns)
    rw [(hclean htime).2, hk, hkind, hchip]
  · exact hs.inv.episodes x (he ▸ List.mem_cons_of_mem _ hx)

/-- A type without retry has no retries to make. -/
lemma retryBudget_of_no_flag {n : NewType} (h : (amlnandSetReadretrySlcPara n).flag = false)
    (kind : PageKind) : retryBudget n kind = 0 := by
  cases n with
  | none => rfl
  | sandisk24nm => rfl
  | _ => cases h

/-- **One transfer**: a retry follows, or the page is blank, or it is done with. -/
lemma spec_readAttempt :
    Spec (RetryOpen fl req chip k) (readAttempt fl req chip k)
      (fun r s => match r.1 with
        | .again => RetryOpen fl req chip r.2 s
        | .blank => RetryOpen fl req chip r.2 s
        | _ => RetryInv fl.newType s) (RetryInv fl.newType) := by
  refine Spec.bind (spec_retryOutcome fun _ _ hv h => h.of_view hv) fun o => ?_
  refine Spec.ite (fun _ => Spec.pure fun _ h => h.inv) fun _ => ?_
  cases o.ecc with
  | bug => exact Spec.hang fun _ h => h.inv
  | ok => exact Spec.pure fun _ h => h.inv
  | blank => exact Spec.pure fun _ h => h
  | fail =>
    refine Spec.ite (fun hretry => Spec.ite (fun hk => ?_) fun hk => ?_) fun hretry => ?_
    · exact Spec.bind (spec_readretryHandle hk) fun _ => Spec.pure fun _ h => h
    · intro s hs
      have hle := hs.le
      exact Spec.bind (spec_noteEccErr fun _ => by omega) (fun _ => Spec.pure fun _ h => h) s hs
    · intro s hs
      have hle := hs.le
      refine Spec.bind (spec_noteEccErr fun hslc => ?_) (fun _ => Spec.pure fun _ h => h) s hs
      have hflag : (amlnandSetReadretrySlcPara fl.newType).flag = false := by
        simpa [hslc] using hretry
      rw [retryBudget_of_no_flag hflag] at hle ⊢
      omega

/-! ## Leaving the retry mode -/

/-- Clearing the counters of the lower pages. -/
lemma RetryInv.clearLp {n : NewType} {s : RetrySt} (h : RetryInv n s) :
    RetryInv n { s with curCntLp := fun _ => 0 } := by
  refine ⟨fun kind chip => ?_, h.episodes⟩
  have hpos := cntBound_pos n kind
  have hcnt := h.cnt kind chip
  cases n with
  | sandiskA19nm => exact hcnt
  | sandiskA19nm4g => exact hcnt
  | sandisk19nm =>
    cases kind with
    | lower => exact hpos
    | upper => exact hcnt
  | _ => exact hpos

/-- Clearing the counters of the upper pages. -/
lemma RetryInv.clearUp {n : NewType} {s : RetrySt} (h : RetryInv n s) :
    RetryInv n { s with curCntUp := fun _ => 0 } := by
  refine ⟨fun kind chip => ?_, h.episodes⟩
  have hpos := cntBound_pos n kind
  have hcnt := h.cnt kind chip
  cases n with
  | sandiskA19nm => exact hpos
  | sandiskA19nm4g => exact hpos
  | sandisk19nm =>
    cases kind with
    | lower => exact hcnt
    | upper => exact hpos
  | _ => exact hcnt

section Exit

variable {n : NewType}

/-- Asking the ready line. -/
lemma inv_queneRb : Spec (RetryInv n) queneRb (fun _ => RetryInv n) (RetryInv n) :=
  spec_queneRb fun _ _ hv h => h.of_view hv

/-- Clearing the counters of the lower pages, as an action. -/
lemma inv_clearLp : Spec (RetryInv n) clearLp (fun _ => RetryInv n) (RetryInv n) :=
  Spec.modify fun _ h => h.clearLp

/-- Setting the default values. -/
lemma inv_setDefValue : Spec (RetryInv n) setDefValue (fun _ => RetryInv n) (RetryInv n) := by
  refine Spec.bind inv_queneRb fun _ => Spec.ite (fun _ => Spec.pure fun _ h => h) fun _ => ?_
  refine Spec.bind inv_queneRb fun _ => Spec.ite (fun _ => ?_) fun _ => ?_
  · exact Spec.pure fun _ h => h
  · exact Spec.pure fun _ h => h

/-- A reset of the chip. -/
lemma inv_nandReset : Spec (RetryInv n) nandReset (fun _ => RetryInv n) (RetryInv n) := by
  refine Spec.bind inv_queneRb fun _ => Spec.ite (fun _ => ?_) fun _ => ?_
  · exact Spec.pure fun _ h => h
  · exact Spec.pure fun _ h => h

/-- An exit that waits for the chip first. -/
lemma inv_exitWhenReady {rest : Act RetrySt ℤ}
    (h : Spec (RetryInv n) rest (fun _ => RetryInv n) (RetryInv n)) :
    Spec (RetryInv n) (exitWhenReady rest) (fun _ => RetryInv n) (RetryInv n) := by
  refine Spec.bind inv_queneRb fun _ => Spec.ite (fun _ => Spec.pure fun _ h => h) fun _ => ?_
  exact Spec.bind inv_clearLp fun _ => h

/-- Setting the default values of a Hynix chip. -/
lemma inv_readretrySetDefValHynix (m : NewType) :
    Spec (RetryInv n) (readretrySetDefValHynix m) (fun _ => RetryInv n) (RetryInv n) := by
  refine Spec.bind inv_clearLp fun _ => Spec.bind inv_setDefValue fun _ => ?_
  exact Spec.ite (fun _ => inv_setDefValue) fun _ => Spec.pure fun _ h => h

/-- Waiting for the chip once more and resetting it. -/
lemma inv_readyReset : Spec (RetryInv n)
    (do if ¬(← queneRb) then pure (-nandFailed) else nandReset) (fun _ => RetryInv n)
    (RetryInv n) :=
  Spec.bind inv_queneRb fun _ => Spec.ite (fun _ => Spec.pure fun _ h => h) fun _ => inv_nandReset

/-- The exit of any type. -/
lemma inv_readretryExit (m : NewType) :
    Spec (RetryInv n) (readretryExit m) (fun _ => RetryInv n) (RetryInv n) := by
  have hpure : Spec (RetryInv n) (pure 0 : Act RetrySt ℤ) (fun _ => RetryInv n) (RetryInv n) :=
    Spec.pure fun _ h => h
  have ha19 := inv_exitWhenReady (Spec.bind (inv_setDefValue (n := n)) fun _ => inv_readyReset)
  cases m with
  | hynix26nm4gb => exact inv_readretrySetDefValHynix _
  | hynix26nm8gb => exact inv_readretrySetDefValHynix _
  | hynix20nm4gb => exact inv_readretrySetDefValHynix _
  | hynix20nm8gb => exact inv_readretrySetDefValHynix _
  | hynix1ynm8gb => exact inv_readretrySetDefValHynix _
  | toshiba2xnm => exact inv_exitWhenReady inv_nandReset
  | toshibaA19nm => exact inv_exitWhenReady inv_nandReset
  | sumsung2xnm => exact inv_exitWhenReady inv_setDefValue
  | micron20nm => exact inv_exitWhenReady inv_setDefValue
  | intel20nm => exact inv_exitWhenReady hpure
  | sandiskA19nm => exact ha19
  | sandiskA19nm4g => exact ha19
  | sandisk19nm =>
    exact inv_exitWhenReady (Spec.bind (Spec.modify fun _ h => h.clearUp) fun _ => inv_readyReset)
  | none => exact hpure
  | sandisk24nm => exact hpure

end Exit

/-- The end of a page. -/
lemma inv_finishPage (r : AttemptEnd) (resets : Bool) (retryCnt : ℕ) :
    Spec (RetryInv fl.newType) (finishPage fl r resets retryCnt) (fun _ => RetryInv fl.newType)
      (RetryInv fl.newType) := by
  refine Spec.bind (.when (Spec.bind inv_nandReset fun _ => Spec.pure fun _ h => h)) fun _ => ?_
  exact .when (Spec.bind (inv_readretryExit _) fun _ => Spec.pure fun _ h => h)

/-! ## Whole reads -/

/-- A round of a read over one plane. -/
lemma inv_onePlaneRound (flag : Bool) :
    Spec (RetryOpen fl req chip k) (onePlaneRound fl req flag chip k)
      (fun r s => Sum.elim (fun k' => RetryOpen fl req chip k' s) (fun _ => RetryInv fl.newType s) r)
      (RetryInv fl.newType) := by
  refine Spec.bind (spec_queneRb fun _ _ hv h => h.of_view hv) fun _ => ?_
  refine Spec.ite (fun _ => Spec.pure fun _ h => h.inv) fun _ => ?_
  refine Spec.bind spec_readAttempt fun r => ?_
  obtain ⟨r, k'⟩ := r
  cases r with
  | again => exact Spec.pure fun _ h => h
  | blank => exact Spec.pure fun _ h => h.inv
  | corrected => exact Spec.bind (inv_finishPage _ _ _) fun _ => Spec.pure fun _ h => h
  | uncorrected => exact Spec.bind (inv_finishPage _ _ _) fun _ => Spec.pure fun _ h => h

/-- The first plane of a round over two. -/
lemma spec_plane0Part (v : Bool × ℕ) :
    Spec (RetryOpen fl req chip v.2) (plane0Part fl req chip v)
      (fun r s => Sum.elim (fun v' => RetryOpen fl req chip v'.2 s)
        (fun v' => RetryOpen fl req chip v'.2 s) r) (RetryInv fl.newType) := by
  refine Spec.ite (fun _ => Spec.pure fun _ h => h) fun _ => ?_
  refine Spec.bind spec_readAttempt fun r => ?_
  obtain ⟨r, k'⟩ := r
  have hend : ∀ r, Spec (RetryInv fl.newType) (do
        finishPage fl r false k'
        startRetry fl req chip
        pure (Sum.inr (true, 0)))
      (fun (r : (Bool × ℕ) ⊕ (Bool × ℕ)) s => Sum.elim (fun v' => RetryOpen fl req chip v'.2 s)
        (fun v' => RetryOpen fl req chip v'.2 s) r) (RetryInv fl.newType) :=
    fun r => Spec.bind (inv_finishPage _ _ _) fun _ => Spec.bind spec_startRetry fun _ =>
      Spec.pure fun _ h => h
  cases r with
  | again => exact Spec.pure fun _ h => h
  | blank => exact Spec.pure fun _ h => h
  | corrected => exact hend _
  | uncorrected => exact hend _

/-- The second plane of a round over two. -/
lemma spec_plane1Part (v : Bool × ℕ) :
    Spec (RetryOpen fl req chip v.2) (plane1Part fl req chip v)
      (fun r s => Sum.elim (fun v' => RetryOpen fl req chip v'.2 s)
        (fun _ => RetryInv fl.newType s) r) (RetryInv fl.newType) := by
  refine Spec.bind spec_readAttempt fun r => ?_
  obtain ⟨r, k'⟩ := r
  have hend : ∀ r, Spec (RetryInv fl.newType) (do
        finishPage fl r true k'
        startRetry fl req chip
        pure (Sum.inr (.next false)))
      (fun (r : (Bool × ℕ) ⊕ TurnEnd) s => Sum.elim (fun v' => RetryOpen fl req chip v'.2 s)
        (fun _ => RetryInv fl.newType s) r) (RetryInv fl.newType) :=
    fun r => Spec.bind (inv_finishPage _ _ _) fun _ => Spec.bind spec_startRetry fun _ =>
      Spec.pure fun _ h => h.inv
  cases r with
  | again => exact Spec.pure fun _ h => h
  | blank => exact Spec.pure fun _ h => h.inv
  | corrected => exact hend _
  | uncorrected => exact hend _

/-- A round of a read over two planes. -/
lemma inv_twoPlaneRound (v : Bool × ℕ) :
    Spec (RetryOpen fl req chip v.2) (twoPlaneRound fl req chip v)
      (fun r s => Sum.elim (fun v' => RetryOpen fl req chip v'.2 s)
        (fun _ => RetryInv fl.newType s) r) (RetryInv fl.newType) := by
  refine Spec.bind (spec_queneRb fun _ _ hv h => h.of_view hv) fun _ => ?_
  refine Spec.ite (fun _ => Spec.pure fun _ h => h.inv) fun _ => ?_
  refine Spec.bind (spec_plane0Part v) fun r => ?_
  cases r with
  | inl v' => exact Spec.pure fun _ h => h
  | inr v' => exact Spec.ite (fun _ => Spec.pure fun _ h => h.inv) fun _ => spec_plane1Part v'

/-- The turn of a chip. -/
lemma inv_readChip (flag : Bool) :
    Spec (RetryInv fl.newType) (readChip fl req flag chip) (fun _ => RetryInv fl.newType)
      (RetryInv fl.newType) := by
  refine Spec.bind spec_startRetry fun _ => Spec.ite (fun _ => ?_) fun _ => ?_
  · exact Spec.loopUntil (fun v => inv_twoPlaneRound v) (fun _ _ h => h.inv) _ (flag, 0)
  · exact Spec.loopUntil (fun v => inv_onePlaneRound flag) (fun _ _ h => h.inv) _ 0

/-- The turns of the chips. -/
lemma inv_readChips (flag : Bool) (chips : List ℕ) :
    Spec (RetryInv fl.newType) (readChips fl req flag chips) (fun _ => RetryInv fl.newType)
      (RetryInv fl.newType) := by
  induction chips generalizing flag with
  | nil => exact Spec.pure fun _ h => h
  | cons chip rest ih =>
    refine Spec.bind (inv_readChip flag) fun r => ?_
    cases r with
    | stop => exact Spec.pure fun _ h => h
    | next flag => exact ih flag

/-- Sending the read command. -/
lemma inv_sendRead {n : NewType} (chips : List ℕ) :
    Spec (RetryInv n) (sendRead chips) (fun _ => RetryInv n) (RetryInv n) := by
  induction chips with
  | nil => exact Spec.pure fun _ h => h
  | cons chip rest ih =>
    exact Spec.bind inv_queneRb fun _ => Spec.ite (fun _ => Spec.pure fun _ h => h) fun _ => ih

/-- **Every sequence of reads** keeps the invariant. -/
lemma spec_readPages (reqs : List ReadReq) :
    Spec (RetryInv fl.newType) (readPages fl reqs) (fun _ => RetryInv fl.newType)
      (RetryInv fl.newType) := by
  induction reqs with
  | nil => exact Spec.pure fun _ h => h
  | cons req reqs ih =>
    refine Spec.bind ?_ fun _ => ih
    refine Spec.bind (inv_sendRead _) fun ready => Spec.ite (fun _ => ?_) fun _ => ?_
    · exact inv_readChips _ _
    · exact Spec.pure fun _ h => h

end Run

/-! ## Coverage -/

/-- Every row of the table of the page was programmed into its chip, and no row outside it. -/
def Episode.Covered (n : NewType) (e : Episode) : Prop :=
  (∀ r < tableRows n e.kind, (e.chip, tableKind n e.kind, r) ∈ e.rows) ∧
    ∀ x ∈ e.rows, x.2.2 < tableRows n e.kind

/-- When the retries that start at a counter cover the table. The handlers of the `A19` types
and of Intel never do; the 26 nm Hynix types have as many retries as rows and start a rotated
round at every sixth value of the counter, the last of which the counter does not finish. -/
def StartsFresh (n : NewType) (cnt : ℕ) : Prop :=
  match n with
  | .sandiskA19nm => False
  | .sandiskA19nm4g => False
  | .intel20nm => False
  | .hynix26nm4gb => cnt % 6 = 0 ∧ cnt ≠ 252
  | .hynix26nm8gb => cnt % 6 = 0 ∧ cnt ≠ 252
  | _ => True

/-- The rows of a schedule are those the handler sets in its rounds. -/
lemma mem_schedule {n : NewType} {kind : PageKind} {chip cur r : ℕ} (k : ℕ) :
    (chip, tableKind n kind, r) ∈ schedule n kind chip cur k ↔
      ∃ j < k, handleRow n ((handleNext n kind)^[j] cur) = some r := by
  induction k with
  | zero => simp [schedule]
  | succ k ih =>
    rw [schedule, List.mem_append, ih]
    constructor
    · rintro (⟨j, hj, h⟩ | h)
      · exact ⟨j, by omega, h⟩
      · refine ⟨k, Nat.lt_succ_self k, ?_⟩
        simpa using h
    · rintro ⟨j, hj, h⟩
      rcases Nat.lt_succ_iff_lt_or_eq.1 hj with hj | rfl
      · exact Or.inl ⟨j, hj, h⟩
      · exact Or.inr (by simpa using h)

/-- A counter that wraps after `m` rows. -/
lemma iterate_wrapCnt {m cur : ℕ} (h : cur < m) (j : ℕ) : (wrapCnt m)^[j] cur = (cur + j) % m := by
  induction j with
  | zero => exact (Nat.mod_eq_of_lt h).symm
  | succ j ih =>
    rw [Function.iterate_succ_apply', ih, wrapCnt]
    have hm : (cur + j) % m < m := Nat.mod_lt _ (by omega)
    have hadd : (cur + (j + 1)) % m = ((cur + j) % m + 1) % m := by
      rw [Nat.mod_add_mod, Nat.add_assoc]
    rw [hadd]
    split
    · have : (cur + j) % m + 1 = m := by omega
      rw [this, Nat.mod_self]
    · exact (Nat.mod_eq_of_lt (by omega)).symm

/-- A counter of a byte. -/
lemma iterate_byte {cur : ℕ} (h : cur < 2 ^ 8) (j : ℕ) :
    (fun x => (x + 1) % 2 ^ 8)^[j] cur = (cur + j) % 2 ^ 8 := by
  induction j with
  | zero => exact (Nat.mod_eq_of_lt h).symm
  | succ j ih =>
    rw [Function.iterate_succ_apply', ih]
    omega

/-- As many steps as there are rows pass every row, wherever a wrapping counter starts. -/
lemma exists_wrap {m cur r : ℕ} (h : cur < m) (hr : r < m) : ∃ j < m, (wrapCnt m)^[j] cur = r := by
  by_cases hle : cur ≤ r
  · refine ⟨r - cur, by omega, ?_⟩
    rw [iterate_wrapCnt h, Nat.add_sub_cancel' hle, Nat.mod_eq_of_lt hr]
  · refine ⟨r + m - cur, by omega, ?_⟩
    rw [iterate_wrapCnt h, show cur + (r + m - cur) = r + m by omega, Nat.add_mod_right,
      Nat.mod_eq_of_lt hr]

/-- The rotated rounds of six rows: six retries pass every row only from the start of a
round. -/
lemma hynixSix : ∀ cur < 2 ^ 8,
    (∀ r < 6, ∃ j < 6, hynixRow 6 ((cur + j) % 2 ^ 8) = r) ↔ cur % 6 = 0 ∧ cur ≠ 252 := by
  decide +kernel

/-- The formula of the row also holds below the number of rows. -/
lemma hynixRow_eq (cnt cur : ℕ) :
    hynixRow cnt cur = (cur / cnt + cur % cnt) % cnt := by
  unfold hynixRow
  split
  · rename_i hlt
    rw [Nat.div_eq_of_lt hlt, Nat.mod_eq_of_lt hlt, Nat.zero_add, Nat.mod_eq_of_lt hlt]
  · rfl

/-- Seven rounds of seven rows pass every row from anywhere: in the first whole round, or in
the round after the counter has overflowed. -/
lemma hynixSeven {cur r : ℕ} (hcur : cur < 2 ^ 8) (hr : r < 7) :
    ∃ j < 49, hynixRow 7 ((cur + j) % 2 ^ 8) = r := by
  by_cases h : cur ≤ 238
  · obtain ⟨z, hz⟩ : ∃ z, z = (cur + 6) / 7 := ⟨_, rfl⟩
    obtain ⟨o, ho⟩ : ∃ o, o = (r + 6 * z) % 7 := ⟨_, rfl⟩
    refine ⟨7 * z + o - cur, by omega, ?_⟩
    rw [hynixRow_eq, show (cur + (7 * z + o - cur)) % 2 ^ 8 = 7 * z + o by omega,
      show (7 * z + o) / 7 = z by omega, show (7 * z + o) % 7 = o by omega]
    omega
  · refine ⟨256 - cur + r, by omega, ?_⟩
    rw [hynixRow_eq]
    omega

/-- **The schedule covers the table** exactly from the counters `StartsFresh` names. -/
lemma schedule_covers_iff {n : NewType} (hflag : (amlnandSetReadretrySlcPara n).flag = true)
    {kind : PageKind} {cur : ℕ} (hcur : cur < cntBound n kind) :
    (∀ r < tableRows n kind, ∃ j < retryBudget n kind,
      handleRow n ((handleNext n kind)^[j] cur) = some r) ↔ StartsFresh n cur := by
  have hwrap : ∀ m, cur < m → ∀ r < m, ∃ j < m, some ((wrapCnt m)^[j] cur) = some r := by
    intro m hm r hr
    obtain ⟨j, hj, h⟩ := exists_wrap hm hr
    exact ⟨j, hj, congrArg some h⟩
  have hsix : cur < 2 ^ 8 → ((∀ r < 6, ∃ j < 6,
      some (hynixRow 6 ((fun x => (x + 1) % 2 ^ 8)^[j] cur)) = some r) ↔
      cur % 6 = 0 ∧ cur ≠ 252) := by
    intro h
    simp only [iterate_byte h, Option.some.injEq]
    exact hynixSix cur h
  have hseven : cur < 2 ^ 8 → ∀ r < 7, ∃ j < 49,
      some (hynixRow 7 ((fun x => (x + 1) % 2 ^ 8)^[j] cur)) = some r := by
    intro h
    simp only [iterate_byte h, Option.some.injEq]
    exact fun r hr => hynixSeven h hr
  -- the counter of the `A19` handler stays at zero, so their second row is never reached
  have ha19 : cur < 1 → ∀ m, ¬∃ j < m, some ((wrapCnt 0)^[j] cur) = some 1 := by
    rintro h m ⟨j, -, hj⟩
    have hzero : (wrapCnt 0)^[j] cur = 0 := by
      cases j with
      | zero => exact Nat.lt_one_iff.1 h
      | succ j => rw [Function.iterate_succ_apply', wrapCnt_zero]
    rw [hzero] at hj
    cases hj
  cases n with
  | none => cases hflag
  | sandisk24nm => cases hflag
  | hynix26nm4gb => exact hsix hcur
  | hynix26nm8gb => exact hsix hcur
  | hynix20nm4gb => exact iff_of_true (hseven hcur) trivial
  | hynix20nm8gb => exact iff_of_true (hseven hcur) trivial
  | hynix1ynm8gb => exact iff_of_true (hseven hcur) trivial
  | sandiskA19nm =>
    exact iff_of_false (fun h => ha19 hcur _ (h 1 (show 1 < 29 by decide))) not_false
  | sandiskA19nm4g =>
    exact iff_of_false (fun h => ha19 hcur _ (h 1 (show 1 < 30 by decide))) not_false
  | intel20nm =>
    refine iff_of_false (fun h => ?_) not_false
    obtain ⟨j, -, hj⟩ := h 0 (show 0 < 7 by decide)
    cases hj
  | _ => exact iff_of_true (hwrap _ hcur) trivial

/-- The invariant holds before the first read. -/
lemma retryInv_start (n : NewType) (plan : ℕ → RetryOutcome) : RetryInv n { plan := plan } := by
  refine ⟨fun kind chip => ?_, by simp⟩
  have hpos := cntBound_pos n kind
  have hzero : handlerCnt n kind { plan := plan } chip = 0 := by
    unfold handlerCnt
    split
    · rfl
    · rfl
    · exact ite_self _
    · rfl
  rw [hzero]
  exact hpos

/-- **Read retry covers its table** exactly from the counters `StartsFresh` names: in every
sequence of reads from bring-up on, for every page that is given up outside SLC mode and whose
register writes never find the chip busy.

**Proof sketch.** Every step of every read keeps `RetryInv`, which says that such a page was
tried with the whole schedule of its type from the counter on that it started with. -/
theorem covered_iff_startsFresh (fl : Flash)
    (hflag : (amlnandSetReadretrySlcPara fl.newType).flag = true) (plan : ℕ → RetryOutcome)
    (reqs : List ReadReq) (e : Episode)
    (he : e ∈ (readPages fl reqs { plan := plan }).2.episodes) (herr : e.eccErr = true)
    (hslc : e.slc = false) (htime : e.timeout = false) :
    e.Covered fl.newType ↔ StartsFresh fl.newType e.cnt := by
  have hinv : RetryInv fl.newType (readPages fl reqs { plan := plan }).2 :=
    (spec_readPages reqs).final (retryInv_start _ plan)
  have hok := hinv.episodes e he
  rw [← schedule_covers_iff hflag hok.cnt, Episode.Covered, and_iff_left hok.rows]
  rw [hok.full herr hslc htime]
  exact forall₂_congr fun r _ => mem_schedule _

/-- One chip of a type, with 8 KiB pages and 256 pages per block. -/
def Flash.ofType (n : NewType) : Flash :=
  { Flash.oneChip with newType := n, hynix_ppb := fun _ => rfl }

/-- A page that the ECC engine never corrects, on a chip that always answers. -/
def hopeless : ℕ → RetryOutcome := fun _ => ⟨.fail, true⟩

/-- The seven retries of the Micron type cover the table. -/
theorem covered_micron :
    ∃ e ∈ (readPages (Flash.ofType .micron20nm) [{ para := {} }] { plan := hopeless }).2.episodes,
      e.eccErr = true ∧ e.slc = false ∧ e.timeout = false ∧ e.Covered .micron20nm := by
  have he : (⟨0, .lower, false, 0, (List.range 7).map fun r => (0, .lower, r), false, true⟩ :
      Episode) ∈
      (readPages (Flash.ofType .micron20nm) [{ para := {} }] { plan := hopeless }).2.episodes := by
    decide +kernel
  exact ⟨_, he, rfl, rfl, rfl, (covered_iff_startsFresh (Flash.ofType .micron20nm) rfl hopeless
    [{ para := {} }] _ he rfl rfl rfl).2 trivial⟩

/-- The 29 retries of `SANDISK_A19NM` program row 0 only. -/
theorem not_covered_sandiskA19 :
    ∃ e ∈ (readPages (Flash.ofType .sandiskA19nm) [{ para := {} }] { plan := hopeless }).2.episodes,
      e.eccErr = true ∧ e.slc = false ∧ e.timeout = false ∧ ¬e.Covered .sandiskA19nm := by
  have he : (⟨0, .lower, false, 0, List.replicate 29 (0, .lower, 0), false, true⟩ : Episode) ∈
      (readPages (Flash.ofType .sandiskA19nm) [{ para := {} }] { plan := hopeless }).2.episodes := by
    decide +kernel
  refine ⟨_, he, rfl, rfl, rfl, fun hcov => ?_⟩
  have hrow := hcov.1 1 (by decide)
  simp at hrow

end Amlnf
