import Amlnf.Phy.LastPlace

set_option relaxedAutoImplicit false
set_option autoImplicit false

/-!
# Saving, scanning and reading back

On chips that report no failure, after any sequence of saves under one name, a fresh scan and a
read return the payload of the last save that succeeded.

## Main definitions

* `saveAll`, `freshRead` — a sequence of saves, and a scan from an empty `arg_info` with a read.
* `Start`, `HasPlace` — where a sequence of saves starts, and the free places it needs.
* `SavesFit` — every save of a sequence finds room for its copies.
* `RoundTrips` — the round trip of a sequence of saves.

## Main results

* `Orderly.saveAll` — what holds between saves holds after a sequence of saves.
* `freshRead_of_holds` — a fresh scan and a read give what the state holds.
* `save_scan_read` — the round trip.
-/

namespace Amlnf

open Act

/-- Save payloads one after another under a name. -/
def saveAll (fl : Flash) (name : RecName) : List (Buf × ℕ) → Act St Unit
  | [] => pure ()
  | p :: ps => do
    let _ ← saveInfo fl name p.1 p.2
    saveAll fl name ps

/-- A scan from an `arg_info` that is zero except for its type, then a read. -/
def freshRead (fl : Flash) (name : RecName) (buf : Buf) (size : ℕ) : Act St (ℤ × Buf) := do
  modifyInfo name fun a => { argType := a.argType }
  let _ ← amlnandCheckInfoByName fl name size
  amlnandReadInfoByName fl name buf size

/-- The saves return, and if the last one succeeds its payload is read back after a fresh scan. -/
def RoundTrips (fl : Flash) (name : RecName) (s : St) (ps : List (Buf × ℕ)) (Q : Buf) (size : ℕ) :
    Prop :=
  ∃ t ret u, saveAll fl name ps s = (some (), t) ∧ saveInfo fl name Q size t = (some ret, u) ∧
    (0 ≤ ret → ∀ buf, ∃ out w, freshRead fl name buf size u = (some (0, out), w) ∧
      ∀ i < size, out i = Q i)

/-- Where a sequence of saves starts: chips that report no failure, an allocator that picks only
blocks the scan visits, and either no block under the name and no record in `arg_info`, or one such
block, the one `arg_info` designates. The copies of a `FULL_PAGE` record take `pages` pages. -/
structure Start (fl : Flash) (name : RecName) (type : ArgType) (pages : ℕ) (s : St) : Prop where
  ready : Ready s
  idle : s.state = .ready
  argType : (s.info name).argType = type
  visits : ∀ b, Candidate fl s.blkStatus s.reservedBlk 0 b → ScanVisits fl s.blkStatus b
  area : ∃ n, ReserveEnd fl s.blkStatus n ∧ n < fl.startBlk + scanFuel
  record : NoRecord fl s name ∨
    ∃ size P, Holds fl s name size P ∧ (type = .fullPage → fl.argPages size = pages)

/-- The list of reserved blocks has a free place. If it has to take a record that is not there yet
and has no second one, block 255, whose number marks a free place, is none the allocator may take. -/
def HasPlace (fl : Flash) (name : RecName) (s : St) : Prop :=
  (0xff : UInt8) ∈ s.reservedBlk ∧
    ((s.info name).argValid = true ∨ 2 ≤ s.reservedBlk.count 0xff ∨ NoBlock255 fl s.blkStatus)

/-- Every save of a sequence finds room for its copies on the record pages. -/
def SavesFit (fl : Flash) (name : RecName) : List (Buf × ℕ) → St → Prop
  | [], _ => True
  | p :: ps, s => CopiesFit fl p.2 (s.info name) ∧
      SavesFit fl name ps (saveInfo fl name p.1 p.2 s).2

section

variable {fl : Flash} {name : RecName} {type : ArgType} {pages size : ℕ} {s : St} {Q : Buf}

/-- What holds between saves, with one more place if the last one has been taken. -/
def Orderly (fl : Flash) (name : RecName) (type : ArgType) (pages : ℕ) (s : St) : Prop :=
  ∃ rl, (rl = s.reservedBlk ∨ LastPlace fl name s rl ∧ NoBlock255 fl s.blkStatus) ∧
    Stable fl name type pages (s.setList rl)

lemma Start.orderly (h : Start fl name type pages s) (hfree : HasPlace fl name s) :
    Orderly fl name type pages s := by
  have hagree : ∀ b excl, Candidate fl s.blkStatus s.reservedBlk excl b →
      ScanVisits fl s.blkStatus b := by
    intro b excl hb
    have hpos := fl.startBlk_pos
    have hge := hb.1.1
    exact h.visits b ⟨hb.1, hb.2.1, by omega, hb.2.2.2⟩
  rcases h.record with hno | ⟨size₀, P, hh, hp⟩
  · by_cases hcount : 2 ≤ s.reservedBlk.count 0xff
    · exact ⟨_, Or.inl rfl, h.ready, h.argType, hagree, h.area, Or.inl ⟨hno, hcount⟩⟩
    · have h255 : NoBlock255 fl s.blkStatus := by
        rcases hfree.2 with hv | hc | h255
        · exact absurd (hv.symm.trans hno.invalid) (by decide)
        · exact absurd hc hcount
        · exact h255
      have hlast : LastPlace fl name s (0xff :: s.reservedBlk) := .spare (.refl _) hfree.1
      refine ⟨_, Or.inr ⟨hlast, h255⟩, ⟨h.ready.calm, h.ready.lock⟩, h.argType,
        fun b excl hb => hagree b excl (hlast.candidate hb), h.area,
        Or.inl ⟨⟨hno.invalid, hno.page, hno.none⟩, ?_⟩⟩
      change 2 ≤ (0xff :: s.reservedBlk).count 0xff
      have hpos := List.count_pos_iff.2 hfree.1
      rw [List.count_cons_self]
      omega
  · exact ⟨_, Or.inl rfl, h.ready, h.argType, hagree, h.area, Or.inr ⟨hfree.1, size₀, P, hh, hp⟩⟩

/-- Every save whose copies fit returns and keeps this, and a save that succeeds leaves its payload
behind. -/
lemma Orderly.saveInfo_run (h : Orderly fl name type pages s)
    (hp : type = .fullPage → fl.argPages size = pages) (hfit : CopiesFit fl size (s.info name))
    (Q : Buf) :
    ∃ ret t, saveInfo fl name Q size s = (some ret, t) ∧ Orderly fl name type pages t ∧ Ready t ∧
      t.state = s.state ∧ (0 ≤ ret → ∃ rl, Holds fl (t.setList rl) name size Q) := by
  obtain ⟨rl, hrl, hst⟩ := h
  obtain ⟨n, hn, hfuel⟩ := hst.area
  have hready : Ready s := ⟨hst.ready.calm, hst.ready.lock⟩
  obtain ⟨ret, t, ht, hs⟩ := amlnandSaveInfoByName_run fl (blockMarkbadOp fl) name Q size hready hn
    hfuel
  have hlong : ∃ rl', Saves fl name Q size (s.setList rl) ret (t.setList rl') ∧
      (rl' = t.reservedBlk ∨ LastPlace fl name t rl' ∧ NoBlock255 fl t.blkStatus) := by
    rcases hrl with rfl | ⟨hlast, h255⟩
    · exact ⟨_, hs, Or.inl rfl⟩
    · obtain ⟨rl', h1, h2⟩ := hs.setList hlast hst hp hfit h255
      rw [← hs.blkStatus_eq] at h255
      exact ⟨rl', h1, Or.inr ⟨h2, h255⟩⟩
  obtain ⟨rl', hs', hrl'⟩ := hlong
  obtain ⟨h1, h2⟩ := hst.saves hp hfit hs'
  exact ⟨ret, t, ht, ⟨rl', hrl', h1⟩, ⟨h1.ready.calm, h1.ready.lock⟩, hs.state_eq,
    fun h0 => ⟨rl', (h2 h0).1⟩⟩

/-- Every save of a sequence returns, and what holds between saves holds at the end. -/
lemma Orderly.saveAll (ps : List (Buf × ℕ))
    (hps : ∀ p ∈ ps, type = .fullPage → fl.argPages p.2 = pages) (qs : List (Buf × ℕ)) :
    ∀ s, Orderly fl name type pages s → SavesFit fl name (ps ++ qs) s →
      ∃ t, Amlnf.saveAll fl name ps s = (some (), t) ∧ Orderly fl name type pages t ∧
        t.state = s.state ∧ SavesFit fl name qs t := by
  induction ps with
  | nil =>
    intro s h hfit
    exact ⟨s, rfl, h, rfl, hfit⟩
  | cons p ps ih =>
    rintro s h ⟨hfit, hrest⟩
    obtain ⟨ret, t, ht, horder, -, hst, -⟩ := h.saveInfo_run (hps p List.mem_cons_self) hfit p.1
    rw [ht] at hrest
    obtain ⟨u, hu, h1, h2, h3⟩ := ih (fun q hq => hps q (List.mem_cons_of_mem _ hq)) t horder hrest
    exact ⟨u, (bind_some ht).trans hu, h1, h2.trans hst, h3⟩

/-- Reading after a fresh scan gives what the state holds. -/
lemma freshRead_of_holds (hs : Ready s) (hst : s.state = .ready) {rl : List UInt8}
    (h : Holds fl (s.setList rl) name size Q) (buf : Buf) :
    ∃ out w, freshRead fl name buf size s = (some (0, out), w) ∧ ∀ i < size, out i = Q i := by
  let u : St := s.setInfo name fun a => { argType := a.argType }
  have hu : u.info name = { argType := (s.info name).argType } := setInfo_info_self s name _
  have hall : ∀ b, ScanVisits fl s.blkStatus b → ¬Silent fl name size (s.image.recAt fl b) →
      ∃ P, P = Q ∧ Delivers fl (s.info name).argType name size (s.image.recAt fl b) P := by
    intro b hb hsil
    by_cases hcur : b = (s.info name).validBlkAddr
    · subst hcur
      exact ⟨Q, rfl, h.delivers⟩
    · exact absurd (silent_of_untagged (h.others b hcur hb)) hsil
  obtain ⟨hv, P, rfl, hcopy⟩ := checkInfo_delivers hall ⟨_, h.visits, h.found⟩
  obtain ⟨ret, t, ht, htk, -⟩ := amlnandCheckInfoByName_run fl name size
    (hs.setInfo name fun a => { argType := a.argType }) hst
  have hti : t.info name = checkInfo fl s.blkStatus name size (s.image.recAt fl)
      { argType := (s.info name).argType } := by
    rw [kept_info htk, checked_info_self, setInfo_info_self]
    rfl
  have htr : Ready t := Ready.of_kept (s := u.checked fl name size) ⟨hs.calm, hs.lock⟩ htk
  obtain ⟨w, hw, -⟩ := amlnandReadInfoByName_run fl htr.reads name buf size (by rw [hti, hv])
  have himg : t.image = s.image := (kept_image htk).trans rfl
  rw [hti, himg] at hw
  refine ⟨_, w, ?_, readCopy_of_hasCopy hcopy buf⟩
  rw [freshRead, modifyInfo_bind, bind_some ht, hw]

/-- **Save, fresh scan and read.** On chips that report no failure, for a sequence of payloads whose
copies find room on the record pages and, for a `FULL_PAGE` record, take the same number of pages:
every save returns, and when one succeeds a fresh scan and a read return its payload byte for
byte. -/
theorem save_scan_read (hs : Start fl name type pages s) (hfree : HasPlace fl name s)
    {ps : List (Buf × ℕ)}
    (hps : ∀ p ∈ ps ++ [(Q, size)], type = .fullPage → fl.argPages p.2 = pages)
    (hfit : SavesFit fl name (ps ++ [(Q, size)]) s) : RoundTrips fl name s ps Q size := by
  obtain ⟨t, ht, h1, hst, hlast, -⟩ := Orderly.saveAll ps
    (fun p hp => hps p (List.mem_append_left _ hp)) [(Q, size)] s (hs.orderly hfree) hfit
  obtain ⟨ret, u, hu, -, hready, hidle, hheld⟩ :=
    h1.saveInfo_run (hps (Q, size) (List.mem_append_right _ List.mem_cons_self)) hlast Q
  refine ⟨t, ret, u, ht, hu, fun hret buf => ?_⟩
  obtain ⟨rl, hh⟩ := hheld hret
  exact freshRead_of_holds hready (hidle.trans (hst.trans hs.idle)) hh buf

end

/-- What the round trip says about a run whose results are known. -/
lemma RoundTrips.eval {fl : Flash} {name : RecName} {s : St} {ps : List (Buf × ℕ)} {Q : Buf}
    {size : ℕ} (h : RoundTrips fl name s ps Q size) {ret : ℤ} (buf : Buf) {i : ℕ} (hi : i < size)
    (hret : (saveInfo fl name Q size (saveAll fl name ps s).2).1 = some ret) (h0 : 0 ≤ ret) :
    ((freshRead fl name buf size (saveInfo fl name Q size (saveAll fl name ps s).2).2).1.map
      fun r => r.2 i) = some (Q i) := by
  obtain ⟨t, ret', u, ht, hu, hread⟩ := h
  rw [ht, hu] at hret
  obtain rfl := Option.some.inj hret
  obtain ⟨out, w, hw, hout⟩ := hread h0 buf
  rw [ht, hu, hw]
  exact congrArg some (hout i hi)

/-- A payload that can be saved any number of times finds room. -/
lemma Orderly.copiesFit {fl : Flash} {name : RecName} {type : ArgType} {pages size : ℕ} {s : St}
    (h : Orderly fl name type pages s) (hsz : Storable fl type pages size) :
    CopiesFit fl size (s.info name) := by
  obtain ⟨rl, -, hst⟩ := h
  exact hst.copiesFit hsz

/-- So do all payloads of a sequence. -/
lemma Orderly.savesFit {fl : Flash} {name : RecName} {type : ArgType} {pages : ℕ}
    (ps : List (Buf × ℕ)) (hps : ∀ p ∈ ps, Storable fl type pages p.2) :
    ∀ s, Orderly fl name type pages s → SavesFit fl name ps s := by
  induction ps with
  | nil => exact fun _ _ => trivial
  | cons p ps ih =>
    intro s h
    have hsz := hps p List.mem_cons_self
    have hfit := h.copiesFit hsz
    obtain ⟨ret, t, ht, horder, -⟩ := h.saveInfo_run hsz.samePages hfit p.1
    refine ⟨hfit, ?_⟩
    rw [ht]
    exact ih (fun q hq => hps q (List.mem_cons_of_mem _ hq)) t horder

/-- The chips of `St.blank` carry no record under any name. -/
lemma start_blank (name : RecName) (pages : ℕ) :
    Start .oneChip name (argTypeOf name) pages St.blank := by
  have hend := reserveEnd_good .oneChip
  refine ⟨⟨⟨fun _ => Outcome.fine_fine, rfl⟩, fun _ => ⟨rfl, rfl⟩⟩, rfl, rfl, fun b hb => ?_,
    ⟨_, hend, by decide⟩, Or.inl ⟨rfl, rfl, fun _ _ _ _ => rfl⟩⟩
  exact visits_of_good hb.1.1 ((hend.lt_iff hb.1.1).2 hb.1)

/-- All places of its list of reserved blocks are free. -/
lemma hasPlace_blank (name : RecName) : HasPlace .oneChip name St.blank :=
  ⟨show (0xff : UInt8) ∈ List.replicate 48 0xff by simp,
    Or.inr (Or.inl (show 2 ≤ (List.replicate 48 0xff).count (0xff : UInt8) by simp))⟩

/-- A payload below the page size takes one page. -/
lemma storable_oneChip {size : ℕ} (h : size < 8192) : Storable .oneChip .fullPage 1 size := by
  have hA : Flash.oneChip.argPages size = 1 := by
    rw [Flash.argPages_eq, Nat.div_eq_of_lt (show size < Flash.oneChip.pagesize from h)]
  refine ⟨⟨by rw [hA]; decide, fun _ => ?_⟩, fun _ => ⟨hA, noSpill_of_ne (by decide) size⟩⟩
  rw [copyStep, hA]
  decide

/-- Two saves of an environment of one page on blank chips. -/
theorem save_scan_read_blank :
    Start .oneChip .nenv .fullPage 1 St.blank ∧
      RoundTrips .oneChip .nenv St.blank [(fun _ => 1, 100)] (fun _ => 2) 200 := by
  have hs := start_blank .nenv 1
  have hfree := hasPlace_blank .nenv
  have hps : ∀ p ∈ [((fun _ => 1 : Buf), 100)] ++ [(fun _ => 2, 200)],
      Storable .oneChip .fullPage 1 p.2 := by
    intro p hp
    simp only [List.singleton_append, List.mem_cons, List.not_mem_nil, or_false] at hp
    rcases hp with rfl | rfl
    · exact storable_oneChip (by decide)
    · exact storable_oneChip (by decide)
  exact ⟨hs, save_scan_read hs hfree (fun p hp => (hps p hp).samePages)
    ((hs.orderly hfree).savesFit _ hps)⟩

/-- Blank chips whose list of reserved blocks has no free place. -/
def St.blankFull : St := { St.blank with reservedBlk := List.replicate 48 0 }

/-- A payload of one page followed by one of two pages: the second is appended at page 3 and at
page 5, and the fresh scan, which looks at every second page, stops at page 2. And with no free
place in the list the second save of a `FULL_BLK` record takes the block of the record itself, which
it erases when it is done. -/
theorem save_scan_read_grows :
    ¬(∀ (s : St) (ps : List (Buf × ℕ)) (Q : Buf) (size : ℕ),
      Start .oneChip .nenv .fullPage 1 s → HasPlace .oneChip .nenv s →
      (∀ p ∈ ps ++ [(Q, size)], Flash.oneChip.argPages p.2 ≤ Flash.oneChip.pagesRead) →
      RoundTrips .oneChip .nenv s ps Q size) ∧
    ¬(∀ (s : St) (ps : List (Buf × ℕ)) (Q : Buf) (size : ℕ),
      Start .h27ucg8t2a .ncnf .fullBlk 1 s →
      (∀ p ∈ ps ++ [(Q, size)], Flash.h27ucg8t2a.argPages p.2 ≤ Flash.h27ucg8t2a.pagesRead) →
      RoundTrips .h27ucg8t2a .ncnf s ps Q size) := by
  constructor
  · intro h
    have hrt := h St.blank [(fun _ => 1, 100)] (fun _ => 2) 8193 (start_blank .nenv 1)
      (hasPlace_blank .nenv) (by decide)
    have hret : (saveInfo .oneChip .nenv (fun _ => 2) 8193
        (saveAll .oneChip .nenv [(fun _ => 1, 100)] St.blank).2).1 = some 0 := by decide +kernel
    have hout : ((freshRead .oneChip .nenv (fun _ => 0) 8193 (saveInfo .oneChip .nenv (fun _ => 2) 8193
        (saveAll .oneChip .nenv [(fun _ => 1, 100)] St.blank).2).2).1.map fun r => r.2 0) =
          some 1 := by
      decide +kernel
    have hread := hrt.eval (i := 0) (fun _ => 0) (by decide) hret (le_refl 0)
    rw [hout] at hread
    exact absurd hread (by decide)
  · intro h
    have hend := reserveEnd_good .h27ucg8t2a
    have hfull : Start .h27ucg8t2a .ncnf .fullBlk 1 St.blankFull := by
      refine ⟨⟨⟨fun _ => Outcome.fine_fine, rfl⟩, fun _ => ⟨rfl, rfl⟩⟩, rfl, rfl, fun b hb => ?_,
        ⟨_, hend, by decide⟩, Or.inl ⟨rfl, rfl, fun _ _ _ _ => rfl⟩⟩
      exact visits_of_good hb.1.1 ((hend.lt_iff hb.1.1).2 hb.1)
    have hrt := h St.blankFull [(fun _ => 1, 524289)] (fun _ => 2) 524289 hfull (by decide)
    have hret : (saveInfo .h27ucg8t2a .ncnf (fun _ => 2) 524289
        (saveAll .h27ucg8t2a .ncnf [(fun _ => 1, 524289)] St.blankFull).2).1 = some 0 := by
      decide +kernel
    have hout : ((freshRead .h27ucg8t2a .ncnf (fun _ => 0) 524289
        (saveInfo .h27ucg8t2a .ncnf (fun _ => 2) 524289
          (saveAll .h27ucg8t2a .ncnf [(fun _ => 1, 524289)] St.blankFull).2).2).1.map
            fun r => r.2 0) ≠ some 2 := by
      decide +kernel
    exact hout (hrt.eval (i := 0) (fun _ => 0) (by decide) hret (le_refl 0))

end Amlnf
