import Amlnf.Dev.EnvStore

set_option relaxedAutoImplicit false
set_option autoImplicit false

/-!
# Writing the environment

`uboot_env_write` reads the environment, replaces a range of bytes and saves the whole. It returns
the number of bytes whether the save succeeded or not, and so promises more than it has done
whenever the save is refused, finds no place or cannot get its buffer. This module says when a later
read shows what the return value promises.

## Main definitions

* `WritesThrough` — what is read later agrees with the return value.
* `EnvRefused`, `EnvSame`, `NothingStored` — the request is turned away, it changes nothing, and
  nothing can be stored.
* `EnvPlace` — the save gets its buffer, and may and can store something.
* `EnvReady` — no chip operation fails, and a save finds what it needs.

## Main results

* `writesThrough_of_safe` — with any outcome of the chip operations, a request that is turned away
  or changes nothing while nothing can be stored is honest.
* `writesThrough_iff` — where no chip operation fails a write is honest exactly when it is turned
  away, changes nothing or has a place for the record.
-/

namespace Amlnf

open Act

/-- Whenever the write returns, a later read shows the environment with as many bytes replaced as
the write has returned. -/
def WritesThrough (fl : Flash) (mem : EnvMem) (s : St) (pos count : ℕ) (data : Buf) : Prop :=
  ∀ (k : ℤ) (pos' : ℕ) (t : St), ubootEnvWrite fl mem pos count data s = (some (k, pos'), t) →
    ∀ E, EnvIs fl s E → EnvIs fl t (if 0 < k then blit E pos k.toNat data else E)

/-- The position is at the end of the environment or behind it, or a buffer that is needed before
the save is not to be had. -/
def EnvRefused (mem : EnvMem) (s : St) (pos : ℕ) : Prop :=
  configEnvSize ≤ pos ∨ mem.own = false ∨ (s.info .nenv).argValid = true ∧ mem.read = false

/-- The bytes of the request that lie inside the environment are there already. -/
def EnvSame (fl : Flash) (s : St) (pos count : ℕ) (data : Buf) : Prop :=
  ∀ i < envCount pos count, data i = envBytes fl s (pos + i)

/-- No save of the environment stores anything: records may not be saved, the save does not get
its buffer, or writing is off. -/
def NothingStored (mem : EnvMem) (s : St) : Prop :=
  s.allowMeta = false ∨ mem.save = false ∨
    s.readonly = true ∧ (s.info .nenv).argType = .fullPage

/-- The save gets its buffer, and may and can store something. -/
def EnvPlace (fl : Flash) (mem : EnvMem) (s : St) : Prop := mem.save = true ∧ RecordPlace fl s

/-- No chip operation fails, no device operation is under way, and both rounds of a save find what
they need: the copies stay on the record pages. -/
structure EnvReady (fl : Flash) (s : St) : Prop extends EnvKept fl 0 s where
  fine : ∀ k, (s.plan k).Fine
  idle : s.state = .ready
  free : s.mutex = false ∧ s.idleflag = false
  fits : CopiesFit fl configEnvSize (s.info .nenv)

/-- The state in which a write of the environment works. -/
def St.writingEnv (s : St) : St :=
  { s with state := .writing, mutex := true, idleflag := true, tick := s.tick + 1 }

/-- The state a write of the environment leaves. -/
def St.wroteEnv (t : St) : St :=
  { t with state := .ready, mutex := false, idleflag := false }

section

variable {fl : Flash} {mem : EnvMem} {s t : St} {pos count : ℕ} {data : Buf}

/-- The later reads can be left out: they see the environment the chips hold. -/
lemma writesThrough_iff_bytes : WritesThrough fl mem s pos count data ↔
    ∀ (k : ℤ) (pos' : ℕ) (t : St), ubootEnvWrite fl mem pos count data s = (some (k, pos'), t) →
      ∀ i < configEnvSize, envBytes fl t i =
        (if 0 < k then blit (envBytes fl s) pos k.toNat data else envBytes fl s) i := by
  refine forall₃_congr fun k pos' t => imp_congr_right fun _ => ⟨fun h => ?_, fun h E hE => ?_⟩
  · exact envIs_iff.1 (h _ (envIs_iff.2 fun _ _ => rfl))
  · rw [envIs_iff] at hE ⊢
    intro i hi
    rw [h i hi]
    split
    · rw [blit, blit, hE i hi]
    · exact hE i hi

/-- With nothing to change, the bytes of a write are those of the environment. -/
lemma blit_of_eq {E d : Buf} {pos k : ℕ} (h : ∀ i < k, d i = E (pos + i)) : blit E pos k d = E := by
  funext i
  rw [blit]
  split
  · next hi =>
    rw [h (i - pos) (by omega)]
    congr 1
    omega
  · rfl

/-- The part of a request that lies inside the environment. -/
lemma envCount_le {pos count : ℕ} (h : pos < configEnvSize) :
    pos + envCount pos count ≤ configEnvSize := by
  rw [envCount]
  split <;> omega

/-! ## Any outcome of the chip operations -/

/-- An operation on a taken device starts and ends with the environment around it. -/
lemma withDevice_sameEnv {α : Type} {st : ChipState} {x : Act St α} {a : α}
    (h : withDevice st x s = (some a, t)) :
    ∃ u v, SameEnv s u ∧ x u = (some a, v) ∧ SameEnv v t := by
  obtain ⟨_, u, hget, h⟩ := bind_eq_some h
  obtain ⟨b, v, hx, h⟩ := bind_eq_some h
  obtain ⟨_, w, hrel, h⟩ := bind_eq_some h
  have hu : SameEnv s u := by
    have hmoves := sameEnv_ignoresLock.moves_amlnandGetDevice st s
    rwa [hget] at hmoves
  have hw : SameEnv v w := by
    have hmoves := sameEnv_ignoresLock.moves_amlnandReleaseDevice v
    rwa [hrel] at hmoves
  cases h
  exact ⟨u, v, hu, hx, hw⟩

/-- A write inside the environment that returns has come to its save, or has failed before. -/
lemma ubootEnvWrite_returned {k : ℤ} {pos' : ℕ} (hpos : pos < configEnvSize)
    (hown : mem.own = true) (h : ubootEnvWrite fl mem pos count data s = (some (k, pos'), t)) :
    (k = 0 ∧ SameEnv s t) ∨
      ((s.info .nenv).argValid = true → mem.read = true) ∧
      ∃ env ret u v, k = envCount pos count ∧ SameEnv s u ∧
        amlnfEnvSave fl mem.save (blit env pos (envCount pos count) data) u = (some ret, v) ∧
        SameEnv v t := by
  rw [ubootEnvWrite, if_neg (by omega), if_neg (by omega), if_neg (by simp [hown])] at h
  obtain ⟨u, v, hsu, hrun, hvt⟩ := withDevice_sameEnv h
  obtain ⟨⟨ret, env⟩, w, hread, hrun⟩ := bind_eq_some hrun
  have hsw : SameEnv s w := by
    have hmoves : SameEnv u (amlnfEnvRead fl mem.read (fun _ => 0) u).2 :=
      sameEnv_frame.moves_amlnfEnvRead sameEnv_ignoresLock _ _ u
    rw [hread] at hmoves
    exact trans_of SameEnv hsu hmoves
  change (if ret ≠ 0 then pure (0, pos) else _ : Act St (ℤ × ℕ)) w = _ at hrun
  by_cases hret : ret ≠ 0
  · rw [if_pos hret] at hrun
    cases hrun
    exact .inl ⟨rfl, trans_of SameEnv hsw hvt⟩
  rw [if_neg hret] at hrun
  obtain ⟨ret', x, hsave, hrun⟩ := bind_eq_some hrun
  refine .inr ⟨fun hv => ?_, env, ret', w, x, ?_, hsw, hsave, ?_⟩
  · by_contra hmem
    rw [amlnfEnvRead, get_bind, if_neg (by simp [hsu.2.2.2, hv]), if_pos hmem] at hread
    cases hread
    exact hret (by decide)
  · split at hrun <;> cases hrun <;> rfl
  · split at hrun <;> cases hrun <;> exact hvt

/-- A save that can store nothing stores nothing. -/
lemma amlnfEnvSave_nothing {buf : Buf} {ret : ℤ} (h : NothingStored mem s)
    (hrun : amlnfEnvSave fl mem.save buf s = (some ret, t)) : envBytes fl t = envBytes fl s := by
  by_cases hmem : mem.save = true
  swap
  · rw [amlnfEnvSave, if_pos hmem] at hrun
    cases hrun
    rfl
  rw [amlnfEnvSave, if_neg (not_not.2 hmem)] at hrun
  obtain ⟨ret', u, hsave, hrun⟩ := bind_eq_some hrun
  have ht : t = u := by
    split at hrun <;> cases hrun <;> rfl
  rw [ht]
  rcases h with hm | hm | ⟨hro, hty⟩
  · rw [saveInfo, amlnandSaveInfoByName, get_bind, if_pos (by simp [hm])] at hsave
    cases hsave
    rfl
  · rw [hmem] at hm
    cases hm
  · exact saveInfo_readonly hro hty hsave

/-- A request that is turned away leaves the environment alone and returns no count. -/
lemma EnvRefused.returned {k : ℤ} {pos' : ℕ} (h : EnvRefused mem s pos)
    (hrun : ubootEnvWrite fl mem pos count data s = (some (k, pos'), t)) :
    k ≤ 0 ∧ envBytes fl t = envBytes fl s := by
  by_cases hend : pos = configEnvSize
  · rw [ubootEnvWrite, if_pos hend] at hrun
    cases hrun
    exact ⟨le_refl _, rfl⟩
  by_cases hpos : configEnvSize ≤ pos
  · rw [ubootEnvWrite, if_neg hend, if_pos hpos] at hrun
    cases hrun
    exact ⟨by decide, rfl⟩
  by_cases hown : mem.own = true
  swap
  · rw [ubootEnvWrite, if_neg hend, if_neg hpos, if_pos hown] at hrun
    cases hrun
    exact ⟨by decide, rfl⟩
  rcases ubootEnvWrite_returned (not_le.1 hpos) hown hrun with ⟨rfl, hsame⟩ | ⟨hread, -⟩
  · exact ⟨le_refl _, hsame.envBytes⟩
  · rcases h with h | h | ⟨hv, hmem⟩
    · exact absurd h hpos
    · rw [hown] at h
      cases h
    · rw [hread hv] at hmem
      cases hmem

/-- **With any outcome of the chip operations** a request that is turned away is honest, and so is
one that changes nothing while nothing can be stored. -/
lemma writesThrough_of_safe
    (h : EnvRefused mem s pos ∨ NothingStored mem s ∧ EnvSame fl s pos count data) :
    WritesThrough fl mem s pos count data := by
  refine writesThrough_iff_bytes.2 fun k pos' t hrun i _ => ?_
  by_cases href : EnvRefused mem s pos
  · obtain ⟨hk, hbytes⟩ := href.returned hrun
    rw [if_neg (not_lt.2 hk), hbytes]
  obtain ⟨hnone, hsame⟩ := h.resolve_left href
  have hbytes : envBytes fl t = envBytes fl s ∧ (0 < k → k = envCount pos count) := by
    have hpos : pos < configEnvSize := not_le.1 fun hpos => href (.inl hpos)
    have hown : mem.own = true := by
      by_contra hown
      exact href (.inr (.inl (by simpa using hown)))
    rcases ubootEnvWrite_returned hpos hown hrun with ⟨rfl, hst⟩ | ⟨-, env, ret, u, v, hk, hu, hsave, hv⟩
    · exact ⟨hst.envBytes, fun h0 => absurd h0 (lt_irrefl _)⟩
    · have hnone' : NothingStored mem u := by
        obtain ⟨-, h1, h2, h3⟩ := hu
        unfold NothingStored
        rwa [h1, h2, h3]
      refine ⟨?_, fun _ => hk⟩
      rw [hv.envBytes, amlnfEnvSave_nothing hnone' hsave, hu.envBytes]
  rw [hbytes.1]
  split
  · next hk =>
    rw [hbytes.2 hk, Int.toNat_natCast, blit_of_eq hsame]
  · rfl

/-! ## Chips that report no failure -/

/-- A write inside the environment is a read and a save in between taking and releasing the device,
and its return value does not depend on the save. -/
lemma ubootEnvWrite_of_runs {env : Buf} {ret : ℤ} {u : St} (hpos : pos < configEnvSize)
    (hown : mem.own = true) (hready : s.state = .ready) (hfree : s.mutex = false)
    (hpin : (s.plan s.tick).pin = true)
    (hread : amlnfEnvRead fl mem.read (fun _ => 0) s.writingEnv = (some (0, env), u))
    (hsave : amlnfEnvSave fl mem.save (blit env pos (envCount pos count) data) u = (some ret, t))
    (hmutex : t.mutex = true) (hidle : t.idleflag = true) :
    ∃ pos', ubootEnvWrite fl mem pos count data s =
      (some ((envCount pos count : ℤ), pos'), t.wroteEnv) := by
  have hlast : ∃ pos', (if ret ≠ 0 then pure ((envCount pos count : ℤ), pos)
      else pure ((envCount pos count : ℤ), pos + envCount pos count) : Act St (ℤ × ℕ)) t =
      (some ((envCount pos count : ℤ), pos'), t) := by
    split
    · exact ⟨_, rfl⟩
    · exact ⟨_, rfl⟩
  obtain ⟨pos', hpos'⟩ := hlast
  refine ⟨pos', ?_⟩
  rw [ubootEnvWrite, if_neg (by omega), if_neg (by omega), if_neg (by simp [hown])]
  refine withDevice_run .writing hready hfree hpin ?_ hmutex hidle
  exact (bind_some hread).trans ((bind_some hsave).trans hpos')

/-- A save that never returns keeps the write from returning. -/
lemma ubootEnvWrite_hangs {env : Buf} {u : St} (hpos : pos < configEnvSize) (hown : mem.own = true)
    (hready : s.state = .ready) (hfree : s.mutex = false) (hpin : (s.plan s.tick).pin = true)
    (hread : amlnfEnvRead fl mem.read (fun _ => 0) s.writingEnv = (some (0, env), u))
    (hsave : amlnfEnvSave fl mem.save (blit env pos (envCount pos count) data) u = (none, t)) :
    (ubootEnvWrite fl mem pos count data s).1 = none := by
  have hget := amlnandGetDevice_free .writing hready hfree hpin
  rw [ubootEnvWrite, if_neg (by omega), if_neg (by omega), if_neg (by simp [hown]), withDevice,
    bind_some hget]
  refine congrArg Prod.fst (bind_none (t := t) ?_)
  exact (bind_some hread).trans (bind_none hsave)

/-- How the save inside a write ends where no chip operation fails: it never returns, or it stores
its payload exactly when there is a place for it. -/
lemma EnvKept.amlnfEnvSave_env (mem : EnvMem) (h : EnvKept fl 0 s) (hfine : ∀ k, (s.plan k).Fine)
    (hst : s.state = .writing) (hmutex : s.mutex = true)
    (hfit : CopiesFit fl configEnvSize (s.info .nenv))
    (hmark : s.readonly = true → s.allowMeta = true → s.allowMarkbad = false) (Q : Buf) :
    (EnvPlace fl mem s ∧ ∃ t, amlnfEnvSave fl mem.save Q s = (none, t)) ∨
      ∃ ret t, amlnfEnvSave fl mem.save Q s = (some ret, t) ∧ t.lock = s.lock ∧
        (EnvPlace fl mem s → ∀ i < configEnvSize, envBytes fl t i = Q i) ∧
        (¬EnvPlace fl mem s → envBytes fl t = envBytes fl s) := by
  by_cases hmem : mem.save = true
  swap
  · refine .inr ⟨-1, s, ?_, rfl, fun hp => absurd hp.1 hmem, fun _ => rfl⟩
    rw [amlnfEnvSave, if_pos hmem, pure_apply]
  have hbusy : s.state ≠ .ready := by
    rw [hst]
    decide
  let P : Buf := blit (fun _ => 0) 0 configEnvSize Q
  have hP : ∀ i < configEnvSize, P i = Q i := by
    intro i hi
    change blit _ _ _ _ i = _
    rw [blit, if_pos ⟨Nat.zero_le i, by omega⟩, Nat.sub_zero]
  have hreturns : ∀ {ret : ℤ} {t : St}, saveInfo fl .nenv P configEnvSize s = (some ret, t) →
      ∃ ret', amlnfEnvSave fl mem.save Q s = (some ret', t) := by
    intro ret t ht
    rw [amlnfEnvSave, if_neg (not_not.2 hmem), bind_some ht]
    split
    · exact ⟨_, rfl⟩
    · exact ⟨_, rfl⟩
  -- without writing nothing is stored; the save may hang
  by_cases hro : s.readonly = true
  · by_cases hm : s.allowMeta = true
    swap
    · have hsave : saveInfo fl .nenv P configEnvSize s = (some (-eROFS), s) := by
        rw [saveInfo, amlnandSaveInfoByName, get_bind, if_pos hm, pure_apply]
      obtain ⟨ret, hret⟩ := hreturns hsave
      exact .inr ⟨ret, s, hret, rfl, fun hp => absurd hp.2.1 hm, fun _ => rfl⟩
    by_cases ha : Appends fl (s.info .nenv) configEnvSize
    · have hnone : saveInfo fl .nenv P configEnvSize s =
          (none, (saveInfo fl .nenv P configEnvSize s).2) :=
        Prod.ext (saveInfo_hangs hbusy hro hmutex hm ha P) rfl
      refine .inl ⟨⟨hmem, hm, .inl ha⟩, (saveInfo fl .nenv P configEnvSize s).2, ?_⟩
      rw [amlnfEnvSave, if_neg (not_not.2 hmem)]
      exact bind_none hnone
    · obtain ⟨n, hn, hend⟩ := h.area
      have hfuel : n < fl.startBlk + scanFuel := by
        have hlong : 2 ^ 16 < scanFuel := by decide
        omega
      obtain ⟨ret, t, ht, hlock⟩ := saveInfo_noBlock hbusy hro (hmark hro hm) hm hend hfuel ha
        h.argType P
      obtain ⟨ret', hret'⟩ := hreturns ht
      refine .inr ⟨ret', t, hret', hlock, fun hp => ?_, fun _ => saveInfo_readonly hro h.argType ht⟩
      rcases hp.2.2 with hp | ⟨hp, -⟩
      · exact absurd hp ha
      · rw [hro] at hp
        cases hp
  · have hs : Ready s := ⟨⟨hfine, by simpa using hro⟩, fun hr => absurd hr hbusy⟩
    obtain ⟨ret, t, ht, hlock, hstored, hkept⟩ := h.saveInfo_env hs hfit P
    obtain ⟨ret', hret'⟩ := hreturns ht
    refine .inr ⟨ret', t, hret', hlock, fun hp i hi => (hstored hp.2 i hi).trans (hP i hi), fun hp => ?_⟩
    exact hkept fun hp' => hp ⟨hmem, hp'⟩

/-- A write inside the environment that gets its buffers returns the number of bytes, and the place
for the record decides what becomes of the environment; or it never returns, and there is a
place. -/
lemma EnvReady.ubootEnvWrite_run (h : EnvReady fl s) (hpos : pos < configEnvSize)
    (hown : mem.own = true) (hread : (s.info .nenv).argValid = true → mem.read = true)
    (hmark : s.readonly = true → s.allowMeta = true → s.allowMarkbad = false) (count : ℕ)
    (data : Buf) :
    (EnvPlace fl mem s ∧ (ubootEnvWrite fl mem pos count data s).1 = none) ∨
      ∃ (pos' : ℕ) (t : St),
        ubootEnvWrite fl mem pos count data s = (some ((envCount pos count : ℤ), pos'), t) ∧
        (EnvPlace fl mem s → ∀ i < configEnvSize,
          envBytes fl t i = blit (envBytes fl s) pos (envCount pos count) data i) ∧
        (¬EnvPlace fl mem s → envBytes fl t = envBytes fl s) := by
  have hpin := (h.fine s.tick).2.2.2
  obtain ⟨u, hu, huk⟩ := amlnfEnvRead_run fl (s := s.writingEnv) ⟨h.fine, fun hr => by cases hr⟩ hread
    fun _ => 0
  let out : Buf := blit (fun _ => 0) 0 configEnvSize (envBytes fl s)
  have hinfo : u.info = s.info := (kept_info huk).trans rfl
  have hkept : EnvKept fl 0 u := h.toEnvKept.congr ((kept_image huk).trans rfl) hinfo
    ((kept_blkStatus huk).trans rfl) ((kept_reservedBlk huk).trans rfl)
  have hro : u.readonly = s.readonly := (kept_readonly huk).trans rfl
  have hmeta : u.allowMeta = s.allowMeta := (kept_allowMeta huk).trans rfl
  have hmb : u.allowMarkbad = s.allowMarkbad := (congrArg St.allowMarkbad huk :)
  -- the place for the record is the same in the state the save starts from
  have hplace : EnvPlace fl mem u ↔ EnvPlace fl mem s := by
    unfold EnvPlace RecordPlace
    rw [hro, hmeta, hinfo, kept_blkStatus huk, kept_reservedBlk huk]
    rfl
  rcases hkept.amlnfEnvSave_env mem (by rw [kept_plan huk]; exact h.fine)
      ((kept_state huk).trans rfl) ((kept_mutex huk).trans rfl) (by rw [hinfo]; exact h.fits)
      (by rw [hro, hmeta, hmb]; exact hmark) (blit out pos (envCount pos count) data) with
    ⟨hp, t, ht⟩ | ⟨ret, t, ht, hlock, hstored, hsame⟩
  · exact .inl ⟨hplace.1 hp, ubootEnvWrite_hangs hpos hown h.idle h.free.1 hpin hu ht⟩
  have hheld : t.lock = (true, true, s.lockFault, .writing) := by
    rw [hlock]
    change u.kept.lock = _
    rw [huk]
    rfl
  simp only [St.lock, Prod.mk.injEq] at hheld
  obtain ⟨pos', hrun⟩ := ubootEnvWrite_of_runs hpos hown h.idle h.free.1 hpin hu ht hheld.1 hheld.2.1
  refine .inr ⟨pos', t.wroteEnv, hrun, fun hp i hi => ?_, fun hp => ?_⟩
  · have hout : out i = envBytes fl s i := by
      change blit _ _ _ _ i = _
      rw [blit, if_pos ⟨Nat.zero_le i, by omega⟩, Nat.sub_zero]
    refine (hstored (hplace.2 hp) i hi).trans ?_
    rw [blit, blit, hout]
  · have hu' : envBytes fl u = envBytes fl s := by
      refine envBytes_congr ((kept_image huk).trans rfl) ?_ ?_ ?_
      all_goals rw [hinfo]
    exact (hsame fun hpu => hp (hplace.1 hpu)).trans hu'

end

/-! ## Blank chips -/

/-- Nine pages of `Flash.oneChip` hold an environment. -/
lemma storable_env : Storable .oneChip .fullPage 9 configEnvSize := by
  have hA : Flash.oneChip.argPages configEnvSize = 9 := by decide
  refine ⟨⟨by rw [hA]; decide, fun _ => ?_⟩, fun _ => ⟨hA, noSpill_of_ne (by decide) _⟩⟩
  rw [copyStep, hA]
  decide

/-- A driver without an environment is ready for the first one. -/
lemma envReady_blank : EnvReady .oneChip (St.blankOf .fullPage) := by
  have hstable := stable_blankOf .oneChip .nenv .fullPage 9
  have hinvalid : ((St.blankOf .fullPage).info .nenv).argValid = false := rfl
  refine ⟨⟨rfl, ⟨_, ?_, reserveEnd_good .oneChip⟩, fun hv => ?_, fun _ => rfl, fun ha => ?_⟩,
    hstable.ready.calm.1, rfl, ⟨rfl, rfl⟩, hstable.copiesFit storable_env⟩
  · decide
  · rw [hinvalid] at hv
    cases hv
  · rw [Appends, hinvalid] at ha
    cases ha.1

/-- A driver that has saved an environment of sevens and may save no more. -/
def sevensKept : St :=
  { (saveInfo .oneChip .nenv (fun _ => 7) configEnvSize St.blank).2 with allowMeta := false }

end Amlnf
