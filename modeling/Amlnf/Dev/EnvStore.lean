import Amlnf.Dev.Entries
import Amlnf.Phy.Stable

set_option relaxedAutoImplicit false
set_option autoImplicit false

/-!
# What becomes of the environment

The environment is what the record designated by `arg_info` holds. This module says what a later
read sees of it, what a save makes of it on chips that report no failure, and that a save makes
nothing of it while `amlnf_readonly` is on, whatever the chips report.

## Main definitions

* `envBytes` — the environment that the chips and `arg_info` designate.
* `EnvIs` — a later read that meets no failure returns these bytes.
* `EnvKept` — what a round of a save needs of the record it finds.
* `RecordPlace` — a save may and can store something.
* `SameEnv`, `EnvShut` — what reads leave alone, and what is left alone while writing is off.

## Main results

* `envIs_iff` — a later read sees `envBytes`.
* `EnvKept.saveInfo_env` — with a place for it a save stores its payload, otherwise nothing.
* `saveInfo_readonly` — while writing is off a save that returns has stored nothing.
-/

namespace Amlnf

open Act

/-- The environment that the chips and `arg_info` designate. -/
def envBytes (fl : Flash) (s : St) : Buf :=
  if (s.info .nenv).argValid then
    readCopy fl .nenv configEnvSize (s.image.recAt fl (s.info .nenv).validBlkAddr)
      (s.info .nenv).validPageAddr (configEnvSize + 1) 0 fun _ => 0
  else fun _ => 0

/-- The driver at rest, with chips that report no failure from now on. -/
def St.later (s : St) : St :=
  { s with plan := fun _ => .fine, state := .ready, mutex := false, idleflag := false }

/-- A later read of the environment, one that meets no failure, returns the bytes `E`. -/
def EnvIs (fl : Flash) (s : St) (E : Buf) : Prop :=
  ∃ out t, amlnfEnvRead fl true (fun _ => 0) s.later = (some (0, out), t) ∧
    ∀ i < configEnvSize, out i = E i

section

variable {fl : Flash} {name : RecName} {size excl : ℕ} {s t : St} {P Q : Buf}

/-! ## Reading -/

/-- What is read depends on the chips and on `arg_info`. -/
lemma envBytes_congr (himage : t.image = s.image)
    (hvalid : (t.info .nenv).argValid = (s.info .nenv).argValid)
    (hblk : (t.info .nenv).validBlkAddr = (s.info .nenv).validBlkAddr)
    (hpage : (t.info .nenv).validPageAddr = (s.info .nenv).validPageAddr) :
    envBytes fl t = envBytes fl s := by
  rw [envBytes, envBytes, himage, hvalid, hblk, hpage]

/-- A read of the environment on chips that report no failure, with the buffer it needs. -/
lemma amlnfEnvRead_run (fl : Flash) (hs : Reads s) {mem : Bool}
    (hmem : (s.info .nenv).argValid = true → mem = true) (buf : Buf) :
    ∃ t, amlnfEnvRead fl mem buf s = (some (0, blit buf 0 configEnvSize (envBytes fl s)), t) ∧
      t.kept = s.kept := by
  by_cases hv : (s.info .nenv).argValid = true
  · obtain ⟨t, ht, hk⟩ := amlnandReadInfoByName_run fl hs .nenv (fun _ => 0) configEnvSize hv
    refine ⟨t, ?_, hk⟩
    rw [amlnfEnvRead, get_bind, if_neg (by simp [hv]), if_neg (by simp [hmem hv]), bind_some ht,
      envBytes, if_pos hv]
    rfl
  · refine ⟨s, ?_, rfl⟩
    rw [amlnfEnvRead, get_bind, if_pos hv, envBytes, if_neg hv]
    rfl

/-- Later reads meet no failure. -/
lemma reads_later (s : St) : Reads s.later := ⟨fun _ => Outcome.fine_fine, fun _ => ⟨rfl, rfl⟩⟩

/-- **What a later read sees** is the environment that the chips and `arg_info` designate. -/
lemma envIs_iff {E : Buf} : EnvIs fl s E ↔ ∀ i < configEnvSize, envBytes fl s i = E i := by
  obtain ⟨t, ht, -⟩ := amlnfEnvRead_run fl (reads_later s) (fun _ => rfl) fun _ => 0
  have hout : ∀ i < configEnvSize,
      blit (fun _ => 0) 0 configEnvSize (envBytes fl s.later) i = envBytes fl s i := by
    intro i hi
    rw [blit, if_pos ⟨Nat.zero_le i, by omega⟩, Nat.sub_zero]
    rfl
  constructor
  · rintro ⟨out, u, hrun, hE⟩ i hi
    rw [ht] at hrun
    cases hrun
    rw [← hE i hi, hout i hi]
  · intro hE
    exact ⟨_, t, ht, fun i hi => (hout i hi).trans (hE i hi)⟩

/-- The chips hold the payload `P` as the environment. -/
def EnvHolds (fl : Flash) (s : St) (P : Buf) : Prop :=
  (s.info .nenv).argValid = true ∧
    HasCopy fl .nenv configEnvSize (s.image.recAt fl (s.info .nenv).validBlkAddr)
      (s.info .nenv).validPageAddr P

/-- Then it is what a read delivers. -/
lemma EnvHolds.envBytes (h : EnvHolds fl s P) : ∀ i < configEnvSize, envBytes fl s i = P i := by
  intro i hi
  rw [Amlnf.envBytes, if_pos h.1]
  exact readCopy_of_hasCopy h.2 _ i hi

/-- A state that holds a payload as its environment reads it. -/
lemma Holds.envBytes (h : Holds fl s .nenv configEnvSize P) :
    ∀ i < configEnvSize, Amlnf.envBytes fl s i = P i :=
  EnvHolds.envBytes (s := s) ⟨h.valid, h.copy⟩

/-! ## Saving on chips that report no failure -/

/-- What a round of a save needs of the record it finds: the reserved area ends before the block
numbers run out, the block of the record is not one the search may take, a driver without a record
starts at page 0, and the pages behind the last copy are erased. `excl` is the block the search
passes over. -/
structure EnvKept (fl : Flash) (excl : ℕ) (s : St) : Prop where
  argType : (s.info .nenv).argType = .fullPage
  area : ∃ n ≤ 2 ^ 16, ReserveEnd fl s.blkStatus n
  apart : (s.info .nenv).argValid = true → (s.info .nenv).validBlkAddr < 2 ^ 16 ∧
    ¬Candidate fl s.blkStatus s.reservedBlk excl (s.info .nenv).validBlkAddr
  fresh : (s.info .nenv).argValid = false → (s.info .nenv).validPageAddr = 0
  behind : Appends fl (s.info .nenv) configEnvSize →
    ∀ i, (s.info .nenv).validPageAddr + copyStep fl configEnvSize ≤ i → i < fl.pagesRead →
      s.image.recAt fl (s.info .nenv).validBlkAddr i = .erased

/-- It does not depend on the lock, nor on the scratch fields. -/
lemma EnvKept.congr (h : EnvKept fl excl s) (himg : t.image = s.image) (hinfo : t.info = s.info)
    (htbl : t.blkStatus = s.blkStatus) (hlist : t.reservedBlk = s.reservedBlk) :
    EnvKept fl excl t := by
  obtain ⟨h1, h2, h3, h4, h5⟩ := h
  refine ⟨?_, ?_, ?_, ?_, ?_⟩
  · rwa [hinfo]
  · rwa [htbl]
  · rwa [hinfo, htbl, hlist]
  · rwa [hinfo]
  · rwa [hinfo, himg]

/-- A record that has just been written: nothing is asked of the block behind it unless another
copy goes there. -/
structure EnvPlaced (fl : Flash) (s : St) (b : ℕ) (Q : Buf) : Prop where
  holds : EnvHolds fl s Q
  argType : (s.info .nenv).argType = .fullPage
  blk : (s.info .nenv).validBlkAddr = b
  blk_lt : b < 2 ^ 16
  behind : ∀ i, (s.info .nenv).validPageAddr + copyStep fl configEnvSize ≤ i → i < fl.pagesRead →
    s.image.recAt fl b i = .erased

/-- A round that appends writes the payload behind the last copy. -/
lemma EnvKept.appended (h : EnvKept fl excl s) (hfit : CopyFits fl configEnvSize (s.info .nenv))
    (ha : Appends fl (s.info .nenv) configEnvSize) :
    EnvPlaced fl (s.appended fl .nenv Q configEnvSize) (s.info .nenv).validBlkAddr Q := by
  set a := s.info .nenv with haa
  set v := a.validPageAddr with hv
  set B := a.validBlkAddr with hB
  set C := copyStep fl configEnvSize with hC
  have hroom : v + C + C ≤ fl.pagesRead := by
    have hle := hfit.2 ha.2.2.1
    rwa [nextPage, if_pos ha] at hle
  have hbehind : ∀ i, v + C ≤ i → i < fl.pagesRead → s.image.recAt fl B i = .erased := h.behind ha
  have hlow : fl.pagesRead ≤ 1024 := fl.pagesRead_le.trans fl.ppb_le
  have hAC : fl.argPages configEnvSize ≤ C := Nat.le_add_right _ _
  have hinfo : (s.appended fl .nenv Q configEnvSize).info .nenv = appendInfo fl configEnvSize a :=
    appended_info_self s .nenv Q configEnvSize
  have hblk : (appendInfo fl configEnvSize a).validBlkAddr = B :=
    Nat.mod_eq_of_lt (h.apart ha.1).1
  have hpage : (appendInfo fl configEnvSize a).validPageAddr = v + C :=
    Nat.mod_eq_of_lt (show v + C < 2 ^ 16 by omega)
  have himg : (s.appended fl .nenv Q configEnvSize).image =
      s.image.replay fl (fullPageOps fl (nextTag s .nenv) Q configEnvSize B (v + C)) := rfl
  have hnew : ∀ j < fl.argPages configEnvSize,
      (s.appended fl .nenv Q configEnvSize).image.recAt fl B (v + C + j) =
        .written (recSlice fl Q configEnvSize j) (some (nextTag s .nenv)) := by
    rw [himg]
    exact recAt_fullPageOps (by omega) fun j hj => hbehind _ (by omega) (by omega)
  refine ⟨⟨?_, ?_⟩, ?_, ?_, (h.apart ha.1).1, fun i h1 h2 => ?_⟩
  · rw [hinfo]
    exact ha.1
  · rw [hinfo, hblk, hpage]
    exact hasCopy_of_written rfl hnew
  · rw [hinfo]
    exact h.argType
  · rw [hinfo, hblk]
  · rw [hinfo, hpage] at h1
    rw [himg]
    refine (Image.recAt_replay _ fun op hop hhit => ?_).trans (hbehind i (by omega) h2)
    have := (hits_fullPageOps (by omega) hop h2 hhit).2.2
    omega

/-- A round that moves the record writes the payload at the start of the fresh block. -/
lemma EnvKept.moved {b : ℕ} (h : EnvKept fl excl s)
    (hfit : CopyFits fl configEnvSize (s.info .nenv))
    (ha : ¬Appends fl (s.info .nenv) configEnvSize)
    (hb : Candidate fl s.blkStatus s.reservedBlk excl b) :
    EnvPlaced fl (s.moved fl .nenv Q configEnvSize b) b Q := by
  have hfits : Fits fl (s.info .nenv).argType configEnvSize := hfit.fits rfl ha
  have hne : (s.info .nenv).argValid = true → (s.info .nenv).validBlkAddr ≠ b := by
    intro hv heq
    rw [← heq] at hb
    exact (h.apart hv).2 hb
  obtain ⟨n, hn, hend⟩ := h.area
  have hlt : b < 2 ^ 16 := Nat.lt_of_lt_of_le ((hend.lt_iff hb.1.1).2 hb.1) hn
  obtain ⟨hnew, htail, -, -⟩ := recAt_moveOps (Q := Q) hfits hne
  have himg : (s.moved fl .nenv Q configEnvSize b).image =
      s.image.replay fl (moveOps fl s .nenv Q configEnvSize b) := rfl
  have hinfo : (s.moved fl .nenv Q configEnvSize b).info .nenv = moveInfo b (s.info .nenv) :=
    moved_info_self s .nenv Q configEnvSize b
  have hblk : (moveInfo b (s.info .nenv)).validBlkAddr = b := Nat.mod_eq_of_lt hlt
  have hpage : (moveInfo b (s.info .nenv)).validPageAddr = 0 := by
    change (if (s.info .nenv).argValid = true then 0 else (s.info .nenv).validPageAddr) = 0
    split
    · rfl
    · next hv => exact h.fresh (by simpa using hv)
  refine ⟨⟨?_, ?_⟩, ?_, ?_, hlt, fun i h1 h2 => ?_⟩
  · rw [hinfo]
    rfl
  · rw [hinfo, hblk, hpage, himg]
    refine hasCopy_of_written (show (nextTag s .nenv).name = .nenv from rfl) fun j hj => ?_
    rw [Nat.zero_add]
    exact hnew j hj
  · rw [hinfo]
    exact h.argType
  · rw [hinfo, hblk]
  · rw [hinfo, hpage, Nat.zero_add] at h1
    rw [himg]
    exact htail h.argType i h1 h2

/-- What has been written does not depend on the scratch fields. -/
lemma EnvPlaced.of_kept {b : ℕ} (h : EnvPlaced fl s b Q) (hk : t.kept = s.kept) :
    EnvPlaced fl t b Q := by
  have hinfo := congrFun (kept_info hk) .nenv
  have himg := kept_image hk
  refine ⟨⟨?_, ?_⟩, ?_, ?_, h.blk_lt, ?_⟩
  all_goals rw [hinfo]
  · exact h.holds.1
  · rw [himg]
    exact h.holds.2
  · exact h.argType
  · exact h.blk
  · rw [himg]
    exact h.behind

/-- A round that succeeds has written the payload to the block it leaves in its local variables. -/
lemma EnvKept.round {l : SaveLocals} (h : EnvKept fl excl s)
    (hfit : CopyFits fl configEnvSize (s.info .nenv))
    (hr : Round fl .nenv Q configEnvSize excl s (Sum.inr (0, l)) t) :
    EnvPlaced fl t l.blkAddr Q := by
  cases hr with
  | append ha _ hb ht =>
    rw [hb]
    exact (h.appended hfit ha).of_kept ht
  | move ha _ hb _ ht => exact (h.moved hfit ha hb).of_kept ht

/-- After it the second round of a save finds what it needs. -/
lemma EnvPlaced.kept {b : ℕ} (h : EnvPlaced fl s b Q)
    (harea : ∃ n ≤ 2 ^ 16, ReserveEnd fl s.blkStatus n) :
    EnvKept fl b (s.setInfo .nenv settled) := by
  have hinfo : (s.setInfo .nenv settled).info .nenv = settled (s.info .nenv) :=
    setInfo_info_self s .nenv settled
  have hblk : (settled (s.info .nenv)).validBlkAddr = b := h.blk
  refine ⟨?_, harea, fun _ => ?_, fun hv => ?_, fun _ i h1 h2 => ?_⟩
  · rw [hinfo]
    exact h.argType
  · rw [hinfo, hblk]
    exact ⟨h.blk_lt, fun hc => hc.2.2.1 rfl⟩
  · rw [hinfo] at hv
    exact absurd h.holds.1 (by simp [show (s.info .nenv).argValid = false from hv])
  · rw [hinfo] at h1
    rw [hinfo, hblk]
    exact h.behind i h1 h2

/-- A round that fails leaves the timestamp behind only. -/
lemma Round.failed {ret : ℤ} (h : Round fl name Q size excl s (Sum.inl ret) t) :
    t.kept = (s.stamped name).kept ∧ ¬Appends fl (s.info name) size ∧
      ∀ b, ¬Candidate fl s.blkStatus s.reservedBlk excl b := by
  cases h with
  | full ha hb ht => exact ⟨ht, ha, hb⟩

/-- A round that succeeds had a place for the record. -/
lemma Round.place {ret : ℤ} {l : SaveLocals}
    (h : Round fl name Q size excl s (Sum.inr (ret, l)) t) :
    Appends fl (s.info name) size ∨ ∃ b, Candidate fl s.blkStatus s.reservedBlk excl b := by
  cases h with
  | append ha _ _ _ => exact .inl ha
  | move _ _ hb _ _ => exact .inr ⟨_, hb⟩

/-- The timestamp does not show in the environment. -/
lemma envBytes_stamped (hk : t.kept = (s.stamped .nenv).kept) :
    envBytes fl t = envBytes fl s := by
  have hi : t.info .nenv = stampInfo (s.info .nenv) := by
    rw [kept_info hk, St.stamped, setInfo_info_self]
  refine envBytes_congr ((kept_image hk).trans rfl) ?_ ?_ ?_
  all_goals rw [hi]; rfl

/-- A round keeps the lock. -/
lemma Round.lock {r : ℤ ⊕ ℤ × SaveLocals} (h : Round fl name Q size excl s r t) :
    t.lock = s.lock := by
  have hkept : ∀ c : St, t.kept = c.kept → t.lock = c.lock := fun c hc => by
    change t.kept.lock = c.kept.lock
    rw [hc]
  cases h with
  | append _ _ _ ht => exact (hkept _ ht :)
  | move _ _ _ _ ht => exact (hkept _ ht :)
  | full _ _ ht => exact (hkept _ ht :)

/-- So does a save. -/
lemma Saves.lock {ret : ℤ} (h : Saves fl name Q size s ret t) : t.lock = s.lock := by
  cases h with
  | refused _ => rfl
  | failed _ hr => exact hr.lock
  | once _ _ hr => exact hr.lock
  | half _ _ hr hr' => exact hr'.lock.trans hr.lock
  | twice _ _ hr hr' => exact hr'.lock.trans hr.lock

/-- A save may and can store something: records may be saved, and there is room behind the last
copy of the environment or, with writing on, a block the search may take. -/
def RecordPlace (fl : Flash) (s : St) : Prop :=
  s.allowMeta = true ∧ (Appends fl (s.info .nenv) configEnvSize ∨
    s.readonly = false ∧ ∃ b, Candidate fl s.blkStatus s.reservedBlk 0 b)

/-- **What a save makes of the environment** on chips that report no failure: with a place for it
the environment is the payload, otherwise it is as before. The second round of a save that has
succeeded once changes nothing about that. -/
lemma EnvKept.saveInfo_env (h : EnvKept fl 0 s) (hs : Ready s)
    (hfit : CopiesFit fl configEnvSize (s.info .nenv)) (Q : Buf) :
    ∃ ret t, saveInfo fl .nenv Q configEnvSize s = (some ret, t) ∧ t.lock = s.lock ∧
      (RecordPlace fl s → ∀ i < configEnvSize, envBytes fl t i = Q i) ∧
      (¬RecordPlace fl s → envBytes fl t = envBytes fl s) := by
  obtain ⟨n, hn, hend⟩ := h.area
  have hfuel : n < fl.startBlk + scanFuel := by
    have hlong : 2 ^ 16 < scanFuel := by decide
    omega
  obtain ⟨ret, t, ht, hsv⟩ := amlnandSaveInfoByName_run fl (blockMarkbadOp fl) .nenv Q configEnvSize
    hs hend hfuel
  refine ⟨ret, t, ht, hsv.lock, ?_⟩
  have hstored : RecordPlace fl s → (∀ i < configEnvSize, envBytes fl t i = Q i) →
      (RecordPlace fl s → ∀ i < configEnvSize, envBytes fl t i = Q i) ∧
        (¬RecordPlace fl s → envBytes fl t = envBytes fl s) :=
    fun hp hQ => ⟨fun _ => hQ, fun hn => absurd hp hn⟩
  have hkept : ¬RecordPlace fl s → envBytes fl t = envBytes fl s →
      (RecordPlace fl s → ∀ i < configEnvSize, envBytes fl t i = Q i) ∧
        (¬RecordPlace fl s → envBytes fl t = envBytes fl s) :=
    fun hn hs => ⟨fun hp => absurd hp hn, fun _ => hs⟩
  have hplace : ∀ {ret : ℤ} {l : SaveLocals} {u : St}, s.allowMeta = true →
      Round fl .nenv Q configEnvSize 0 s (Sum.inr (ret, l)) u → RecordPlace fl s :=
    fun hm hr => ⟨hm, hr.place.imp_right fun hc => ⟨hs.calm.2, hc⟩⟩
  -- the first round stores the payload, and the second finds what it needs
  have hsecond : ∀ {l : SaveLocals} {u : St},
      Round fl .nenv Q configEnvSize 0 s (Sum.inr (0, l)) u →
      EnvHolds fl (u.setInfo .nenv settled) Q ∧ EnvKept fl l.blkAddr (u.setInfo .nenv settled) ∧
        CopyFits fl configEnvSize ((u.setInfo .nenv settled).info .nenv) := by
    intro l u hr
    have hplaced := h.round hfit.1 hr
    refine ⟨?_, hplaced.kept ⟨n, hn, ?_⟩, hr.second_fits hfit h.fresh⟩
    · rw [EnvHolds, setInfo_info_self]
      exact hplaced.holds
    · rw [hr.keeps.1]
      exact hend
  cases hsv with
  | refused hm => exact hkept (fun hp => by simp [RecordPlace, hm] at hp) rfl
  | failed hm hr =>
    obtain ⟨hk, happ, hcand⟩ := hr.failed
    refine hkept (fun hp => ?_) (envBytes_stamped hk)
    rcases hp.2 with hp | ⟨-, b, hp⟩
    · exact happ hp
    · exact hcand b hp
  | once _ hty _ =>
    rw [h.argType] at hty
    cases hty
  | half hm _ hr hr' =>
    refine hstored (hplace hm hr) ?_
    rw [envBytes_stamped hr'.failed.1]
    exact (hsecond hr).1.envBytes
  | twice hm _ hr hr' =>
    obtain ⟨-, hk, hf⟩ := hsecond hr
    exact hstored (hplace hm hr) (hk.round hf hr').holds.envBytes

end

/-! ## What reads leave alone -/

/-- The chips, the two settings a save looks at and `arg_info` are the same. -/
def SameEnv (s t : St) : Prop :=
  t.image = s.image ∧ t.readonly = s.readonly ∧ t.allowMeta = s.allowMeta ∧ t.info = s.info

instance : Std.Refl SameEnv := ⟨fun _ => ⟨rfl, rfl, rfl, rfl⟩⟩

instance : IsTrans St SameEnv where
  trans _ _ _ h1 h2 := ⟨h2.1.trans h1.1, h2.2.1.trans h1.2.1, h2.2.2.1.trans h1.2.2.1,
    h2.2.2.2.trans h1.2.2.2⟩

/-- Bookkeeping and calls of chip operations respect it. -/
lemma sameEnv_frame : CallFrame (fun _ => False) SameEnv where
  soft h _ hi := by
    simp only [St.hard, Prod.mk.injEq] at h
    exact ⟨h.1, h.2.2.2.2.1.1, h.2.2.2.2.1.2.1, funext fun n => hi n not_false⟩
  call _ _ := ⟨rfl, rfl, rfl, rfl⟩

/-- It takes no notice of the lock. -/
lemma sameEnv_ignoresLock : IgnoresLock SameEnv := fun _ _ _ _ _ _ => ⟨rfl, rfl, rfl, rfl⟩

/-- The environment is then the same as well. -/
lemma SameEnv.envBytes {fl : Flash} {s t : St} (h : SameEnv s t) :
    envBytes fl t = envBytes fl s := by
  obtain ⟨himg, -, -, hinfo⟩ := h
  refine envBytes_congr himg ?_ ?_ ?_
  all_goals rw [hinfo]

/-! ## Saving while writing is off -/

/-- While `amlnf_readonly` is on it stays so, and neither the chips nor the `arg_info` of the
environment change. -/
def EnvShut (s t : St) : Prop :=
  s.readonly = true → t.readonly = true ∧ t.image = s.image ∧ t.info .nenv = s.info .nenv

instance : Std.Refl EnvShut := ⟨fun _ h => ⟨h, rfl, rfl⟩⟩

instance : IsTrans St EnvShut where
  trans _ _ _ h1 h2 h := by
    obtain ⟨a1, a2, a3⟩ := h1 h
    obtain ⟨b1, b2, b3⟩ := h2 a1
    exact ⟨b1, b2.trans a2, b3.trans a3⟩

/-- Whatever the chips report, programs and erases respect it, and so does saving the table. -/
lemma envShut_frame (fl : Flash) :
    WriteFrame fl (· = .nbbt) (fun _ _ => True) EnvShut where
  soft h _ hi hro := by
    simp only [St.hard, Prod.mk.injEq] at h
    exact ⟨h.2.2.2.2.1.1.trans hro, h.1, hi .nenv (by decide)⟩
  write d o _ := by
    intro s hro
    rw [writePage, get_bind, if_pos hro]
    exact ⟨hro, rfl, rfl⟩
  erase := by
    intro s hro
    rw [eraseBlock, get_bind, if_pos hro]
    exact ⟨hro, rfl, rfl⟩
  pattern _ := trivial
  untagged _ := trivial

lemma envShut_ignoresLock : IgnoresLock EnvShut := fun _ _ _ _ _ _ hro => ⟨hro, rfl, rfl⟩

section Shut

variable {fl : Flash} {s₀ : St}

/-- Marking blocks bad respects it at any depth. -/
lemma keeps_envShut_markbad (fl : Flash) (s₀ : St) :
    Keeps (EnvShut s₀) (blockMarkbadOp fl) :=
  ((envShut_frame fl).invariant envShut_ignoresLock s₀).markbadN
    (fun _ _ hs _ hro => hs hro) rfl (fun _ _ => trivial) _

variable (hro : s₀.readonly = true)

include hro

/-- A page of a record is refused. -/
lemma writeRecPage_shut (tag : Tag) (blk i : ℕ) (d : Buf) :
    Spec (EnvShut s₀) (writeRecPage fl tag blk i d) (fun ret s => ret < 0 ∧ EnvShut s₀ s)
      fun _ => True := by
  have hlock : ∀ x : Act St Unit, Moves EnvShut x →
      Spec (EnvShut s₀) x (fun _ => EnvShut s₀) fun _ => True := fun x hx =>
    (keeps_of_moves hx s₀).mono (fun _ h => h) (fun _ _ h => h) fun _ _ => trivial
  refine Spec.bind (M := fun _ => EnvShut s₀) (hlock _ (.modify fun s hro => ⟨hro, rfl, rfl⟩))
    fun _ => Spec.bind (M := fun _ => EnvShut s₀) (hlock _ (.modify fun s hro => ⟨hro, rfl, rfl⟩))
    fun _ => ?_
  refine Spec.bind (M := fun _ => EnvShut s₀) (fun s hs => hs) fun s => ?_
  refine Spec.bind (M := fun _ => EnvShut s₀)
    (hlock _ (.when envShut_ignoresLock.moves_nandGetChip)) fun _ => ?_
  refine Spec.bind (M := fun ret s => ret < 0 ∧ EnvShut s₀ s) (fun s hs => ?_) fun ret =>
    Spec.and_left fun hret => ?_
  · rw [writePage, get_bind, if_pos (hs hro).1]
    exact ⟨by decide, hs⟩
  · refine Spec.bind (M := fun _ => EnvShut s₀) (fun s hs => hs) fun s => ?_
    refine Spec.bind (M := fun _ => EnvShut s₀)
      (hlock _ (.when envShut_ignoresLock.moves_nandReleaseChip)) fun _ => ?_
    exact Spec.pure fun _ hs => ⟨hret, hs⟩

/-- So is a copy. -/
lemma writeCopy_shut (tag : Tag) (buf : Buf) (size blk base : ℕ) :
    Spec (EnvShut s₀) (writeCopy fl tag buf size blk base) (fun r s => r = none ∧ EnvShut s₀ s)
      fun _ => True := by
  obtain ⟨n, hn⟩ : ∃ n, fl.argPages size = n + 1 :=
    ⟨fl.argPages size - 1, (Nat.succ_pred_eq_of_pos (argPages_pos fl size)).symm⟩
  have hround : Spec (EnvShut s₀) (copyRound fl tag buf size blk base (0, 0))
      (fun r s => r = Sum.inr () ∧ EnvShut s₀ s) fun _ => True := by
    refine Spec.bind (writeRecPage_shut hro tag blk _ _) fun ret => Spec.and_left fun hret => ?_
    rw [if_pos hret]
    exact Spec.pure fun _ hs => ⟨rfl, hs⟩
  rw [writeCopy, hn, loop]
  refine Spec.bind (M := fun r s => r = Sum.inr () ∧ EnvShut s₀ s) (Spec.bind hround fun r => ?_)
    fun r => ?_
  all_goals
    refine Spec.and_left fun hr => ?_
    rw [hr]
    exact Spec.pure fun _ hs => ⟨rfl, hs⟩

variable (hty : (s₀.info .nenv).argType = .fullPage)

include hty

/-- No attempt to save the environment writes a copy. -/
lemma saveAttempts_shut (tag : Tag) (buf : Buf) (size : ℕ) (l : SaveLocals) :
    Spec (EnvShut s₀) (saveAttempts fl (blockMarkbadOp fl) .nenv tag buf size l)
      (fun a s => (∀ ret l, a ≠ .wrote ret l) ∧ EnvShut s₀ s) fun _ => True := by
  have F := (envShut_frame fl).invariant envShut_ignoresLock s₀
  have hmark := keeps_envShut_markbad fl s₀
  have hkeep : ∀ {α : Type} {x : Act St α}, Keeps (EnvShut s₀) x →
      Spec (EnvShut s₀) x (fun _ => EnvShut s₀) fun _ => True := fun hx =>
    hx.mono (fun _ h => h) (fun _ _ h => h) fun _ _ => trivial
  refine Spec.loopUntil (I := fun _ => EnvShut s₀) (fun l => ?_) (fun _ _ _ => trivial) 4 l
  refine Spec.bind (M := fun _ => EnvShut s₀)
    (hkeep (F.chooseBlock (fun _ => hmark) _ _ _)) fun r => ?_
  cases r with
  | none => exact Spec.pure fun _ hs => ⟨fun _ _ h => (by cases h), hs⟩
  | some l =>
    have hwrite : Spec (EnvShut s₀) (writeRecord fl .nenv tag buf size l)
        (fun r s => r = none ∧ EnvShut s₀ s) fun _ => True := by
      refine Spec.get_bind fun s hs => ?_
      rw [(hs hro).2.2, hty]
      refine (Spec.bind (writeCopy_shut hro _ _ _ _ _) fun r => Spec.and_left fun hr => ?_).mono
        (fun t ht => ?_) (fun _ _ h => h) fun _ h => h
      · rw [hr]
        exact Spec.pure fun _ hs => ⟨rfl, hs⟩
      · rw [ht]
        exact hs
    refine Spec.bind hwrite fun r => Spec.and_left fun hr => ?_
    rw [hr]
    refine Spec.ite (fun _ => Spec.pure fun _ hs => ⟨fun _ _ h => (by cases h), hs⟩) fun _ => ?_
    refine Spec.bind (M := fun _ => EnvShut s₀) (hkeep (F.test trivial _)) fun ret => ?_
    refine Spec.ite (fun _ => ?_) fun _ => Spec.pure fun _ hs => hs
    exact Spec.bind (M := fun _ => EnvShut s₀) (hkeep hmark) fun _ => Spec.pure fun _ hs => hs

end Shut

/-- **While writing is off a save of the environment that returns has stored nothing**, whatever the
chips report. -/
lemma saveInfo_readonly {fl : Flash} {s t : St} {buf : Buf} {size : ℕ} {ret : ℤ}
    (hro : s.readonly = true) (hty : (s.info .nenv).argType = .fullPage)
    (hrun : saveInfo fl .nenv buf size s = (some ret, t)) : envBytes fl t = envBytes fl s := by
  by_cases hm : s.allowMeta = true
  swap
  · rw [saveInfo, amlnandSaveInfoByName, get_bind, if_pos hm] at hrun
    cases hrun
    rfl
  let u : St := { s.stamped .nenv with opsPara := {} }
  have hu : u.info .nenv = stampInfo (s.info .nenv) := setInfo_info_self s .nenv stampInfo
  rw [saveInfo, amlnandSaveInfoByName, get_bind, if_neg (not_not.2 hm)] at hrun
  obtain ⟨r, v, hr, hrun⟩ := bind_eq_some hrun
  rw [saveRound_start] at hr
  obtain ⟨a, w, ha, hr⟩ := bind_eq_some hr
  obtain ⟨hnot, hshut⟩ := (saveAttempts_shut (show u.readonly = true from hro)
    (by rw [hu]; exact hty) _ _ _ _).returned (refl_of EnvShut u) ha
  obtain ⟨-, himg, hinfo⟩ := hshut hro
  have hbytes : envBytes fl w = envBytes fl s := by
    refine envBytes_congr himg ?_ ?_ ?_
    all_goals rw [hinfo, hu]; rfl
  cases a with
  | noBlock =>
    cases hr
    cases hrun
    exact hbytes
  | gaveUp =>
    cases hr
    cases hrun
    exact hbytes
  | wrote ret l => exact absurd rfl (hnot ret l)

/-! ## How such a save ends -/

section Refused

variable {fl : Flash} {s : St} (hst : s.state ≠ .ready) (hro : s.readonly = true)

include hst hro

/-- Under a device operation the first page of a copy is refused, and the copy with it. -/
lemma writeCopy_refused (fl : Flash) (tag : Tag) (buf : Buf) (size blk base : ℕ) :
    ∃ t, writeCopy fl tag buf size blk base s = (some none, t) ∧ t.kept = s.kept := by
  obtain ⟨n, hn⟩ : ∃ n, fl.argPages size = n + 1 :=
    ⟨fl.argPages size - 1, (Nat.succ_pred_eq_of_pos (argPages_pos fl size)).symm⟩
  let u : St := { s.seekRec fl blk (base + 0) with userOob := some tag }
  have hwrite : writeRecPage fl tag blk (base + 0) (recSlice fl buf size 0) s =
      (some (-eROFS), u) := by
    refine withChip_busy (s := u) hst ?_ hst
    rw [writePage, get_bind, if_pos (show u.readonly = true from hro), pure_apply]
  have hround : copyRound fl tag buf size blk base (0, 0) s = (some (Sum.inr ()), u) := by
    rw [copyRound, bind_some hwrite, if_pos (by decide), pure_apply]
  refine ⟨u, ?_, rfl⟩
  rw [writeCopy, hn, bind_some (loop_succ_inr n hround)]
  rfl

/-- A save that appends tests the block its page was refused in, and waits for the lock it is called
under. -/
lemma saveInfo_hangs (hmutex : s.mutex = true) (hm : s.allowMeta = true) {size : ℕ}
    (ha : Appends fl (s.info .nenv) size) (buf : Buf) : (saveInfo fl .nenv buf size s).1 = none := by
  let u : St := { s.stamped .nenv with opsPara := {} }
  have hu : u.info .nenv = stampInfo (s.info .nenv) := setInfo_info_self s .nenv stampInfo
  have hua : Appends fl (u.info .nenv) size := by
    rw [hu]
    exact ha
  obtain ⟨v, hv, hvk⟩ := writeCopy_refused (s := u) hst hro fl (nextTag s .nenv) buf size
    (u.info .nenv).validBlkAddr (appendBase fl (u.info .nenv) size false)
  have hwrite : writeRecord fl .nenv (nextTag s .nenv) buf size
      { blkAddr := (u.info .nenv).validBlkAddr } u = (some none, v) := by
    rw [writeRecord, get_bind, hua.2.2.1]
    exact bind_some hv
  have hhang : ∀ b, ∃ w, testBlockReserved fl b v = (none, w) := by
    intro b
    have hvm : v.mutex = true := (kept_mutex hvk).trans hmutex
    have hget : ∀ w : St, w.mutex = true →
        nandGetChip w = (none, { w with lockFault := true }) := by
      intro w hw
      rw [nandGetChip, get_bind, if_pos hw]
      rfl
    let w : St := { v with opsPara := { v.opsPara with option :=
      { v.opsPara.option with slc := v.opsPara.option.slc || fl.newType.slc } } }
    refine ⟨{ w with lockFault := true }, ?_⟩
    rw [testBlockReserved, modify_bind]
    exact bind_none (hget w hvm)
  obtain ⟨w, hw⟩ := hhang (u.info .nenv).validBlkAddr
  have hattempts : saveAttempts fl (blockMarkbadOp fl) .nenv (nextTag s .nenv) buf size {} u =
      (none, w) := by
    have hround : attemptRound fl (blockMarkbadOp fl) .nenv (nextTag s .nenv) buf size {} u =
        (none, w) := by
      rw [attemptRound, bind_some (chooseBlock_append _ {} hua)]
      refine (bind_some hwrite).trans ?_
      exact bind_none hw
    rw [saveAttempts, loopUntil, bind_none (loop_succ_none 3 hround)]
  have hsave : saveRound fl (blockMarkbadOp fl) .nenv buf size {} s = (none, w) := by
    rw [saveRound_start, bind_none hattempts]
  rw [saveInfo, amlnandSaveInfoByName, get_bind, if_neg (not_not.2 hm), bind_none hsave]

/-- A search for a block is refused every erase; with marking off it ends without a block. -/
lemma amlnandGetFreeBlock_refused (hmark : s.allowMarkbad = false) (excl : ℕ) {n : ℕ}
    (hn : ReserveEnd fl s.blkStatus n) (hfuel : n < fl.startBlk + scanFuel) :
    ∃ t, amlnandGetFreeBlock fl (blockMarkbadOp fl) excl s = (some none, t) ∧ t.kept = s.kept := by
  have hround : ∀ (p : ChipOpsPara) b, fl.startBlk ≤ b → b < n →
      ∃ q, freeBlockRound fl (blockMarkbadOp fl) excl n b { s with opsPara := p } =
        (some (Sum.inl (b + 1)), { s with opsPara := q }) := by
    intro p b hb hbn
    by_cases hc : Candidate fl s.blkStatus s.reservedBlk excl b
    swap
    · exact ⟨_, freeBlockRound_skip _ hn hb hbn rfl rfl hc⟩
    refine ⟨blockPara fl b, ?_⟩
    have herase : withChip (eraseBlock fl) { s with opsPara := blockPara fl b } =
        (some (-eROFS), { s with opsPara := blockPara fl b }) := by
      refine withChip_busy hst ?_ hst
      rw [eraseBlock, get_bind, if_pos (show _ = true from hro), pure_apply]
    have hmarked : blockMarkbadOp fl { s with opsPara := blockPara fl b } =
        (some (-eROFS), { s with opsPara := blockPara fl b }) := by
      rw [blockMarkbadOp, markbadN, blockMarkbad, get_bind, if_pos (by simp [hmark]), pure_apply]
    refine (freeBlockRound_candidate (s := { s with opsPara := p }) hn rfl rfl hc).trans ?_
    refine (bind_some herase).trans ?_
    rw [if_pos (by decide)]
    exact bind_some hmarked
  have hloop : ∀ j b N (p : ChipOpsPara), b + j = n → fl.startBlk ≤ b → j < N →
      ∃ q, loopUntil (freeBlockRound fl (blockMarkbadOp fl) excl n) N b { s with opsPara := p } =
        (some none, { s with opsPara := q }) := by
    intro j
    induction j with
    | zero =>
      intro b N p hb _ hN
      obtain ⟨N, rfl⟩ : ∃ m, N = m + 1 := ⟨N - 1, by omega⟩
      obtain rfl : b = n := hb
      refine ⟨p, loopUntil_inr N ?_⟩
      rw [freeBlockRound, if_neg (lt_irrefl _), pure_apply]
    | succ j ih =>
      intro b N p hb hle hN
      obtain ⟨N, rfl⟩ : ∃ m, N = m + 1 := ⟨N - 1, by omega⟩
      obtain ⟨q, hq⟩ := hround p b hle (by omega)
      rw [loopUntil_inl N hq]
      exact ih (b + 1) N q (by omega) (by omega) (by omega)
  have h0 := hn.1
  obtain ⟨q, hq⟩ := hloop (n - fl.startBlk) fl.startBlk (n + 1) (blockPara fl (n - 1)) (by omega)
    (le_refl _) (by omega)
  refine ⟨{ s with opsPara := q }, ?_, rfl⟩
  rw [amlnandGetFreeBlock, modify_bind,
    bind_some (getLastReserveBlock_eq fl (s := { s with opsPara := {} }) hn hfuel)]
  exact hq

/-- A save that does not append then returns. -/
lemma saveInfo_noBlock (hmark : s.allowMarkbad = false) (hm : s.allowMeta = true) {size n : ℕ}
    (hn : ReserveEnd fl s.blkStatus n) (hfuel : n < fl.startBlk + scanFuel)
    (ha : ¬Appends fl (s.info .nenv) size) (hty : (s.info .nenv).argType = .fullPage) (buf : Buf) :
    ∃ ret t, saveInfo fl .nenv buf size s = (some ret, t) ∧ t.lock = s.lock := by
  let u : St := { s.stamped .nenv with opsPara := {} }
  have hu : u.info .nenv = stampInfo (s.info .nenv) := setInfo_info_self s .nenv stampInfo
  obtain ⟨t, ht, hk⟩ := amlnandGetFreeBlock_refused (s := u) hst hro hmark 0 hn hfuel
  have hchoose : chooseBlock fl (blockMarkbadOp fl) .nenv size {} u = (some none, t) := by
    rw [chooseBlock, get_bind, hu]
    by_cases hc : (s.info .nenv).argValid = true ∧ ¬(s.info .nenv).updateFlag = true
    · have hroom : fl.pagesRead < (s.info .nenv).validPageAddr + 2 * fl.argPages size := by
        by_contra hroom
        exact ha ⟨hc.1, by simpa using hc.2, hty, not_lt.1 hroom⟩
      rw [if_pos ⟨hc.1, hc.2, hty⟩]
      refine (congrFun (if_pos hroom) u).trans ?_
      exact bind_some ht
    · rw [if_neg fun h => hc ⟨h.1, h.2.1⟩]
      exact bind_some ht
  have hround : saveRound fl (blockMarkbadOp fl) .nenv buf size {} s =
      (some (Sum.inl (-nandBadBlcokFailure)), t) := by
    rw [saveRound_start, bind_some (saveAttempts_noBlock hchoose)]
    rfl
  refine ⟨-nandBadBlcokFailure, t, ?_, ?_⟩
  · rw [saveInfo, amlnandSaveInfoByName, get_bind, if_neg (not_not.2 hm), bind_some hround]
    rfl
  · change t.kept.lock = s.lock
    rw [hk]
    rfl

end Refused

end Amlnf
