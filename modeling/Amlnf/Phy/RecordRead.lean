import Amlnf.Phy.Calm
import Amlnf.Phy.RecordImage

set_option relaxedAutoImplicit false
set_option autoImplicit false

/-!
# Scanning and reading on chips that report no failure

On chips that report no failure the scan and the read of `chipenv.c` are the functions of
`RecordImage`: they return, change nothing on the chips and leave exactly the `arg_info` and
the buffer these functions give.

## Main definitions

* `St.kept` — the state without the scratch fields of the chip operations.
* `Ready` — calm, and the chip lock is free unless a device operation is under way.

## Main results

* `amlnandReadInfoByName_run` — reading a record.
* `amlnandCheckInfoByName_run` — scanning for a record.
* `amlnandInfoInit_run` — a scan followed by a read and the checksum.
-/

namespace Amlnf

open Act

/-- The state without step counter, `ops_para` and `user_oob_buf`. -/
def St.kept (s : St) : St := { s with tick := 0, opsPara := {}, userOob := none }

section Kept

variable {s t : St} (h : t.kept = s.kept)

include h

lemma kept_image : t.image = s.image := by injection h
lemma kept_log : t.log = s.log := by injection h
lemma kept_plan : t.plan = s.plan := by injection h
lemma kept_blkStatus : t.blkStatus = s.blkStatus := by injection h
lemma kept_info : t.info = s.info := by injection h
lemma kept_reservedBlk : t.reservedBlk = s.reservedBlk := by injection h
lemma kept_readonly : t.readonly = s.readonly := by injection h
lemma kept_allowMeta : t.allowMeta = s.allowMeta := by injection h
lemma kept_mutex : t.mutex = s.mutex := by injection h
lemma kept_idleflag : t.idleflag = s.idleflag := by injection h
lemma kept_state : t.state = s.state := by injection h

end Kept

/-- No step fails, and the chip lock is free unless a device operation holds it. -/
structure Ready (s : St) : Prop where
  calm : s.Calm
  lock : s.state = .ready → s.mutex = false ∧ s.idleflag = false

/-- Ready is a matter of the parts that are kept. -/
lemma Ready.of_kept {s t : St} (hs : Ready s) (h : t.kept = s.kept) : Ready t := by
  refine ⟨⟨?_, ?_⟩, ?_⟩
  · rw [kept_plan h]
    exact hs.calm.1
  · rw [kept_readonly h]
    exact hs.calm.2
  · rw [kept_state h, kept_mutex h, kept_idleflag h]
    exact hs.lock

/-- What reading needs: no step fails, and the chip lock is free unless a device operation holds it. -/
structure Reads (s : St) : Prop where
  fine : ∀ k, (s.plan k).Fine
  lock : s.state = .ready → s.mutex = false ∧ s.idleflag = false

/-- Where everything succeeds reading does. -/
lemma Ready.reads {s : St} (hs : Ready s) : Reads s := ⟨hs.calm.1, hs.lock⟩

/-- So is being able to read. -/
lemma Reads.of_kept {s t : St} (hs : Reads s) (h : t.kept = s.kept) : Reads t := by
  refine ⟨?_, ?_⟩
  · rw [kept_plan h]
    exact hs.fine
  · rw [kept_state h, kept_mutex h, kept_idleflag h]
    exact hs.lock

section

variable {fl : Flash}

/-- What follows runs with the outcome of the current step. -/
lemma nextOutcome_bind {α : Type} (f : Outcome → Act St α) (s : St) :
    (nextOutcome >>= f) s = f (s.plan s.tick) { s with tick := s.tick + 1 } := rfl

/-- Taking the idle chip, an operation that takes no notice of the lock, releasing the chip. -/
lemma bracket_run {α : Type} {x : Act St α} {s c : St}
    {E : α → ChipOpsPara → Option Tag → Prop} (hs : Reads s) (hst : s.state = .ready)
    (hc : c.state = s.state ∧ c.mutex = s.mutex ∧ c.idleflag = s.idleflag)
    (hx : ∀ mu idle tk, ∃ a t, x { s with mutex := mu, idleflag := idle, tick := tk } = (some a, t) ∧
      t.kept = { c with mutex := mu, idleflag := idle }.kept ∧ E a t.opsPara t.userOob) :
    ∃ a u v t, nandGetChip s = (some (), u) ∧ x u = (some a, v) ∧ v.state = .ready ∧
      nandReleaseChip v = (some (), t) ∧ t.kept = c.kept ∧ E a t.opsPara t.userOob := by
  obtain ⟨hmu, hid⟩ := hs.lock hst
  have hpin := (hs.fine s.tick).2.2.2
  obtain ⟨a, t, ht, hk, hE⟩ := hx true true (s.tick + 1)
  have hheld : t.lockFault = (t.lockFault || !t.mutex) := by
    have : t.mutex = true := kept_mutex hk
    rw [this, Bool.not_true, Bool.or_false]
  refine ⟨a, { s with mutex := true, idleflag := true, tick := s.tick + 1 }, t,
    { t with idleflag := false, mutex := false }, ?_, ht, (kept_state hk).trans (hc.1.trans hst), ?_,
    ?_, hE⟩
  · rw [nandGetChip, get_bind, if_neg (by simp [hmu]), modify_bind, nextOutcome_bind, if_pos hpin,
      pure_apply]
  · rw [nandReleaseChip, get_bind, if_pos (kept_idleflag hk), modify_apply, ← hheld]
  · have h1 := congrArg (fun u : St => { u with idleflag := false, mutex := false }) hk
    have h2 : c = { c with idleflag := false, mutex := false } := by
      rw [hmu, hid] at hc
      cases c
      simp_all
    rw [h2]
    exact h1

/-- The chip bracket around an operation that takes no notice of the lock. -/
lemma withChip_run {α : Type} {x : Act St α} {s c : St}
    {E : α → ChipOpsPara → Option Tag → Prop} (hs : Reads s)
    (hc : c.state = s.state ∧ c.mutex = s.mutex ∧ c.idleflag = s.idleflag)
    (hx : ∀ mu idle tk, ∃ a t, x { s with mutex := mu, idleflag := idle, tick := tk } = (some a, t) ∧
      t.kept = { c with mutex := mu, idleflag := idle }.kept ∧ E a t.opsPara t.userOob) :
    ∃ a t, withChip x s = (some a, t) ∧ t.kept = c.kept ∧ E a t.opsPara t.userOob := by
  by_cases hst : s.state = .ready
  · obtain ⟨a, u, v, t, hget, hrun, hv, hrel, hk, hE⟩ := bracket_run hs hst hc hx
    refine ⟨a, t, ?_, hk, hE⟩
    rw [withChip, get_bind, Act.when, if_pos hst, bind_some hget, bind_some hrun, get_bind, Act.when,
      if_pos hv, bind_some hrel, pure_apply]
  · obtain ⟨a, t, ht, hk, hE⟩ := hx s.mutex s.idleflag s.tick
    have hc' : ({ c with mutex := s.mutex, idleflag := s.idleflag } : St) = c := by
      cases c
      simp_all
    rw [hc'] at hk
    have htst : t.state ≠ .ready := by
      rw [kept_state hk, hc.1]
      exact hst
    exact ⟨a, t, withChip_busy hst ht htst, hk, hE⟩

/-- In the plain mode an operation touches the one page `ops_para` names. -/
lemma opPages_single {p : ChipOpsPara} (h1 : p.option.multiPlane = false)
    (h2 : p.option.multiChip = false) : opPages fl p = [(p.chipnr, p.pageAddr)] := by
  have h : p.pageAddr / fl.ppb * fl.ppb + p.pageAddr % fl.ppb = p.pageAddr := by
    rw [Nat.mul_comm]
    exact Nat.div_add_mod _ _
  simp [opPages, opBlocks, opChips, opRows, h1, h2, h]

/-- What a read of page `pg` leaves in `ops_para` and the buffers. -/
def ReadOf (fl : Flash) (pg : Page) (r : ReadBack) (p : ChipOpsPara) (o : Option Tag) : Prop :=
  r.ret = 0 ∧ p.eccErr = pg.isBad ∧
    (pg.isBad = false → o = pg.oob ∧ ∀ i < fl.pagesize, r.data i = pg.data i)

/-- What a page read under outcome `o` leaves in `ops_para` and the buffers. -/
def ReadEnd (fl : Flash) (o : Outcome) (pg : Page) (r : ReadBack) (p : ChipOpsPara)
    (oob : Option Tag) : Prop :=
  match o.read with
  | .failed code => r.ret = -(code + 1 : ℤ)
  | .uncorrectable => r.ret = 0 ∧ p.eccErr = true
  | .clean _ => ReadOf fl pg r p oob

/-- Reading the one page `ops_para` names, whatever the outcome. -/
lemma readUserPage_end (fl : Flash) {s : St} (h1 : s.opsPara.option.multiPlane = false)
    (h2 : s.opsPara.option.multiChip = false) (h3 : s.opsPara.eccErr = false) :
    ∃ r p oob, readUserPage fl s = (some r, { s with
        tick := s.tick + 1
        opsPara := p
        userOob := oob }) ∧
      ReadEnd fl (s.plan s.tick) (s.image s.opsPara.chipnr s.opsPara.pageAddr) r p oob := by
  set pg := s.image s.opsPara.chipnr s.opsPara.pageAddr with hpg
  set o := s.plan s.tick with ho
  have hone : opPages fl s.opsPara = [(s.opsPara.chipnr, s.opsPara.pageAddr)] :=
    opPages_single h1 h2
  -- an uncorrectable page is reported in `ecc_err` only
  have hunc (hread : readPageInto fl s = (some ⟨0, o.garbage, none⟩,
      { s with tick := s.tick + 1, opsPara := { s.opsPara with eccErr := true } })) :
      readUserPage fl s = (some ⟨0, o.garbage, none⟩, { s with
        tick := s.tick + 1
        opsPara := { s.opsPara with eccErr := true }
        userOob := none }) := by
    rw [readUserPage, readPage_data, bind_some hread]
    rfl
  unfold ReadEnd
  cases hr : o.read with
  | failed code =>
    have hneg : ¬0 ≤ (-(code + 1 : ℤ)) := by omega
    have hread : readPageInto fl s = (some ⟨-(code + 1 : ℤ), fun _ => 0, none⟩,
        { s with tick := s.tick + 1 }) := by
      rw [readPageInto, get_bind, nextOutcome_bind]
      simp only [← ho, hr]
      rfl
    refine ⟨⟨-(code + 1 : ℤ), fun _ => 0, none⟩, s.opsPara, s.userOob, ?_, rfl⟩
    rw [readUserPage, readPage_data, bind_some hread, Act.when, if_neg hneg]
    rfl
  | uncorrectable =>
    refine ⟨_, _, _, hunc ?_, rfl, rfl⟩
    rw [readPageInto, get_bind, nextOutcome_bind]
    simp only [← ho, hr]
    rfl
  | clean flip =>
    by_cases hbad : pg.isBad = true
    · refine ⟨_, _, _, hunc ?_, rfl, hbad.symm, fun h => ?_⟩
      · rw [readPageInto, get_bind, nextOutcome_bind, hone]
        simp only [← ho, hr, List.map_cons, List.map_nil, List.any_cons, ← hpg, hbad, Bool.true_or,
          if_true]
        rfl
      · rw [hbad] at h
        cases h
    · let r : ReadBack := ⟨0, fun i => (([pg] : List Page).getD (i / fl.pagesize) .erased).data
        (i % fl.pagesize), pg.oob⟩
      have hread : readPageInto fl s = (some r, { s with
          tick := s.tick + 1
          opsPara := { s.opsPara with bitFlip := s.opsPara.bitFlip || flip } }) := by
        rw [readPageInto, get_bind, nextOutcome_bind, hone]
        simp only [← ho, hr, List.map_cons, List.map_nil, List.any_cons, ← hpg, hbad, List.any_nil,
          Bool.or_false, Bool.false_eq_true, if_false]
        rfl
      refine ⟨r, { s.opsPara with bitFlip := s.opsPara.bitFlip || flip }, pg.oob, ?_, rfl, ?_,
        fun _ => ⟨rfl, fun i hi => ?_⟩⟩
      · rw [readUserPage, readPage_data, bind_some hread]
        rfl
      · simp only [h3, hbad]
      · simp only [r, Nat.div_eq_of_lt hi, Nat.mod_eq_of_lt hi]
        rfl

/-- Reading one page. -/
lemma readUserPage_run {s : St} (hs : ∀ k, (s.plan k).Fine) (h1 : s.opsPara.option.multiPlane = false)
    (h2 : s.opsPara.option.multiChip = false) (h3 : s.opsPara.eccErr = false) :
    ∃ r t, readUserPage fl s = (some r, t) ∧ t.kept = s.kept ∧
      ReadOf fl (s.image s.opsPara.chipnr s.opsPara.pageAddr) r t.opsPara t.userOob := by
  obtain ⟨-, -, ⟨flip, hread⟩, -⟩ := hs s.tick
  obtain ⟨r, p, oob, hrun, hend⟩ := readUserPage_end fl h1 h2 h3
  rw [ReadEnd, hread] at hend
  exact ⟨r, _, hrun, rfl, hend⟩

/-- The state in which a record page is about to be read. -/
def St.seekRec (s : St) (fl : Flash) (b i : ℕ) : St :=
  { s with
    opsPara := { pageAddr := fl.recPage b i, chipnr := fl.resChip b, option := { slc := fl.newType.slc } }
    userOob := none }

/-- What follows runs from the state that points at the record page. -/
lemma seekRec_bind {α : Type} (x : Act St α) (s : St) (b i : ℕ) :
    (do seekPage fl b i; clearOob; x) s = x (s.seekRec fl b i) := rfl

/-- Reading a record page. -/
lemma readRecPage_run (fl : Flash) {s : St} (hs : Reads s) (b i : ℕ) :
    ∃ r t, readRecPage fl b i s = (some r, t) ∧ t.kept = s.kept ∧
      ReadOf fl (s.image.recAt fl b i) r t.opsPara t.userOob := by
  obtain ⟨r, t, ht, hk, hr⟩ := withChip_run (x := readUserPage fl) (s := s.seekRec fl b i)
    (c := s.seekRec fl b i) (E := ReadOf fl (s.image.recAt fl b i)) (hs.of_kept rfl) ⟨rfl, rfl, rfl⟩
    fun mu idle tk => readUserPage_run
      (s := { s.seekRec fl b i with mutex := mu, idleflag := idle, tick := tk }) hs.fine rfl rfl rfl
  refine ⟨r, t, ?_, hk, hr⟩
  rw [readRecPage, seekRec_bind, ht]

/-! ## Reading a record -/

/-- A copy into a buffer looks at the bytes it copies only. -/
lemma blit_congr {d d' : Buf} {len n : ℕ} (h : ∀ i < n, d i = d' i) (hn : len ≤ n) (buf : Buf)
    (off : ℕ) : blit buf off len d = blit buf off len d' := by
  funext i
  unfold blit
  split
  · exact h _ (by omega)
  · rfl

/-- The loop of `amlnand_read_info_by_name`. -/
lemma readLoop_run (fl : Flash) (name : RecName) (size : ℕ) {s : St} (hs : Reads s) :
    ∀ n i (buf : Buf) (u : St), i ≤ size → size < i + n → u.kept = s.kept →
      ∃ t, loopUntil (readRound fl name size) n (i, 0, buf) u =
          (some (0, readCopy fl name size (s.image.recAt fl (s.info name).validBlkAddr)
            (s.info name).validPageAddr n i buf), t) ∧ t.kept = s.kept := by
  intro n
  induction n with
  | zero =>
    intro i buf u hi hn hu
    omega
  | succ n ih =>
    intro i buf u hi hn hu
    by_cases h : i * fl.pagesize < size
    swap
    · refine ⟨u, ?_, hu⟩
      rw [readCopy, if_neg h]
      refine loopUntil_inr n ?_
      rw [readRound, if_neg h, pure_apply]
    have hpos := fl.pagesize_pos
    have hlt : i < size := lt_of_le_of_lt (Nat.le_mul_of_pos_right i hpos) h
    obtain ⟨r, t, ht, hk, hret, hecc, hgood⟩ := readRecPage_run fl (hs.of_kept hu)
      (u.info name).validBlkAddr ((u.info name).validPageAddr + i)
    rw [kept_image hu] at hecc hgood
    have htk := hk.trans hu
    rw [kept_info hu] at hecc hgood ht
    set pg := s.image.recAt fl (s.info name).validBlkAddr ((s.info name).validPageAddr + i) with hpg
    have hround : readRound fl name size (i, 0, buf) u =
        (if t.opsPara.eccErr ∨ r.ret < 0 then pure (Sum.inr (r.ret, buf))
          else if tagged t.userOob name then
            pure (Sum.inl (i + 1, r.ret, blit buf (i * fl.pagesize)
              (min fl.pagesize (size - i * fl.pagesize)) r.data))
          else pure (Sum.inl (i + 1, r.ret, buf)) : Act St _) t := by
      rw [readRound, if_pos h, get_bind, kept_info hu, bind_some ht, get_bind]
    rw [hret, hecc] at hround
    by_cases hbad : pg.isBad = true
    · refine ⟨t, ?_, htk⟩
      rw [readCopy, if_pos h, ← hpg, if_pos hbad]
      refine loopUntil_inr n ?_
      rw [hround, if_pos (Or.inl hbad), pure_apply]
    · obtain ⟨hoob, hdata⟩ := hgood (by simpa using hbad)
      rw [if_neg (by simp [hbad]), hoob] at hround
      rw [readCopy, if_pos h, ← hpg, if_neg hbad]
      by_cases htag : tagged pg.oob name = true
      · rw [if_pos htag, blit_congr hdata (min_le_left _ _), pure_apply] at hround
        rw [if_pos htag, loopUntil_inl n hround]
        exact ih (i + 1) _ t (by omega) (by omega) htk
      · rw [if_neg htag, pure_apply] at hround
        rw [if_neg htag, loopUntil_inl n hround]
        exact ih (i + 1) _ t (by omega) (by omega) htk

/-- **Reading a record** on chips that report no failure. -/
lemma amlnandReadInfoByName_run (fl : Flash) {s : St} (hs : Reads s) (name : RecName) (buf : Buf) (size : ℕ)
    (hv : (s.info name).argValid = true) :
    ∃ t, amlnandReadInfoByName fl name buf size s =
        (some (0, readCopy fl name size (s.image.recAt fl (s.info name).validBlkAddr)
          (s.info name).validPageAddr (size + 1) 0 buf), t) ∧ t.kept = s.kept := by
  obtain ⟨t, ht, hk⟩ := readLoop_run fl name size hs (size + 1) 0 buf
    { s with opsPara := { option := { slc := fl.newType.slc } } } (by omega) (by omega) rfl
  refine ⟨t, ?_, hk⟩
  rw [amlnandReadInfoByName, modify_bind, get_bind, if_pos hv]
  exact ht

/-! ## Scanning for a record -/

/-- Change the `arg_info` of one record. -/
def St.setInfo (s : St) (name : RecName) (f : ArgInfo → ArgInfo) : St :=
  { s with info := fun n => if n = name then f (s.info n) else s.info n }

/-- What follows runs with the new `arg_info`. -/
lemma modifyInfo_bind {α : Type} (name : RecName) (f : ArgInfo → ArgInfo) (g : Unit → Act St α)
    (s : St) : (modifyInfo name f >>= g) s = g () (s.setInfo name f) := rfl

/-- The `arg_info` that was set. -/
@[simp] lemma setInfo_info_self (s : St) (name : RecName) (f : ArgInfo → ArgInfo) :
    (s.setInfo name f).info name = f (s.info name) := if_pos rfl

/-- Setting an `arg_info` respects what is kept. -/
lemma setInfo_congr {s t : St} (h : t.kept = s.kept) (name : RecName) (f : ArgInfo → ArgInfo) :
    (t.setInfo name f).kept = (s.setInfo name f).kept := by
  have h' := congrArg (fun u : St => u.setInfo name f) h
  exact h'

/-- Two changes of one `arg_info` are one. -/
lemma setInfo_setInfo (s : St) (name : RecName) (f g : ArgInfo → ArgInfo) :
    (s.setInfo name f).setInfo name g = s.setInfo name (g ∘ f) := by
  unfold St.setInfo
  congr 1
  funext n
  by_cases h : n = name <;> simp [h]

/-- Only what a change makes of the present `arg_info` counts. -/
lemma setInfo_ext (s : St) (name : RecName) {f g : ArgInfo → ArgInfo}
    (h : f (s.info name) = g (s.info name)) : s.setInfo name f = s.setInfo name g := by
  unfold St.setInfo
  congr 1
  funext n
  by_cases hn : n = name
  · subst hn
    simpa using h
  · simp [hn]

/-- A change that leaves the `arg_info` as it is. -/
lemma setInfo_id (s : St) (name : RecName) (f : ArgInfo → ArgInfo) (h : f (s.info name) = s.info name) :
    s.setInfo name f = s := by
  unfold St.setInfo
  cases s
  congr 1
  funext n
  by_cases hn : n = name
  · subst hn
    simpa using h
  · simp [hn]

/-- An `arg_info` has no part in being ready. -/
lemma Ready.setInfo {s : St} (hs : Ready s) (name : RecName) (f : ArgInfo → ArgInfo) :
    Ready (s.setInfo name f) := ⟨hs.calm, hs.lock⟩

/-- Reading a page during a scan, no device operation being under way. -/
lemma scanRead_run (fl : Flash) {s : St} (hs : Ready s) (hst : s.state = .ready) (b i : ℕ) :
    ∃ r t, scanRead fl b i s = (some r, t) ∧ t.kept = s.kept ∧
      ReadOf fl (s.image.recAt fl b i) r t.opsPara t.userOob := by
  obtain ⟨r, u, v, t, hget, hrun, -, hrel, hk, hE⟩ := bracket_run (x := readUserPage fl)
    (s := s.seekRec fl b i) (c := s.seekRec fl b i) (E := ReadOf fl (s.image.recAt fl b i))
    (hs.reads.of_kept rfl) hst ⟨rfl, rfl, rfl⟩
    fun mu idle tk => readUserPage_run
      (s := { s.seekRec fl b i with mutex := mu, idleflag := idle, tick := tk }) hs.calm.1 rfl rfl rfl
  refine ⟨r, t, ?_, hk, hE⟩
  rw [scanRead, seekRec_bind, bind_some hget, bind_some hrun, bind_some hrel, pure_apply]

/-- The flag the first pass carries after `k` pages that could not be read. -/
def scanFlag (k : ℕ) : ℤ := if k ≤ 8 then 0 else if k = 9 then -1 else -2

/-- A page that cannot be read takes the scan to its next position. -/
lemma scanSkip_scanPos (size k : ℕ) :
    scanSkip fl size (scanPos fl size k, k, scanFlag k) =
      (scanPos fl size (k + 1), k + 1, scanFlag (k + 1)) := by
  unfold scanSkip scanFlag scanPos
  rcases Nat.lt_trichotomy k 8 with h | rfl | h
  · have h1 : k ≤ 8 := by omega
    have h2 : k + 1 ≤ 8 := by omega
    have h3 : ¬8 < k + 1 := by omega
    simp only [h1, h2, h3, if_true, false_and, if_false]
    rw [if_neg (by norm_num)]
    simp only [Prod.mk.injEq, and_true]
    ring
  · simp
  · rcases Nat.lt_trichotomy k 9 with h' | rfl | h'
    · omega
    · simp
    · have h1 : ¬k ≤ 8 := by omega
      have h2 : ¬k = 9 := by omega
      have h3 : ¬k + 1 ≤ 8 := by omega
      have h4 : ¬k + 1 = 9 := by omega
      simp only [h1, h2, h3, h4, if_false]
      rw [if_neg (by norm_num), if_neg (by norm_num)]
      simp only [Prod.mk.injEq, and_true]
      rw [show k + 1 - 10 = k - 10 + 1 by omega]
      ring

/-- A record takes a page at least. -/
lemma argPages_pos (fl : Flash) (size : ℕ) : 0 < fl.argPages size := Nat.succ_pos _

/-- After eleven pages that could not be read the first pass has left the block. -/
lemma pagesRead_le_scanPos (fl : Flash) (size : ℕ) : fl.pagesRead ≤ scanPos fl size 11 := by
  have h : fl.ppb < fl.argPages size * (fl.ppb / fl.argPages size + 1) :=
    Nat.lt_mul_div_succ _ (argPages_pos fl size)
  have hle := fl.pagesRead_le
  rw [Nat.mul_add] at h
  unfold scanPos
  rw [if_neg (by norm_num), if_neg (by norm_num)]
  omega

/-- The page loop of the first pass, after `k` pages that could not be read. -/
lemma scanPageLoop_run (fl : Flash) (name : RecName) (size b : ℕ) {s : St} (hs : Ready s)
    (hst : s.state = .ready) :
    ∀ j k N (u : St), k + j = 11 → j < N → u.kept = s.kept →
      ∃ t, loopUntil (scanPageRound fl name size b) N ((scanPos fl size k, k, scanFlag k), 0) u =
          (some 0, t) ∧
        t.kept = (s.setInfo name (scanTag name b (firstTag fl (s.image.recAt fl b)
          ((List.range' k (j + 1)).map (scanPos fl size))))).kept := by
  intro j
  induction j with
  | zero =>
    intro k N u hk hN hu
    obtain ⟨N, rfl⟩ : ∃ m, N = m + 1 := ⟨N - 1, by omega⟩
    obtain rfl : k = 11 := by omega
    have hge := pagesRead_le_scanPos fl size
    refine ⟨u, loopUntil_inr N ?_, ?_⟩
    · rw [scanPageRound, if_neg (by simp only; omega), pure_apply]
    · rw [List.range'_succ, List.map_cons, firstTag, if_neg (by omega), setInfo_id _ _ _ rfl, hu]
  | succ j ih =>
    intro k N u hk hN hu
    obtain ⟨N, rfl⟩ : ∃ m, N = m + 1 := ⟨N - 1, by omega⟩
    rw [List.range'_succ, List.map_cons, firstTag]
    by_cases hpos : scanPos fl size k < fl.pagesRead
    swap
    · refine ⟨u, loopUntil_inr N ?_, ?_⟩
      · rw [scanPageRound, if_neg hpos, pure_apply]
      · rw [if_neg hpos, setInfo_id _ _ _ rfl, hu]
    obtain ⟨r, t, ht, htk, hret, hecc, hgood⟩ := scanRead_run fl (hs.of_kept hu)
      ((kept_state hu).trans hst) b (scanPos fl size k)
    rw [kept_image hu] at hecc hgood
    have htk := htk.trans hu
    set pg := s.image.recAt fl b (scanPos fl size k) with hpg
    have hround : scanPageRound fl name size b ((scanPos fl size k, k, scanFlag k), 0) u =
        (if t.opsPara.eccErr ∨ r.ret < 0 then
            pure (Sum.inl (scanSkip fl size (scanPos fl size k, k, scanFlag k), r.ret))
          else t.userOob.elim (pure (Sum.inr r.ret)) fun o => if o.name = name then do
                modifyInfo name (scanFound b o.timestamp)
                pure (Sum.inr r.ret)
              else pure (Sum.inr r.ret) : Act St _) t := by
      rw [scanPageRound, if_pos hpos]
      rw [bind_some ht, get_bind]
      cases t.userOob <;> rfl
    rw [hret, hecc] at hround
    rw [if_pos hpos]
    by_cases hbad : pg.isBad = true
    · rw [if_pos (Or.inl hbad), scanSkip_scanPos, pure_apply] at hround
      rw [if_pos hbad, loopUntil_inl N hround]
      exact ih (k + 1) N t (by omega) (by omega) htk
    · obtain ⟨hoob, -⟩ := hgood (by simpa using hbad)
      rw [if_neg (by simp [hbad]), hoob] at hround
      rw [if_neg hbad]
      cases ho : pg.oob with
      | none =>
        rw [ho] at hround
        exact ⟨t, loopUntil_inr N hround, by rw [setInfo_id _ _ _ rfl, htk]⟩
      | some o =>
        rw [ho, Option.elim_some] at hround
        by_cases hname : o.name = name
        · simp only [if_pos hname, modifyInfo_bind, pure_apply] at hround
          refine ⟨_, loopUntil_inr N hround, ?_⟩
          have hfound : scanTag name b (some o) = scanFound b o.timestamp := by
            funext a
            simp only [scanTag, if_pos hname]
          rw [hfound]
          exact setInfo_congr htk _ _
        · simp only [if_neg hname, pure_apply] at hround
          refine ⟨t, loopUntil_inr N hround, ?_⟩
          rw [setInfo_id _ _ _ (by simp only [scanTag, if_neg hname]), htk]

/-- The first pass on one block. -/
lemma scanBlock_run (fl : Flash) (name : RecName) (size b : ℕ) {s : St} (hs : Ready s)
    (hst : s.state = .ready) :
    ∃ t, scanBlock fl name size b 0 s = (some 0, t) ∧
      t.kept = (s.setInfo name (scanTag name b (blockTag fl size (s.image.recAt fl b)))).kept := by
  obtain ⟨t, ht, hk⟩ := scanPageLoop_run fl name size b hs hst 11 0 scanRounds s rfl
    (by decide) rfl
  refine ⟨t, ?_, ?_⟩
  · rw [scanBlock, ← ht]
    simp [scanPos, scanFlag]
  · rw [hk, blockTag, List.range_eq_range']

/-- The first pass from block `b` on. -/
lemma scanBlockLoop_run (fl : Flash) (name : RecName) (size : ℕ) {s : St} (hs : Ready s)
    (hst : s.state = .ready) :
    ∀ j b N (ret : ℤ) (f : ArgInfo → ArgInfo) (u : St), b + j = fl.startBlk + reservedBlockCnt →
      j < N → u.kept = (s.setInfo name f).kept →
      ∃ ret' t, loopUntil (scanBlockRound fl name size) N (b, ret) u = (some ret', t) ∧
        t.kept = (s.setInfo name fun a => scanInfo fl s.blkStatus name size (s.image.recAt fl)
          (List.range' b j) (f a)).kept := by
  intro j
  induction j with
  | zero =>
    intro b N ret f u hb hN hu
    obtain ⟨N, rfl⟩ : ∃ m, N = m + 1 := ⟨N - 1, by omega⟩
    refine ⟨ret, u, loopUntil_inr N ?_, hu⟩
    rw [scanBlockRound, if_neg (by simp only; omega), pure_apply]
  | succ j ih =>
    intro b N ret f u hb hN hu
    obtain ⟨N, rfl⟩ : ∃ m, N = m + 1 := ⟨N - 1, by omega⟩
    have hin : b < fl.startBlk + reservedBlockCnt := by omega
    have hut : u.blkStatus = s.blkStatus := (kept_blkStatus hu).trans rfl
    have hlook : lookBlock fl b u =
        (some (getBlcokStatus s.blkStatus (fl.resChip b) (fl.resRow b)),
          { u with opsPara := blockPara fl b }) := by
      rw [lookBlock_apply, hut]
    simp only [List.range'_succ, scanInfo]
    by_cases hgood : resStatus fl s.blkStatus b = blockGood
    swap
    · have hne : getBlcokStatus s.blkStatus (fl.resChip b) (fl.resRow b) ≠ 0 := by
        rw [Ne, getBlcokStatus_eq_zero_iff]
        exact hgood
      have hround : scanBlockRound fl name size (b, ret) u =
          (some (Sum.inl (b + 1, getBlcokStatus s.blkStatus (fl.resChip b) (fl.resRow b))),
            { u with opsPara := blockPara fl b }) := by
        rw [scanBlockRound, if_pos hin, bind_some hlook, if_pos hne, pure_apply]
      simp only [if_neg hgood]
      rw [loopUntil_inl N hround]
      exact ih (b + 1) N _ f _ (by omega) (by omega) hu
    · have hz : getBlcokStatus s.blkStatus (fl.resChip b) (fl.resRow b) = 0 := by
        rw [getBlcokStatus_eq_zero_iff]
        exact hgood
      let v : St := { u with opsPara := blockPara fl b }
      have hv : v.kept = (s.setInfo name f).kept := hu
      have himg : v.image = s.image := (kept_image hv).trans rfl
      obtain ⟨t, ht, hk⟩ := scanBlock_run fl name size b ((hs.setInfo name f).of_kept hv)
        ((kept_state hv).trans hst)
      rw [himg] at hk
      have hk' := hk.trans (setInfo_congr hv _ _)
      rw [setInfo_setInfo] at hk'
      have hinfo : t.info name = scanTag name b (blockTag fl size (s.image.recAt fl b))
          (f (s.info name)) := by
        rw [kept_info hk']
        simp
      set a' := scanTag name b (blockTag fl size (s.image.recAt fl b)) (f (s.info name)) with ha'
      have hround : scanBlockRound fl name size (b, ret) u =
          (if a'.argType = .fullBlk ∧ a'.argValid = true ∧ a'.validBlkAddr ≠ 0 then pure (Sum.inr 0)
            else pure (Sum.inl (b + 1, 0)) : Act St _) t := by
        rw [scanBlockRound, if_pos hin, bind_some hlook, if_neg (by rw [hz]; simp), hz, bind_some ht,
          get_bind, hinfo]
      by_cases hstop : a'.argType = .fullBlk ∧ a'.argValid = true ∧ a'.validBlkAddr ≠ 0
      · rw [if_pos hstop, pure_apply] at hround
        refine ⟨0, t, loopUntil_inr N hround, ?_⟩
        rw [hk']
        refine congrArg St.kept (setInfo_ext s name ?_)
        simp only [if_pos hgood, Function.comp_apply, ← ha', if_pos hstop]
      · rw [if_neg hstop, pure_apply] at hround
        rw [loopUntil_inl N hround]
        obtain ⟨ret', w, hw, hwk⟩ := ih (b + 1) N 0 _ t (by omega) (by omega) hk'
        refine ⟨ret', w, hw, ?_⟩
        rw [hwk]
        refine congrArg St.kept (setInfo_ext s name ?_)
        simp only [if_pos hgood, Function.comp_apply, ← ha', if_neg hstop]

/-- The first pass. -/
lemma scanBlocks_run (fl : Flash) (name : RecName) (size : ℕ) {s : St} (hs : Ready s)
    (hst : s.state = .ready) :
    ∃ ret t, scanBlocks fl name size s = (some ret, t) ∧
      t.kept = (s.setInfo name (scanInfo fl s.blkStatus name size (s.image.recAt fl)
        (List.range' fl.startBlk reservedBlockCnt))).kept :=
  scanBlockLoop_run fl name size hs hst reservedBlockCnt fl.startBlk (reservedBlockCnt + 1)
    0 id s rfl (by omega) (by rw [setInfo_id _ _ _ rfl])

/-- The second pass leaves block and validity alone. -/
lemma copyScan_keeps (fl : Flash) (name : RecName) (size : ℕ) (blk : ℕ → Page) (n i : ℕ) (a : ArgInfo) :
    (copyScan fl name size blk n i a).validBlkAddr = a.validBlkAddr ∧
      (copyScan fl name size blk n i a).argValid = a.argValid := by
  induction n generalizing i a with
  | zero => exact ⟨rfl, rfl⟩
  | succ n ih =>
    unfold copyScan
    split
    · split
      · exact ih _ _
      · split
        · split
          · exact ⟨rfl, rfl⟩
          · exact ih _ _
        · exact ih _ _
        · split
          · exact ih _ _
          · exact ⟨rfl, rfl⟩
        · exact ⟨rfl, rfl⟩
    · exact ⟨rfl, rfl⟩

/-- The second pass from page `i` on. -/
lemma scanCopyLoop_run (fl : Flash) (name : RecName) (size : ℕ) {s : St} (hs : Ready s) :
    ∀ n i (f : ArgInfo → ArgInfo) (u : St), fl.pagesRead < i + n → 1 ≤ n →
      u.kept = (s.setInfo name f).kept → (f (s.info name)).validBlkAddr = (s.info name).validBlkAddr →
      ∃ t, loopUntil (scanCopyRound fl name size) n (i, 0) u = (some 0, t) ∧
        t.kept = (s.setInfo name fun a => copyScan fl name size
          (s.image.recAt fl (s.info name).validBlkAddr) n i (f a)).kept := by
  intro n
  induction n with
  | zero =>
    intro i f u _ h1
    omega
  | succ n ih =>
    intro i f u hn _ hu hblk
    have hpos := argPages_pos fl size
    by_cases hi : i < fl.pagesRead
    swap
    · refine ⟨u, loopUntil_inr n ?_, ?_⟩
      · rw [scanCopyRound, if_neg hi, pure_apply]
      · rw [hu]
        exact congrArg St.kept (setInfo_ext s name (copyScan_end hi).symm)
    have himg : u.image = s.image := (kept_image hu).trans rfl
    have hui : u.info name = f (s.info name) := by
      rw [kept_info hu]
      simp
    obtain ⟨r, t, ht, htk, hret, hecc, hgood⟩ := readRecPage_run fl
      ((hs.setInfo name f).of_kept hu).reads (u.info name).validBlkAddr i
    rw [himg, hui, hblk] at hecc hgood
    have htk := htk.trans hu
    have hti : t.info name = f (s.info name) := by
      rw [kept_info htk]
      simp
    set pg := s.image.recAt fl (s.info name).validBlkAddr i with hpg
    have hstart : scanCopyRound fl name size (i, 0) u = scanCopyPage fl name size i r.ret t := by
      rw [scanCopyRound, if_pos hi, get_bind, bind_some ht]
    rw [hret, scanCopyPage, get_bind, hecc, hti] at hstart
    -- going on at page `j` with the `arg_info` changed by `g`
    have hnext : ∀ (g : ArgInfo → ArgInfo) (j : ℕ) (w : St), i < j →
        scanCopyRound fl name size (i, 0) u = (some (Sum.inl (j, 0)), w) →
        w.kept = (s.setInfo name (g ∘ f)).kept →
        (g (f (s.info name))).validBlkAddr = (f (s.info name)).validBlkAddr →
        ∃ t, loopUntil (scanCopyRound fl name size) (n + 1) (i, 0) u = (some 0, t) ∧
          t.kept = (s.setInfo name fun a => copyScan fl name size
            (s.image.recAt fl (s.info name).validBlkAddr) n j (g (f a))).kept := by
      intro g j w hj hround hw hg
      rw [loopUntil_inl n hround]
      exact ih j (g ∘ f) w (by omega) (by omega) hw (hg.trans hblk)
    by_cases hbad : pg.isBad = true
    · rw [if_pos (Or.inl hbad), modifyInfo_bind, pure_apply] at hstart
      obtain ⟨w, hw, hwk⟩ := hnext (fun a => { a with updateFlag := true }) _ _ (by omega) hstart
        ((setInfo_congr htk _ _).trans (by rw [setInfo_setInfo])) rfl
      refine ⟨w, hw, hwk.trans (congrArg St.kept (setInfo_ext s name ?_))⟩
      exact (copyScan_bad hi hbad).symm
    have hgd : (s.image.recAt fl (s.info name).validBlkAddr i).isBad = false := by simpa using hbad
    obtain ⟨hoob, -⟩ := hgood hgd
    rw [if_neg (by simp [hbad]), hoob] at hstart
    cases ho : pg.oob with
    | none =>
      have htag : tagged (s.image.recAt fl (s.info name).validBlkAddr i).oob name = false := by
        rw [← hpg, ho, tagged]
      cases hty : (f (s.info name)).argType with
      | fullBlk =>
        rw [ho, hty] at hstart
        obtain ⟨w, hw, hwk⟩ := hnext id _ t (by omega) hstart htk rfl
        refine ⟨w, hw, hwk.trans (congrArg St.kept (setInfo_ext s name ?_))⟩
        exact (copyScan_pass_fullBlk hi hgd htag hty).symm
      | fullPage =>
        rw [ho, hty] at hstart
        refine ⟨t, loopUntil_inr n hstart, htk.trans (congrArg St.kept (setInfo_ext s name ?_))⟩
        exact (copyScan_stop_fullPage hi hgd htag hty).symm
    | some o =>
      by_cases hname : o.name = name
      · cases hty : (f (s.info name)).argType with
        | fullBlk =>
          rw [ho, hty] at hstart
          simp only [if_pos hname, modifyInfo_bind, pure_apply] at hstart
          refine ⟨_, loopUntil_inr n hstart, (setInfo_congr htk _ _).trans ?_⟩
          rw [setInfo_setInfo]
          refine congrArg St.kept (setInfo_ext s name ?_)
          exact (copyScan_found_fullBlk hi hgd ho hname hty).symm
        | fullPage =>
          rw [ho, hty] at hstart
          simp only [if_pos hname, modifyInfo_bind, pure_apply] at hstart
          obtain ⟨w, hw, hwk⟩ := hnext
            (fun a => { a with validPageAddr := i, timestamp := o.timestamp }) _ _ (by omega) hstart
            ((setInfo_congr htk _ _).trans (by rw [setInfo_setInfo])) rfl
          refine ⟨w, hw, hwk.trans (congrArg St.kept (setInfo_ext s name ?_))⟩
          rw [copyScan_found_fullPage hi hgd ho hname hty, copyStep, Nat.add_assoc]
      · have htag : tagged (s.image.recAt fl (s.info name).validBlkAddr i).oob name = false := by
          rw [← hpg, ho, tagged]
          simpa using hname
        cases hty : (f (s.info name)).argType with
        | fullBlk =>
          rw [ho, hty] at hstart
          simp only [if_neg hname] at hstart
          obtain ⟨w, hw, hwk⟩ := hnext id _ t (by omega) hstart htk rfl
          refine ⟨w, hw, hwk.trans (congrArg St.kept (setInfo_ext s name ?_))⟩
          exact (copyScan_pass_fullBlk hi hgd htag hty).symm
        | fullPage =>
          rw [ho, hty] at hstart
          simp only [if_neg hname] at hstart
          refine ⟨t, loopUntil_inr n hstart, htk.trans (congrArg St.kept (setInfo_ext s name ?_))⟩
          exact (copyScan_stop_fullPage hi hgd htag hty).symm

/-- The second pass. -/
lemma scanPages_run (fl : Flash) (name : RecName) (size : ℕ) {s : St} (hs : Ready s) :
    ∃ t, scanPages fl name size s = (some 0, t) ∧
      t.kept = (s.setInfo name (copyScan fl name size
        (s.image.recAt fl (s.info name).validBlkAddr) (fl.pagesRead + 1) 0)).kept :=
  scanCopyLoop_run fl name size hs (fl.pagesRead + 1) 0 id s (by omega) (by omega)
    (by rw [setInfo_id _ _ _ rfl]) rfl

/-- Change the list of reserved blocks in use. -/
def St.setList (s : St) (rl : List UInt8) : St := { s with reservedBlk := rl }

/-- Setting the list of reserved blocks respects what is kept. -/
lemma setList_congr {s t : St} (h : t.kept = s.kept) (rl : List UInt8) :
    (t.setList rl).kept = (s.setList rl).kept := by
  have h' := congrArg (fun u : St => u.setList rl) h
  exact h'

/-- The state after a scan: the `arg_info` found, and its block entered in the list. -/
def St.checked (s : St) (fl : Flash) (name : RecName) (size : ℕ) : St :=
  let a := checkInfo fl s.blkStatus name size (s.image.recAt fl) (s.info name)
  (s.setInfo name fun _ => a).setList
    (if a.argValid then enlist s.reservedBlk a.validBlkAddr else s.reservedBlk)

/-- The `arg_info` after the search. -/
@[simp] lemma checked_info_self (s : St) (name : RecName) (size : ℕ) :
    (s.checked fl name size).info name =
      checkInfo fl s.blkStatus name size (s.image.recAt fl) (s.info name) := if_pos rfl

/-- Only the first pass decides whether a record is found. -/
lemma checkInfo_argValid (tbl : BlkStatus) (name : RecName) (size : ℕ) (r : ℕ → ℕ → Page)
    (a : ArgInfo) : (checkInfo fl tbl name size r a).argValid =
      (scanInfo fl tbl name size r (List.range' fl.startBlk reservedBlockCnt) a).argValid := by
  unfold checkInfo
  dsimp only
  split
  · exact (copyScan_keeps _ _ _ _ _ _ _).2
  · rfl

/-- **Scanning for a record** on chips that report no failure. -/
lemma amlnandCheckInfoByName_run (fl : Flash) (name : RecName) (size : ℕ) {s : St} (hs : Ready s)
    (hst : s.state = .ready) :
    ∃ ret t, amlnandCheckInfoByName fl name size s = (some ret, t) ∧
      t.kept = (s.checked fl name size).kept ∧
      ((checkInfo fl s.blkStatus name size (s.image.recAt fl) (s.info name)).argValid = true →
        ret = 0) := by
  let u : St := { s with opsPara := { option := { slc := fl.newType.slc } } }
  obtain ⟨ret, t, ht, hk⟩ := scanBlocks_run fl (s := u) name size (hs.of_kept rfl) hst
  set a := scanInfo fl s.blkStatus name size (s.image.recAt fl)
    (List.range' fl.startBlk reservedBlockCnt) (s.info name) with ha
  have hk' : t.kept = (s.setInfo name fun _ => a).kept := by
    have hu : u.kept = s.kept := rfl
    exact (hk.trans (setInfo_congr hu name _)).trans (congrArg St.kept (setInfo_ext s name rfl))
  have hti : t.info name = a := by
    rw [kept_info hk']
    simp
  have himg : t.image = s.image := (kept_image hk').trans rfl
  have hstart : amlnandCheckInfoByName fl name size s = (if a.argValid then do
      let ret ← scanPages fl name size
      modify fun s => { s with reservedBlk := enlist s.reservedBlk (s.info name).validBlkAddr }
      pure ret
    else pure ret : Act St ℤ) t := by
    rw [amlnandCheckInfoByName, modify_bind, bind_some ht, get_bind, hti]
  rw [checkInfo_argValid, ← ha]
  by_cases hv : a.argValid = true
  · obtain ⟨w, hw, hwk⟩ := scanPages_run fl (s := t) name size
      ((hs.setInfo name _).of_kept hk')
    have hwk' : w.kept = (s.setInfo name fun _ => checkInfo fl s.blkStatus name size
        (s.image.recAt fl) (s.info name)).kept := by
      rw [hwk, hti, himg]
      refine (setInfo_congr hk' _ _).trans ?_
      rw [setInfo_setInfo]
      refine congrArg St.kept (setInfo_ext s name ?_)
      rw [checkInfo, ← ha]
      simp only [if_pos hv, Function.comp_apply]
    rw [if_pos hv, bind_some hw, modify_bind, pure_apply] at hstart
    refine ⟨0, _, hstart, ?_, fun _ => rfl⟩
    have hwi : w.info name = checkInfo fl s.blkStatus name size (s.image.recAt fl) (s.info name) := by
      rw [kept_info hwk']
      simp
    have hvalid : (checkInfo fl s.blkStatus name size (s.image.recAt fl) (s.info name)).argValid =
        true := by rw [checkInfo_argValid, ← ha, hv]
    have hwl : w.reservedBlk = s.reservedBlk := (kept_reservedBlk hwk').trans rfl
    rw [hwi, hwl]
    refine (setList_congr hwk' _).trans ?_
    simp only [St.checked, hvalid, if_true]
  · rw [if_neg hv, pure_apply] at hstart
    refine ⟨ret, t, hstart, ?_, fun h => absurd h hv⟩
    rw [hk']
    have hc : checkInfo fl s.blkStatus name size (s.image.recAt fl) (s.info name) = a := by
      rw [checkInfo, ← ha]
      simp only [if_neg hv]
    simp only [St.checked, hc, hv, Bool.false_eq_true, if_false]
    rfl

/-- **A scan, the read and the checksum** on chips that report no failure, when a record is
found. -/
lemma amlnandInfoInit_run (fl : Flash) (name : RecName) (buf : Buf) (size : ℕ) {s : St} (hs : Ready s)
    (hst : s.state = .ready)
    (hv : (checkInfo fl s.blkStatus name size (s.image.recAt fl) (s.info name)).argValid = true) :
    ∃ t, let a := checkInfo fl s.blkStatus name size (s.image.recAt fl) (s.info name)
      let out := readCopy fl name size (s.image.recAt fl a.validBlkAddr) a.validPageAddr (size + 1)
        0 buf
      amlnandInfoInit fl name buf size s = (some (amlInfoCheckDatasum out name, out), t) ∧
        t.kept = (s.checked fl name size).kept := by
  obtain ⟨ret, u, hu, huk, hret⟩ := amlnandCheckInfoByName_run fl name size hs hst
  have hui : u.info name = checkInfo fl s.blkStatus name size (s.image.recAt fl) (s.info name) := by
    rw [kept_info huk]
    simp
  have huimg : u.image = s.image := (kept_image huk).trans rfl
  have hur : Ready u := Ready.of_kept (s := s.checked fl name size) ⟨hs.calm, hs.lock⟩ huk
  obtain ⟨t, ht, htk⟩ := amlnandReadInfoByName_run fl hur.reads name buf size (by rw [hui, hv])
  rw [hui, huimg] at ht
  refine ⟨t, ?_, htk.trans huk⟩
  rw [amlnandInfoInit, bind_some hu, hret hv, if_neg (by simp), get_bind, hui, if_pos hv, bind_some ht]
  rfl

end

end Amlnf
