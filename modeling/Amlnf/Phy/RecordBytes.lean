import Amlnf.Phy.Delivery

set_option relaxedAutoImplicit false
set_option autoImplicit false

/-!
# What a record read delivers

`amlnand_read_info_by_name` under any outcomes of its page reads: the bytes it leaves in the buffer
and the code it returns. A page that reads as uncorrectable ends the read, with the code of a page
that reads well; a page under another name is passed over.

## Main definitions

* `pageRead`, `recordBytes` — the outcome of a page read, and the bytes a record read delivers.
* `St.ReadStops` — a page read returns an error code, all pages before it being delivered.
* `St.CopiedAll` — every byte was copied from a page of the record.

## Main results

* `amlnandReadInfoByName_bytes` — the bytes and the code of a record read.
* `copiedAll_iff` — when a record read that reports success is complete.
-/

namespace Amlnf

open Act

/-! ## Reading a record under any outcomes -/

/-- Does the ECC engine deliver the page? -/
def pageRead (o : Outcome) (pg : Page) : Bool :=
  match o.read with
  | .clean _ => !pg.isBad
  | _ => false

/-- What reading records leaves alone. -/
def St.stored (s : St) : Image × (ℕ → Outcome) × (RecName → ArgInfo) × ChipState :=
  (s.image, s.plan, s.info, s.state)

/-- Steps of the plan one page read takes: outside a device operation the chip is taken first. -/
def St.readSteps (s : St) : ℕ := if s.state = .ready then 2 else 1

section

variable {fl : Flash}

lemma nandGetChip_returned {s t : St} (h : nandGetChip s = (some (), t)) :
    t = { s with mutex := true, idleflag := true, tick := s.tick + 1 } := by
  rw [nandGetChip, get_bind] at h
  by_cases hm : s.mutex = true
  · rw [if_pos hm] at h
    cases h
  · rw [if_neg hm, modify_bind] at h
    obtain ⟨o, u, hu, h⟩ := bind_eq_some h
    cases hu
    by_cases hp : ((s.plan s.tick).pin) = true
    · rw [if_pos hp] at h
      cases h
      rfl
    · rw [if_neg hp] at h
      cases h

lemma nandReleaseChip_returned (s : St) :
    ∃ m i f, nandReleaseChip s =
      (some (), { s with mutex := m, idleflag := i, lockFault := f }) := by
  rw [nandReleaseChip, get_bind]
  by_cases h : s.idleflag = true
  · rw [if_pos h]
    exact ⟨false, false, _, rfl⟩
  · rw [if_neg h]
    exact ⟨s.mutex, s.idleflag, s.lockFault, rfl⟩

/-- The state in which the operation inside the chip bracket starts. -/
def St.bracketed (s : St) : St :=
  if s.state = .ready then { s with mutex := true, idleflag := true, tick := s.tick + 1 } else s

/-- A bracketed operation that returns: the lock apart, the state is the one the operation
left. -/
lemma withChip_returned {α : Type} {x : Act St α} {s t : St} {a : α}
    (h : withChip x s = (some a, t)) :
    ∃ v m i f, x s.bracketed = (some a, v) ∧
      t = { v with mutex := m, idleflag := i, lockFault := f } := by
  obtain ⟨_, _, hget, h⟩ := bind_eq_some h
  cases hget
  obtain ⟨_, u, hu, h⟩ := bind_eq_some h
  obtain ⟨a', v, hv, h⟩ := bind_eq_some h
  obtain ⟨_, _, hget, h⟩ := bind_eq_some h
  cases hget
  obtain ⟨_, w, hw, h⟩ := bind_eq_some h
  cases h
  have hub : u = s.bracketed := by
    rw [St.bracketed]
    by_cases hst : s.state = .ready
    · rw [Act.when, if_pos hst] at hu
      rw [if_pos hst]
      exact nandGetChip_returned hu
    · rw [Act.when, if_neg hst] at hu
      rw [if_neg hst]
      cases hu
      rfl
  rw [hub] at hv
  by_cases hst : v.state = .ready
  · rw [Act.when, if_pos hst] at hw
    obtain ⟨m, i, f, hrel⟩ := nandReleaseChip_returned v
    rw [hrel] at hw
    cases hw
    exact ⟨v, m, i, f, hv, rfl⟩
  · rw [Act.when, if_neg hst] at hw
    cases hw
    exact ⟨t, t.mutex, t.idleflag, t.lockFault, hv, rfl⟩

/-- A page that is delivered reads as it is stored. -/
lemma ReadEnd.delivered {o : Outcome} {pg : Page} {r : ReadBack} {p : ChipOpsPara}
    {oob : Option Tag} (h : ReadEnd fl o pg r p oob) (hp : pageRead o pg = true) :
    r.ret = 0 ∧ p.eccErr = false ∧ oob = pg.oob ∧ ∀ i < fl.pagesize, r.data i = pg.data i := by
  unfold ReadEnd at h
  unfold pageRead at hp
  cases hr : o.read with
  | failed code => simp [hr] at hp
  | uncorrectable => simp [hr] at hp
  | clean flip =>
    simp only [hr, Bool.not_eq_true'] at h hp
    obtain ⟨h0, he, hd⟩ := h
    exact ⟨h0, he.trans hp, hd hp⟩

/-- A page that is not delivered shows in `ecc_err` or in the return code. -/
lemma ReadEnd.lost {o : Outcome} {pg : Page} {r : ReadBack} {p : ChipOpsPara}
    {oob : Option Tag} (h : ReadEnd fl o pg r p oob) (hp : pageRead o pg = false) :
    p.eccErr = true ∨ r.ret < 0 := by
  unfold ReadEnd at h
  unfold pageRead at hp
  cases hr : o.read with
  | failed code =>
    rw [hr] at h
    exact .inr (by omega)
  | uncorrectable =>
    rw [hr] at h
    exact .inl h.2
  | clean flip =>
    simp only [hr, Bool.not_eq_false'] at h hp
    exact .inl (h.2.1.trans hp)

lemma bracketed_eq (s : St) : s.bracketed.stored = s.stored ∧
    s.bracketed.tick + 1 = s.tick + s.readSteps ∧ s.bracketed.opsPara = s.opsPara := by
  unfold St.bracketed St.readSteps
  by_cases hst : s.state = .ready
  · rw [if_pos hst, if_pos hst]
    exact ⟨rfl, rfl, rfl⟩
  · rw [if_neg hst, if_neg hst]
    exact ⟨rfl, rfl, rfl⟩

/-- A record page read that returns. -/
lemma readRecPage_returned {s t : St} {r : ReadBack} {b i : ℕ}
    (h : readRecPage fl b i s = (some r, t)) :
    t.stored = s.stored ∧ t.tick = s.tick + s.readSteps ∧
      ReadEnd fl (s.plan (s.tick + s.readSteps - 1)) (s.image.recAt fl b i) r t.opsPara
        t.userOob := by
  rw [readRecPage, seekRec_bind] at h
  obtain ⟨v, m, k, f, hv, rfl⟩ := withChip_returned h
  obtain ⟨hstored, htick, hpara⟩ := bracketed_eq (s.seekRec fl b i)
  set u := (s.seekRec fl b i).bracketed with hu
  obtain ⟨r', p, oob, hrun, hend⟩ := readUserPage_end fl (s := u)
    (by rw [hpara]; rfl) (by rw [hpara]; rfl) (by rw [hpara]; rfl)
  rw [hrun] at hv
  cases hv
  simp only [St.stored, Prod.mk.injEq] at hstored
  have htk : u.tick = s.tick + s.readSteps - 1 := (Nat.sub_eq_of_eq_add htick.symm).symm
  refine ⟨?_, htick, ?_⟩
  · simp only [St.stored, Prod.mk.injEq]
    exact hstored
  · rw [hstored.1, hstored.2.1, hpara, htk] at hend
    exact hend

/-! ## The bytes of a record -/

/-- Page `j` of the copy of a record that its `arg_info` designates. -/
def St.recordPage (s : St) (fl : Flash) (name : RecName) (j : ℕ) : Page :=
  s.image.recAt fl (s.info name).validBlkAddr ((s.info name).validPageAddr + j)

/-- The bytes of that copy. -/
def St.recordStored (s : St) (fl : Flash) (name : RecName) : Buf := fun k =>
  (s.recordPage fl name (k / fl.pagesize)).data (k % fl.pagesize)

/-- The reads of pages `0, …, j` of that copy, one after the other, all deliver. -/
def St.ReadUpto (s : St) (fl : Flash) (name : RecName) (j : ℕ) : Prop :=
  ∀ q ≤ j, pageRead (s.plan (s.tick + s.readSteps * (q + 1) - 1)) (s.recordPage fl name q) = true

instance (s : St) (fl : Flash) (name : RecName) (j : ℕ) : Decidable (s.ReadUpto fl name j) :=
  inferInstanceAs (Decidable (∀ q ≤ j, _))

/-- The bytes a read of the record leaves in a buffer that held `buf`. -/
def recordBytes (fl : Flash) (s : St) (name : RecName) (size : ℕ) (buf : Buf) : Buf := fun k =>
  if k < size ∧ s.ReadUpto fl name (k / fl.pagesize) ∧
      tagged (s.recordPage fl name (k / fl.pagesize)).oob name = true then
    s.recordStored fl name k
  else buf k

/-- The buffer when pages `0, …, j - 1` have been read. -/
def readSoFar (fl : Flash) (s : St) (name : RecName) (size : ℕ) (buf : Buf) (j : ℕ) : Buf :=
  fun k => if k / fl.pagesize < j then recordBytes fl s name size buf k else buf k

/-- Position `j` of a record read that started in `s`, with `buf'` in the buffer. -/
structure ReadAt (fl : Flash) (s : St) (name : RecName) (size : ℕ) (buf : Buf) (j : ℕ) (buf' : Buf)
    (t : St) : Prop where
  stored : t.stored = s.stored
  tick : t.tick = s.tick + s.readSteps * j
  read : ∀ q < j, pageRead (s.plan (s.tick + s.readSteps * (q + 1) - 1))
    (s.recordPage fl name q) = true
  bytes : buf' = readSoFar fl s name size buf j

/-- A read that stops at page `j` leaves what a read of the whole record leaves: the pages behind
lie outside the record, or come after one that is not delivered. -/
lemma readSoFar_eq {s : St} {name : RecName} {size j : ℕ} {buf : Buf}
    (h : size ≤ j * fl.pagesize ∨ ¬s.ReadUpto fl name j) :
    readSoFar fl s name size buf j = recordBytes fl s name size buf := by
  funext k
  unfold readSoFar
  by_cases hk : k / fl.pagesize < j
  · rw [if_pos hk]
  · rw [if_neg hk, recordBytes, if_neg]
    rintro ⟨hsize, hread, -⟩
    rcases h with h | h
    · exact hk ((Nat.div_lt_iff_lt_mul fl.pagesize_pos).mpr (hsize.trans_le h))
    · exact h fun q hq => hread q (hq.trans (by omega))

/-- One page more. -/
lemma readSoFar_succ {s : St} {name : RecName} {j : ℕ} (size : ℕ) (buf : Buf)
    (hj : s.ReadUpto fl name j) {d : Buf} (hd : ∀ i < fl.pagesize, d i = (s.recordPage fl name j).data i) :
    readSoFar fl s name size buf (j + 1) =
      if tagged (s.recordPage fl name j).oob name = true then
        blit (readSoFar fl s name size buf j) (j * fl.pagesize)
          (min fl.pagesize (size - j * fl.pagesize)) d
      else readSoFar fl s name size buf j := by
  funext k
  have hpos := fl.pagesize_pos
  have hdm := Nat.div_add_mod k fl.pagesize
  have hlt := Nat.mod_lt k hpos
  by_cases hk : k / fl.pagesize = j
  · -- a byte of the new page
    have hkj : k = j * fl.pagesize + k % fl.pagesize := by rw [← hk, Nat.mul_comm]; exact hdm.symm
    have hold : readSoFar fl s name size buf j k = buf k := if_neg (by omega)
    have hnew : readSoFar fl s name size buf (j + 1) k = recordBytes fl s name size buf k :=
      if_pos (by omega)
    rw [hnew, recordBytes, hk]
    by_cases ht : tagged (s.recordPage fl name j).oob name = true
    · rw [if_pos ht, blit, hold]
      by_cases hs : k < size
      · rw [if_pos ⟨hs, hj, ht⟩, if_pos (by omega), St.recordStored, hk, ← hd _ hlt]
        congr 1
        omega
      · rw [if_neg fun h => hs h.1, if_neg (by omega)]
    · rw [if_neg ht, if_neg fun h => ht h.2.2, hold]
  · -- a byte of another page
    have hsame : readSoFar fl s name size buf (j + 1) k = readSoFar fl s name size buf j k := by
      unfold readSoFar
      by_cases hlt' : k / fl.pagesize < j
      · rw [if_pos hlt', if_pos (by omega)]
      · rw [if_neg hlt', if_neg (by omega)]
    have hout : ¬(j * fl.pagesize ≤ k ∧
        k < j * fl.pagesize + min fl.pagesize (size - j * fl.pagesize)) := by
      rintro ⟨h1, h2⟩
      refine hk (Nat.div_eq_of_lt_le h1 ?_)
      rw [Nat.succ_mul]
      omega
    rw [hsame]
    split
    · rw [blit, if_neg hout]
    · rfl

/-- Does the read of a page return an error code? -/
def readFails (o : Outcome) : Bool :=
  match o.read with
  | .failed _ => true
  | _ => false

/-- The read of a page of the record returns an error code, all pages before it being delivered. -/
def St.ReadStops (s : St) (fl : Flash) (name : RecName) (size : ℕ) : Prop :=
  ∃ j, j * fl.pagesize < size ∧
    (∀ q < j, pageRead (s.plan (s.tick + s.readSteps * (q + 1) - 1)) (s.recordPage fl name q) = true) ∧
    readFails (s.plan (s.tick + s.readSteps * (j + 1) - 1)) = true

/-- The code of a page read. -/
lemma ReadEnd.code {o : Outcome} {pg : Page} {r : ReadBack} {p : ChipOpsPara} {oob : Option Tag}
    (h : ReadEnd fl o pg r p oob) : r.ret < 0 ↔ readFails o = true := by
  unfold ReadEnd at h
  unfold readFails
  cases hr : o.read with
  | failed code =>
    rw [hr] at h
    exact ⟨fun _ => rfl, fun _ => by omega⟩
  | uncorrectable =>
    rw [hr] at h
    simp [h.1]
  | clean flip =>
    rw [hr] at h
    simp [h.1]

/-- A page whose read returns an error code is not delivered. -/
lemma pageRead_of_readFails {o : Outcome} (pg : Page) (h : readFails o = true) :
    pageRead o pg = false := by
  unfold readFails at h
  unfold pageRead
  cases hr : o.read <;> simp_all

/-- The first page that is not delivered decides whether the read stops with an error code. -/
lemma readStops_iff {s : St} {name : RecName} {size j : ℕ} (hj : j * fl.pagesize < size)
    (hread : ∀ q < j, pageRead (s.plan (s.tick + s.readSteps * (q + 1) - 1))
      (s.recordPage fl name q) = true)
    (hlost : pageRead (s.plan (s.tick + s.readSteps * (j + 1) - 1)) (s.recordPage fl name j) = false) :
    s.ReadStops fl name size ↔ readFails (s.plan (s.tick + s.readSteps * (j + 1) - 1)) = true := by
  refine ⟨?_, fun h => ⟨j, hj, hread, h⟩⟩
  rintro ⟨i, -, hi, hfail⟩
  rcases lt_trichotomy i j with hlt | rfl | hlt
  · exact absurd (hread i hlt) (by rw [pageRead_of_readFails _ hfail]; decide)
  · exact hfail
  · exact absurd (hi j hlt) (by rw [hlost]; decide)

/-- One round of a record read; while it goes on, the code of the last page is zero. -/
lemma readRound_at {s : St} {name : RecName} {size : ℕ} {buf : Buf} (v : ℕ × ℤ × Buf) :
    Spec (fun t => v.2.1 = 0 ∧ ReadAt fl s name size buf v.1 v.2.2 t) (readRound fl name size v)
      (fun r t => Sum.elim (fun v' => v'.2.1 = 0 ∧ ReadAt fl s name size buf v'.1 v'.2.2 t)
        (fun a => a.2 = recordBytes fl s name size buf ∧
          (a.1 < 0 ↔ s.ReadStops fl name size)) r) fun _ => True := by
  refine Spec.of_returned fun t r t' ht h => ?_
  obtain ⟨hcode, hstored, htick, hread, hbytes⟩ := ht
  rw [readRound] at h
  by_cases hsize : v.1 * fl.pagesize < size
  · rw [if_pos hsize] at h
    obtain ⟨_, _, hget, h⟩ := bind_eq_some h
    cases hget
    obtain ⟨rb, u, hu, h⟩ := bind_eq_some h
    obtain ⟨_, _, hget, h⟩ := bind_eq_some h
    cases hget
    obtain ⟨hus, hut, hend⟩ := readRecPage_returned hu
    -- the read is that of page `v.1` of the record in its step of the plan
    simp only [St.stored, Prod.mk.injEq] at hstored
    have hsteps : t.readSteps = s.readSteps := by rw [St.readSteps, St.readSteps, hstored.2.2.2]
    have htk : t.tick + t.readSteps = s.tick + s.readSteps * (v.1 + 1) := by
      rw [htick, hsteps, Nat.mul_succ, Nat.add_assoc]
    have hpage : t.image.recAt fl (t.info name).validBlkAddr ((t.info name).validPageAddr + v.1)
        = s.recordPage fl name v.1 := by
      rw [St.recordPage, hstored.1, hstored.2.2.1]
    rw [htk, hstored.2.1, hpage] at hend
    have hus' : u.stored = s.stored := hus.trans (by simp only [St.stored, hstored])
    have hut' : u.tick = s.tick + s.readSteps * (v.1 + 1) := hut.trans htk
    by_cases hp : pageRead (s.plan (s.tick + s.readSteps * (v.1 + 1) - 1))
        (s.recordPage fl name v.1) = true
    · obtain ⟨h0, he, hoob, hd⟩ := hend.delivered hp
      have hupto : s.ReadUpto fl name v.1 := by
        intro q hq
        rcases hq.lt_or_eq with hq | rfl
        · exact hread q hq
        · exact hp
      have hnext := readSoFar_succ size buf hupto hd
      have hread' : ∀ q < v.1 + 1, _ := fun q hq => hupto q (Nat.lt_succ_iff.mp hq)
      rw [if_neg (by rw [he, h0]; simp), hoob] at h
      by_cases ht : tagged (s.recordPage fl name v.1).oob name = true
      · rw [if_pos ht] at h
        rw [if_pos ht, ← hbytes] at hnext
        cases h
        exact ⟨h0, hus', hut', hread', hnext.symm⟩
      · rw [if_neg ht] at h
        rw [if_neg ht, ← hbytes] at hnext
        cases h
        exact ⟨h0, hus', hut', hread', hnext.symm⟩
    · rw [if_pos (by simpa using hend.lost (by simpa using hp))] at h
      cases h
      refine ⟨hbytes.trans (readSoFar_eq (.inr fun hr => hp (hr v.1 le_rfl))), ?_⟩
      exact hend.code.trans (readStops_iff hsize hread (by simpa using hp)).symm
  · rw [if_neg hsize] at h
    cases h
    refine ⟨hbytes.trans (readSoFar_eq (.inl (not_lt.mp hsize))), ?_⟩
    dsimp only
    rw [hcode]
    refine ⟨fun h => absurd h (lt_irrefl 0), fun hstop => ?_⟩
    obtain ⟨j, hj, _, hfail⟩ := hstop
    have hlt : j < v.1 := by
      by_contra hle
      exact hsize ((Nat.mul_le_mul_right _ (not_lt.mp hle)).trans_lt hj)
    exact absurd (hread j hlt) (by rw [pageRead_of_readFails _ hfail]; decide)

/-- The bytes a record read that returns leaves in the buffer, and whether its code is negative. -/
lemma amlnandReadInfoByName_bytes {s t : St} {name : RecName} {buf bytes : Buf} {size : ℕ} {ret : ℤ}
    (ha : (s.info name).argValid = true)
    (h : amlnandReadInfoByName fl name buf size s = (some (ret, bytes), t)) :
    bytes = recordBytes fl s name size buf ∧ (ret < 0 ↔ s.ReadStops fl name size) := by
  set u : St := { s with opsPara := { option := { slc := fl.newType.slc } } } with hu
  have hloop : loopUntil (readRound fl name size) (size + 1) (0, 0, buf) u =
      (some (ret, bytes), t) := by
    rw [amlnandReadInfoByName, modify_bind, get_bind] at h
    rwa [if_pos ha] at h
  have hspec : Spec (fun t => (0 : ℤ) = 0 ∧ ReadAt fl s name size buf 0 buf t)
      (loopUntil (readRound fl name size) (size + 1) (0, 0, buf))
      (fun a _ => a.2 = recordBytes fl s name size buf ∧ (a.1 < 0 ↔ s.ReadStops fl name size))
      fun _ => True :=
    Spec.loopUntil (I := fun v t => v.2.1 = 0 ∧ ReadAt fl s name size buf v.1 v.2.2 t) readRound_at
      (fun _ _ _ => trivial) (size + 1) (0, 0, buf)
  refine hspec.returned (s := u)
    ⟨rfl, rfl, rfl, fun q hq => absurd hq (Nat.not_lt_zero q), ?_⟩ hloop
  funext k
  exact (if_neg (Nat.not_lt_zero _)).symm

/-! ## Complete reads -/

/-- Every byte of the record was copied from the successive pages of one copy, each of which was
delivered and carries the name. -/
def St.CopiedAll (s : St) (fl : Flash) (name : RecName) (size : ℕ) (bytes : Buf) : Prop :=
  ∀ k < size, s.ReadUpto fl name (k / fl.pagesize) ∧
    tagged (s.recordPage fl name (k / fl.pagesize)).oob name = true ∧
    bytes k = s.recordStored fl name k

/-- Every page of the record is delivered and carries its name. -/
def St.PagesGood (s : St) (fl : Flash) (name : RecName) (size : ℕ) : Prop :=
  ∀ j, j * fl.pagesize < size →
    pageRead (s.plan (s.tick + s.readSteps * (j + 1) - 1)) (s.recordPage fl name j) = true ∧
      tagged (s.recordPage fl name j).oob name = true

/-- A read of good pages is complete. -/
lemma copiedAll_of_pagesGood {s : St} {name : RecName} {size : ℕ} {buf : Buf}
    (h : s.PagesGood fl name size) : s.CopiedAll fl name size (recordBytes fl s name size buf) := by
  intro k hk
  have hin : ∀ q ≤ k / fl.pagesize, q * fl.pagesize < size := fun q hq =>
    ((Nat.mul_le_mul_right _ hq).trans (Nat.div_mul_le_self k _)).trans_lt hk
  have hupto : s.ReadUpto fl name (k / fl.pagesize) := fun q hq => (h q (hin q hq)).1
  have htag := (h _ (hin _ le_rfl)).2
  exact ⟨hupto, htag, if_pos ⟨hk, hupto, htag⟩⟩

/-- Where all bytes were copied, all pages are good. -/
lemma pagesGood_of_copiedAll {s : St} {name : RecName} {size : ℕ} {bytes : Buf}
    (h : s.CopiedAll fl name size bytes) : s.PagesGood fl name size := by
  intro j hj
  obtain ⟨hupto, htag, -⟩ := h _ hj
  rw [Nat.mul_div_cancel _ fl.pagesize_pos] at hupto htag
  exact ⟨hupto j le_rfl, htag⟩

/-- A record read that reports success is complete exactly when all pages of the record are good;
it reports a failure exactly when a page read returns an error code. An uncorrectable page and a
page under another name show in neither. -/
theorem copiedAll_iff {s t : St} {name : RecName} {buf bytes : Buf} {size : ℕ} {ret : ℤ}
    (ha : (s.info name).argValid = true)
    (h : amlnandReadInfoByName fl name buf size s = (some (ret, bytes), t)) :
    (0 ≤ ret → s.CopiedAll fl name size bytes) ↔
      s.ReadStops fl name size ∨ s.PagesGood fl name size := by
  obtain ⟨rfl, hcode⟩ := amlnandReadInfoByName_bytes ha h
  constructor
  · intro hcopied
    by_cases hstop : s.ReadStops fl name size
    · exact .inl hstop
    · have hall := hcopied (not_lt.mp fun hneg => hstop (hcode.mp hneg))
      exact .inr (pagesGood_of_copiedAll hall)
  · rintro (hstop | hgood) hret
    · exact absurd (hcode.mpr hstop) (not_lt.mpr hret)
    · exact copiedAll_of_pagesGood hgood

/-- A driver that has found the environment in block 4, every page of the chip holding `pg`. -/
def envIn (pg : Page) : St :=
  { St.blank with
    image := fun _ _ => pg
    info := fun n => { argType := argTypeOf n, argValid := true, validBlkAddr := 4 } }

/-- A read of two pages of a stored environment. -/
theorem copiedAll_written : ∃ bytes t,
    amlnandReadInfoByName .oneChip .nenv (fun _ => 0) 10000
      (envIn (.written (fun i => UInt8.ofNat i) (some ⟨.nenv, 1⟩))) = (some (0, bytes), t) ∧
    (envIn (.written (fun i => UInt8.ofNat i) (some ⟨.nenv, 1⟩))).CopiedAll .oneChip .nenv 10000
      bytes := by
  set s := envIn (.written (fun i => UInt8.ofNat i) (some ⟨.nenv, 1⟩)) with hs
  have hret : (amlnandReadInfoByName .oneChip .nenv (fun _ => 0) 10000 s).1.map Prod.fst =
      some 0 := by
    decide +kernel
  obtain ⟨⟨ret, bytes⟩, hval, rfl⟩ := Option.map_eq_some_iff.mp hret
  obtain ⟨t, ht⟩ := exists_of_returned hval
  exact ⟨bytes, t, ht, (copiedAll_iff rfl ht).mpr (.inr fun j _ => ⟨rfl, rfl⟩) le_rfl⟩

/-- A read of a page that is uncorrectable reports success and copies nothing. -/
theorem not_copiedAll_bad : ∃ bytes t,
    amlnandReadInfoByName .oneChip .nenv (fun _ => 7) 10 (envIn .bad) = (some (0, bytes), t) ∧
    bytes 0 = 7 ∧ ¬(envIn .bad).CopiedAll .oneChip .nenv 10 bytes := by
  have hret : (amlnandReadInfoByName .oneChip .nenv (fun _ => 7) 10 (envIn .bad)).1.map
      (fun r => (r.1, r.2 0)) = some (0, 7) := by
    decide +kernel
  obtain ⟨⟨ret, bytes⟩, hval, hpair⟩ := Option.map_eq_some_iff.mp hret
  obtain ⟨rfl, hbyte⟩ := Prod.mk.inj hpair
  obtain ⟨t, ht⟩ := exists_of_returned hval
  refine ⟨bytes, t, ht, hbyte, fun hall => ?_⟩
  exact absurd ((hall 0 (by decide)).1 0 le_rfl) (by decide)

end

end Amlnf
