import Amlnf.Phy.DriverSteps
import Amlnf.Phy.Search

set_option relaxedAutoImplicit false
set_option autoImplicit false

/-!
# Loading the bad-block table

The bad-block table is stored with a checksum, and `amlnand_info_init` compares the two. What
bring-up does with the verdict decides whether a table that was not read, or not read right, is
used.

## Main definitions

* `BbtLoad` — the load of the table in a bring-up: where the search ended and the bytes loaded.
* `BbtLoad.Gated` — every byte was copied from a page of the record found that was delivered under
  its name, and the bytes match their checksum.
* `St.TableIntact` — the copy of the table that a load about to start will come to can be read, and
  its checksum is right.

## Main results

* `gated_iff_intact` — in a bring-up that succeeds the table is gated exactly when the copy the
  load comes to is intact.

## Design

`BbtLoad.Gated` speaks about a load that was made, `St.TableIntact` about the state in which it
starts: the flash image, the outcomes of the reads to come and the `arg_info` decide which copy the
search designates (`searchEnd`) and whether its pages are delivered.
-/

namespace Amlnf

open Act

section

variable {fl : Flash}

/-! ## Loading -/

/-- The three ways `amlnand_info_init` ends after a search that ended in `u` with code `ret`. -/
lemma amlnandInfoInit_cases {p u v : St} {name : RecName} {buf bytes : Buf} {size : ℕ}
    {ret code : ℤ} (hsearch : amlnandCheckInfoByName fl name size p = (some ret, u))
    (hload : amlnandInfoInit fl name buf size p = (some (code, bytes), v)) :
    (ret < 0 ∧ v = u) ∨ (0 ≤ ret ∧ v = u ∧ (u.info name).argValid = false) ∨
      (0 ≤ ret ∧ (u.info name).argValid = true ∧ bytes = recordBytes fl u name size buf) := by
  rw [amlnandInfoInit, bind_some hsearch] at hload
  by_cases hret : ret < 0
  · rw [if_pos hret] at hload
    cases hload
    exact .inl ⟨hret, rfl⟩
  · rw [if_neg hret, get_bind] at hload
    by_cases ha : (u.info name).argValid = true
    · rw [if_pos ha] at hload
      obtain ⟨⟨ret', bytes'⟩, w, hw, hload⟩ := bind_eq_some hload
      have hb := (amlnandReadInfoByName_bytes ha hw).1
      refine .inr (.inr ⟨not_lt.mp hret, ha, ?_⟩)
      dsimp only at hload
      by_cases hr : ret' < 0
      · rw [if_pos hr] at hload
        cases hload
        exact hb
      · rw [if_neg hr] at hload
        cases hload
        exact hb
    · rw [if_neg ha] at hload
      cases hload
      exact .inr (.inl ⟨not_lt.mp hret, rfl, by simpa using ha⟩)

/-- A checksum looks at its range only. -/
lemma amlInfoChecksum_congr {a b : Buf} {off len : ℕ} (h : ∀ i < len, a (off + i) = b (off + i)) :
    amlInfoChecksum a off len = amlInfoChecksum b off len := by
  unfold amlInfoChecksum
  congr 1
  refine List.foldl_ext _ _ _ fun c i hi => ?_
  rw [h i (List.mem_range.mp hi)]

/-- Checksum and stored checksum look at the bytes of the record only. -/
lemma checksum_congr {a b : Buf} (h : ∀ k < blockStatusSize, a k = b k) :
    amlInfoChecksum a 4 (4 * 8192) = amlInfoChecksum b 4 (4 * 8192) ∧ leNat a 0 4 = leNat b 0 4 := by
  have hsize : blockStatusSize = 65540 := rfl
  constructor
  · exact amlInfoChecksum_congr fun i hi => h (4 + i) (by omega)
  · simp only [leNat]
    rw [h 0 (by omega), h 1 (by omega), h 2 (by omega), h 3 (by omega)]

end

/-! ## The verdict of the checksum -/

/-- The bytes of a copy. -/
def Copy.stored (q : Copy) (fl : Flash) (s : St) : Buf := fun k =>
  (q.pageAt fl s (k / fl.pagesize)).data (k % fl.pagesize)

/-- The copy of the table that a load starting in `s` comes to is sound: the last read of the search
returns no error code, the reads that follow deliver every page of the copy, each page carries the
name of the table, and the checksum stored in the copy is right. -/
def St.TableIntact (s : St) (fl : Flash) : Prop :=
  ∃ q, searchEnd fl s .nbbt blockStatusSize = some q ∧ 0 ≤ q.code ∧
    (∀ j, j * fl.pagesize < blockStatusSize →
      pageRead (s.plan (q.moment + s.readSteps * (j + 1) - 1)) (q.seen.pageAt fl s j) = true ∧
        tagged (q.seen.pageAt fl s j).oob .nbbt = true) ∧
    amlInfoChecksum (q.seen.stored fl s) 4 (4 * 8192) = leNat (q.seen.stored fl s) 0 4

/-- The load of the bad-block table in a bring-up from `s`. -/
structure BbtLoad (fl : Flash) (s : St) where
  /-- The state in which the search starts. -/
  prepared : St
  isPrepared : bringUpPrelude fl s = (some 0, prepared)
  /-- The code of the search and the state in which it ends. -/
  searchCode : ℤ
  found : St
  isFound : amlnandCheckInfoByName fl .nbbt blockStatusSize prepared = (some searchCode, found)
  /-- The code of the load, the bytes of `block_status` after it and the state it ends in. -/
  loadCode : ℤ
  bytes : Buf
  loaded : St
  isLoaded : amlnandInfoInit fl .nbbt (fun _ => 0) blockStatusSize prepared =
    (some (loadCode, bytes), loaded)

namespace BbtLoad

variable {fl : Flash} {s : St} (L : BbtLoad fl s)

/-- The search went well, every byte was copied from a page of the record found that was delivered
under the name of the table, and the checksum stored in the bytes is the one `aml_info_checksum`
computes. -/
def Gated : Prop :=
  0 ≤ L.searchCode ∧ L.found.CopiedAll fl .nbbt blockStatusSize L.bytes ∧
    amlInfoChecksum L.bytes 4 (4 * 8192) = leNat L.bytes 0 4

/-- The driver in state `t` uses the table loaded, entries marked or repaired since excepted. -/
def Used (t : St) : Prop := ∀ c b, t.blkStatus c b = blockStatusOf L.bytes c b ∨
  (t.allowMarkbad = true ∧ (t.blkStatus c b = blockGood ∨ t.blkStatus c b = blockUsedBad))

/-- The search of the load is one for a record of the type `FULL_BLK`. -/
lemma prepared_argType : (L.prepared.info .nbbt).argType = .fullBlk := by
  obtain ⟨_, u, _, h⟩ := bind_eq_some L.isPrepared
  obtain ⟨ret, v, _, h⟩ := bind_eq_some h
  by_cases hneg : ret < 0
  · rw [if_pos hneg] at h
    cases h
    exact absurd hneg (lt_irrefl 0)
  · rw [if_neg hneg] at h
    obtain ⟨_, w, hset, h⟩ := bind_eq_some h
    have hw : w = L.prepared := congrArg Prod.snd h
    have hv : (amlnandSetConfigAttribute v).2 = w := congrArg Prod.snd hset
    rw [← hw, ← hv]
    rfl

/-- When the driver goes on with the table, the search has found a record. -/
lemma found_valid (hv : (L.loaded.info .nbbt).argValid = true) :
    (L.found.info .nbbt).argValid = true := by
  rcases amlnandInfoInit_cases L.isFound L.isLoaded with ⟨-, heq⟩ | ⟨-, heq, -⟩ | ⟨-, ha, -⟩
  · rwa [heq] at hv
  · rwa [heq] at hv
  · exact ha

/-- Bytes copied from a record have its checksums. -/
lemma checksum_eq (h : L.found.CopiedAll fl .nbbt blockStatusSize L.bytes) :
    amlInfoChecksum L.bytes 4 (4 * 8192) =
        amlInfoChecksum (L.found.recordStored fl .nbbt) 4 (4 * 8192) ∧
      leNat L.bytes 0 4 = leNat (L.found.recordStored fl .nbbt) 0 4 :=
  checksum_congr fun k hk => (h k hk).2.2

/-- Once the search has found a record, the copy the load comes to is intact exactly when the search
went well, the pages of that record are good and its checksum is right. -/
lemma intact_iff (hv : (L.found.info .nbbt).argValid = true) :
    L.prepared.TableIntact fl ↔ 0 ≤ L.searchCode ∧
      L.found.PagesGood fl .nbbt blockStatusSize ∧
      amlInfoChecksum (L.found.recordStored fl .nbbt) 4 (4 * 8192) =
        leNat (L.found.recordStored fl .nbbt) 0 4 := by
  obtain ⟨q, hq, hsame, hblk, hpage, htick, hcode⟩ :=
    amlnandCheckInfoByName_end L.prepared_argType L.isFound hv
  have hrec : ∀ j, L.found.recordPage fl .nbbt j = q.seen.pageAt fl L.prepared j := by
    intro j
    rw [St.recordPage, Copy.pageAt, hblk, hpage, hsame.image]
  have hstored : L.found.recordStored fl .nbbt = q.seen.stored fl L.prepared := by
    funext k
    rw [St.recordStored, Copy.stored, hrec]
  rw [hcode, hstored]
  simp only [St.PagesGood, hrec, hsame.plan, hsame.readSteps, htick]
  constructor
  · rintro ⟨q', hq', hpos, hpages, hsum⟩
    cases hq.symm.trans hq'
    exact ⟨hpos, hpages, hsum⟩
  · rintro ⟨hpos, hpages, hsum⟩
    exact ⟨q, hq, hpos, hpages, hsum⟩

/-- When the driver goes on with the table, the table is gated exactly when the copy the load comes
to is intact.

**Proof sketch.** The code of the search decides whether the record was read at all. If it was, all
bytes were copied exactly when all pages are good, and the checksums of the bytes are those of the
record. -/
lemma gated_iff (hv : (L.loaded.info .nbbt).argValid = true) :
    L.Gated ↔ L.prepared.TableIntact fl := by
  have hfound := L.found_valid hv
  rw [L.intact_iff hfound]
  constructor
  · rintro ⟨hpos, hcopied, hsum⟩
    obtain ⟨h1, h2⟩ := L.checksum_eq hcopied
    rw [h1, h2] at hsum
    exact ⟨hpos, pagesGood_of_copiedAll hcopied, hsum⟩
  · rintro ⟨hpos, hpages, hsum⟩
    rcases amlnandInfoInit_cases L.isFound L.isLoaded with ⟨hneg, -⟩ | ⟨-, -, hinv⟩ | ⟨-, -, hb⟩
    · exact absurd hpos (not_le.mpr hneg)
    · rw [hfound] at hinv
      cases hinv
    · have hcopied : L.found.CopiedAll fl .nbbt blockStatusSize L.bytes := by
        rw [hb]
        exact copiedAll_of_pagesGood hpages
      obtain ⟨h1, h2⟩ := L.checksum_eq hcopied
      refine ⟨hpos, hcopied, ?_⟩
      rw [h1, h2]
      exact hsum

end BbtLoad

section

variable {fl : Flash}

/-- A bring-up that succeeds has loaded a table and goes on with it.

**Proof sketch.** Every part of the bring-up returned, the prelude with zero. The record of the
table counts as found, or the rest of the bring-up fails at once. What the rest does to the table
is known from its steps. -/
lemma amlnandGetDevConfigs_load {s t : St} {r : ℤ}
    (h : amlnandGetDevConfigs fl s = (some r, t)) (hr : 0 ≤ r) :
    ∃ L : BbtLoad fl s, (L.loaded.info .nbbt).argValid = true ∧ L.Used t := by
  obtain ⟨ret, p, hp, h⟩ := bind_eq_some h
  by_cases hret : ret < 0
  · rw [if_pos hret] at h
    cases h
    omega
  · rw [if_neg hret] at h
    have hret0 : ret = 0 := by
      obtain ⟨_, _, _, hp⟩ := bind_eq_some hp
      obtain ⟨ret', _, _, hp⟩ := bind_eq_some hp
      by_cases hneg : ret' < 0
      · rw [if_pos hneg] at hp
        cases hp
        exact absurd hneg hret
      · rw [if_neg hneg] at hp
        obtain ⟨_, _, _, hp⟩ := bind_eq_some hp
        cases hp
        rfl
    subst hret0
    obtain ⟨_, w, hw, h⟩ := bind_eq_some h
    obtain ⟨⟨code, bytes⟩, v, hv, hw⟩ := bind_eq_some hw
    cases hw
    obtain ⟨searchCode, found, hfound, -⟩ := bind_eq_some hv
    let L : BbtLoad fl s := ⟨p, hp, searchCode, found, hfound, code, bytes, v, hv⟩
    have hvalid : (v.info .nbbt).argValid = true := by
      by_contra hinv
      have hrest : bringUpRest fl { v with blkStatus := blockStatusOf bytes } =
          (some (-nandReadFailed), { v with blkStatus := blockStatusOf bytes }) := by
        rw [bringUpRest, get_bind, if_pos hinv]
        rfl
      rw [hrest] at h
      cases h
      exact absurd hr (by decide)
    refine ⟨L, hvalid, ?_⟩
    have hsteps : DriverSteps fl RepairValue { v with blkStatus := blockStatusOf bytes }
        (bringUpRest fl { v with blkStatus := blockStatusOf bytes }).2 := moves_bringUpRest _
    rw [h] at hsteps
    obtain ⟨hallow, htable⟩ := hsteps.table
    intro c b
    rcases htable c b with heq | ⟨ha, hval⟩
    · exact .inl heq
    · refine .inr ⟨hallow.trans ha, ?_⟩
      rcases hval with hval | hval | hval
      · exact .inr hval
      · exact .inl hval
      · exact .inr hval

/-! ## A table on one chip -/

/-- A driver before bring-up, the first reserved block of the one chip being filled with pages of
a bad-block table with data `d`. -/
def St.withTable (d : ℕ → Buf) : St :=
  { St.blank with image := fun _ p =>
      if p / 256 = 4 then .written (d (p % 256)) (some ⟨.nbbt, 1⟩) else .erased }

/-- The pages of that chip. -/
lemma recAt_withTable (d : ℕ → Buf) (b : ℕ) {i : ℕ} (hi : i < 256) :
    (St.withTable d).image.recAt Flash.oneChip b i =
      if b = 4 then .written (d i) (some ⟨.nbbt, 1⟩) else .erased := by
  have hrow : Flash.oneChip.resRow b = b := by
    rw [Flash.resRow_eq]
    exact Nat.div_one b
  have hpage : Flash.oneChip.recPage b i = b * 256 + i := by
    change Flash.oneChip.resRow b * 256 + i = b * 256 + i
    rw [hrow]
  change (if Flash.oneChip.recPage b i / 256 = 4 then
    Page.written (d (Flash.oneChip.recPage b i % 256)) (some ⟨.nbbt, 1⟩) else .erased) = _
  rw [hpage, show (b * 256 + i) / 256 = b by omega, show (b * 256 + i) % 256 = i by omega]

/-- The scan takes the first copy of the one block that holds the table. -/
lemma checkInfo_withTable (d : ℕ → Buf) :
    let a := checkInfo Flash.oneChip (fun _ _ => 0) .nbbt blockStatusSize
      ((St.withTable d).image.recAt Flash.oneChip) {}
    a.argValid = true ∧ a.validBlkAddr = 4 ∧ a.validPageAddr = 0 := by
  have hfirst : (St.withTable d).image.recAt Flash.oneChip 4 0 =
      .written (d 0) (some ⟨.nbbt, 1⟩) := recAt_withTable d 4 (by omega)
  have hother : ∀ x, x ≠ 4 →
      Silent Flash.oneChip .nbbt blockStatusSize ((St.withTable d).image.recAt Flash.oneChip x) :=
    fun x hx => silent_of_erased ((recAt_withTable d x (by omega)).trans (if_neg hx))
  have hvisit : ScanVisits Flash.oneChip (fun _ _ => 0) 4 :=
    (scanVisits_iff 4).2 ⟨by decide, by decide, rfl⟩
  have htag : blockTag Flash.oneChip blockStatusSize
      ((St.withTable d).image.recAt Flash.oneChip 4) = some ⟨.nbbt, 1⟩ := by
    rw [blockTag_of_first (by rw [hfirst]; rfl), hfirst]
    rfl
  obtain ⟨h1, h2, h3⟩ := checkInfo_of_first .fullBlk hvisit htag rfl
    (fun x hx _ => hother x (by omega)) fun x hx _ => .inl (hother x (by omega))
  refine ⟨h1, h2, h3.trans ?_⟩
  exact copyPage_fullBlk_first (by rw [hfirst]; rfl) (by rw [hfirst]; rfl)

/-- Where the search of a bring-up on that chip ends. -/
lemma withTable_found {d : ℕ → Buf} (L : BbtLoad Flash.oneChip (St.withTable d)) :
    L.searchCode = 0 ∧ (L.found.info .nbbt).argValid = true ∧
      L.found.image = (St.withTable d).image ∧ (L.found.info .nbbt).validBlkAddr = 4 ∧
      (L.found.info .nbbt).validPageAddr = 0 ∧ L.found.plan = (St.withTable d).plan := by
  have hprep : bringUpPrelude Flash.oneChip (St.withTable d) = (some 0, { St.withTable d with
      info := fun n => if n = .nhix then (St.withTable d).info n
        else { (St.withTable d).info n with argType := argTypeOf n } }) := rfl
  have hp := congrArg Prod.snd (L.isPrepared.symm.trans hprep)
  dsimp only at hp
  have hfound := L.isFound
  rw [hp] at hfound
  obtain ⟨ret, t, ht, hk, hret⟩ := amlnandCheckInfoByName_run Flash.oneChip .nbbt blockStatusSize
    (s := { St.withTable d with
      info := fun n => if n = .nhix then (St.withTable d).info n
        else { (St.withTable d).info n with argType := argTypeOf n } })
    ⟨⟨fun _ => Outcome.fine_fine, rfl⟩, fun _ => ⟨rfl, rfl⟩⟩ rfl
  have hcode := congrArg Prod.fst (hfound.symm.trans ht)
  have heq := congrArg Prod.snd (hfound.symm.trans ht)
  dsimp only at hcode heq
  rw [← heq] at hk
  obtain ⟨h1, h2, h3⟩ := checkInfo_withTable d
  have hinfo : L.found.info .nbbt = checkInfo Flash.oneChip (fun _ _ => 0) .nbbt blockStatusSize
      ((St.withTable d).image.recAt Flash.oneChip) {} := by
    rw [kept_info hk, checked_info_self]
    rfl
  rw [hinfo]
  refine ⟨(Option.some.inj hcode).trans (hret h1), h1, (kept_image hk).trans rfl, h2, h3, ?_⟩
  exact (kept_plan hk).trans rfl

/-- Page `j` of the record found on that chip. -/
lemma withTable_page {d : ℕ → Buf} (L : BbtLoad Flash.oneChip (St.withTable d)) {j : ℕ}
    (hj : j < 256) :
    L.found.recordPage Flash.oneChip .nbbt j = .written (d j) (some ⟨.nbbt, 1⟩) := by
  obtain ⟨-, -, h1, h2, h3, -⟩ := withTable_found L
  rw [St.recordPage, h1, h2, h3, Nat.zero_add]
  exact (recAt_withTable d 4 hj).trans (if_pos rfl)

/-- The bytes of the record found on that chip. -/
lemma withTable_stored {d : ℕ → Buf} (L : BbtLoad Flash.oneChip (St.withTable d)) {k : ℕ}
    (hk : k < blockStatusSize) :
    L.found.recordStored Flash.oneChip .nbbt k = d (k / 8192) (k % 8192) := by
  have hk' : k < 65540 := hk
  have := withTable_page L (j := k / 8192) (by omega)
  change (L.found.recordPage Flash.oneChip .nbbt (k / 8192)).data (k % 8192) = _
  rw [this]
  rfl

/-- The checksum of bytes that are zero except perhaps one. -/
lemma amlInfoChecksum_single {buf : Buf} {off len p : ℕ} (hp : p < len)
    (h : ∀ i < len, i ≠ p → buf (off + i) = 0) :
    amlInfoChecksum buf off len = (buf (off + p)).toNat := by
  have hsum : ∀ n ≤ len, (List.range n).foldl (fun c i => c + (buf (off + i)).toNat) 0 =
      if p < n then (buf (off + p)).toNat else 0 := by
    intro n
    induction n with
    | zero => intro _; rfl
    | succ n ih =>
      intro hn
      rw [List.range_succ, List.foldl_append, ih (by omega)]
      change (if p < n then (buf (off + p)).toNat else 0) + (buf (off + n)).toNat = _
      rcases Nat.lt_trichotomy p n with hlt | rfl | hlt
      · rw [if_pos hlt, if_pos (by omega), h n (by omega) (by omega)]
        rfl
      · rw [if_neg (by omega), if_pos (by omega), Nat.zero_add]
      · rw [if_neg (by omega), if_neg (by omega), h n (by omega) (by omega)]
        rfl
  rw [amlInfoChecksum, hsum len le_rfl, if_pos hp]
  exact Nat.mod_eq_of_lt ((UInt8.toNat_lt _).trans (by norm_num))

/-- Zeros have the checksum zero. -/
lemma amlInfoChecksum_zero {buf : Buf} {off len : ℕ} (h : ∀ i < len, buf (off + i) = 0) :
    amlInfoChecksum buf off len = 0 := by
  cases len with
  | zero => rfl
  | succ n =>
    rw [amlInfoChecksum_single (Nat.succ_pos n) fun i hi _ => h i hi, h 0 (Nat.succ_pos n)]
    rfl

/-! ## Main result -/

/-- In a bring-up that succeeds, the table the driver goes on with was read completely from one
record and matches its checksum exactly when the copy that the load comes to is intact. -/
theorem gated_iff_intact {s t : St} {r : ℤ} (h : amlnandGetDevConfigs fl s = (some r, t))
    (hr : 0 ≤ r) : ∃ L : BbtLoad fl s, L.Used t ∧ (L.Gated ↔ L.prepared.TableIntact fl) := by
  obtain ⟨L, hv, hu⟩ := amlnandGetDevConfigs_load h hr
  exact ⟨L, hu, L.gated_iff hv⟩

/-- A table that calls block 100 used bad, with its checksum 1. -/
def oneBad : ℕ → Buf := fun j i => if j = 0 ∧ (i = 0 ∨ i = 204) then 1 else 0

/-- That table is loaded and used. -/
theorem gated_oneBad : ∃ t, amlnandGetDevConfigs Flash.oneChip (St.withTable oneBad) =
      (some 0, t) ∧
    ∃ L : BbtLoad Flash.oneChip (St.withTable oneBad), L.Used t ∧ L.Gated := by
  have hrun : (amlnandGetDevConfigs Flash.oneChip (St.withTable oneBad)).1 = some 0 := by
    decide +kernel
  obtain ⟨t, ht⟩ := exists_of_returned hrun
  obtain ⟨L, hused, hiff⟩ := gated_iff_intact ht (by decide)
  refine ⟨t, ht, L, hused, hiff.2 ?_⟩
  obtain ⟨hcode, hvalid, -, -, -, hplan⟩ := withTable_found L
  refine (L.intact_iff hvalid).mpr ⟨hcode.ge, fun j hj => ?_, ?_⟩
  · have hj' : j * 8192 < 65540 := hj
    rw [withTable_page L (by omega), hplan]
    exact ⟨rfl, rfl⟩
  · have hsize : blockStatusSize = 65540 := rfl
    have hbyte : ∀ k < blockStatusSize, L.found.recordStored Flash.oneChip .nbbt k =
        if k = 0 ∨ k = 204 then 1 else 0 := by
      intro k hk
      rw [withTable_stored L hk, oneBad]
      exact if_congr (by omega) rfl rfl
    rw [amlInfoChecksum_single (by norm_num : 200 < 4 * 8192) fun i hi hne =>
        (hbyte (4 + i) (by omega)).trans (if_neg (by omega)), hbyte 204 (by omega)]
    simp only [leNat]
    rw [hbyte 0 (by omega), hbyte 1 (by omega), hbyte 2 (by omega), hbyte 3 (by omega)]
    rfl

/-- A table of good blocks with the wrong checksum 1. -/
def wrongSum : ℕ → Buf := fun j i => if j = 0 ∧ i = 0 then 1 else 0

/-- A table with a wrong checksum does not keep bring-up from succeeding, and is used. -/
theorem not_gated_wrongSum : ∃ t, amlnandGetDevConfigs Flash.oneChip (St.withTable wrongSum) =
      (some 0, t) ∧ (∃ L : BbtLoad Flash.oneChip (St.withTable wrongSum), L.Used t) ∧
    ∀ L : BbtLoad Flash.oneChip (St.withTable wrongSum), ¬L.Gated := by
  have hrun : (amlnandGetDevConfigs Flash.oneChip (St.withTable wrongSum)).1 = some 0 := by
    decide +kernel
  obtain ⟨t, ht⟩ := exists_of_returned hrun
  refine ⟨t, ht, ?_, ?_⟩
  · obtain ⟨L, -, hused⟩ := amlnandGetDevConfigs_load ht (by decide)
    exact ⟨L, hused⟩
  · rintro L ⟨-, hcopied, hsum⟩
    obtain ⟨h1, h2⟩ := L.checksum_eq hcopied
    rw [h1, h2] at hsum
    have hsize : blockStatusSize = 65540 := rfl
    have hbyte : ∀ k < blockStatusSize, L.found.recordStored Flash.oneChip .nbbt k =
        if k = 0 then 1 else 0 := by
      intro k hk
      rw [withTable_stored L hk, wrongSum]
      exact if_congr (by omega) rfl rfl
    rw [amlInfoChecksum_zero fun i hi =>
      (hbyte (4 + i) (by omega)).trans (if_neg (by omega))] at hsum
    simp only [leNat] at hsum
    rw [hbyte 0 (by omega), hbyte 1 (by omega), hbyte 2 (by omega), hbyte 3 (by omega)] at hsum
    exact absurd hsum (by decide)

end

end Amlnf
