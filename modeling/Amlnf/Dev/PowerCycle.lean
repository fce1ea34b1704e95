import Amlnf.Phy.Repair
import Amlnf.Phy.TableBytes

set_option relaxedAutoImplicit false
set_option autoImplicit false

/-!
# Power cycles

A power cycle clears what the driver knows. `amlnand_get_dev_configs` then finds the records on the
chips again: first the bad-block table, with a table in which all blocks are good, then the
configuration, which names one more reserved block, and then the environment. On chips that hold the
three records and report no failure it arrives at a driver that holds the same records as before.

## Main definitions

* `St.powerUp` — the driver before bring-up.
* `bootNames`, `bootSize` — the records bring-up looks for.
* `Found` — some of the records have been found again.

## Main results

* `Found.infoInit` — the search for one more record.
* `powerCycle_run` — a bring-up arrives at the records of before.

## Design

The types that have read-retry values of their own in the reserved area, and the SanDisk type whose
bring-up always fails, are left out. The chips are identified again with the same geometry.
-/

namespace Amlnf

open Act

/-! ## Before bring-up -/

/-- `amlnf_phy_init` up to the search for the records: `aml_chip` is zero but for the list of
reserved blocks, and the module parameters have their values. -/
def St.powerUp (allowMeta allowMarkbad : Bool) (s : St) : St :=
  { s with
    blkStatus := fun _ _ => 0
    info := fun _ => {}
    reservedBlk := List.replicate reservedBlockCnt 0xff
    config := fun _ => 0
    opsPara := {}
    userOob := none
    allowMeta := allowMeta
    allowMarkbad := allowMarkbad
    mutex := false
    idleflag := false
    state := .ready }

/-- `amlnf_phy_init` after the power has been off. -/
def powerCycle (fl : Flash) (allowMeta allowMarkbad : Bool) : Act St ℤ := do
  modify (St.powerUp allowMeta allowMarkbad)
  amlnandGetDevConfigs fl

/-- The records bring-up looks for. -/
def bootNames : List RecName := [.nbbt, .ncnf, .nenv]

/-- Their sizes. -/
def bootSize : RecName → ℕ
  | .nbbt => blockStatusSize
  | .ncnf => nandConfigSize
  | _ => configEnvSize

section

variable {fl : Flash} {size : RecName → ℕ} {N : List RecName} {σ : RecName → Option Buf}
  {s t u : St} {places : ℕ} {done : List RecName}

/-! ## The search -/

/-- The state `t` of a bring-up, in which the records `done` of the state `s` before have been found
again, and of the others nothing is known. The list of reserved blocks has lost a place for each
record found. -/
structure Found (fl : Flash) (size : RecName → ℕ) (N : List RecName) (σ : RecName → Option Buf)
    (s : St) (places : ℕ) (done : List RecName) (t : St) : Prop where
  ready : Ready t
  idle : t.state = .ready
  image : t.image = s.image
  reserve : GoodReserve fl t.blkStatus
  length : t.reservedBlk.length = reservedBlockCnt
  places : places ≤ t.reservedBlk.count 0xff + done.length
  fresh : ∀ n ∈ N, n ∉ done → t.info n = { argType := argTypeOf n }
  housed : ∀ n ∈ done, ∀ P, σ n = some P → Housed fl t n (size n) P
  same : ∀ n ∈ done, (t.info n).validBlkAddr = (s.info n).validBlkAddr ∧
    (t.info n).argType = argTypeOf n ∧ (argTypeOf n = .fullBlk → (t.info n).updateFlag = false)

/-- Entering a block takes one place of the list at most. -/
lemma count_le_enlist (rl : List UInt8) (b : ℕ) : rl.count 0xff ≤ (enlist rl b).count 0xff + 1 := by
  induction rl with
  | nil => exact Nat.zero_le _
  | cons e l ih =>
    rw [enlist]
    split
    · next he =>
      subst he
      rw [List.count_cons_self]
      exact Nat.add_le_add_right (List.count_le_count_cons) 1
    · next he =>
      rw [List.count_cons_of_ne he, List.count_cons_of_ne he]
      exact ih

/-- A step that leaves the chips and the records alone and takes at most some places of the list. -/
lemma Found.frame {places' : ℕ} (h : Found fl size N σ s places done t) (hdone : done ⊆ N)
    (hr : Ready u) (hidle : u.state = .ready) (himg : u.image = t.image)
    (hg : GoodReserve fl u.blkStatus) (hlen : u.reservedBlk.length = t.reservedBlk.length)
    (hplaces : places' + t.reservedBlk.count 0xff ≤ places + u.reservedBlk.count 0xff)
    (hinfo : ∀ n ∈ N, u.info n = t.info n)
    (hlisted : ∀ b ≠ 255, listed t.reservedBlk b = true → listed u.reservedBlk b = true) :
    Found fl size N σ s places' done u := by
  have hold := h.places
  refine ⟨hr, hidle, himg.trans h.image, hg, hlen.trans h.length, by omega, fun n hn hnot => ?_,
    fun n hn P hσ => ?_, fun n hn => ?_⟩
  · rw [hinfo n hn]
    exact h.fresh n hn hnot
  · have hh := h.housed n hn P hσ
    exact hh.retable (hinfo n (hdone hn)) himg h.reserve hg
      (hlisted _ (Nat.ne_of_lt hh.visits.bounds.2) hh.listed)
  · rw [hinfo n (hdone hn)]
    exact h.same n hn

/-- **The search for one more record** finds it where it was, and loads its payload. -/
lemma Found.infoInit {name : RecName} {P : Buf} (h : Found fl size N σ s places done t)
    (hs : Stocked fl size N s σ) (hname : name ∈ N) (hnew : name ∉ done)
    (hσ : σ name = some P) (hplaces : done.length + 1 < places) (buf : Buf) :
    ∃ out u, amlnandInfoInit fl name buf (size name) t =
        (some (amlInfoCheckDatasum out name, out), u) ∧
      (∀ i < size name, out i = P i) ∧ u.untouched = t.untouched ∧
      (∀ n ≠ name, u.info n = t.info n) ∧ (u.info name).argValid = true ∧
      Found fl size N σ s places (name :: done) u := by
  have hold := h.places
  have hfree : (0xff : UInt8) ∈ t.reservedBlk := List.count_pos_iff.1 (by omega)
  have hhoused := hs.housed name hname P hσ
  have htype := hs.types name hname
  obtain ⟨out, u, hu, hout, hnow, hrest, hblk, hty, hflag⟩ := hhoused.rescan h.ready h.idle h.image
    hs.reserve h.reserve (by rw [h.fresh name hname hnew, htype]) hfree buf
  have hkept : u.kept = ((t.setInfo name fun _ => u.info name).setList
      (enlist t.reservedBlk (s.info name).validBlkAddr)).kept := hrest
  have hother : ∀ n ≠ name, u.info n = t.info n :=
    fun n hn => (congrFun (kept_info hkept) n).trans (if_neg hn)
  have hlist : u.reservedBlk = enlist t.reservedBlk (s.info name).validBlkAddr :=
    kept_reservedBlk hkept
  have huntouched : u.untouched = t.untouched := by
    unfold St.untouched
    rw [hkept]
    rfl
  have htbl : u.blkStatus = t.blkStatus := (kept_blkStatus hkept).trans rfl
  have hstate : u.state = t.state := (kept_state hkept).trans rfl
  have himg : u.image = t.image := (kept_image hkept).trans rfl
  have hready : Ready u := by
    have hbase : Ready ((t.setInfo name fun _ => u.info name).setList
        (enlist t.reservedBlk (s.info name).validBlkAddr)) := ⟨h.ready.calm, h.ready.lock⟩
    exact hbase.of_kept hkept
  refine ⟨out, u, hu, hout, huntouched, hother, hnow.valid, hready, hstate.trans h.idle,
    himg.trans h.image, by rw [htbl]; exact h.reserve, ?_, ?_, fun n hn hnot => ?_,
    fun n hn Q hQ => ?_, fun n hn => ?_⟩
  · rw [hlist, length_enlist]
    exact h.length
  · have hle := count_le_enlist t.reservedBlk (s.info name).validBlkAddr
    rw [hlist, List.length_cons]
    omega
  · rw [List.mem_cons, not_or] at hnot
    rw [hother n hnot.1]
    exact h.fresh n hn hnot.2
  · by_cases hne : n = name
    · subst hne
      rw [hσ] at hQ
      obtain rfl := Option.some.inj hQ
      exact hnow
    · have hn' : n ∈ done := (List.mem_cons.1 hn).resolve_left hne
      have hh := h.housed n hn' Q hQ
      refine hh.retable (hother n hne) himg h.reserve (by rw [htbl]; exact h.reserve) ?_
      rw [hlist]
      exact listed_enlist_of_listed _ (Nat.ne_of_lt hh.visits.bounds.2) hh.listed
  · by_cases hne : n = name
    · subst hne
      exact ⟨hblk, hty.trans htype, fun hfull => hflag (htype.trans hfull)⟩
    · rw [hother n hne]
      exact h.same n ((List.mem_cons.1 hn).resolve_left hne)

/-- When every record has been found the driver holds what it held before. -/
lemma Found.stocked (h : Found fl size N σ s places done t) (hs : Stocked fl size N s σ)
    (hall : ∀ n ∈ N, n ∈ done) (hσ : ∀ n ∈ N, (σ n).isSome) (hplaces : done.length + 2 ≤ places) :
    Stocked fl size N t σ := by
  have hold := h.places
  have hpay : ∀ n ∈ N, ∃ P, σ n = some P := fun n hn => Option.isSome_iff_exists.1 (hσ n hn)
  refine ⟨h.ready, h.reserve, h.length, ?_, fun n hn => (h.same n (hall n hn)).2.1,
    fun n hn P hP => h.housed n (hall n hn) P hP, fun n hn hnone => ?_,
    fun n hn m hm hne _ _ => ?_⟩
  · have hzero : N.countP (fun n => (σ n).isNone) = 0 := by
      apply List.countP_eq_zero.2
      intro n hn
      obtain ⟨P, hP⟩ := hpay n hn
      simp [hP]
    omega
  · obtain ⟨P, hP⟩ := hpay n hn
    rw [hnone] at hP
    cases hP
  · obtain ⟨P, hP⟩ := hpay n hn
    obtain ⟨Q, hQ⟩ := hpay m hm
    rw [(h.same n (hall n hn)).1, (h.same m (hall m hm)).1]
    exact hs.apart n hn m hm hne (hs.housed n hn P hP).valid (hs.housed m hm Q hQ).valid

/-! ## Bring-up -/

/-- The payloads of the three records. -/
def bootStock (tbl : BlkStatus) (config env : Buf) : RecName → Option Buf
  | .nbbt => some (blockStatusBuf tbl)
  | .ncnf => some (sealConfig config)
  | .nenv => some env
  | _ => none

section BringUp

variable {tbl : BlkStatus} {config env : Buf}

/-- The reserved blocks have entries of the table. -/
lemma hasEntry_res {b : ℕ} (hb : b < fl.startBlk + reservedBlockCnt) :
    HasEntry (fl.resChip b) (fl.resRow b) := by
  have h1 := startBlk_le_32 fl
  have h2 : b / fl.chipNum ≤ b := Nat.div_le_self _ _
  have h3 := fl.resRow_eq b
  have h4 : fl.startBlk - fl.startBlk / fl.chipNum ≤ fl.startBlk := Nat.sub_le _ _
  unfold reservedBlockCnt at hb
  refine ⟨(fl.resChip_lt b).trans_le fl.chipNum_le, ?_⟩
  rw [maxBlkNum]
  omega

/-- Whether a reserved block is bad is a matter of the table. -/
lemma GoodReserve.congr {tbl' : BlkStatus} (h : GoodReserve fl tbl)
    (heq : ∀ c b, HasEntry c b → tbl' c b = tbl c b) : GoodReserve fl tbl' := by
  intro b h1 h2
  exact (heq _ _ (hasEntry_res h2)).trans (h b h1 h2)

lemma untouched_blkStatus (h : t.untouched = s.untouched) : t.blkStatus = s.blkStatus :=
  (congrArg St.blkStatus h :)

/-- The permissions of a state. -/
lemma untouched_allow (h : t.untouched = s.untouched) :
    t.allowMeta = s.allowMeta ∧ t.allowMarkbad = s.allowMarkbad :=
  ⟨(congrArg St.allowMeta h :), (congrArg St.allowMarkbad h :)⟩

/-- The state in which the search starts. -/
def St.prepared (allowMeta allowMarkbad : Bool) (s : St) : St :=
  { s.powerUp allowMeta allowMarkbad with
    info := fun n => if n = .nhix then {} else { argType := argTypeOf n } }

/-- The part of bring-up before the search. -/
lemma bringUpPrelude_powerUp (hhynix : fl.newType.isHynix = false)
    (hsandisk : fl.newType ≠ .sandisk24nm) (m k : Bool) (s : St) :
    bringUpPrelude fl (s.powerUp m k) = (some 0, s.prepared m k) := by
  have hinit : readretrySlcInit fl = pure 0 := by
    rw [readretrySlcInit, if_neg hsandisk, if_neg (by simp [hhynix])]
  rw [bringUpPrelude, amlnandConfigBufMalloc, modify_bind, hinit]
  rfl

/-- Nothing has been found yet. -/
lemma found_prepared (hs : Stocked fl size N s σ) (hN : .nhix ∉ N) (m k : Bool) :
    Found fl size N σ s reservedBlockCnt [] (s.prepared m k) := by
  refine ⟨⟨hs.ready.calm, fun _ => ⟨rfl, rfl⟩⟩, rfl, rfl, fun _ _ _ => rfl, List.length_replicate,
    ?_, fun n hn _ => if_neg (ne_of_mem_of_not_mem hn hN), fun n hn => ?_, fun n hn => ?_⟩
  · have hcount : (s.prepared m k).reservedBlk.count 0xff = reservedBlockCnt :=
      List.count_replicate_self
    omega
  · cases hn
  · cases hn

/-- Loading the table. -/
lemma loadBbt_run (hs : Stocked fl bootSize bootNames s (bootStock tbl config env))
    (hgood : GoodReserve fl tbl)
    (h : Found fl bootSize bootNames (bootStock tbl config env) s 48 [] t) :
    ∃ out u, loadBbt fl t = (some (), u) ∧ (u.info .nbbt).argValid = true ∧
      (∀ c b, HasEntry c b → blockStatusOf out c b = tbl c b) ∧
      u.untouched = { t.untouched with blkStatus := blockStatusOf out } ∧
      Found fl bootSize bootNames (bootStock tbl config env) s 48 [.nbbt] u := by
  obtain ⟨out, u, hu, hout, hun, -, hvalid, hfound⟩ := h.infoInit hs
    (show .nbbt ∈ bootNames by simp [bootNames]) (List.not_mem_nil) rfl (by simp) fun _ => 0
  have htbl : ∀ c b, HasEntry c b → blockStatusOf out c b = tbl c b :=
    fun c b hcb => blockStatusOf_of_agree hout hcb
  refine ⟨out, { u with blkStatus := blockStatusOf out }, ?_, hvalid, htbl, ?_, ?_⟩
  · have hu' : amlnandInfoInit fl .nbbt (fun _ => 0) blockStatusSize t = _ := hu
    rw [loadBbt, bind_some hu']
    rfl
  · rw [← hun]
    rfl
  · exact hfound.frame (by simp [bootNames]) ⟨hfound.ready.calm, hfound.ready.lock⟩ hfound.idle rfl
      (hgood.congr htbl) rfl (le_refl _) (fun _ _ => rfl) fun _ _ hl => hl

/-- Loading the configuration. -/
lemma loadConfig_run (hs : Stocked fl bootSize bootNames s (bootStock tbl config env))
    (h : Found fl bootSize bootNames (bootStock tbl config env) s 48 [.nbbt] t) :
    ∃ out u, loadConfig fl t = (some 0, u) ∧ u.untouched = { t.untouched with config := out } ∧
      Found fl bootSize bootNames (bootStock tbl config env) s 47 [.ncnf, .nbbt] u := by
  obtain ⟨out, u, hu, hout, hun, -, hvalid, hfound⟩ := h.infoInit hs
    (show .ncnf ∈ bootNames by simp [bootNames]) (by simp) rfl (by simp) fun _ => 0
  have hsum : amlInfoCheckDatasum out .ncnf = 0 := checkDatasum_ncnf hout
  let v : St := { u with config := out }
  let w : St := (v.setInfo .fbbt fun a => { a with validBlkAddr := fbbtBlkAddr out }).setList
    (enlist u.reservedBlk (fbbtBlkAddr out))
  refine ⟨out, w, ?_, ?_, ?_⟩
  · have hu' : amlnandInfoInit fl .ncnf (fun _ => 0) nandConfigSize t = _ := hu
    rw [loadConfig, bind_some hu']
    simp only [hsum]
    rw [modify_bind, if_neg (by decide), get_bind, when, if_pos hvalid]
    rfl
  · rw [← hun]
    rfl
  · have hcount : u.reservedBlk.count 0xff ≤ w.reservedBlk.count 0xff + 1 :=
      count_le_enlist u.reservedBlk (fbbtBlkAddr out)
    refine hfound.frame (by simp [bootNames]) ⟨hfound.ready.calm, hfound.ready.lock⟩ hfound.idle rfl
      hfound.reserve (length_enlist _ _) (by omega) (fun n hn => ?_)
      fun b hb hl => listed_enlist_of_listed _ hb hl
    refine if_neg (ne_of_mem_of_not_mem hn ?_)
    simp [bootNames]

/-- Finding the environment. -/
lemma amlSysInfoInit_run (hs : Stocked fl bootSize bootNames s (bootStock tbl config env))
    (h : Found fl bootSize bootNames (bootStock tbl config env) s 47 [.ncnf, .nbbt] t) :
    ∃ u, amlSysInfoInit fl t = (some 0, u) ∧ u.untouched = t.untouched ∧
      Found fl bootSize bootNames (bootStock tbl config env) s 47 [.nenv, .ncnf, .nbbt] u := by
  have hmem : .nenv ∈ bootNames := by simp [bootNames]
  obtain ⟨out, u, hu, -, hun, -, -, hfound⟩ := h.infoInit hs hmem (by simp) rfl
    (by simp) fun _ => 0
  have hnew : (t.info .nenv).argValid = false := by
    rw [h.fresh .nenv hmem (by simp)]
  refine ⟨u, ?_, hun, hfound⟩
  have hu' : amlnandInfoInit fl .nenv (fun _ => 0) configEnvSize t = (some (0, out), u) := hu
  rw [amlSysInfoInit, get_bind, if_neg (by simp [hnew]), amlUbootenvInit, bind_some hu']
  rfl

/-- With nothing to update nothing is rewritten. -/
lemma amlnandInfoErrorHandle_idle (hbbt : (s.info .nbbt).updateFlag = false)
    (hcnf : (s.info .ncnf).updateFlag = false) :
    amlnandInfoErrorHandle fl s = (some (), s) := by
  rw [amlnandInfoErrorHandle, get_bind, if_neg (by simp [hbbt]), get_bind, if_neg (by simp [hcnf])]
  rfl

/-- With no bad block in the scan range nothing is repaired. -/
lemma repairReservedBadBlock_idle (h : GoodReserve fl s.blkStatus) :
    ∃ p, repairReservedBadBlock fl s = (some (), { s with opsPara := p }) := by
  have hfuel : fl.startBlk + reservedBlockCnt < fl.startBlk + scanFuel := by
    have hlt : reservedBlockCnt < scanFuel := by decide
    omega
  have hp := getLastReserveBlock_eq fl h.reserveEnd hfuel
  have hnone : usedBadIn fl s.blkStatus (fl.startBlk + reservedBlockCnt) = [] := by
    rw [List.eq_nil_iff_forall_not_mem]
    intro b hb
    obtain ⟨⟨h1, h2⟩, hbad⟩ := mem_usedBadIn.1 hb
    rw [h b h1 h2] at hbad
    exact absurd hbad (by decide)
  refine ⟨blockPara fl (fl.startBlk + reservedBlockCnt - 1), ?_⟩
  rw [repair_of_end hp, hnone]
  rfl

/-- **A power cycle brings the records back.** On chips that report no failure and hold the
bad-block table, the configuration and the environment, whatever the driver had in memory: bring-up
succeeds, uses the table stored, and the driver holds the three records as before.

**Proof sketch.** Each search finds its record where the driver before had it, and enters one block
in the list of reserved blocks. The table in use while the table is searched for has no bad block,
the one found has none in the scan range either, so both searches visit the same blocks. Nothing has
an update due, and there is no used-bad block to repair. -/
lemma powerCycle_run (hhynix : fl.newType.isHynix = false) (hsandisk : fl.newType ≠ .sandisk24nm)
    (hs : Stocked fl bootSize bootNames s (bootStock tbl config env)) (hgood : GoodReserve fl tbl)
    (m k : Bool) :
    ∃ u, powerCycle fl m k s = (some 0, u) ∧ u.state = .ready ∧ u.image = s.image ∧
      u.allowMeta = m ∧ u.allowMarkbad = k ∧ (∀ c b, HasEntry c b → u.blkStatus c b = tbl c b) ∧
      Stocked fl bootSize bootNames u (bootStock tbl config env) := by
  obtain ⟨out, t1, ht1, hvalid, htbl, hun1, h1⟩ := loadBbt_run hs hgood
    (found_prepared hs (by simp [bootNames]) m k)
  obtain ⟨cfg, t2, ht2, hun2, h2⟩ := loadConfig_run hs h1
  obtain ⟨t3, ht3, hun3, h3⟩ := amlSysInfoInit_run hs h2
  obtain ⟨p, hp⟩ := repairReservedBadBlock_idle h3.reserve
  have hidle : amlnandInfoErrorHandle fl t3 = (some (), t3) :=
    amlnandInfoErrorHandle_idle ((h3.same .nbbt (by simp)).2.2 rfl) ((h3.same .ncnf (by simp)).2.2 rfl)
  have hrest : bringUpRest fl t1 = (some 0, { t3 with opsPara := p }) := by
    rw [bringUpRest, get_bind, if_neg (by simp [hvalid]), bind_some ht2, if_neg (by decide),
      bind_some ht3, if_neg (by decide), bind_some hidle, bind_some hp]
    rfl
  have hallow : t3.allowMeta = m ∧ t3.allowMarkbad = k := by
    obtain ⟨a3, b3⟩ := untouched_allow hun3
    have a2 : t2.allowMeta = t1.allowMeta := (congrArg St.allowMeta hun2 :)
    have b2 : t2.allowMarkbad = t1.allowMarkbad := (congrArg St.allowMarkbad hun2 :)
    have a1 : t1.allowMeta = m := (congrArg St.allowMeta hun1 :)
    have b1 : t1.allowMarkbad = k := (congrArg St.allowMarkbad hun1 :)
    exact ⟨a3.trans (a2.trans a1), b3.trans (b2.trans b1)⟩
  have htable : t3.blkStatus = blockStatusOf out := by
    have c2 : t2.blkStatus = t1.blkStatus := (congrArg St.blkStatus hun2 :)
    have c1 : t1.blkStatus = blockStatusOf out := (congrArg St.blkStatus hun1 :)
    exact (untouched_blkStatus hun3).trans (c2.trans c1)
  have hstock : Stocked fl bootSize bootNames t3 (bootStock tbl config env) := by
    refine h3.stocked hs ?_ ?_ (by simp)
    all_goals simp [bootNames, bootStock]
  refine ⟨{ t3 with opsPara := p }, ?_, h3.idle, h3.image, hallow.1, hallow.2, fun c b hcb => ?_,
    hstock.of_kept rfl⟩
  · rw [powerCycle, modify_bind, amlnandGetDevConfigs,
      bind_some (bringUpPrelude_powerUp hhynix hsandisk m k s), if_neg (by decide), bind_some ht1,
      hrest]
  · change t3.blkStatus c b = _
    rw [htable]
    exact htbl c b hcb

end BringUp

end

end Amlnf
