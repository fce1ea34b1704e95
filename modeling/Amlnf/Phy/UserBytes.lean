import Mathlib.Data.List.GetD
import Mathlib.Tactic.IntervalCases
import Amlnf.Phy.PageSteps

set_option relaxedAutoImplicit false
set_option autoImplicit false

/-!
# The user bytes of a page

Beside its data a page carries a few bytes of the caller. `write_page` scatters them over the
info records of the pages it programs, and `read_page` gathers them again and returns the first
sixteen. There are two layouts: two bytes in each record, or sixteen in front of the records.

## Main definitions

* `Bus.Geometry`, `Bus.setUpController` — the ECC mode and the layout chosen for a chip.
* `Bus.Controller.setUserByte`, `Bus.writeUserBytes` — what `write_page` hands to the
  controller.
* `Bus.Returns` — the controller gives back the user bytes it was handed.
* `Bus.Collected` — the user bytes gathered so far are the caller's.

## Main results

* `Bus.sixteen_le_userByteNum` — where user bytes are kept together, a page has sixteen.
* `Bus.userBytes_roundtrip` — the first sixteen user bytes are read as they were written.

## Design

A read that wants the user bytes alone leaves off after the first page of a Micron chip. That
this is enough rests on the choice of the ECC mode, which is why it is modelled here. What
`write_page` hands over does not depend on the waits of `Bus.writePage`, so it is a function of
the caller's bytes.
-/

namespace Amlnf.Bus

open Act

/-! ## The ECC mode -/

/-- An entry of `bch_list`, with the limits `controller_ecc_confirm` sets for its mode. -/
structure BchDesc where
  unitSize : ℕ
  bytes : ℕ
  usrMode : ℕ
  eccCntLimit : ℕ
  eccMax : ℕ
  deriving DecidableEq, Repr

/-- `bch_list` from its second entry on, for the two families of controllers. -/
def bchList (m8 : Bool) : List BchDesc :=
  if m8 then
    [⟨512, 14, 2, 6, 8⟩, ⟨1024, 14, 2, 6, 8⟩, ⟨1024, 42, 2, 22, 24⟩, ⟨1024, 54, 2, 26, 30⟩,
      ⟨1024, 70, 2, 34, 40⟩, ⟨1024, 88, 2, 45, 50⟩, ⟨1024, 106, 2, 55, 60⟩, ⟨384, 106, 2, 55, 60⟩]
  else
    [⟨512, 14, 2, 6, 8⟩, ⟨1024, 14, 2, 6, 8⟩, ⟨1024, 28, 2, 14, 16⟩, ⟨1024, 42, 2, 22, 24⟩,
      ⟨1024, 54, 2, 26, 30⟩, ⟨1024, 70, 2, 34, 40⟩, ⟨1024, 106, 2, 55, 60⟩, ⟨384, 106, 2, 55, 60⟩]

/-- The sizes of a chip, as all entries of `id_table.c` have them. -/
structure Geometry where
  pagesize : ℕ
  oobsize : ℕ
  pagesize_pow : ∃ k, pagesize = 2 ^ k
  size_le : pagesize + oobsize ≤ 2 ^ 15

/-- The loop of `controller_ecc_confirm`: the last mode whose bytes fit into the spare bytes of
a page. -/
def eccConfirm (m8 : Bool) (g : Geometry) : Option BchDesc :=
  (bchList m8).reverse.find? fun d => d.bytes + d.usrMode ≤ g.oobsize / (g.pagesize / d.unitSize)

/-- `controller->ecc_steps`. -/
def BchDesc.eccSteps (d : BchDesc) (g : Geometry) : ℕ :=
  (g.pagesize + g.oobsize) / (d.unitSize + d.bytes + d.usrMode) % 2 ^ 16

/-- `controller_ecc_confirm` and the layout `controller_adjust_timing` chooses: `newOob` is the
build option for the layout that keeps the user bytes together, which pages beyond 4 KiB get.
Without a step there is nothing to transfer. -/
def setUpController (mfr : Mfr) (newOob m8 : Bool) (g : Geometry) : Option Controller := do
  let d ← eccConfirm m8 g
  if h : 0 < d.unitSize ∧ 0 < d.eccSteps g ∧ 0 < g.pagesize + g.oobsize then
    some {
      mfr := mfr
      eccUnit := d.unitSize
      eccSteps := d.eccSteps g
      eccMax := d.eccMax
      eccCntLimit := d.eccCntLimit
      bchNone := false
      oobMod := newOob && m8 && decide (4096 < g.pagesize)
      userMode := d.usrMode
      oobSize := g.oobsize
      rawSize := g.pagesize + g.oobsize
      eccUnit_pos := h.1
      eccSteps_pos := h.2.1
      rawSize_pos := h.2.2 }
  else none

/-- The geometry of pages of 8 KiB with 640 spare bytes. -/
def geometry8k : Geometry := ⟨8192, 640, ⟨13, rfl⟩, by decide⟩

/-- What every mode of the list has in common. -/
lemma bchList_bounds {m8 : Bool} {d : BchDesc} (h : d ∈ bchList m8) :
    384 ≤ d.unitSize ∧ d.unitSize ≤ 1024 ∧ d.usrMode = 2 := by
  have hall : ∀ m8, ∀ d ∈ bchList m8, 384 ≤ d.unitSize ∧ d.unitSize ≤ 1024 ∧ d.usrMode = 2 := by
    decide
  exact hall m8 d h

/-- A mode that fits has a step for every unit of the page. -/
lemma eccSteps_ge {d : BchDesc} {g : Geometry} (hunit : 384 ≤ d.unitSize)
    (hfit : d.bytes + d.usrMode ≤ g.oobsize / (g.pagesize / d.unitSize)) :
    g.pagesize / d.unitSize ≤ d.eccSteps g ∧ d.eccSteps g < 2 ^ 7 := by
  have hsize := g.size_le
  have hwhole : d.unitSize * (g.pagesize / d.unitSize) ≤ g.pagesize := Nat.mul_div_le _ _
  have hspare : (g.pagesize / d.unitSize) * (d.bytes + d.usrMode) ≤ g.oobsize := by
    calc (g.pagesize / d.unitSize) * (d.bytes + d.usrMode)
        ≤ (g.pagesize / d.unitSize) * (g.oobsize / (g.pagesize / d.unitSize)) :=
          Nat.mul_le_mul_left _ hfit
      _ ≤ g.oobsize := Nat.mul_div_le _ _
  have hpos : 0 < d.unitSize + d.bytes + d.usrMode := by omega
  have hge : g.pagesize / d.unitSize ≤
      (g.pagesize + g.oobsize) / (d.unitSize + d.bytes + d.usrMode) := by
    rw [Nat.le_div_iff_mul_le hpos]
    calc (g.pagesize / d.unitSize) * (d.unitSize + d.bytes + d.usrMode)
        = d.unitSize * (g.pagesize / d.unitSize) +
            (g.pagesize / d.unitSize) * (d.bytes + d.usrMode) := by ring
      _ ≤ g.pagesize + g.oobsize := Nat.add_le_add hwhole hspare
  have hlt : (g.pagesize + g.oobsize) / (d.unitSize + d.bytes + d.usrMode) < 2 ^ 7 := by
    rw [Nat.div_lt_iff_lt_mul hpos]
    omega
  have hsteps : d.eccSteps g = (g.pagesize + g.oobsize) / (d.unitSize + d.bytes + d.usrMode) :=
    Nat.mod_eq_of_lt (by omega)
  rw [hsteps]
  exact ⟨hge, hlt⟩

/-- What a controller that was set up is like. -/
structure Controller.IsSetUp (ctl : Controller) : Prop where
  bchNone : ctl.bchNone = false
  userMode : ctl.userMode = 2
  steps_lt : ctl.eccSteps < 2 ^ 7
  steps_ge : ctl.oobMod = true → 8 ≤ ctl.eccSteps

/-- **The set-up**: the number of steps fits, and pages that keep the user bytes together have
at least eight. -/
lemma isSetUp_of_setUp {mfr : Mfr} {newOob m8 : Bool} {g : Geometry} {ctl : Controller}
    (h : setUpController mfr newOob m8 g = some ctl) : ctl.IsSetUp := by
  unfold setUpController at h
  cases hd : eccConfirm m8 g with
  | none => simp [hd] at h
  | some d =>
    rw [hd] at h
    have hfit : d.bytes + d.usrMode ≤ g.oobsize / (g.pagesize / d.unitSize) := by
      simpa using List.find?_some hd
    have hmem : d ∈ bchList m8 := List.mem_reverse.1 (List.mem_of_find?_eq_some hd)
    obtain ⟨hlo, hhi, husr⟩ := bchList_bounds hmem
    obtain ⟨hge, hlt⟩ := eccSteps_ge hlo hfit
    simp only [Option.bind_eq_bind, Option.bind_some] at h
    split at h
    · cases h
      refine ⟨rfl, husr, hlt, fun hmod => le_trans ?_ hge⟩
      simp only [Bool.and_eq_true, decide_eq_true_eq] at hmod
      obtain ⟨k, hk⟩ := g.pagesize_pow
      have hpage : 8192 ≤ g.pagesize := by
        have h13 : 2 ^ 12 < 2 ^ k := by
          rw [← hk]
          exact hmod.2
        have h12 : 12 < k := (Nat.pow_lt_pow_iff_right (show 1 < 2 by decide)).1 h13
        rw [hk]
        exact Nat.pow_le_pow_right (n := 2) (by decide) h12
      rw [Nat.le_div_iff_mul_le (by omega)]
      omega
    · cases h

/-- `user_byte_num` of a read with the ECC engine. -/
lemma userByteNum_eq {ctl : Controller} (h : ctl.IsSetUp) {req : PageReq}
    (hsoft : req.soft ctl = false) : req.userByteNum ctl = 2 * ctl.eccSteps := by
  have hlt := h.steps_lt
  unfold PageReq.userByteNum
  rw [if_neg (by simp [hsoft]), h.userMode]
  omega

/-- Where user bytes are kept together, a page has sixteen of them. -/
lemma sixteen_le_userByteNum {ctl : Controller} (h : ctl.IsSetUp) {req : PageReq}
    (hsoft : req.soft ctl = false) (hmod : ctl.oobMod = true) : 16 ≤ req.userByteNum ctl := by
  have := h.steps_ge hmod
  rw [userByteNum_eq h hsoft]
  omega

/-! ## What `write_page` hands over -/

/-- The word of four bytes. -/
def leWord (bytes : ℕ → UInt8) : ℕ :=
  (bytes 0).toNat + 2 ^ 8 * (bytes 1).toNat + 2 ^ 16 * (bytes 2).toNat + 2 ^ 24 * (bytes 3).toNat

/-- `controller_set_user_byte`: the words of `user_buf` afterwards. -/
def Controller.setUserByte (ctl : Controller) (bytes : ℕ → UInt8) (byteNum : ℕ) (words : ℕ → ℕ) :
    ℕ → ℕ := fun i =>
  if ctl.oobMod then
    leWord fun k => if 4 * i + k < byteNum then bytes (4 * i + k) else wordByte (words i) k
  else if i % 2 = 1 then
    words i
  else if ctl.userMode = 2 then
    if i / 2 < byteNum / 2 then (bytes i).toNat + 2 ^ 8 * (bytes (i + 1)).toNat else words i
  else
    if i / 2 < byteNum then (bytes (i / 2)).toNat else words i

/-- What the controller is given with a page: `user_buf`. -/
structure Handed where
  chip : ℕ
  plane : ℕ
  words : ℕ → ℕ

/-- The loop of `write_page` over the pages of an operation, as far as the user bytes go: those
from `pos` on are put into `user_buf`, which is handed over, and the next page follows. -/
def handPages (ctl : Controller) (byteNum : ℕ) (oobBuf : Buf) :
    List (ℕ × ℕ) → ℕ → (ℕ → ℕ) → List Handed
  | [], _, _ => []
  | (chip, plane) :: rest, pos, userBuf =>
    let userBuf := ctl.setUserByte (fun j => oobBuf (pos + j)) byteNum userBuf
    ⟨chip, plane, userBuf⟩ :: handPages ctl byteNum oobBuf rest (pos + byteNum) userBuf

/-- The pages of an operation, in the order in which they are moved. -/
def opPlanes (fl : Flash) (req : PageReq) : List (ℕ × ℕ) :=
  (opChips fl req.para).flatMap fun chip => (List.range req.planeNum).map fun plane => (chip, plane)

/-- The user bytes of all pages of an operation. -/
def totalUser (fl : Flash) (ctl : Controller) (req : PageReq) : ℕ :=
  req.userByteNum ctl * (req.planeNum * (opChips fl req.para).length)

/-- What `write_page` hands over for the caller's user bytes `oob`, with the ECC engine. They are
first copied to `controller->oob_buf`, whose old bytes are `stale`. -/
def writeUserBytes (fl : Flash) (ctl : Controller) (req : PageReq) (oob stale : Buf)
    (userBuf : ℕ → ℕ) : List Handed :=
  handPages ctl (req.userByteNum ctl)
    (fun j => if j < totalUser fl ctl req then oob j else stale j) (opPlanes fl req) 0 userBuf

/-! ## What the controller gives back -/

/-- The words of a transfer carry the user bytes of the words handed over: the first sixteen
bytes of the info buffer, or two in each record. -/
def Controller.Carries (ctl : Controller) (given back : ℕ → ℕ) : Prop :=
  if ctl.oobMod then ∀ i < 4, back i = given i
  else ∀ t < ctl.eccSteps, back (2 * t) % 2 ^ 16 = given (2 * t) % 2 ^ 16

/-- Every transfer of a page carries the user bytes handed over with it. -/
def Returns (ctl : Controller) (hw : Hw) (handed : List Handed) : Prop :=
  ∀ h ∈ handed, ∀ k, ctl.Carries h.words (hw.page h.chip h.plane k).words

section Bytes

lemma wordByte_leWord (bytes : ℕ → UInt8) {k : ℕ} (hk : k < 4) :
    wordByte (leWord bytes) k = bytes k := by
  have h0 := (bytes 0).toNat_lt
  have h1 := (bytes 1).toNat_lt
  have h2 := (bytes 2).toNat_lt
  have h3 := (bytes 3).toNat_lt
  apply UInt8.toNat_inj.1
  unfold wordByte leWord
  rw [UInt8.toNat_ofNat', Nat.shiftRight_eq_div_pow]
  interval_cases k <;> omega

/-- The low bytes of a word come from its low half. -/
lemma wordByte_congr {v w k : ℕ} (h : v % 2 ^ 16 = w % 2 ^ 16) (hk : k < 2) :
    wordByte v k = wordByte w k := by
  apply UInt8.toNat_inj.1
  unfold wordByte
  rw [UInt8.toNat_ofNat', UInt8.toNat_ofNat', Nat.shiftRight_eq_div_pow,
    Nat.shiftRight_eq_div_pow]
  interval_cases k <;> omega

/-- The two bytes of a record. -/
lemma wordByte_pair (a b : UInt8) {k : ℕ} (hk : k < 2) :
    wordByte (a.toNat + 2 ^ 8 * b.toNat) k = if k = 0 then a else b := by
  have ha := a.toNat_lt
  have hb := b.toNat_lt
  apply UInt8.toNat_inj.1
  unfold wordByte
  rw [UInt8.toNat_ofNat', Nat.shiftRight_eq_div_pow]
  interval_cases k
  · rw [if_pos rfl]
    omega
  · rw [if_neg (by decide)]
    omega

/-- Two bytes for each of so many records. -/
lemma getD_flatMap_pair (f : ℕ → ℕ → UInt8) (n j : ℕ) (hj : j < 2 * n) :
    ((List.range n).flatMap fun t => [f t 0, f t 1]).getD j 0 = f (j / 2) (j % 2) := by
  induction n with
  | zero => omega
  | succ n ih =>
    have hlen : ((List.range n).flatMap fun t => [f t 0, f t 1]).length = 2 * n := by
      simp [List.length_flatMap, Nat.mul_comm]
    rw [List.range_succ, List.flatMap_append]
    by_cases hlt : j < 2 * n
    · rw [List.getD_append _ _ _ _ (by rw [hlen]; exact hlt), ih hlt]
    · rw [List.getD_append_right _ _ _ _ (by rw [hlen]; omega), hlen]
      obtain rfl | rfl : j = 2 * n ∨ j = 2 * n + 1 := by omega
      · have h1 : 2 * n / 2 = n := by omega
        simp [h1]
      · have h1 : (2 * n + 1) / 2 = n := by omega
        have h2 : (2 * n + 1) % 2 = 1 := by omega
        simp [h1, h2]

variable {ctl : Controller}

/-- A page has as many user bytes as are asked for. -/
lemma length_getUserByte (h : ctl.IsSetUp) (words : ℕ → ℕ) (n : ℕ) :
    (ctl.getUserByte words (2 * n)).length = 2 * n := by
  unfold Controller.getUserByte
  split
  · simp
  · rw [if_pos h.userMode]
    simp [List.length_flatMap, Nat.mul_comm]

/-- **Bytes that the controller carries are read as they were set**: all of them in the layout
with two in each record, the first sixteen where they are kept together. -/
lemma getUserByte_of_carries (h : ctl.IsSetUp) {bytes : ℕ → UInt8} {words back : ℕ → ℕ}
    (hback : ctl.Carries (ctl.setUserByte bytes (2 * ctl.eccSteps) words) back) {j : ℕ}
    (hj : j < 2 * ctl.eccSteps) (hj16 : j < 16) :
    (ctl.getUserByte back (2 * ctl.eccSteps)).getD j 0 = bytes j := by
  unfold Controller.getUserByte Controller.Carries at *
  cases hmod : ctl.oobMod with
  | true =>
    rw [if_pos hmod] at hback
    have hword : wordByte (back (j / 4)) (j % 4) = bytes j := by
      rw [hback (j / 4) (by omega), Controller.setUserByte, if_pos hmod,
        wordByte_leWord _ (Nat.mod_lt _ (by decide)), Nat.div_add_mod, if_pos hj]
    simpa [hj] using hword
  | false =>
    rw [if_neg (by simp [hmod])] at hback
    rw [if_neg (by decide), if_pos h.userMode, Nat.mul_div_cancel_left _ (by decide),
      getD_flatMap_pair (fun t k => wordByte (back (2 * t)) k) _ _ hj,
      wordByte_congr (hback (j / 2) (by omega)) (Nat.mod_lt _ (by decide)),
      Controller.setUserByte, if_neg (by simp [hmod]), if_neg (by omega), if_pos h.userMode,
      if_pos (by omega), wordByte_pair _ _ (Nat.mod_lt _ (by decide))]
    by_cases hpar : j % 2 = 0
    · rw [if_pos hpar]
      congr 1
      omega
    · rw [if_neg hpar]
      congr 1
      omega

end Bytes

/-! ## The user bytes of the pages of an operation -/

section Pages

variable {ctl : Controller}

/-- The pages handed over are the pages of the list, each with the bytes at its place. -/
lemma handPages_getElem? (ctl : Controller) (byteNum : ℕ) (oobBuf : Buf) (pages : List (ℕ × ℕ)) (pos : ℕ)
    (userBuf : ℕ → ℕ) {i : ℕ} {p : ℕ × ℕ} (hp : pages[i]? = some p) :
    ∃ words, ⟨p.1, p.2, ctl.setUserByte (fun j => oobBuf (pos + byteNum * i + j)) byteNum words⟩ ∈
      handPages ctl byteNum oobBuf pages pos userBuf := by
  induction pages generalizing pos userBuf i with
  | nil => cases hp
  | cons q rest ih =>
    cases i with
    | zero =>
      obtain rfl := Option.some.inj hp
      exact ⟨userBuf, List.mem_cons_self⟩
    | succ i =>
      obtain ⟨words, hmem⟩ := ih (pos + byteNum)
        (ctl.setUserByte (fun j => oobBuf (pos + j)) byteNum userBuf) hp
      refine ⟨words, List.mem_cons_of_mem _ ?_⟩
      have hpos : pos + byteNum * (i + 1) = pos + byteNum + byteNum * i := by
        rw [Nat.mul_add, Nat.mul_one]
        omega
      rw [hpos]
      exact hmem

/-- The transfers of page `i` of an operation bring the caller's bytes to their place. -/
def Brings (fl : Flash) (ctl : Controller) (req : PageReq) (oob : Buf) (hw : Hw) : Prop :=
  ∀ i p, (opPlanes fl req)[i]? = some p → ∀ k j, j < req.userByteNum ctl →
    req.userByteNum ctl * i + j < 16 →
    (ctl.getUserByte (hw.page p.1 p.2 k).words (req.userByteNum ctl)).getD j 0 =
      oob (req.userByteNum ctl * i + j)

lemma length_opPlanes (fl : Flash) (req : PageReq) :
    (opPlanes fl req).length = req.planeNum * (opChips fl req.para).length := by
  simp [opPlanes, List.length_flatMap, Nat.mul_comm]

/-- A controller that gives back what it was handed brings the caller's bytes. -/
lemma brings_of_returns {fl : Flash} {req : PageReq} {oob stale : Buf} {userBuf : ℕ → ℕ} {hw : Hw}
    (h : ctl.IsSetUp) (hsoft : req.soft ctl = false)
    (hret : Returns ctl hw (writeUserBytes fl ctl req oob stale userBuf)) :
    Brings fl ctl req oob hw := by
  intro i p hp k j hj h16
  have hn := userByteNum_eq h hsoft
  obtain ⟨words, hmem⟩ := handPages_getElem? ctl (req.userByteNum ctl)
    (fun j => if j < totalUser fl ctl req then oob j else stale j) _ 0 userBuf hp
  have hcarry := hret _ hmem k
  rw [hn] at hcarry hj h16 ⊢
  rw [getUserByte_of_carries h hcarry hj (by omega), Nat.zero_add, if_pos]
  -- the place of the byte is inside the bytes of all pages
  have hi : i < (opPlanes fl req).length := (List.getElem?_eq_some_iff.1 hp).1
  rw [length_opPlanes] at hi
  unfold totalUser
  rw [hn]
  calc 2 * ctl.eccSteps * i + j < 2 * ctl.eccSteps * i + 2 * ctl.eccSteps :=
        Nat.add_lt_add_left hj _
    _ = 2 * ctl.eccSteps * (i + 1) := by ring
    _ ≤ 2 * ctl.eccSteps * (req.planeNum * (opChips fl req.para).length) :=
        Nat.mul_le_mul_left _ hi

/-- Page `plane` of chip `i` in the order of the pages. -/
lemma opPlanes_getElem? {fl : Flash} {req : PageReq} {i plane chip : ℕ}
    (hc : (opChips fl req.para)[i]? = some chip) (hp : plane < req.planeNum) :
    (opPlanes fl req)[req.planeNum * i + plane]? = some (chip, plane) := by
  unfold opPlanes
  generalize opChips fl req.para = chips at hc
  induction chips generalizing i with
  | nil => cases hc
  | cons c rest ih =>
    rw [List.flatMap_cons]
    cases i with
    | zero =>
      obtain rfl := Option.some.inj hc
      rw [List.getElem?_append_left (by simpa using hp)]
      simp [hp]
    | succ i =>
      have hpos : req.planeNum * (i + 1) + plane = req.planeNum + (req.planeNum * i + plane) := by
        ring
      rw [List.getElem?_append_right (by simp [hpos]), ← ih hc]
      congr 1
      simp [hpos]

end Pages

/-! ## The read -/

/-- The chips get ready, the transfers end and the command FIFO drains. -/
def Hw.Ready (hw : Hw) : Prop :=
  (∀ c k, hw.rb c k = true) ∧ (∀ c k, hw.dma c k = true) ∧ ∀ k, hw.fifo k = true

/-- Every page is ECC-clean. -/
def Hw.Clean (hw : Hw) (ctl : Controller) (req : PageReq) : Prop :=
  ∀ chip plane k, req.verdict ctl (hw.page chip plane k) = .ok

/-- `tmp_buf` stands behind `k` pages, and the bytes of `m` pages have been gathered: the first
sixteen of them are the caller's. -/
structure Collected (ctl : Controller) (req : PageReq) (oob : Buf) (hw : Hw) (k m : ℕ) (s : BusSt) :
    Prop where
  hw_eq : s.hw = hw
  eccErr : s.eccErr = 0
  pos : s.oobPos = req.userByteNum ctl * k
  bytes : ∀ j < 16, j < req.userByteNum ctl * m → s.oobBuf j = oob j

section Read

variable {fl : Flash} {ctl : Controller} {req : PageReq} {oob : Buf} {hw : Hw} {k m chip plane : ℕ}

lemma Collected.ask {s : BusSt} (h : Collected ctl req oob hw k m s) (p : Port) :
    Collected ctl req oob hw k m (s.ask p) := ⟨h.hw_eq, h.eccErr, h.pos, h.bytes⟩

/-- A chip that is not ready tells against the hardware. -/
lemma queneRb_collected :
    Spec (Collected ctl req oob hw k m) (queneRb chip)
      (fun ok s => Collected ctl req oob hw k m s ∧ (ok = false → ¬hw.Ready)) fun _ => ¬hw.Ready := by
  intro s hs
  refine ⟨hs.ask _, fun hok hready => ?_⟩
  rw [hs.hw_eq, hready.1] at hok
  cases hok

lemma checkCmdfifoSize_collected :
    Spec (Collected ctl req oob hw k m) checkCmdfifoSize (fun _ => Collected ctl req oob hw k m)
      fun _ => ¬hw.Ready := by
  intro s hs
  unfold checkCmdfifoSize
  cases hfifo : s.hw.fifo (s.used .fifo) with
  | true => exact hs.ask _
  | false =>
    intro hready
    rw [hs.hw_eq, hready.2.2] at hfifo
    cases hfifo

/-- A transfer brings a page of the hardware. -/
lemma dmaRead_collected (len : ℕ) :
    Spec (Collected ctl req oob hw k m) (dmaRead len chip plane)
      (fun f s => Collected ctl req oob hw k m s ∧ s.userBuf = f.page.words ∧
        ∃ n, f = ⟨chip, plane, hw.page chip plane n⟩) fun _ => ¬hw.Ready := by
  intro s hs
  unfold dmaRead
  cases hdma : s.hw.dma chip (s.used (.dma chip)) with
  | true =>
    refine ⟨⟨hs.hw_eq, hs.eccErr, hs.pos, hs.bytes⟩, rfl, s.used (.page chip plane), ?_⟩
    rw [hs.hw_eq]
  | false =>
    intro hready
    rw [hs.hw_eq, hready.2.1] at hdma
    cases hdma

/-- The bytes of the next page stored where `tmp_buf` points. -/
lemma Collected.putUser {s : BusSt} (h : Collected ctl req oob hw k k s) (bytes : List UInt8)
    (hlen : bytes.length = req.userByteNum ctl)
    (hbytes : ∀ j, j < req.userByteNum ctl → req.userByteNum ctl * k + j < 16 →
      bytes.getD j 0 = oob (req.userByteNum ctl * k + j)) :
    Collected ctl req oob hw k (k + 1) { s with toBench := s.toBench.putUser bytes } := by
  refine ⟨h.hw_eq, h.eccErr, h.pos, fun j h16 hj => ?_⟩
  rw [Nat.mul_add, Nat.mul_one] at hj
  change (if s.oobPos ≤ j ∧ j < s.oobPos + bytes.length then bytes.getD (j - s.oobPos) 0
    else s.oobBuf j) = oob j
  rw [h.pos, hlen]
  by_cases hlt : j < req.userByteNum ctl * k
  · rw [if_neg (by omega)]
    exact h.bytes j h16 hlt
  · have hsub : req.userByteNum ctl * k + (j - req.userByteNum ctl * k) = j := by omega
    rw [if_pos (by omega), hbytes _ (by omega) (by omega), hsub]

/-- One transfer of a clean page gathers its bytes. -/
lemma pageAttempt_collected (hset : ctl.IsSetUp) (hsoft : req.soft ctl = false)
    (hclean : hw.Clean ctl req) (hbrings : Brings fl ctl req oob hw)
    (hpage : (opPlanes fl req)[k]? = some (chip, plane)) :
    Spec (Collected ctl req oob hw k k) (pageAttempt fl ctl req chip plane 0)
      (fun x s => x.1 = .corrected ∧ x.2.2 = 0 ∧ Collected ctl req oob hw k (k + 1) s)
      fun _ => ¬hw.Ready := by
  refine .bind (dmaRead_collected _) fun f => ?_
  rw [if_neg (by simp [hsoft])]
  refine .bind (M := fun _ s => Collected ctl req oob hw k (k + 1) s ∧
    ∃ n, f = ⟨chip, plane, hw.page chip plane n⟩) ?_ fun _ => ?_
  · rintro s ⟨hs, huser, n, rfl⟩
    refine ⟨?_, n, rfl⟩
    refine hs.putUser (ctl.getUserByte s.userBuf (req.userByteNum ctl)) ?_ ?_
    · rw [userByteNum_eq hset hsoft]
      exact length_getUserByte hset _ _
    · rw [huser]
      exact hbrings k _ hpage n
  · rintro s ⟨hs, n, rfl⟩
    have hv := hclean chip plane n
    rw [verdict_hard hsoft] at hv
    dsimp only
    cases he : hweccCorrect ctl (req.pageSize ctl) (hw.page chip plane n) with
    | argument => exact absurd he (hweccCorrect_ne_argument hsoft _)
    | corrected cur =>
      dsimp only
      by_cases hflip : req.flips fl ctl 0 cur = true
      · rw [Act.when, if_pos hflip]
        exact ⟨rfl, rfl, hs.hw_eq, hs.eccErr, hs.pos, hs.bytes⟩
      · rw [Act.when, if_neg hflip]
        exact ⟨rfl, rfl, hs⟩
    | failure z =>
      rw [he] at hv
      dsimp only at hv
      split at hv <;> cases hv

lemma dlv_oobPos (b : Bench) (f : Fetch) (allFf : Bool) (hoob : req.withOob = true) :
    (req.dlv ctl b f allFf).oobPos = b.oobPos + req.userByteNum ctl := by
  unfold PageReq.dlv
  rw [if_pos hoob]
  split <;> rfl

lemma dlv_oobBuf (b : Bench) (f : Fetch) (hoob : req.withOob = true) :
    (req.dlv ctl b f false).oobBuf = b.oobBuf := by
  unfold PageReq.dlv
  rw [if_pos hoob]
  funext j
  split <;> simp [Bench.passUser, Bench.deliver]

/-- **A clean page** adds its user bytes to those gathered. -/
lemma pagePart_collected (hset : ctl.IsSetUp) (hsoft : req.soft ctl = false)
    (hoob : req.withOob = true) (hclean : hw.Clean ctl req) (hbrings : Brings fl ctl req oob hw)
    (hpage : (opPlanes fl req)[k]? = some (chip, plane)) (resets : Bool) :
    Spec (Collected ctl req oob hw k k) (pagePart fl ctl req chip plane resets 0)
      (fun x s => x = (.corrected, 0) ∧ Collected ctl req oob hw (k + 1) (k + 1) s)
      fun _ => ¬hw.Ready := by
  refine .bind (pageAttempt_collected hset hsoft hclean hbrings hpage) fun x => ?_
  obtain ⟨r, f, n⟩ := x
  rintro s ⟨rfl, rfl, hs⟩
  dsimp only
  rw [bind_some (finishPage_bench _ _ _ _ _), bind_some (deliver_bench _ _ _)]
  refine ⟨rfl, hs.hw_eq, ?_, ?_, fun j h16 hj => ?_⟩
  · rw [dlv_eccErr]
    exact hs.eccErr
  · rw [dlv_oobPos _ _ _ hoob, Nat.mul_add, Nat.mul_one, ← hs.pos]
    rfl
  · rw [dlv_oobBuf _ _ hoob]
    exact hs.bytes j h16 hj

/-- A loop whose first round ends it. -/
lemma loopUntil_first {β α : Type} {P : BusSt → Prop} {Q : α → BusSt → Prop} {E : BusSt → Prop}
    {body : β → Act BusSt (β ⊕ α)} {b : β}
    (h : Spec P (body b) (fun r s => ∃ a, r = Sum.inr a ∧ Q a s) E) (n : ℕ) :
    Spec P (loopUntil body (n + 1) b) Q E := by
  intro s hs
  have hb := h s hs
  rcases hx : body b s with ⟨o, t⟩
  rw [hx] at hb
  cases o with
  | none => rwa [loopUntil, bind_none (loop_succ_none n hx)]
  | some r =>
    obtain ⟨a, rfl, hq⟩ := hb
    rwa [loopUntil_inr n hx]

/-- How the turn of a chip ends on clean pages, from `k` pages on: the hardware is not ready, the
read leaves off after one page of a chip that keeps the user bytes together, or all planes were
gathered. -/
def TurnCollected (ctl : Controller) (req : PageReq) (oob : Buf) (hw : Hw) (k : ℕ) (e : TurnEnd)
    (s : BusSt) : Prop :=
  (e = .busy ∧ ¬hw.Ready) ∨
    (e = .leave ∧ req.newOob ctl = true ∧ Collected ctl req oob hw (k + 1) (k + 1) s) ∨
    (e = .next false ∧ Collected ctl req oob hw (k + req.planeNum) (k + req.planeNum) s)

/-- The first plane of a round. -/
lemma plane0Part_collected (hset : ctl.IsSetUp) (hsoft : req.soft ctl = false)
    (hoob : req.withOob = true) (hclean : hw.Clean ctl req) (hbrings : Brings fl ctl req oob hw)
    (hpage : (opPlanes fl req)[k]? = some (chip, 0)) :
    Spec (Collected ctl req oob hw k k) (plane0Part fl ctl req chip (false, 0))
      (fun r s => r = Sum.inr (true, 0) ∧ Collected ctl req oob hw (k + 1) (k + 1) s)
      fun _ => ¬hw.Ready := by
  unfold plane0Part
  rw [if_neg (by simp)]
  refine .bind (pagePart_collected hset hsoft hoob hclean hbrings hpage false) fun x => ?_
  rintro s ⟨rfl, hs⟩
  refine ⟨?_, hs⟩
  rw [if_neg (by simp [hsoft])]

/-- The second plane of a round. -/
lemma plane1Part_collected (hset : ctl.IsSetUp) (hsoft : req.soft ctl = false)
    (hoob : req.withOob = true) (hclean : hw.Clean ctl req) (hbrings : Brings fl ctl req oob hw)
    (hpage : (opPlanes fl req)[k]? = some (chip, 1)) :
    Spec (Collected ctl req oob hw k k) (plane1Part fl ctl req chip (true, 0))
      (fun r s => r = Sum.inr (.next false) ∧ Collected ctl req oob hw (k + 1) (k + 1) s)
      fun _ => ¬hw.Ready := by
  refine .bind (pagePart_collected hset hsoft hoob hclean hbrings hpage true) fun x => ?_
  rintro s ⟨rfl, hs⟩
  refine Spec.bind checkCmdfifoSize_collected (fun _ => .pure fun s hs => ⟨?_, hs⟩) s hs
  rw [if_neg (by simp [hsoft])]

/-- The turn of a chip. -/
lemma readChip_collected (hset : ctl.IsSetUp) (hsoft : req.soft ctl = false)
    (hoob : req.withOob = true) (hclean : hw.Clean ctl req) (hbrings : Brings fl ctl req oob hw)
    {i : ℕ} (hchip : (opChips fl req.para)[i]? = some chip) :
    Spec (Collected ctl req oob hw (req.planeNum * i) (req.planeNum * i))
      (readChip fl ctl req false chip)
      (TurnCollected ctl req oob hw (req.planeNum * i)) fun _ => ¬hw.Ready := by
  have hpart := fun plane (hp : plane < req.planeNum) resets =>
    pagePart_collected hset hsoft hoob hclean hbrings (opPlanes_getElem? hchip hp) resets
  unfold readChip
  cases hm : req.para.option.multiPlane with
  | false =>
    have hplanes : req.planeNum = 1 := by simp [PageReq.planeNum, hm]
    rw [if_neg (by simp)]
    refine loopUntil_first ?_ _
    refine .bind queneRb_collected fun ok => ?_
    cases ok with
    | false =>
      rw [if_pos (by simp)]
      exact .pure fun s hs => ⟨.busy, rfl, .inl ⟨rfl, hs.2 rfl⟩⟩
    | true =>
      rw [if_neg (by simp)]
      have hfirst := hpart 0 (by omega) true
      rw [Nat.add_zero] at hfirst
      refine .bind (hfirst.mono (fun s hs => hs.1) (fun _ _ h => h) fun _ h => h) fun x => ?_
      rintro s ⟨rfl, hs⟩
      refine Spec.bind checkCmdfifoSize_collected (fun _ => .pure fun s hs => ?_) s hs
      refine ⟨.next false, rfl, .inr (.inr ⟨rfl, ?_⟩)⟩
      rw [hplanes] at hs ⊢
      exact hs
  | true =>
    have hplanes : req.planeNum = 2 := by simp [PageReq.planeNum, hm]
    rw [if_pos rfl]
    refine loopUntil_first ?_ _
    refine .bind queneRb_collected fun ok => ?_
    cases ok with
    | false =>
      rw [if_pos (by simp)]
      exact .pure fun s hs => ⟨.busy, rfl, .inl ⟨rfl, hs.2 rfl⟩⟩
    | true =>
      rw [if_neg (by simp)]
      have h0 := opPlanes_getElem? hchip (show 0 < req.planeNum by omega)
      have h1 := opPlanes_getElem? hchip (show 1 < req.planeNum by omega)
      have hfirst := plane0Part_collected hset hsoft hoob hclean hbrings h0
      refine .bind (hfirst.mono (fun s hs => hs.1) (fun _ _ h => h) fun _ h => h) fun r => ?_
      rintro s ⟨rfl, hs⟩
      dsimp only
      by_cases hleave : ctl.micron = true ∧ req.newOob ctl = true
      · rw [if_pos hleave]
        exact ⟨.leave, rfl, .inr (.inl ⟨rfl, hleave.2, hs⟩)⟩
      · rw [if_neg hleave]
        refine Spec.mono (plane1Part_collected hset hsoft hoob hclean hbrings h1) (fun _ h => h)
          ?_ (fun _ h => h) s hs
        rintro r s ⟨rfl, hs⟩
        refine ⟨.next false, rfl, .inr (.inr ⟨rfl, ?_⟩)⟩
        rw [hplanes] at hs ⊢
        exact hs

/-- The turns of the chips from `i` on: the read fails only on hardware that is not ready, and
when it does not, all pages were gathered, or one where one is enough. -/
lemma readChips_collected (hset : ctl.IsSetUp) (hsoft : req.soft ctl = false)
    (hoob : req.withOob = true) (hclean : hw.Clean ctl req) (hbrings : Brings fl ctl req oob hw)
    (rest : List ℕ) (i : ℕ) (hrest : (opChips fl req.para).drop i = rest) :
    Spec (Collected ctl req oob hw (req.planeNum * i) (req.planeNum * i))
      (readChips fl ctl req false rest)
      (fun ret s => (ret ≠ 0 ∧ ¬hw.Ready) ∨ (ret = 0 ∧ ∃ m, Collected ctl req oob hw m m s ∧
        (req.planeNum * (i + rest.length) = m ∨ req.newOob ctl = true ∧ 0 < m)))
      fun _ => ¬hw.Ready := by
  induction rest generalizing i with
  | nil => exact .pure fun s hs => .inr ⟨rfl, _, hs, .inl rfl⟩
  | cons chip rest ih =>
    have hchip : (opChips fl req.para)[i]? = some chip := by
      have h := congrArg List.head? hrest
      rwa [List.head?_drop] at h
    have htail : (opChips fl req.para).drop (i + 1) = rest := by
      rw [← List.tail_drop, hrest, List.tail_cons]
    refine .bind (readChip_collected hset hsoft hoob hclean hbrings hchip) fun e => ?_
    rintro s (⟨rfl, hbusy⟩ | ⟨rfl, hnew, hs⟩ | ⟨rfl, hs⟩)
    · exact .inl ⟨by decide, hbusy⟩
    · exact .inr ⟨rfl, _, hs, .inr ⟨hnew, Nat.succ_pos _⟩⟩
    · refine Spec.mono (ih (i + 1) htail) (fun s hs => ?_) (fun ret s h => ?_) (fun _ h => h) s hs
      · rw [Nat.mul_add, Nat.mul_one]
        exact hs
      · rw [List.length_cons, Nat.add_comm rest.length, ← Nat.add_assoc]
        exact h

/-- Sending the read command moves no page. -/
lemma sendRead_collected (chips : List ℕ) :
    Spec (Collected ctl req oob hw k m) (sendRead fl ctl req chips)
      (fun ok s => Collected ctl req oob hw k m s ∧ (ok = false → ¬hw.Ready))
      fun _ => ¬hw.Ready := by
  induction chips with
  | nil => exact .pure fun s hs => ⟨hs, nofun⟩
  | cons chip rest ih =>
    have hcall : ∀ c, Spec (Collected ctl req oob hw k m) (noteCall c)
        (fun _ => Collected ctl req oob hw k m) fun _ => ¬hw.Ready := fun c =>
      .modify fun s hs => ⟨hs.hw_eq, hs.eccErr, hs.pos, hs.bytes⟩
    have hwait : Spec (Collected ctl req oob hw k m) (queneRb chip >>= fun _ => pure ())
        (fun _ => Collected ctl req oob hw k m) fun _ => ¬hw.Ready :=
      .bind queneRb_collected fun _ => .pure fun s hs => hs.1
    refine .bind queneRb_collected fun ok => ?_
    cases ok with
    | false =>
      rw [if_pos (by simp)]
      exact .pure fun s hs => hs
    | true =>
      rw [if_neg (by simp)]
      refine .bind (M := fun _ => Collected ctl req oob hw k m) ?_ fun _ => ?_
      · exact (Spec.when (hcall _)).mono (fun s hs => hs.1) (fun _ _ h => h) fun _ h => h
      · exact .bind (.bind (.when hwait) fun _ => checkCmdfifoSize_collected) fun _ => ih

/-- A read of clean pages: it fails only on hardware that is not ready, and when it does not, the
caller has the first sixteen user bytes. -/
lemma readPage_collected (hset : ctl.IsSetUp) (hsoft : req.soft ctl = false)
    (hoob : req.withOob = true) (hclean : hw.Clean ctl req) (hbrings : Brings fl ctl req oob hw) :
    Spec (Collected ctl req oob hw 0 0) (readPage fl ctl req)
      (fun ret s => (ret ≠ 0 ∧ ¬hw.Ready) ∨
        (ret = 0 ∧ ∀ j < 16, j < totalUser fl ctl req → s.callerOob j = oob j))
      fun _ => ¬hw.Ready := by
  unfold readPage
  rw [if_neg (by simp [hoob])]
  refine .bind (sendRead_collected _) fun ok => ?_
  cases ok with
  | false =>
    rw [if_neg (by decide)]
    exact .pure fun s hs => .inl ⟨by decide, hs.2 rfl⟩
  | true =>
    rw [if_pos rfl]
    have hchips := readChips_collected hset hsoft hoob hclean hbrings _ 0 List.drop_zero
    refine .bind (hchips.mono (fun s hs => hs.1) (fun _ _ h => h) fun _ h => h) fun ret => ?_
    rintro s (⟨hne, hready⟩ | ⟨rfl, m, hs, hm⟩)
    · rw [Act.when, if_neg fun h => hne h.1]
      exact .inl ⟨hne, hready⟩
    · rw [Act.when, if_pos ⟨rfl, hoob⟩]
      refine .inr ⟨rfl, fun j h16 hj => ?_⟩
      change (if j < 16 then if s.eccErr ≠ 0 then 0x22 else s.oobBuf j else s.callerOob j) = oob j
      rw [if_pos h16, if_neg (by simp [hs.eccErr])]
      refine hs.bytes j h16 ?_
      rcases hm with rfl | ⟨hnew, hpos⟩
      · rw [Nat.zero_add]
        exact hj
      · have hmod : ctl.oobMod = true := by
          simp only [PageReq.newOob, Bool.and_eq_true] at hnew
          exact hnew.1.1
        have h16n := sixteen_le_userByteNum hset hsoft hmod
        calc j < req.userByteNum ctl := by omega
          _ ≤ req.userByteNum ctl * m := Nat.le_mul_of_pos_right _ hpos

end Read

/-- **The first sixteen user bytes are read as they were written.** For every chip the controller
was set up for, in either layout, every plane and chip mode, with or without the data, and every
content `oob`: when the controller gives back the user bytes `write_page` handed over and all
pages are ECC-clean, a `read_page` of the same pages that succeeds returns the bytes of `oob`, as
many of the first sixteen as the pages have; and on hardware that gets ready it succeeds.

**Proof sketch.** Page after page `read_page` gathers what `write_page` scattered. It leaves off
early only where the user bytes are kept together, and there the first page has sixteen. -/
theorem userBytes_roundtrip (mfr : Mfr) (newOob m8 : Bool) (g : Geometry) (ctl : Controller)
    (hctl : setUpController mfr newOob m8 g = some ctl) (fl : Flash) (para : ChipOpsPara)
    (hecc : para.option.eccSoft = false) (withData : Bool) (oob stale : Buf) (userBuf : ℕ → ℕ)
    (hw : Hw)
    (hret : Returns ctl hw (writeUserBytes fl ctl ⟨para, true, true⟩ oob stale userBuf))
    (hclean : hw.Clean ctl ⟨para, withData, true⟩) (s : BusSt) (hhw : s.hw = hw)
    (herr : s.eccErr = 0) (hpos : s.oobPos = 0) :
    (∀ t, readPage fl ctl ⟨para, withData, true⟩ s = (some 0, t) →
        ∀ j < min 16 (totalUser fl ctl ⟨para, true, true⟩), t.callerOob j = oob j) ∧
      (hw.Ready → ∃ t, readPage fl ctl ⟨para, withData, true⟩ s = (some 0, t)) := by
  have hset := isSetUp_of_setUp hctl
  have hsoft : ∀ d, (⟨para, d, true⟩ : PageReq).soft ctl = false := by
    intro d
    simp [PageReq.soft, hecc, hset.bchNone]
  have hbrings : Brings fl ctl ⟨para, withData, true⟩ oob hw :=
    brings_of_returns hset (hsoft true) hret
  have hstart : Collected ctl ⟨para, withData, true⟩ oob hw 0 0 s :=
    ⟨hhw, herr, hpos, fun j _ hj => absurd hj (Nat.not_lt_zero j)⟩
  have hspec := readPage_collected hset (hsoft withData) rfl hclean hbrings
  constructor
  · intro t ht j hj
    obtain ⟨h16, htotal⟩ := lt_min_iff.1 hj
    rcases hspec.returned hstart ht with ⟨hne, -⟩ | ⟨-, hbytes⟩
    · exact absurd rfl hne
    · exact hbytes j h16 htotal
  · intro hready
    have hrun := hspec s hstart
    rcases hx : readPage fl ctl ⟨para, withData, true⟩ s with ⟨o, t⟩
    rw [hx] at hrun
    cases o with
    | none => exact absurd hready hrun
    | some ret =>
      rcases hrun with ⟨-, hnot⟩ | ⟨rfl, -⟩
      · exact absurd hready hnot
      · exact ⟨t, rfl⟩

/-- The controller set up for pages of 8 KiB. -/
def ctlSetUp : Controller := (setUpController .other false false geometry8k).get (by decide)

/-- Hardware that delivers, with every page, the two user bytes `0x61` in every record. -/
def hwUser : Hw := Hw.steady (Transfer.uniform 0x6161 0) 0xe0

/-- The user bytes alone, of both planes of a page. -/
theorem userBytes_roundtrip_twoPlanes :
    ∃ t, readPage (Flash.h27ubg8t2a 1 (by decide) (by decide)) ctlSetUp
        ⟨{ option := { multiPlane := true } }, false, true⟩
        (startSt hwUser (fun _ => 0) (fun _ => 0)) = (some 0, t) ∧
      ∀ j < 16, t.callerOob j = 0x61 := by
  have hctl : setUpController .other false false geometry8k = some ctlSetUp :=
    (Option.some_get _).symm
  have hret : Returns ctlSetUp hwUser (writeUserBytes (Flash.h27ubg8t2a 1 (by decide) (by decide))
      ctlSetUp ⟨{ option := { multiPlane := true } }, true, true⟩ (fun _ => 0x61) (fun _ => 0)
      fun _ => 0) := by
    have hwords : ∀ h ∈ writeUserBytes (Flash.h27ubg8t2a 1 (by decide) (by decide))
        ctlSetUp ⟨{ option := { multiPlane := true } }, true, true⟩ (fun _ => 0x61) (fun _ => 0)
        fun _ => 0, ∀ t < ctlSetUp.eccSteps, 0x6161 % 2 ^ 16 = h.words (2 * t) % 2 ^ 16 := by
      decide +kernel
    intro h hh k
    exact hwords h hh
  have hclean : hwUser.Clean ctlSetUp ⟨{ option := { multiPlane := true } }, false, true⟩ := by
    intro chip plane k
    change PageReq.verdict _ _ (Transfer.uniform 0x6161 0) = .ok
    decide +kernel
  obtain ⟨hbytes, hruns⟩ := userBytes_roundtrip .other false false geometry8k ctlSetUp hctl
    (Flash.h27ubg8t2a 1 (by decide) (by decide)) { option := { multiPlane := true } } rfl false
    (fun _ => 0x61) (fun _ => 0) (fun _ => 0) hwUser hret hclean
    (startSt hwUser (fun _ => 0) (fun _ => 0)) rfl rfl rfl
  obtain ⟨t, ht⟩ := hruns ⟨fun _ _ => rfl, fun _ _ => rfl, fun _ => rfl⟩
  refine ⟨t, ht, fun j hj => hbytes t ht j (lt_of_lt_of_le hj ?_)⟩
  decide +kernel

end Amlnf.Bus
