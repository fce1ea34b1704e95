import Amlnf.Phy.ProgramOnce

set_option relaxedAutoImplicit false
set_option autoImplicit false

/-!
# The records as a store

The reserved area holds several records, and all saves share its blocks and the list of reserved
blocks. On chips that report no failure and whose scan range has no bad block, the records do not
disturb one another: a save under one name stores its payload and leaves the payload of every other
name alone, and after a fresh start a scan for each name brings back what was stored.

## Main definitions

* `GoodReserve` — the scan range has no bad block.
* `Filed` — a block holds a payload under a name.
* `Housed` — a driver state holds a payload in a block of its own.
* `Stocked` — a driver state and the chips hold a payload for each of a list of names.

## Main results

* `exists_candidate` — the allocator always finds a block.
* `Stocked.round`, `Stocked.saves` — a save changes one payload and keeps the others.
* `Housed.rescan` — a fresh scan for a name brings its record back.
* `saveSeq_readsBack` — after any sequence of saves each name reads back its last payload.
-/

namespace Amlnf

open Act

variable {fl : Flash} {tbl : BlkStatus}

/-! ## The reserved area -/

/-- No block of the scan range is bad. -/
def GoodReserve (fl : Flash) (tbl : BlkStatus) : Prop :=
  ∀ b, fl.startBlk ≤ b → b < fl.startBlk + reservedBlockCnt → resStatus fl tbl b = blockGood

/-- The scan visits the whole range. -/
lemma GoodReserve.visits_iff (h : GoodReserve fl tbl) (b : ℕ) :
    ScanVisits fl tbl b ↔ fl.startBlk ≤ b ∧ b < fl.startBlk + reservedBlockCnt := by
  rw [scanVisits_iff]
  exact ⟨fun hb => ⟨hb.1, hb.2.1⟩, fun hb => ⟨hb.1, hb.2, h b hb.1 hb.2⟩⟩

/-- Below the end of the range no block is factory bad. -/
lemma GoodReserve.count (h : GoodReserve fl tbl) {n : ℕ} (hn : n ≤ reservedBlockCnt) :
    Nat.count (NotFactory fl tbl) n = n := by
  apply Nat.count_of_forall
  intro k hk
  have hgood := h (fl.startBlk + k) (by omega) (by omega)
  change resStatus fl tbl (fl.startBlk + k) ≠ blockFactoryBad
  rw [hgood]
  decide

/-- The reserved area is the scan range. -/
lemma GoodReserve.reserveEnd (h : GoodReserve fl tbl) :
    ReserveEnd fl tbl (fl.startBlk + reservedBlockCnt) := by
  refine ⟨by omega, ?_, fun b hb hlt => ⟨hb, ?_⟩⟩
  · rw [Nat.add_sub_cancel_left]
    exact h.count (le_refl _)
  · rw [h.count (by omega)]
    omega

/-- The allocator picks only blocks the scan visits. -/
lemma GoodReserve.visits_of_candidate (h : GoodReserve fl tbl) {rl : List UInt8} {excl b : ℕ}
    (hb : Candidate fl tbl rl excl b) : ScanVisits fl tbl b :=
  (h.visits_iff b).2 ⟨hb.1.1, (h.reserveEnd.lt_iff hb.1.1).2 hb.1⟩

/-- **The allocator always finds a block**, since two free places of the list leave two blocks of
the range that are not in it. -/
lemma exists_candidate (h : GoodReserve fl tbl) {rl : List UInt8}
    (hlen : rl.length = reservedBlockCnt) (hfree : 2 ≤ rl.count 0xff) (excl : ℕ) :
    ∃ b, Candidate fl tbl rl excl b := by
  -- the blocks the search passes over are the entries of the list and the excluded one
  let taken : Finset ℕ := insert excl ((rl.filter (· ≠ 0xff)).map UInt8.toNat).toFinset
  let range : Finset ℕ := Finset.Ico fl.startBlk (fl.startBlk + reservedBlockCnt)
  have hcard : taken.card < range.card := by
    have hsplit := List.length_eq_countP_add_countP (· == (0xff : UInt8)) (l := rl)
    have hcount : (rl.filter (· ≠ 0xff)).length + rl.count 0xff = rl.length := by
      rw [hsplit, List.count, ← List.countP_eq_length_filter, Nat.add_comm]
      congr 1
      apply List.countP_congr
      intro x _
      simp
    have hle : taken.card ≤ (rl.filter (· ≠ 0xff)).length + 1 := by
      refine (Finset.card_insert_le _ _).trans (Nat.add_le_add_right ?_ 1)
      exact (List.toFinset_card_le _).trans (by rw [List.length_map])
    have hrange : range.card = reservedBlockCnt := by
      rw [Nat.card_Ico, Nat.add_sub_cancel_left]
    omega
  obtain ⟨b, hb, hnot⟩ := Finset.exists_mem_notMem_of_card_lt_card hcard
  obtain ⟨h1, h2⟩ := Finset.mem_Ico.1 hb
  have h32 := startBlk_le_32 fl
  have hsmall : b < 255 := by
    unfold reservedBlockCnt at h2
    omega
  simp only [taken, Finset.mem_insert, List.mem_toFinset, List.mem_map, List.mem_filter,
    not_or, not_exists, not_and] at hnot
  refine ⟨b, (h.reserveEnd.lt_iff h1).1 h2, ?_, hnot.1, ?_⟩
  · by_contra hl
    have hl' : listed rl b = true := by simpa using hl
    obtain ⟨x, hx, hxb⟩ := List.any_eq_true.1 hl'
    have hxb' : x.toNat = b := by simpa using hxb
    refine hnot.2 x ⟨hx, ?_⟩ hxb'
    simp only [ne_eq, decide_not, Bool.not_eq_eq_eq_not, Bool.not_true, decide_eq_false_iff_not]
    rintro rfl
    have h255 : (0xff : UInt8).toNat = 255 := rfl
    omega
  · rw [h b h1 h2]
    decide

/-- Row `r` of chip `c` is a block of the scan range. -/
def InWindow (fl : Flash) (c r : ℕ) : Prop :=
  ∃ b, fl.startBlk ≤ b ∧ b < fl.startBlk + reservedBlockCnt ∧ c = fl.resChip b ∧ r = fl.resRow b

/-- The chips hold the same outside the scan range. -/
def Image.SameOutside (fl : Flash) (m m' : Image) : Prop :=
  ∀ c p, ¬InWindow fl c (p / fl.ppb) → m' c p = m c p

lemma Image.SameOutside.trans {m m' m'' : Image} (h : m.SameOutside fl m')
    (h' : m'.SameOutside fl m'') : m.SameOutside fl m'' :=
  fun c p hout => (h' c p hout).trans (h c p hout)

/-- Commands that stay in blocks of the scan range. -/
lemma Image.sameOutside_replay {ops : List FlashOp} (m : Image)
    (h : ∀ op ∈ ops, ∀ c p, op.Hits fl c p → InWindow fl c (p / fl.ppb)) :
    m.SameOutside fl (m.replay fl ops) := by
  intro c p hout
  exact Image.replay_of_not_hits fl m ops fun op hop hhit => hout (h op hop c p hhit)

/-- A record that fits is written to record pages. -/
lemma lt_of_mem_writeIdx {type : ArgType} {size i : ℕ} (hfit : Fits fl type size)
    (hi : i ∈ writeIdx fl type size 0) : i < fl.pagesRead := by
  cases type with
  | fullBlk => exact (mem_fullBlkIdx _ hi).2
  | fullPage =>
    rw [writeIdx, List.mem_range'_1] at hi
    have hroom := hfit.2 rfl
    omega

/-- Record pages of a block of the scan range lie in it. -/
lemma Striped.inWindow {b : ℕ} {is : List ℕ} {ops : List FlashOp} (h : Striped fl b is ops)
    (hin : ∀ i ∈ is, i < fl.pagesRead) (hb : fl.startBlk ≤ b)
    (hb' : b < fl.startBlk + reservedBlockCnt) {op : FlashOp} (hop : op ∈ ops) {c p : ℕ}
    (hp : op.Hits fl c p) : InWindow fl c (p / fl.ppb) := by
  obtain ⟨hc, i, hi, hpage⟩ := h.hits hop hp
  exact ⟨b, hb, hb', hc, recPages_div (hin i hi) hpage⟩

/-! ## One record -/

/-- A block holds the payload `P` of `size` bytes under the name, and page `v` is where the copy in
use starts. The first page of the block carries the name. A `FULL_BLK` record is used from there;
the copy of a `FULL_PAGE` record in use is the last of several. -/
structure Filed (fl : Flash) (type : ArgType) (name : RecName) (size : ℕ) (blk : ℕ → Page) (v : ℕ)
    (P : Buf) : Prop where
  room : v + fl.argPages size ≤ fl.pagesRead
  copy : HasCopy fl name size blk v P
  first : (blk 0).isBad = false ∧ tagged (blk 0).oob name = true
  head : type = .fullBlk → v = 0
  log : type = .fullPage → AppendLog fl name size blk v

section Filed

variable {type : ArgType} {name : RecName} {size v : ℕ} {blk blk' : ℕ → Page} {P : Buf}

/-- What a block holds is a matter of its record pages. -/
lemma Filed.congr (h : Filed fl type name size blk v P)
    (hc : ∀ i < fl.pagesRead, blk' i = blk i) : Filed fl type name size blk' v P := by
  have hroom := h.room
  refine ⟨h.room, h.copy.congr fun j hj => ?_, ?_, h.head, fun hty => ?_⟩
  · have hle : j < fl.argPages size := by
      rw [fl.argPages_eq, Nat.lt_succ_iff, Nat.le_div_iff_mul_le fl.pagesize_pos]
      exact hj.le
    exact hc _ (by omega)
  · rw [hc 0 fl.pagesRead_pos]
    exact h.first
  · obtain ⟨hlt, ⟨k, hk, hcopies⟩, her⟩ := h.log hty
    refine ⟨hlt, ⟨k, hk, fun j hj => ?_⟩, fun i h1 h2 => ?_⟩
    · have hle : j * copyStep fl size ≤ v := by
        rw [hk]
        exact Nat.mul_le_mul_right _ hj
      rw [hc _ (by omega)]
      exact hcopies j hj
    · rw [hc i h2]
      exact her i h1 h2

/-- The second pass of a scan arrives at the copy in use. -/
lemma Filed.copyPage_eq (h : Filed fl type name size blk v P) :
    copyPage fl type name size blk = v := by
  cases type with
  | fullBlk => rw [copyPage_fullBlk_first h.first.1 h.first.2, h.head rfl]
  | fullPage => exact (h.log rfl).copyPage_eq

/-- The first pass sees the name. -/
lemma Filed.blockTag (h : Filed fl type name size blk v P) :
    ∃ t, Amlnf.blockTag fl size blk = some t ∧ t.name = name := by
  obtain ⟨hgood, htag⟩ := h.first
  rw [blockTag_of_first hgood]
  cases ho : (blk 0).oob with
  | none => simp [ho, tagged] at htag
  | some t => exact ⟨t, rfl, by simpa [ho, tagged] using htag⟩

end Filed

/-- A driver state holds the payload `P` of `size` bytes under the name: `arg_info` designates it,
in a reserved block that is in the list, and no other block of the scan has a page under the
name. -/
structure Housed (fl : Flash) (s : St) (name : RecName) (size : ℕ) (P : Buf) : Prop where
  valid : (s.info name).argValid = true
  visits : ScanVisits fl s.blkStatus (s.info name).validBlkAddr
  listed : listed s.reservedBlk (s.info name).validBlkAddr = true
  others : ∀ b ≠ (s.info name).validBlkAddr, ScanVisits fl s.blkStatus b → ∀ i < fl.pagesRead,
    tagged (s.image.recAt fl b i).oob name = false
  filed : Filed fl (s.info name).argType name size
    (s.image.recAt fl (s.info name).validBlkAddr) (s.info name).validPageAddr P

section Housed

variable {name : RecName} {size : ℕ} {s t : St} {P : Buf}

/-- In particular the record is saved. -/
lemma Housed.saved (h : Housed fl s name size P) : Saved fl s name size P := by
  have hf := h.filed
  refine ⟨⟨h.valid, h.visits, h.listed, h.others, hf.copy,
    not_silent_of_first hf.first.1 hf.first.2, ?_, fun hty _ => hf.log hty⟩, hf.log⟩
  rw [Delivers, hf.copyPage_eq]
  exact hf.copy

/-- A saved record is housed once its copy in use lies inside the block. -/
lemma Housed.of_saved (h : Saved fl s name size P)
    (hroom : (s.info name).validPageAddr + fl.argPages size ≤ fl.pagesRead)
    (hblk : (s.info name).argType = .fullBlk → (s.info name).validPageAddr = 0 ∧
      (s.image.recAt fl (s.info name).validBlkAddr 0).isBad = false ∧
      tagged (s.image.recAt fl (s.info name).validBlkAddr 0).oob name = true) :
    Housed fl s name size P := by
  refine ⟨h.1.valid, h.1.visits, h.1.listed, h.1.others, hroom, h.1.copy, ?_, fun hty =>
    (hblk hty).1, h.2⟩
  cases hty : (s.info name).argType with
  | fullBlk => exact (hblk hty).2
  | fullPage => exact (h.2 hty).first

/-- A step that leaves the record and its block alone, and puts the name on no other block. -/
lemma Housed.frame (h : Housed fl s name size P) (hinfo : t.info name = s.info name)
    (htbl : t.blkStatus = s.blkStatus)
    (hlisted : Amlnf.listed t.reservedBlk (s.info name).validBlkAddr = true)
    (hself : ∀ i < fl.pagesRead, t.image.recAt fl (s.info name).validBlkAddr i =
      s.image.recAt fl (s.info name).validBlkAddr i)
    (hothers : ∀ b ≠ (s.info name).validBlkAddr, ScanVisits fl s.blkStatus b → ∀ i < fl.pagesRead,
      tagged (t.image.recAt fl b i).oob name = false) : Housed fl t name size P := by
  constructor
  all_goals rw [hinfo]
  · exact h.valid
  · rw [htbl]
    exact h.visits
  · exact hlisted
  · rw [htbl]
    exact hothers
  · exact h.filed.congr hself

/-- What a state holds does not depend on the scratch fields. -/
lemma Housed.of_kept (h : Housed fl s name size P) (hk : t.kept = s.kept) :
    Housed fl t name size P := by
  refine h.frame (by rw [kept_info hk]) (kept_blkStatus hk) ?_ (fun i _ => ?_) ?_
  · rw [kept_reservedBlk hk]
    exact h.listed
  · rw [kept_image hk]
  · rw [kept_image hk]
    exact h.others

/-- Neither does it depend on `update_flag`. -/
lemma Housed.setInfo (h : Housed fl s name size P) (name' : RecName) {f : ArgInfo → ArgInfo}
    (hf : ∀ a, (f a).argValid = a.argValid ∧ (f a).validBlkAddr = a.validBlkAddr ∧
      (f a).validPageAddr = a.validPageAddr ∧ (f a).argType = a.argType) :
    Housed fl (s.setInfo name' f) name size P := by
  by_cases hne : name = name'
  · subst hne
    obtain ⟨h1, h2, h3, h4⟩ := hf (s.info name)
    constructor
    all_goals rw [setInfo_info_self]
    · exact h1.trans h.valid
    · rw [h2]
      exact h.visits
    · rw [h2]
      exact h.listed
    · rw [h2]
      exact h.others
    · rw [h2, h3, h4]
      exact h.filed
  · have hinfo : (s.setInfo name' f).info name = s.info name := if_neg hne
    exact h.frame hinfo rfl h.listed (fun _ _ => rfl) h.others

/-- Neither does it depend on the entries of the table for other blocks. -/
lemma Housed.retable (h : Housed fl s name size P) (hinfo : t.info name = s.info name)
    (himg : t.image = s.image) (hs : GoodReserve fl s.blkStatus) (ht : GoodReserve fl t.blkStatus)
    (hlisted : Amlnf.listed t.reservedBlk (s.info name).validBlkAddr = true) :
    Housed fl t name size P := by
  have hvis : ∀ x, ScanVisits fl t.blkStatus x ↔ ScanVisits fl s.blkStatus x := by
    intro x
    rw [hs.visits_iff, ht.visits_iff]
  constructor
  all_goals rw [hinfo]
  · exact h.valid
  · exact (hvis _).2 h.visits
  · exact hlisted
  · rw [himg]
    exact fun b hb hb' => h.others b hb ((hvis b).1 hb')
  · rw [himg]
    exact h.filed

end Housed

/-! ## What a round does to the other records -/

/-- The command does not put the name on a page. -/
def FlashOp.Leaves (name : RecName) : FlashOp → Prop
  | .program _ _ _ o => tagged o name = false
  | .erase _ _ => True

/-- After commands that do not put the name on a page, only pages carry it that did before. -/
lemma Image.untagged_replay {name : RecName} {ops : List FlashOp}
    (hops : ∀ op ∈ ops, op.Leaves name) (m : Image) {c p : ℕ}
    (h : tagged (m c p).oob name = false) : tagged (m.replay fl ops c p).oob name = false := by
  induction ops generalizing m with
  | nil => exact h
  | cons op ops ih =>
    refine ih (fun op hop => hops op (List.mem_cons_of_mem _ hop)) _ ?_
    have hop := hops op List.mem_cons_self
    cases op with
    | program c' p' d o =>
      change tagged (if c = c' ∧ p = p' then (m c' p').program d o else m c p).oob name = false
      split
      · cases m c' p' with
        | erased => exact hop
        | _ => rfl
      · exact h
    | erase c' b =>
      change tagged (if c = c' ∧ p / fl.ppb = b then Page.erased else m c p).oob name = false
      split
      · rfl
      · exact h

section Leaves

variable {name name' : RecName} {tag : Tag} {buf : Buf} {size blk : ℕ}

lemma leaves_copyOps (h : tag.name ≠ name') (base : ℕ) :
    ∀ op ∈ copyOps fl tag buf size blk base, op.Leaves name' := by
  intro op hop
  obtain ⟨j, -, hop⟩ := List.mem_flatMap.1 hop
  rcases List.mem_cons.1 hop with rfl | hop
  · simpa [recOp, FlashOp.Leaves, tagged] using h
  · split at hop
    · obtain rfl := List.mem_singleton.1 hop
      rfl
    · cases hop

lemma leaves_dummyOps (base : ℕ) : ∀ op ∈ dummyOps fl blk base, op.Leaves name' := by
  intro op hop
  rcases List.mem_cons.1 hop with rfl | hop
  · rfl
  · obtain rfl := List.mem_singleton.1 hop
    rfl

lemma leaves_fullPageOps (h : tag.name ≠ name') (base : ℕ) :
    ∀ op ∈ fullPageOps fl tag buf size blk base, op.Leaves name' := by
  intro op hop
  rcases List.mem_append.1 hop with hop | hop
  · exact leaves_copyOps h base op hop
  · split at hop
    · exact leaves_dummyOps _ op hop
    · cases hop

lemma leaves_fullBlkOps (h : tag.name ≠ name') :
    ∀ n base, ∀ op ∈ fullBlkOps fl tag buf size blk n base, op.Leaves name' := by
  intro n
  induction n with
  | zero =>
    intro base op hop
    cases hop
  | succ n ih =>
    intro base op hop
    rw [fullBlkOps] at hop
    split at hop
    · split at hop
      · split at hop
        · exact leaves_dummyOps _ op hop
        · cases hop
      · rcases List.mem_append.1 hop with hop | hop
        · exact leaves_copyOps h _ op hop
        · exact ih _ op hop
    · cases hop

/-- Saving under one name puts no other name on a page. -/
lemma leaves_moveOps (s : St) (h : name ≠ name') (b : ℕ) :
    ∀ op ∈ moveOps fl s name buf size b, op.Leaves name' := by
  intro op hop
  rcases List.mem_cons.1 hop with rfl | hop
  · trivial
  rcases List.mem_append.1 hop with hop | hop
  · cases hty : (s.info name).argType with
    | fullBlk =>
      rw [hty] at hop
      exact leaves_fullBlkOps (by exact h) _ _ op hop
    | fullPage =>
      rw [hty] at hop
      exact leaves_fullPageOps (by exact h) _ op hop
  · unfold leaveOps at hop
    split at hop
    · obtain rfl := List.mem_singleton.1 hop
      trivial
    · cases hop

end Leaves

/-- Entering a block or taking it off changes the length of no list. -/
lemma length_enlist (rl : List UInt8) (b : ℕ) : (enlist rl b).length = rl.length := by
  induction rl with
  | nil => rfl
  | cons e l ih =>
    rw [enlist]
    split
    · rfl
    · simp [ih]

lemma length_delist (rl : List UInt8) (b : ℕ) : (delist rl b).length = rl.length := by
  induction rl with
  | nil => rfl
  | cons e l ih =>
    rw [delist]
    split
    · rfl
    · simp [ih]

section Round

variable {name name' : RecName} {type : ArgType} {pages size excl : ℕ} {s t : St} {Q : Buf}
  {r : ℤ ⊕ ℤ × SaveLocals}

/-- The allocator does not pick the block of the record. -/
lemma Stable.ne_candidate (h : Stable fl name type pages s) {b : ℕ}
    (hb : Candidate fl s.blkStatus s.reservedBlk excl b) (hv : (s.info name).argValid = true) :
    (s.info name).validBlkAddr ≠ b := by
  rintro rfl
  rcases h.noRecord_or_holds with hno | ⟨size₀, P, hh⟩
  · rw [hno.invalid] at hv
    cases hv
  · have hlisted := hh.listed
    rw [hb.2.1] at hlisted
    cases hlisted

/-- A round leaves what is kept about the other records alone. -/
lemma Round.info_of_ne (h : Round fl name Q size excl s r t) (hne : name' ≠ name) :
    t.info name' = s.info name' := by
  cases h with
  | append _ _ _ ht => exact (congrFun (kept_info ht) name').trans (if_neg hne)
  | move _ _ _ _ ht => exact (congrFun (kept_info ht) name').trans (if_neg hne)
  | full _ _ ht => exact (congrFun (kept_info ht) name').trans (if_neg hne)

/-- A round puts no other name on a page. -/
lemma Round.untagged (h : Round fl name Q size excl s r t) (hne : name ≠ name') {b i : ℕ}
    (hu : tagged (s.image.recAt fl b i).oob name' = false) :
    tagged (t.image.recAt fl b i).oob name' = false := by
  cases h with
  | append _ _ _ ht =>
    rw [kept_image ht]
    exact Image.untagged_replay (leaves_fullPageOps (by exact hne) _) s.image hu
  | move _ _ _ _ ht =>
    rw [kept_image ht]
    exact Image.untagged_replay (leaves_moveOps s hne _) s.image hu
  | full _ _ ht =>
    rw [kept_image ht]
    exact hu

/-- A round leaves a block alone that is in the list of reserved blocks and not the block of the
record, keeps it in the list, and does not put the record there. -/
lemma Round.aside (hs : Stable fl name type pages s) (hsz : Storable fl type pages size)
    (h : Round fl name Q size excl s r t) {x : ℕ} (hx : x < 255)
    (hne : (s.info name).argValid = true → x ≠ (s.info name).validBlkAddr)
    (hl : listed s.reservedBlk x = true) :
    (∀ i < fl.pagesRead, t.image.recAt fl x i = s.image.recAt fl x i) ∧
      listed t.reservedBlk x = true ∧
      ((s.info name).argValid = true ∨ (t.info name).argValid = true →
        (t.info name).validBlkAddr ≠ x) := by
  cases h with
  | append ha _ _ ht =>
    obtain ⟨hroom, size₀, P, hh, -⟩ := hs.room hsz.samePages (hs.copiesFit hsz).1 ha
    have hsmall := hh.visits.bounds
    rw [kept_image ht, kept_reservedBlk ht, kept_info ht, appended_info_self]
    refine ⟨fun i hi => ?_, hl, fun _ => ?_⟩
    · refine Image.recAt_replay s.image fun op hop hhit => hne ha.1 ?_
      exact (hits_fullPageOps (by omega) hop hi hhit).1
    · have hblk : (appendInfo fl size (s.info name)).validBlkAddr = (s.info name).validBlkAddr :=
        Nat.mod_eq_of_lt (by omega)
      rw [hblk]
      exact (hne ha.1).symm
  | @move l _ _ _ hb _ ht =>
    have hxb : x ≠ l.blkAddr := by
      rintro rfl
      rw [hb.2.1] at hl
      cases hl
    have hsmall := (hs.agree _ _ hb).bounds
    rw [kept_image ht, kept_reservedBlk ht, kept_info ht, moved_info_self]
    refine ⟨fun i hi => ?_, ?_, fun _ => ?_⟩
    · exact (recAt_moveOps (by rw [hs.argType]; exact hsz.1) (hs.ne_candidate hb)).2.2.2 x hxb
        i hi hne
    · have hkeep := listed_enlist_of_listed l.blkAddr (Nat.ne_of_lt hx) hl
      change listed (moveList (s.info name) l.blkAddr s.reservedBlk) x = true
      unfold moveList
      split
      · next hc => exact listed_delist_of_ne (hne hc.1) hkeep
      · exact hkeep
    · have hblk : (moveInfo l.blkAddr (s.info name)).validBlkAddr = l.blkAddr :=
        Nat.mod_eq_of_lt (by omega)
      rw [hblk]
      exact hxb.symm
  | full _ _ ht =>
    rw [kept_image ht, kept_reservedBlk ht, kept_info ht, St.stamped, setInfo_info_self]
    refine ⟨fun _ _ => rfl, hl, fun hv => ?_⟩
    have hv' : (s.info name).argValid = true := by simpa [stampInfo] using hv
    exact (hne hv').symm

/-- A round takes a place of the list only for a record that has no block yet. -/
lemma Round.places (hs : Stable fl name type pages s) (h : Round fl name Q size excl s r t) :
    t.reservedBlk.length = s.reservedBlk.length ∧ s.reservedBlk.count 0xff ≤
      t.reservedBlk.count 0xff + if (s.info name).argValid then 0 else 1 := by
  cases h with
  | append _ _ _ ht =>
    rw [kept_reservedBlk ht]
    exact ⟨rfl, Nat.le_add_right _ _⟩
  | @move l _ _ _ hb _ ht =>
    have hsmall := (hs.agree _ _ hb).bounds
    have henl := count_enlist hsmall.2 hs.free
    rw [kept_reservedBlk ht]
    change (moveList (s.info name) l.blkAddr s.reservedBlk).length = _ ∧
      _ ≤ (moveList (s.info name) l.blkAddr s.reservedBlk).count 0xff + _
    rcases hs.noRecord_or_holds with hno | ⟨size₀, P, hh⟩
    · rw [moveList, if_neg fun hc => absurd hc.1 (by simp [hno.invalid]),
        if_neg (by simp [hno.invalid])]
      exact ⟨length_enlist _ _, by omega⟩
    · have hold := hh.visits.bounds
      rw [moveList, if_pos ⟨hh.valid, by omega⟩, if_pos hh.valid, length_delist, length_enlist,
        count_delist hold.2 (listed_enlist_of_listed _ (by omega) hh.listed)]
      exact ⟨rfl, by omega⟩
  | full _ _ ht =>
    rw [kept_reservedBlk ht]
    exact ⟨rfl, Nat.le_add_right _ _⟩

/-- **A round houses its payload**, unless it finds no block. -/
lemma Round.housed (hs : Stable fl name type pages s) (hsz : Storable fl type pages size)
    (h : Round fl name Q size excl s r t) :
    Housed fl t name size Q ∨ ∀ b, ¬Candidate fl s.blkStatus s.reservedBlk excl b := by
  cases h with
  | append ha _ _ ht =>
    refine .inl (Housed.of_kept ?_ ht)
    have hroom := (hs.room hsz.samePages (hs.copiesFit hsz).1 ha).1
    have hsaved := (hs.appended (Q := Q) hsz.samePages (hs.copiesFit hsz).1 ha).1
    have hinfo : (s.appended fl name Q size).info name = appendInfo fl size (s.info name) :=
      appended_info_self s name Q size
    have hC : fl.argPages size ≤ copyStep fl size := Nat.le_add_right _ _
    have hlow : fl.pagesRead ≤ 1024 := fl.pagesRead_le.trans fl.ppb_le
    refine .of_saved hsaved ?_ fun hty => ?_
    · rw [hinfo]
      change ((s.info name).validPageAddr + copyStep fl size) % 2 ^ 16 + _ ≤ _
      rw [Nat.mod_eq_of_lt (by omega)]
      omega
    · rw [hinfo] at hty
      have hty' : (s.info name).argType = .fullBlk := hty
      rw [ha.2.2.1] at hty'
      cases hty'
  | @move l _ _ _ hb _ ht =>
    refine .inl (Housed.of_kept ?_ ht)
    have hsaved := (hs.moved (Q := Q) hsz.1 (fun hty => (hsz.2 hty).1) hb).1
    have hinfo : (s.moved fl name Q size l.blkAddr).info name =
        moveInfo l.blkAddr (s.info name) := moved_info_self s name Q size l.blkAddr
    have hpage : (moveInfo l.blkAddr (s.info name)).validPageAddr = 0 := by
      change (if (s.info name).argValid = true then 0 else (s.info name).validPageAddr) = 0
      rcases hs.noRecord_or_holds with hno | ⟨size₀, P, hh⟩
      · rw [hno.page]
        exact ite_self 0
      · exact if_pos hh.valid
    have hblk : (moveInfo l.blkAddr (s.info name)).validBlkAddr = l.blkAddr := by
      have := (hs.agree _ _ hb).bounds
      exact Nat.mod_eq_of_lt (by omega)
    have hfirst : (s.moved fl name Q size l.blkAddr).image.recAt fl l.blkAddr 0 =
        .written (recSlice fl Q size 0) (some (nextTag s name)) :=
      (recAt_moveOps (by rw [hs.argType]; exact hsz.1) (hs.ne_candidate hb)).1 0
        (argPages_pos fl size)
    refine .of_saved hsaved ?_ fun _ => ?_
    · rw [hinfo, hpage, Nat.zero_add]
      exact hsz.1.1
    · rw [hinfo, hpage, hblk, hfirst]
      exact ⟨rfl, rfl, by simp [Page.oob, tagged, nextTag]⟩
  | full _ hb _ => exact .inr hb

/-- A round changes pages of the scan range only. -/
lemma Round.sameOutside (hs : Stable fl name type pages s) (hsz : Storable fl type pages size)
    (h : Round fl name Q size excl s r t) : s.image.SameOutside fl t.image := by
  cases h with
  | append ha _ _ ht =>
    obtain ⟨hroom, size₀, P, hh, -⟩ := hs.room hsz.samePages (hs.copiesFit hsz).1 ha
    obtain ⟨h1, h2, -⟩ := hh.visits
    rw [kept_image ht]
    refine Image.sameOutside_replay _ fun op hop c p hp => ?_
    refine Striped.inWindow striped_fullPageOps (fun i hi => ?_) h1 h2 hop hp
    rw [List.mem_range'_1] at hi
    omega
  | @move l _ _ _ hb _ ht =>
    obtain ⟨h1, h2, -⟩ := hs.agree _ _ hb
    rw [kept_image ht]
    refine Image.sameOutside_replay _ fun op hop c p hp => ?_
    rcases List.mem_cons.1 hop with rfl | hop
    · exact ⟨_, h1, h2, hp⟩
    rcases List.mem_append.1 hop with hop | hop
    · have hfit : Fits fl (s.info name).argType size := by
        rw [hs.argType]
        exact hsz.1
      refine Striped.inWindow (striped_writeOps _ hfit.1) (fun i hi => ?_) h1 h2 hop hp
      exact lt_of_mem_writeIdx hfit hi
    · unfold leaveOps at hop
      split at hop
      · next hv =>
        obtain rfl := List.mem_singleton.1 hop
        rcases hs.noRecord_or_holds with hno | ⟨size₀, P, hh⟩
        · exact absurd hv.1 (by simp [hno.invalid])
        · obtain ⟨h3, h4, -⟩ := hh.visits
          exact ⟨_, h3, h4, hp⟩
      · cases hop
  | full _ _ ht =>
    rw [kept_image ht]
    exact fun _ _ _ => rfl

end Round

/-! ## The store -/

/-- The driver and the chips hold, for each of the names `N`, the payload `σ` says or none: every
payload in a block of its own, no step fails, no block of the scan range is bad, and the list of
reserved blocks has a place for each missing record and two more. -/
structure Stocked (fl : Flash) (size : RecName → ℕ) (N : List RecName) (s : St)
    (σ : RecName → Option Buf) : Prop where
  ready : Ready s
  reserve : GoodReserve fl s.blkStatus
  length : s.reservedBlk.length = reservedBlockCnt
  places : N.countP (fun n => (σ n).isNone) + 2 ≤ s.reservedBlk.count 0xff
  types : ∀ n ∈ N, (s.info n).argType = argTypeOf n
  housed : ∀ n ∈ N, ∀ P, σ n = some P → Housed fl s n (size n) P
  absent : ∀ n ∈ N, σ n = none → NoRecord fl s n
  apart : ∀ n ∈ N, ∀ m ∈ N, n ≠ m → (s.info n).argValid = true → (s.info m).argValid = true →
    (s.info n).validBlkAddr ≠ (s.info m).validBlkAddr

section Stocked

variable {size : RecName → ℕ} {N : List RecName} {s t : St} {σ : RecName → Option Buf}
  {name : RecName} {Q : Buf} {excl : ℕ} {r : ℤ ⊕ ℤ × SaveLocals}

/-- Every record of the store can be saved. -/
def AllStorable (fl : Flash) (size : RecName → ℕ) (N : List RecName) : Prop :=
  ∀ n ∈ N, Storable fl (argTypeOf n) (fl.argPages (size n)) (size n)

/-- A store is as each of its records needs it between saves. -/
lemma Stocked.stable (h : Stocked fl size N s σ) (hn : name ∈ N) :
    Stable fl name (argTypeOf name) (fl.argPages (size name)) s := by
  have hplaces := h.places
  refine ⟨h.ready, h.types name hn, fun b excl hb => h.reserve.visits_of_candidate hb,
    ⟨_, h.reserve.reserveEnd, ?_⟩, ?_⟩
  · have hlt : reservedBlockCnt < scanFuel := by decide
    omega
  · cases hσ : σ name with
    | none => exact .inl ⟨h.absent name hn hσ, by omega⟩
    | some P =>
      refine .inr ⟨List.count_pos_iff.1 (by omega), size name, P, ?_, fun _ => rfl⟩
      exact (h.housed name hn P hσ).saved.1

/-- A record of the store has a block exactly when it has a payload. -/
lemma Stocked.argValid_eq (h : Stocked fl size N s σ) (hn : name ∈ N) :
    (s.info name).argValid = (σ name).isSome := by
  cases hσ : σ name with
  | none => exact (h.absent name hn hσ).invalid
  | some P => exact (h.housed name hn P hσ).valid

/-- The store does not depend on the scratch fields. -/
lemma Stocked.of_kept (h : Stocked fl size N s σ) (hk : t.kept = s.kept) :
    Stocked fl size N t σ := by
  have hi := kept_info hk
  have hl := kept_reservedBlk hk
  constructor
  · exact h.ready.of_kept hk
  · rw [kept_blkStatus hk]
    exact h.reserve
  · rw [hl]
    exact h.length
  · rw [hl]
    exact h.places
  · rw [hi]
    exact h.types
  · exact fun n hn P hσ => (h.housed n hn P hσ).of_kept hk
  · exact fun n hn hσ => (h.absent n hn hσ).of_kept hk
  · rw [hi]
    exact h.apart

/-- The number of missing records when one gets a payload. -/
lemma countP_update {κ α : Type} [DecidableEq κ] {l : List κ} (hnd : l.Nodup) {k : κ} (hk : k ∈ l)
    (f : κ → Option α) (a : α) :
    l.countP (fun n => (Function.update f k (some a) n).isNone) +
      (if (f k).isSome then 0 else 1) = l.countP fun n => (f n).isNone := by
  have hperm := List.perm_cons_erase hk
  have hrest : (l.erase k).countP (fun n => (Function.update f k (some a) n).isNone) =
      (l.erase k).countP fun n => (f n).isNone := by
    apply List.countP_congr
    intro n hn
    have hne : n ≠ k := by
      rintro rfl
      exact hnd.not_mem_erase hn
    rw [Function.update_of_ne hne]
  rw [hperm.countP_eq, hperm.countP_eq, List.countP_cons, List.countP_cons, hrest]
  cases hf : f k <;> simp

/-- **One round of a save** gives the record its payload and keeps the others. -/
lemma Stocked.round (h : Stocked fl size N s σ) (hnd : N.Nodup) (hsz : AllStorable fl size N)
    (hn : name ∈ N) (hr : Round fl name Q (size name) excl s r t) :
    (∃ l, r = Sum.inr (0, l)) ∧ Stocked fl size N t (Function.update σ name (some Q)) := by
  have hstable := h.stable hn
  have hsize := hsz name hn
  obtain ⟨htbl, -, -, hready, htype⟩ := hr.keeps
  obtain ⟨hlen, hcount⟩ := hr.places hstable
  have hplaces := h.places
  obtain ⟨b, hb⟩ := exists_candidate h.reserve h.length (by omega) excl
  have hhoused : Housed fl t name (size name) Q :=
    (hr.housed hstable hsize).resolve_right fun hno => hno b hb
  have hcode : ∃ l, r = Sum.inr (0, l) := by
    cases hr with
    | append _ _ _ _ => exact ⟨_, rfl⟩
    | move _ _ _ _ _ => exact ⟨_, rfl⟩
    | full _ hno _ => exact absurd hb (hno b)
  -- a record under another name is left alone
  have hother : ∀ m ∈ N, m ≠ name → ∀ P, σ m = some P →
      Housed fl t m (size m) P ∧ (t.info name).validBlkAddr ≠ (s.info m).validBlkAddr := by
    intro m hm hne P hσ
    have hh := h.housed m hm P hσ
    have hsmall := hh.visits.bounds
    obtain ⟨hpages, hlisted, hblk⟩ := hr.aside hstable hsize hsmall.2
      (fun hv heq => h.apart m hm name hn hne hh.valid hv heq) hh.listed
    refine ⟨hh.frame (hr.info_of_ne hne) htbl hlisted hpages fun x hx hvis i hi => ?_,
      hblk (.inr hhoused.valid)⟩
    exact hr.untagged hne.symm (hh.others x hx hvis i hi)
  refine ⟨hcode, hready h.ready, ?_, hlen.trans h.length, ?_, fun m hm => ?_, fun m hm P hσ => ?_,
    fun m hm hσ => ?_, fun n hn' m hm hne hvn hvm => ?_⟩
  · rw [htbl]
    exact h.reserve
  · have hup := countP_update hnd hn σ Q
    rw [h.argValid_eq hn] at hcount
    split at hcount <;> simp_all <;> omega
  · by_cases hne : m = name
    · subst hne
      exact htype.trans (h.types m hm)
    · rw [hr.info_of_ne hne]
      exact h.types m hm
  · by_cases hne : m = name
    · subst hne
      rw [Function.update_self] at hσ
      obtain rfl := Option.some.inj hσ
      exact hhoused
    · rw [Function.update_of_ne hne] at hσ
      exact (hother m hm hne P hσ).1
  · have hne : m ≠ name := by
      rintro rfl
      rw [Function.update_self] at hσ
      cases hσ
    rw [Function.update_of_ne hne] at hσ
    have hno := h.absent m hm hσ
    have hinfo := hr.info_of_ne hne
    refine ⟨by rw [hinfo]; exact hno.invalid, by rw [hinfo]; exact hno.page, ?_⟩
    intro b hvis i hi
    rw [htbl] at hvis
    exact hr.untagged (Ne.symm hne) (hno.none b hvis i hi)
  · have hpayload : ∀ m ∈ N, m ≠ name → (t.info m).argValid = true → ∃ P, σ m = some P := by
      intro m hm hne hv
      rw [hr.info_of_ne hne, h.argValid_eq hm] at hv
      exact Option.isSome_iff_exists.1 hv
    by_cases h1 : n = name
    · subst h1
      obtain ⟨P, hP⟩ := hpayload m hm (Ne.symm hne) hvm
      rw [hr.info_of_ne (Ne.symm hne)]
      exact (hother m hm (Ne.symm hne) P hP).2
    · by_cases h2 : m = name
      · subst h2
        obtain ⟨P, hP⟩ := hpayload n hn' hne hvn
        rw [hr.info_of_ne hne]
        exact ((hother n hn' hne P hP).2).symm
      · rw [hr.info_of_ne h1] at hvn ⊢
        rw [hr.info_of_ne h2] at hvm ⊢
        exact h.apart n hn' m hm hne hvn hvm

/-- The store does not depend on `update_flag`. -/
lemma Stocked.setInfo (h : Stocked fl size N s σ) (name' : RecName) {f : ArgInfo → ArgInfo}
    (hf : ∀ a, (f a).argValid = a.argValid ∧ (f a).validBlkAddr = a.validBlkAddr ∧
      (f a).validPageAddr = a.validPageAddr ∧ (f a).argType = a.argType) :
    Stocked fl size N (s.setInfo name' f) σ := by
  have hinfo : ∀ n, ((s.setInfo name' f).info n).argValid = (s.info n).argValid ∧
      ((s.setInfo name' f).info n).validBlkAddr = (s.info n).validBlkAddr ∧
      ((s.setInfo name' f).info n).validPageAddr = (s.info n).validPageAddr ∧
      ((s.setInfo name' f).info n).argType = (s.info n).argType := by
    intro n
    by_cases hne : n = name'
    · subst hne
      rw [setInfo_info_self]
      exact hf _
    · have heq : (s.setInfo name' f).info n = s.info n := if_neg hne
      rw [heq]
      exact ⟨rfl, rfl, rfl, rfl⟩
  refine ⟨h.ready.setInfo name' f, h.reserve, h.length, h.places, fun n hn => ?_,
    fun n hn P hσ => (h.housed n hn P hσ).setInfo name' hf, fun n hn hσ => ?_,
    fun n hn m hm hne hvn hvm => ?_⟩
  · rw [(hinfo n).2.2.2]
    exact h.types n hn
  · have hno := h.absent n hn hσ
    exact ⟨(hinfo n).1.trans hno.invalid, (hinfo n).2.2.1.trans hno.page, hno.none⟩
  · rw [(hinfo n).1] at hvn
    rw [(hinfo m).1] at hvm
    rw [(hinfo n).2.1, (hinfo m).2.1]
    exact h.apart n hn m hm hne hvn hvm

/-- Neither does it depend on the lock, nor on the entries of the table for other blocks. -/
lemma Stocked.retable (h : Stocked fl size N s σ) (hr : Ready t) (himg : t.image = s.image)
    (hinfo : t.info = s.info) (hlist : t.reservedBlk = s.reservedBlk)
    (hg : GoodReserve fl t.blkStatus) : Stocked fl size N t σ := by
  refine ⟨hr, hg, ?_, ?_, ?_, fun n hn P hσ => ?_, fun n hn hσ => ?_, ?_⟩
  · rw [hlist]
    exact h.length
  · rw [hlist]
    exact h.places
  · rw [hinfo]
    exact h.types
  · have hh := h.housed n hn P hσ
    refine hh.retable (by rw [hinfo]) himg h.reserve hg ?_
    rw [hlist]
    exact hh.listed
  · have hno := h.absent n hn hσ
    refine ⟨by rw [hinfo]; exact hno.invalid, by rw [hinfo]; exact hno.page, ?_⟩
    intro b hb
    rw [himg]
    exact hno.none b ((h.reserve.visits_iff b).2 ((hg.visits_iff b).1 hb))
  · rw [hinfo]
    exact h.apart

/-- What a save does not change: the table, the configuration, the permissions and the lock. -/
def St.untouched (s : St) : St :=
  { s.kept with image := fun _ _ => .erased, log := [], info := fun _ => {}, reservedBlk := [] }

/-- A round does not change it. -/
lemma Round.untouched {sz : ℕ} (h : Round fl name Q sz excl s r t) : t.untouched = s.untouched := by
  have hkept : ∀ c : St, t.kept = c.kept → t.untouched = c.untouched := by
    intro c hc
    unfold St.untouched
    rw [hc]
  cases h with
  | append _ _ _ ht => exact (hkept _ ht :)
  | move _ _ _ _ ht => exact (hkept _ ht :)
  | full _ _ ht => exact (hkept _ ht :)

/-- Neither does a save. -/
lemma Saves.untouched {sz : ℕ} {ret : ℤ} (h : Saves fl name Q sz s ret t) :
    t.untouched = s.untouched := by
  cases h with
  | refused _ => rfl
  | failed _ hr => exact hr.untouched
  | once _ _ hr => exact hr.untouched
  | half _ _ hr hr' => exact (hr'.untouched.trans rfl).trans hr.untouched
  | twice _ _ hr hr' => exact (hr'.untouched.trans rfl).trans hr.untouched

/-- A save changes pages of the scan range only. -/
lemma Stocked.saves_sameOutside {ret : ℤ} (h : Stocked fl size N s σ) (hnd : N.Nodup)
    (hsz : AllStorable fl size N) (hn : name ∈ N) (hs : Saves fl name Q (size name) s ret t) :
    s.image.SameOutside fl t.image := by
  have hfirst : ∀ {r : ℤ ⊕ ℤ × SaveLocals} {u : St}, Round fl name Q (size name) 0 s r u →
      s.image.SameOutside fl u.image := fun hr => hr.sameOutside (h.stable hn) (hsz name hn)
  have hsecond : ∀ {l : SaveLocals} {excl : ℕ} {r : ℤ ⊕ ℤ × SaveLocals} {u v : St},
      Round fl name Q (size name) 0 s (Sum.inr (0, l)) u →
      Round fl name Q (size name) excl (u.setInfo name Amlnf.settled) r v →
      s.image.SameOutside fl v.image := by
    intro l excl r u v hr hr'
    have hst := (h.round hnd hsz hn hr).2.setInfo name (f := Amlnf.settled) fun _ =>
      ⟨rfl, rfl, rfl, rfl⟩
    have hlast := hr'.sameOutside (hst.stable hn) (hsz name hn)
    exact (hfirst hr).trans hlast
  cases hs with
  | refused hm => exact fun _ _ _ => rfl
  | failed hm hr => exact hfirst hr
  | once hm _ hr => exact hfirst hr
  | half hm _ hr hr' => exact hsecond hr hr'
  | twice hm _ hr hr' => exact hsecond hr hr'

/-- **A save** that is permitted succeeds, stores its payload and keeps the other records; one that
is not permitted changes nothing. -/
lemma Stocked.saves {ret : ℤ} (h : Stocked fl size N s σ) (hnd : N.Nodup)
    (hsz : AllStorable fl size N) (hn : name ∈ N) (hs : Saves fl name Q (size name) s ret t) :
    (s.allowMeta = true → ret = 0 ∧ Stocked fl size N t (Function.update σ name (some Q))) ∧
      (s.allowMeta = false → ret = -eROFS ∧ t = s) := by
  have hagain : ∀ {l : SaveLocals} {u : St},
      Round fl name Q (size name) 0 s (Sum.inr (0, l)) u →
      Stocked fl size N (u.setInfo name Amlnf.settled) (Function.update σ name (some Q)) :=
    fun hr => (h.round hnd hsz hn hr).2.setInfo name fun _ => ⟨rfl, rfl, rfl, rfl⟩
  cases hs with
  | refused hm =>
    refine ⟨fun hm' => ?_, fun _ => ⟨rfl, rfl⟩⟩
    rw [hm] at hm'
    cases hm'
  | failed hm hr =>
    obtain ⟨⟨l, hl⟩, -⟩ := h.round hnd hsz hn hr
    cases hl
  | once hm _ hr =>
    refine ⟨fun _ => ⟨rfl, (h.round hnd hsz hn hr).2⟩, fun hm' => ?_⟩
    rw [hm] at hm'
    cases hm'
  | half hm _ hr hr' =>
    obtain ⟨⟨l, hl⟩, -⟩ := (hagain hr).round hnd hsz hn hr'
    cases hl
  | twice hm _ hr hr' =>
    refine ⟨fun _ => ⟨rfl, ?_⟩, fun hm' => ?_⟩
    · have hlast := ((hagain hr).round hnd hsz hn hr').2
      rwa [Function.update_idem] at hlast
    · rw [hm] at hm'
      cases hm'

/-- Every save returns. -/
lemma Stocked.saveInfo_run (h : Stocked fl size N s σ) (hnd : N.Nodup)
    (hsz : AllStorable fl size N) (hn : name ∈ N) (Q : Buf) :
    ∃ ret t, saveInfo fl name Q (size name) s = (some ret, t) ∧ t.untouched = s.untouched ∧
      s.image.SameOutside fl t.image ∧
      (s.allowMeta = true → ret = 0 ∧ Stocked fl size N t (Function.update σ name (some Q))) ∧
      (s.allowMeta = false → ret = -eROFS ∧ t = s) := by
  obtain ⟨ret, t, ht, hs, -⟩ := (h.stable hn).saveInfo_run (hsz name hn).samePages
    ((h.stable hn).copiesFit (hsz name hn)) Q
  exact ⟨ret, t, ht, hs.untouched, h.saves_sameOutside hnd hsz hn hs, h.saves hnd hsz hn hs⟩

end Stocked

/-! ## A fresh scan -/

section Rescan

variable {name : RecName} {size b v : ℕ} {type : ArgType} {r : ℕ → ℕ → Page} {s u : St} {P : Buf}

/-- The second pass keeps the type. -/
lemma copyScan_argType (fl : Flash) (name : RecName) (size : ℕ) (blk : ℕ → Page) (n i : ℕ)
    (a : ArgInfo) : (copyScan fl name size blk n i a).argType = a.argType := by
  induction n generalizing i a with
  | zero => rfl
  | succ n ih =>
    unfold copyScan
    split
    · split
      · exact ih _ _
      · split
        · split
          · rfl
          · exact ih _ _
        · exact ih _ _
        · split
          · exact ih _ _
          · rfl
        · rfl
    · rfl

/-- The first pass keeps `update_flag`. -/
lemma scanInfo_updateFlag (fl : Flash) (tbl : BlkStatus) (name : RecName) (size : ℕ)
    (r : ℕ → ℕ → Page) (bs : List ℕ) (a : ArgInfo) :
    (scanInfo fl tbl name size r bs a).updateFlag = a.updateFlag := by
  induction bs generalizing a with
  | nil => rfl
  | cons b bs ih =>
    have htag : (scanTag name b (Amlnf.blockTag fl size (r b)) a).updateFlag = a.updateFlag := by
      unfold scanTag scanFound
      split
      · split
        · split
          · split <;> rfl
          · rfl
        · rfl
      · rfl
    rw [scanInfo]
    split
    · dsimp only
      split
      · exact htag
      · rw [ih, htag]
    · exact ih a

/-- **What a scan makes of the one block under a name**: `arg_info` designates the copy in use, and
for a `FULL_BLK` record there is nothing to update. -/
lemma Filed.rescan (h : Filed fl type name size (r b) v P) (hb : ScanVisits fl tbl b)
    (hothers : ∀ x ≠ b, ScanVisits fl tbl x → ∀ i < fl.pagesRead,
      tagged (r x i).oob name = false) :
    let a := checkInfo fl tbl name size r { argType := type }
    a.argValid = true ∧ a.validBlkAddr = b ∧ a.validPageAddr = v ∧ a.argType = type ∧
      (type = .fullBlk → a.updateFlag = false) := by
  intro a
  obtain ⟨t, ht, hname⟩ := h.blockTag
  have hsilent : ∀ x ≠ b, ScanVisits fl tbl x → Silent fl name size (r x) :=
    fun x hx hvis => silent_of_untagged (hothers x hx hvis)
  obtain ⟨h1, h2, h3⟩ := checkInfo_of_first type hb ht hname
    (fun x hx hvis => hsilent x (by omega) hvis) fun x hx hvis => .inl (hsilent x (by omega) hvis)
  set a' := scanInfo fl tbl name size r (List.range' fl.startBlk reservedBlockCnt)
    { argType := type } with ha'
  have hvalid : a'.argValid = true := by
    rw [← checkInfo_argValid]
    exact h1
  have ha : a = copyScan fl name size (r a'.validBlkAddr) (fl.pagesRead + 1) 0 a' := by
    change checkInfo fl tbl name size r { argType := type } = _
    rw [checkInfo, ← ha']
    exact if_pos hvalid
  have htype' : a'.argType = type := (scanInfo_spec fl tbl name size r _ _).1.1
  have htype : a.argType = type := by
    rw [ha, copyScan_argType]
    exact htype'
  refine ⟨h1, h2, h3.trans h.copyPage_eq, htype, fun hfull => ?_⟩
  -- the second pass ends at the first page
  have hblk : a'.validBlkAddr = b := by
    rw [← (copyScan_keeps fl name size (r a'.validBlkAddr) (fl.pagesRead + 1) 0 a').1, ← ha]
    exact h2
  obtain ⟨hgood, htag⟩ := h.first
  cases ho : (r b 0).oob with
  | none => simp [ho, tagged] at htag
  | some t' =>
    have hname' : t'.name = name := by simpa [ho, tagged] using htag
    rw [ha, hblk, copyScan_found_fullBlk fl.pagesRead_pos hgood ho hname' (htype'.trans hfull)]
    exact scanInfo_updateFlag _ _ _ _ _ _ _

/-- **A fresh scan and a read** of a record that is housed: what they return and what the driver
knows afterwards. Only the chips and the table need to be as before. -/
lemma Housed.rescan (h : Housed fl s name size P) (hu : Ready u) (hidle : u.state = .ready)
    (himg : u.image = s.image) (hs : GoodReserve fl s.blkStatus) (hg : GoodReserve fl u.blkStatus)
    (hinfo : u.info name = { argType := (s.info name).argType })
    (hfree : (0xff : UInt8) ∈ u.reservedBlk) (buf : Buf) :
    ∃ out t, amlnandInfoInit fl name buf size u = (some (amlInfoCheckDatasum out name, out), t) ∧
      (∀ i < size, out i = P i) ∧ Housed fl t name size P ∧
      t.kept = (u.setInfo name fun _ => t.info name).kept.setList
        (enlist u.reservedBlk (s.info name).validBlkAddr) ∧
      (t.info name).validBlkAddr = (s.info name).validBlkAddr ∧
      (t.info name).argType = (s.info name).argType ∧
      ((s.info name).argType = .fullBlk → (t.info name).updateFlag = false) := by
  have hvis : ∀ x, ScanVisits fl u.blkStatus x ↔ ScanVisits fl s.blkStatus x := by
    intro x
    rw [hs.visits_iff, hg.visits_iff]
  have hsmall := h.visits.bounds
  obtain ⟨h1, h2, h3, h4, h5⟩ := h.filed.rescan (r := s.image.recAt fl) ((hvis _).2 h.visits)
    fun x hx hx' => h.others x hx ((hvis x).1 hx')
  obtain ⟨t, ht, hk⟩ := amlnandInfoInit_run fl name buf size hu hidle (by
    rw [himg, hinfo]
    exact h1)
  rw [himg, hinfo] at ht
  have hti : t.info name = checkInfo fl u.blkStatus name size (s.image.recAt fl)
      { argType := (s.info name).argType } := by
    rw [kept_info hk, checked_info_self, himg, hinfo]
  have htl : t.reservedBlk = enlist u.reservedBlk (s.info name).validBlkAddr := by
    rw [kept_reservedBlk hk, St.checked, himg, hinfo, if_pos h1, h2]
    rfl
  refine ⟨_, t, ht, ?_, ?_, ?_, ?_, ?_, ?_⟩
  · rw [h2, h3]
    exact readCopy_of_hasCopy h.filed.copy buf
  · constructor
    all_goals simp only [hti, h1, h2, h3, h4]
    · rw [kept_blkStatus hk]
      exact (hvis _).2 h.visits
    · rw [htl]
      exact listed_enlist_self hfree (by omega)
    · intro x hx hx'
      rw [kept_blkStatus hk] at hx'
      rw [kept_image hk]
      change ∀ i < fl.pagesRead, tagged (u.image.recAt fl x i).oob name = false
      rw [himg]
      exact h.others x hx ((hvis x).1 hx')
    · rw [kept_image hk]
      change Filed fl _ name size (u.image.recAt fl _) _ P
      rw [himg]
      exact h.filed
  · rw [hk, hti, St.checked, himg, hinfo, if_pos h1, h2]
    rfl
  · rw [hti, h2]
  · rw [hti, h4]
  · rw [hti]
    exact h5

end Rescan

/-! ## Blank chips -/

/-- Blank chips without bad blocks hold no record. -/
lemma stocked_blank (fl : Flash) (size : RecName → ℕ) {N : List RecName} (hN : N.length ≤ 46) :
    Stocked fl size N St.blank fun _ => none := by
  refine ⟨⟨⟨fun _ => Outcome.fine_fine, rfl⟩, fun _ => ⟨rfl, rfl⟩⟩, fun _ _ _ => rfl,
    List.length_replicate, ?_, fun _ _ => rfl, fun _ _ _ hP => ?_, fun n _ _ => ?_,
    fun _ _ _ _ _ hv => ?_⟩
  · have hcount : St.blank.reservedBlk.count 0xff = 48 := List.count_replicate_self
    have hle := List.countP_le_length (p := fun n : RecName => (none : Option Buf).isNone) (l := N)
    omega
  · cases hP
  · exact ⟨rfl, rfl, fun _ _ _ _ => rfl⟩
  · cases hv

/-- On `Flash.oneChip` records of 32 KiB can be saved under every name. -/
lemma allStorable_oneChip (N : List RecName) : AllStorable .oneChip (fun _ => 0x8000) N := by
  have hA : Flash.oneChip.argPages 0x8000 = 5 := by decide
  intro n _
  refine ⟨⟨by rw [hA]; decide, fun _ => ?_⟩, fun _ => ⟨rfl, noSpill_of_ne (by decide) _⟩⟩
  rw [copyStep, hA]
  decide

/-! ## Sequences of saves -/

/-- What the records hold after saves that are permitted: for each name the last payload. -/
def stockAfter (σ : RecName → Option Buf) (ops : List (RecName × Buf)) : RecName → Option Buf :=
  ops.foldl (fun σ op => Function.update σ op.1 (some op.2)) σ

section Runs

variable {size : RecName → ℕ} {N : List RecName} {s : St} {σ : RecName → Option Buf}

/-- Saves that are permitted keep the store. -/
lemma Stocked.saveSeq_run (hnd : N.Nodup) (hsz : AllStorable fl size N)
    (ops : List (RecName × Buf)) (hops : ∀ op ∈ ops, op.1 ∈ N) (h : Stocked fl size N s σ)
    (hmeta : s.allowMeta = true) :
    ∃ t, saveSeq fl size ops s = (some (), t) ∧ t.untouched = s.untouched ∧
      Stocked fl size N t (stockAfter σ ops) := by
  induction ops generalizing s σ with
  | nil => exact ⟨s, rfl, rfl, h⟩
  | cons op ops ih =>
    obtain ⟨ret, u, hu, huntouched, -, hok, -⟩ :=
      h.saveInfo_run hnd hsz (hops op List.mem_cons_self) op.2
    have hmeta' : u.allowMeta = true := by
      have hall : u.untouched.allowMeta = s.untouched.allowMeta := by rw [huntouched]
      exact hall.trans hmeta
    obtain ⟨t, ht, hun, hst⟩ := ih (fun op hop => hops op (List.mem_cons_of_mem _ hop))
      (hok hmeta).2 hmeta'
    exact ⟨t, (bind_some hu).trans ht, hun.trans huntouched, hst⟩

/-- **The records are independent.** On chips that report no failure and without bad blocks in the
scan range, whatever is saved under whatever names in whatever order: then each name reads back the
payload saved last under it, both in the running driver and after a fresh scan of the chips by a
driver that knows the table only. -/
theorem saveSeq_readsBack (hnd : N.Nodup) (hsz : AllStorable fl size N)
    (ops : List (RecName × Buf)) (hops : ∀ op ∈ ops, op.1 ∈ N) (h : Stocked fl size N s σ)
    (hmeta : s.allowMeta = true) :
    ∃ t, saveSeq fl size ops s = (some (), t) ∧
      ∀ n ∈ N, ∀ P, stockAfter σ ops n = some P → ∀ buf,
        (∃ out u, amlnandReadInfoByName fl n buf (size n) t = (some (0, out), u) ∧
          ∀ i < size n, out i = P i) ∧
        ∀ v : St, Ready v → v.state = .ready → v.image = t.image → GoodReserve fl v.blkStatus →
          v.info n = { argType := argTypeOf n } → (0xff : UInt8) ∈ v.reservedBlk →
          ∃ ret out u, amlnandInfoInit fl n buf (size n) v = (some (ret, out), u) ∧
            ∀ i < size n, out i = P i := by
  obtain ⟨t, ht, -, hst⟩ := h.saveSeq_run hnd hsz ops hops hmeta
  refine ⟨t, ht, fun n hn P hP buf => ⟨?_, fun v hv hidle himg hgood hinfo hfree => ?_⟩⟩
  · have hhoused := hst.housed n hn P hP
    obtain ⟨u, hu, -⟩ := amlnandReadInfoByName_run fl hst.ready.reads n buf (size n) hhoused.valid
    exact ⟨_, u, hu, readCopy_of_hasCopy hhoused.filed.copy buf⟩
  · have hhoused := hst.housed n hn P hP
    obtain ⟨out, u, hu, hout, -⟩ := hhoused.rescan hv hidle himg hst.reserve hgood
      (by rw [hinfo, hst.types n hn]) hfree buf
    exact ⟨_, out, u, hu, hout⟩

/-- The table saved twice on blank chips, and the environment in between: the second table counts. -/
theorem saveSeq_readsBack_twice : ∃ t,
    saveSeq .oneChip (fun _ => 0x8000)
      [(.nbbt, fun _ => 1), (.nenv, fun _ => 2), (.nbbt, fun _ => 3)] St.blank = (some (), t) ∧
    (∃ out u, amlnandReadInfoByName .oneChip .nbbt (fun _ => 0) 0x8000 t = (some (0, out), u) ∧
      ∀ i < 0x8000, out i = 3) ∧
    ∃ out u, amlnandReadInfoByName .oneChip .nenv (fun _ => 0) 0x8000 t = (some (0, out), u) ∧
      ∀ i < 0x8000, out i = 2 := by
  obtain ⟨t, ht, hread⟩ := saveSeq_readsBack (N := [.nbbt, .nenv]) (by decide)
    (allStorable_oneChip _) [(.nbbt, fun _ => 1), (.nenv, fun _ => 2), (.nbbt, fun _ => 3)]
    (by simp) (stocked_blank .oneChip (fun _ => 0x8000) (by decide)) rfl
  exact ⟨t, ht, (hread .nbbt (by simp) (fun _ => 3) rfl _).1,
    (hread .nenv (by simp) (fun _ => 2) rfl _).1⟩

end Runs

end Amlnf
