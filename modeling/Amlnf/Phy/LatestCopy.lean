import Amlnf.Phy.Roundtrip

set_option relaxedAutoImplicit false
set_option autoImplicit false

/-!
# The latest copy

A record that moves to a fresh block leaves its old block behind and erases it. If that erase does
not take effect two blocks carry the name, and a scan has to choose. For a `FULL_BLK` record it stops
at the first of them; for a `FULL_PAGE` record it compares the 16-bit timestamps of their first
readable pages as numbers, although they wrap. So it need not arrive at the latest copy.

## Main definitions

* `Carries`, `Newest` — a block under the name, and the block a scan takes.
* `LossyRun` — a run of saves after which blocks the record has left may hold anything.
* `Designates` — what a save leaves in `arg_info`.
* `Selects` — where a fresh scan arrives.

## Main results

* `scanInfo_block_iff`, `checkInfo_iff` — the block and the page a scan takes.
* `Round.withImage`, `Saves.withImage` — the contents of the chips do not steer a save.
* `Solo.saves`, `LossyRun.solo` — what a save and a run of saves keep.
* `fresh_scan_latest_iff` — when the latest copy wins.

## Design

The driver does not read the chips while it saves, so a save of a state whose other blocks hold
anything issues the same commands as one of the state without them (`Stable`), and what it leaves in
the block of the record is the same.
-/

namespace Amlnf

open Act

/-! ## The block a scan takes -/

section Scan

variable {fl : Flash} {name : RecName} {size : ℕ} {tbl : BlkStatus} {r : ℕ → ℕ → Page}

/-- The first page of the block that can be read carries the name, with timestamp `t`. -/
def Carries (fl : Flash) (name : RecName) (size : ℕ) (blk : ℕ → Page) (t : UInt16) : Prop :=
  blockTag fl size blk = some ⟨name, t⟩

/-- A block that is not silent carries a copy. -/
lemma not_silent_iff {blk : ℕ → Page} :
    ¬Silent fl name size blk ↔ ∃ t, Carries fl name size blk t := by
  unfold Silent Carries tagged
  split
  · rename_i t ht
    rw [ht]
    constructor
    · intro h
      have hn : t.name = name := by simpa using h
      exact ⟨t.timestamp, by rw [← hn]⟩
    · rintro ⟨ts, h⟩
      obtain rfl := Option.some.inj h
      simp
  · rename_i ht
    rw [ht]
    simp

/-- Block `w` with timestamp `t` is not given up for block `x` with timestamp `tx`: it is newer, or
it comes first among equals. -/
def Beats (w : ℕ) (t : UInt16) (x : ℕ) (tx : UInt16) : Prop :=
  tx.toNat < t.toNat ∨ tx.toNat = t.toNat ∧ w ≤ x

/-- The order of the scan is transitive. -/
lemma Beats.trans {w x y : ℕ} {t tx ty : UInt16} (h : Beats w t x tx) (h' : Beats x tx y ty) :
    Beats w t y ty := by
  unfold Beats at *
  omega

/-- Two blocks do not beat each other. -/
lemma Beats.eq_of_symm {w x : ℕ} {t tx : UInt16} (h : Beats w t x tx) (h' : Beats x tx w t) :
    w = x := by
  unfold Beats at *
  omega

/-- The block of the last save is the one the scan will take. A scan for a `FULL_BLK` record ends at
the first block under the name, one for a `FULL_PAGE` record compares the timestamps. -/
def Newest (fl : Flash) (type : ArgType) (tbl : BlkStatus) (name : RecName) (size : ℕ)
    (r : ℕ → ℕ → Page) (b : ℕ) : Prop :=
  ∀ x t, ScanVisits fl tbl x → x ≠ b → Carries fl name size (r x) t →
    match type with
    | .fullBlk => b < x
    | .fullPage => ∃ tb, Carries fl name size (r b) tb ∧ Beats b tb x t

/-- A block carries one timestamp. -/
lemma Carries.unique {blk : ℕ → Page} {t t' : UInt16} (h : Carries fl name size blk t)
    (h' : Carries fl name size blk t') : t = t' := by
  have := Option.some.inj (h.symm.trans h')
  exact congrArg Tag.timestamp this

/-- The scan takes up what a block carries. -/
lemma scanTag_of_carries {b : ℕ} {t : UInt16} (h : Carries fl name size (r b) t) (a : ArgInfo) :
    scanTag name b (blockTag fl size (r b)) a = scanFound b t a := by
  rw [Carries] at h
  rw [h]
  exact if_pos rfl

/-- A block that is bad or does not carry the name is passed over. -/
lemma scanInfo_skip {x : ℕ} {bs : List ℕ} {a : ArgInfo}
    (h : resStatus fl tbl x = blockGood → Silent fl name size (r x))
    (ha : ¬(a.argType = .fullBlk ∧ a.argValid = true)) :
    scanInfo fl tbl name size r (x :: bs) a = scanInfo fl tbl name size r bs a := by
  rw [scanInfo]
  split
  · rename_i hg
    dsimp only
    rw [scanTag_of_silent (h hg), if_neg fun hc => ha ⟨hc.1, hc.2.1⟩]
  · rfl

/-- A block that carries the name. -/
lemma scanInfo_found {x : ℕ} {bs : List ℕ} {a : ArgInfo} {t : UInt16}
    (hg : resStatus fl tbl x = blockGood) (h : Carries fl name size (r x) t) :
    scanInfo fl tbl name size r (x :: bs) a =
      if (scanFound x t a).argType = .fullBlk ∧ (scanFound x t a).argValid ∧
          (scanFound x t a).validBlkAddr ≠ 0 then scanFound x t a
      else scanInfo fl tbl name size r bs (scanFound x t a) := by
  rw [scanInfo, if_pos hg, scanTag_of_carries h]

/-- A scan for a `FULL_BLK` record takes the first block under the name. -/
lemma scanInfo_fullBlk {b : ℕ} (hb : resStatus fl tbl b = blockGood)
    (hcar : ¬Silent fl name size (r b)) :
    ∀ (bs : List ℕ) (a : ArgInfo), a.argType = .fullBlk → a.argValid = false → bs.Pairwise (· < ·) →
      (∀ x ∈ bs, x ≠ 0) → b ∈ bs →
      ((scanInfo fl tbl name size r bs a).validBlkAddr = b ↔
        ∀ x ∈ bs, x < b → resStatus fl tbl x = blockGood → Silent fl name size (r x)) := by
  intro bs
  induction bs with
  | nil =>
    intro a _ _ _ _ hmem
    cases hmem
  | cons x bs ih =>
    intro a hty hv hpw hnz hmem
    obtain ⟨hlt, hpw'⟩ := List.pairwise_cons.1 hpw
    by_cases hstop : resStatus fl tbl x = blockGood ∧ ¬Silent fl name size (r x)
    · obtain ⟨hg, hs⟩ := hstop
      obtain ⟨t, ht⟩ := not_silent_iff.1 hs
      have hx0 := hnz x List.mem_cons_self
      have hfound : scanFound x t a =
          { a with argValid := true, validBlkAddr := x, timestamp := t } := if_neg (by simp [hv])
      rw [scanInfo_found hg ht, hfound, if_pos ⟨hty, rfl, hx0⟩]
      change x = b ↔ _
      constructor
      · rintro rfl y hy hyb
        rcases List.mem_cons.1 hy with rfl | hy
        · exact absurd hyb (lt_irrefl _)
        · exact absurd (hlt y hy) (by omega)
      · intro h
        rcases List.mem_cons.1 hmem with rfl | hm
        · rfl
        · exact absurd (h x List.mem_cons_self (hlt b hm) hg) hs
    · have hsil : resStatus fl tbl x = blockGood → Silent fl name size (r x) := by
        intro hg
        by_contra hs
        exact hstop ⟨hg, hs⟩
      have hne : x ≠ b := by
        rintro rfl
        exact hstop ⟨hb, hcar⟩
      have hm : b ∈ bs := (List.mem_cons.1 hmem).resolve_left (Ne.symm hne)
      rw [scanInfo_skip hsil (by simp [hv]),
        ih a hty hv hpw' (fun y hy => hnz y (List.mem_cons_of_mem _ hy)) hm]
      constructor
      · intro h y hy hyb hg
        rcases List.mem_cons.1 hy with rfl | hy
        · exact hsil hg
        · exact h y hy hyb hg
      · exact fun h y hy => h y (List.mem_cons_of_mem _ hy)

/-- A scan for a `FULL_PAGE` record takes the newest block under the name, the first among equals.

**Proof sketch.** Induction on the blocks left; the `arg_info` at hand, if it is valid, has a block
before all of them. -/
lemma scanInfo_fullPage (fl : Flash) (tbl : BlkStatus) (name : RecName) (size : ℕ)
    (r : ℕ → ℕ → Page) : ∀ (bs : List ℕ) (a : ArgInfo), a.argType = .fullPage →
    bs.Pairwise (· < ·) → (a.argValid = true → ∀ x ∈ bs, a.validBlkAddr < x) →
    let a' := scanInfo fl tbl name size r bs a
    (a'.argValid = true → (a.argValid = true ∧ a'.validBlkAddr = a.validBlkAddr ∧
        a'.timestamp = a.timestamp) ∨
      a'.validBlkAddr ∈ bs ∧ resStatus fl tbl a'.validBlkAddr = blockGood ∧
        Carries fl name size (r a'.validBlkAddr) a'.timestamp) ∧
    (a.argValid = true → Beats a'.validBlkAddr a'.timestamp a.validBlkAddr a.timestamp) ∧
    ∀ x ∈ bs, resStatus fl tbl x = blockGood → ∀ t, Carries fl name size (r x) t →
      Beats a'.validBlkAddr a'.timestamp x t := by
  intro bs
  induction bs with
  | nil =>
    intro a _ _ _
    refine ⟨fun h => Or.inl ⟨h, rfl, rfl⟩, fun _ => Or.inr ⟨rfl, le_refl _⟩, ?_⟩
    intro x hx
    cases hx
  | cons x bs ih =>
    intro a hty hpw hlt
    obtain ⟨hxlt, hpw'⟩ := List.pairwise_cons.1 hpw
    dsimp only
    by_cases hcar : resStatus fl tbl x = blockGood ∧ ∃ t, Carries fl name size (r x) t
    swap
    · -- the block is passed over
      have hsil : resStatus fl tbl x = blockGood → Silent fl name size (r x) := by
        intro hg
        by_contra hs
        exact hcar ⟨hg, not_silent_iff.1 hs⟩
      rw [scanInfo_skip hsil (by simp [hty])]
      obtain ⟨h1, h2, h3⟩ := ih a hty hpw' fun hv y hy => hlt hv y (List.mem_cons_of_mem _ hy)
      refine ⟨fun hv => (h1 hv).imp_right fun h => ⟨List.mem_cons_of_mem _ h.1, h.2⟩, h2,
        fun y hy hg t ht => ?_⟩
      rcases List.mem_cons.1 hy with rfl | hy
      · exact absurd ⟨hg, t, ht⟩ hcar
      · exact h3 y hy hg t ht
    obtain ⟨hg, tx, htx⟩ := hcar
    have hty' : (scanFound x tx a).argType = .fullPage := by
      unfold scanFound
      split
      · split <;> exact hty
      · exact hty
    rw [scanInfo_found hg htx, if_neg (by simp [hty'])]
    -- what `scanFound` leaves is as new as both, and one of the two
    have hfound : (a.argValid = true → Beats (scanFound x tx a).validBlkAddr
          (scanFound x tx a).timestamp a.validBlkAddr a.timestamp) ∧
        Beats (scanFound x tx a).validBlkAddr (scanFound x tx a).timestamp x tx ∧
        (scanFound x tx a).argValid = true ∧
        ((a.argValid = true ∧ (scanFound x tx a).validBlkAddr = a.validBlkAddr ∧
          (scanFound x tx a).timestamp = a.timestamp) ∨
        (scanFound x tx a).validBlkAddr = x ∧ (scanFound x tx a).timestamp = tx) := by
      unfold scanFound Beats
      by_cases hv : a.argValid = true
      · have hax := hlt hv x List.mem_cons_self
        rw [if_pos hv]
        by_cases hnew : a.timestamp < tx
        · have hnew' := UInt16.lt_iff_toNat_lt.1 hnew
          rw [if_pos hnew]
          exact ⟨fun _ => Or.inl hnew', Or.inr ⟨rfl, le_refl _⟩, hv, Or.inr ⟨rfl, rfl⟩⟩
        · have hnew' : tx.toNat ≤ a.timestamp.toNat := by
            rw [UInt16.lt_iff_toNat_lt] at hnew
            omega
          rw [if_neg hnew]
          refine ⟨fun _ => Or.inr ⟨rfl, le_refl _⟩, ?_, hv, Or.inl ⟨hv, rfl, rfl⟩⟩
          dsimp only
          omega
      · rw [if_neg hv]
        exact ⟨fun h => absurd h hv, Or.inr ⟨rfl, le_refl _⟩, rfl, Or.inr ⟨rfl, rfl⟩⟩
    obtain ⟨hba, hbx, hv', hone⟩ := hfound
    obtain ⟨h1, h2, h3⟩ := ih (scanFound x tx a) hty' hpw' fun _ y hy => by
      rcases hone with ⟨hv, hb, -⟩ | ⟨hb, -⟩
      · rw [hb]
        exact hlt hv y (List.mem_cons_of_mem _ hy)
      · rw [hb]
        exact hxlt y hy
    refine ⟨fun hv => ?_, fun hv => (h2 hv').trans (hba hv), fun y hy hgy t ht => ?_⟩
    · rcases h1 hv with ⟨-, hb, ht⟩ | ⟨hm, h⟩
      · rw [hb, ht]
        rcases hone with hone | ⟨hb', ht'⟩
        · exact Or.inl hone
        · rw [hb', ht']
          exact Or.inr ⟨List.mem_cons_self, hg, htx⟩
      · exact Or.inr ⟨List.mem_cons_of_mem _ hm, h⟩
    · rcases List.mem_cons.1 hy with rfl | hy
      · obtain rfl := ht.unique htx
        exact (h2 hv').trans hbx
      · exact h3 y hy hgy t ht

/-- **The block a fresh scan takes.** -/
lemma scanInfo_block_iff (type : ArgType) {b : ℕ} (hb : ScanVisits fl tbl b)
    (hcar : ¬Silent fl name size (r b)) :
    (scanInfo fl tbl name size r (List.range' fl.startBlk reservedBlockCnt)
      { argType := type }).validBlkAddr = b ↔ Newest fl type tbl name size r b := by
  have hmem : ∀ x, ScanVisits fl tbl x ↔
      x ∈ List.range' fl.startBlk reservedBlockCnt ∧ resStatus fl tbl x = blockGood := by
    intro x
    rw [scanVisits_iff, List.mem_range'_1, and_assoc]
  have hpw : (List.range' fl.startBlk reservedBlockCnt).Pairwise (· < ·) := List.pairwise_lt_range'
  obtain ⟨hbm, hbg⟩ := (hmem b).1 hb
  cases type with
  | fullBlk =>
    rw [scanInfo_fullBlk hbg hcar _ _ rfl rfl hpw]
    · constructor
      · intro h x t hx hne ht
        obtain ⟨hxm, hxg⟩ := (hmem x).1 hx
        by_contra hlt
        exact not_silent_iff.2 ⟨t, ht⟩ (h x hxm (by dsimp only at hlt; omega) hxg)
      · intro h x hxm hlt hxg
        by_contra hs
        obtain ⟨t, ht⟩ := not_silent_iff.1 hs
        have := h x t ((hmem x).2 ⟨hxm, hxg⟩) (by omega) ht
        dsimp only at this
        omega
    · intro x hx
      have := fl.startBlk_pos
      rw [List.mem_range'_1] at hx
      omega
    · exact hbm
  | fullPage =>
    obtain ⟨tb, htb⟩ := not_silent_iff.1 hcar
    obtain ⟨h1, -, h3⟩ := scanInfo_fullPage fl tbl name size r
      (List.range' fl.startBlk reservedBlockCnt) { argType := .fullPage } rfl hpw nofun
    have hv := (scanInfo_spec fl tbl name size r (List.range' fl.startBlk reservedBlockCnt)
      { argType := .fullPage }).2.2 (Or.inr ⟨b, hbm, hbg, hcar⟩)
    rcases h1 hv with ⟨h, -⟩ | ⟨hwm, hwg, hw⟩
    · cases h
    constructor
    · rintro rfl x t hx _ ht
      obtain ⟨hxm, hxg⟩ := (hmem x).1 hx
      exact ⟨_, hw, h3 x hxm hxg t ht⟩
    · intro h
      by_contra hne
      obtain ⟨tb', htb', hbeat⟩ := h _ _ ((hmem _).2 ⟨hwm, hwg⟩) hne hw
      exact hne ((h3 b hbm hbg tb' htb').eq_of_symm hbeat)

/-- **Where a fresh scan arrives.** -/
lemma checkInfo_iff (type : ArgType) {b v : ℕ} (hb : ScanVisits fl tbl b)
    (hcar : ¬Silent fl name size (r b)) (hpage : copyPage fl type name size (r b) = v) :
    let a := checkInfo fl tbl name size r { argType := type }
    (a.argValid = true ∧ a.validBlkAddr = b ∧ a.validPageAddr = v) ↔
      Newest fl type tbl name size r b := by
  intro a
  rw [← scanInfo_block_iff type hb hcar]
  obtain ⟨⟨hty, hpg⟩, -, hto⟩ := scanInfo_spec fl tbl name size r
    (List.range' fl.startBlk reservedBlockCnt) { argType := type }
  set a' := scanInfo fl tbl name size r (List.range' fl.startBlk reservedBlockCnt)
    { argType := type } with ha'
  have hv : a'.argValid = true := by
    have hb' := (scanVisits_iff b).1 hb
    refine hto (Or.inr ⟨b, ?_, hb'.2.2, hcar⟩)
    rw [List.mem_range'_1]
    exact ⟨hb'.1, hb'.2.1⟩
  have ha : a = copyScan fl name size (r a'.validBlkAddr) (fl.pagesRead + 1) 0 a' := by
    change checkInfo fl tbl name size r { argType := type } = _
    rw [checkInfo, ← ha']
    exact if_pos hv
  obtain ⟨hkb, hkv⟩ := copyScan_keeps fl name size (r a'.validBlkAddr) (fl.pagesRead + 1) 0 a'
  rw [← ha] at hkb hkv
  have hp : a.validPageAddr = copyPage fl type name size (r a'.validBlkAddr) := by
    rw [ha]
    exact copyScan_page_congr fl name size _ _ _ _ _ hty hpg
  constructor
  · rintro ⟨-, h, -⟩
    exact hkb.symm.trans h
  · intro h
    exact ⟨hkv.trans hv, hkb.trans h, by rw [hp, h, hpage]⟩

end Scan

/-! ## Runs in which the erase of a block may be lost -/

/-- The images agree on block `b`. -/
def AgreeOn (fl : Flash) (b : ℕ) (m m' : Image) : Prop :=
  ∀ p, p / fl.ppb = fl.resRow b → m (fl.resChip b) p = m' (fl.resChip b) p

/-- The state with other contents of the chips. -/
def St.withImage (s : St) (m : Image) : St := { s with image := m }

section Lossy

variable {fl : Flash} {name : RecName} {type : ArgType} {pages size excl b : ℕ} {s t : St}
  {m m' m'' : Image} {Q : Buf}

/-- The list holds bytes. -/
lemma lt_of_listed {l : List UInt8} (h : listed l b = true) : b < 256 := by
  obtain ⟨e, -, he⟩ := List.any_eq_true.1 h
  have hval : e.toNat = b := by simpa using he
  exact hval ▸ e.toNat_lt

/-- Agreeing on a block is symmetric. -/
lemma AgreeOn.symm (h : AgreeOn fl b m m') : AgreeOn fl b m' m := fun p hp => (h p hp).symm

/-- And transitive. -/
lemma AgreeOn.trans (h : AgreeOn fl b m m') (h' : AgreeOn fl b m' m'') : AgreeOn fl b m m'' :=
  fun p hp => (h p hp).trans (h' p hp)

/-- Then the record pages are the same. -/
lemma AgreeOn.recAt (h : AgreeOn fl b m m') {i : ℕ} (hi : i < fl.pagesRead) :
    m.recAt fl b i = m'.recAt fl b i := h _ (fl.recPage_div b hi)

/-- What a command makes of a page depends on that page only. -/
lemma Image.apply_congr (op : FlashOp) {c p : ℕ} (h : m c p = m' c p) :
    m.apply fl op c p = m'.apply fl op c p := by
  cases op with
  | program c' p' d o =>
    by_cases hx : c = c' ∧ p = p'
    · obtain ⟨rfl, rfl⟩ := hx
      simp [Image.apply, h]
    · simp [Image.apply, hx, h]
  | erase c' r =>
    by_cases hx : c = c' ∧ p / fl.ppb = r
    · simp [Image.apply, hx]
    · simp [Image.apply, hx, h]

/-- Commands keep two images agreeing. -/
lemma AgreeOn.replay (h : AgreeOn fl b m m') (ops : List FlashOp) :
    AgreeOn fl b (m.replay fl ops) (m'.replay fl ops) := by
  induction ops generalizing m m' with
  | nil => exact h
  | cons op ops ih => exact ih fun p hp => Image.apply_congr op (h p hp)

/-- An erase makes any two images agree on its block. -/
lemma agreeOn_erase (fl : Flash) (b : ℕ) (m m' : Image) :
    AgreeOn fl b (m.apply fl (.erase (fl.resChip b) (fl.resRow b)))
      (m'.apply fl (.erase (fl.resChip b) (fl.resRow b))) := by
  intro p hp
  simp [Image.apply, hp]

/-- Exchanging the contents of the chips respects what is kept. -/
lemma withImage_congr {c : St} (h : t.kept = c.kept) (m : Image) :
    (t.withImage m).kept = (c.withImage m).kept := by
  have h' := congrArg (fun u : St => u.withImage m) h
  exact h'

/-- The contents of the chips do not steer a round: with other contents it issues the same commands.
If the contents agreed on the block of the record before, they do so after it. -/
lemma Round.withImage {r : ℤ ⊕ ℤ × SaveLocals} (hr : Round fl name Q size excl s r t)
    (hlow : ∀ b, InReserve fl s.blkStatus b → resStatus fl s.blkStatus b ≠ blockFactoryBad →
      b < 2 ^ 16)
    (hB : (s.info name).argValid = true → (s.info name).validBlkAddr < 2 ^ 16) :
    ((t.info name).argValid = true → (t.info name).validBlkAddr < 2 ^ 16) ∧
    ∃ ops, t.image = s.image.replay fl ops ∧ ∀ m,
      Round fl name Q size excl (s.withImage m) r (t.withImage (m.replay fl ops)) ∧
        (((s.info name).argValid = true → AgreeOn fl (s.info name).validBlkAddr m s.image) →
          (t.info name).argValid = true →
            AgreeOn fl (t.info name).validBlkAddr (m.replay fl ops) t.image) := by
  cases hr with
  | append ha hl hb ht =>
    have hinfo : t.info name = appendInfo fl size (s.info name) := by
      rw [kept_info ht, appended_info_self]
    have hblk : (t.info name).validBlkAddr = (s.info name).validBlkAddr := by
      rw [hinfo]
      exact Nat.mod_eq_of_lt (hB ha.1)
    have himg : t.image = s.image.replay fl (appendOps fl s name Q size) := (kept_image ht).trans rfl
    refine ⟨fun _ => by rw [hblk]; exact hB ha.1, _, himg, fun m => ⟨.append ha hl hb ?_, fun h _ => ?_⟩⟩
    · exact withImage_congr ht _
    · rw [hblk, himg]
      exact (h ha.1).replay _
  | @move l _ ha hl hb hfirst ht =>
    have hinfo : t.info name = moveInfo l.blkAddr (s.info name) := by
      rw [kept_info ht, moved_info_self]
    have hblk : (t.info name).validBlkAddr = l.blkAddr := by
      rw [hinfo]
      exact Nat.mod_eq_of_lt (hlow _ hb.1 hb.2.2.2)
    have himg : t.image = s.image.replay fl (moveOps fl s name Q size l.blkAddr) :=
      (kept_image ht).trans rfl
    refine ⟨fun _ => by rw [hblk]; exact hlow _ hb.1 hb.2.2.2, _, himg,
      fun m => ⟨.move ha hl hb hfirst ?_, fun _ _ => ?_⟩⟩
    · exact withImage_congr ht _
    · rw [hblk, himg, moveOps, Image.replay_cons, Image.replay_cons]
      exact (agreeOn_erase fl l.blkAddr m s.image).replay _
  | full ha hb ht =>
    have hinfo : t.info name = stampInfo (s.info name) := by
      rw [kept_info ht, St.stamped, setInfo_info_self]
    have himg : t.image = s.image := (kept_image ht).trans rfl
    refine ⟨by rw [hinfo]; exact hB, [], himg, fun m => ⟨.full ha hb ?_, fun h hv => ?_⟩⟩
    · exact withImage_congr ht _
    · rw [hinfo] at hv ⊢
      rw [himg]
      exact h hv

/-- Nor do they steer a save. -/
lemma Saves.withImage {ret : ℤ} (hs : Saves fl name Q size s ret t)
    (hlow : ∀ b, InReserve fl s.blkStatus b → resStatus fl s.blkStatus b ≠ blockFactoryBad →
      b < 2 ^ 16)
    (hB : (s.info name).argValid = true → (s.info name).validBlkAddr < 2 ^ 16)
    (hm : (s.info name).argValid = true → AgreeOn fl (s.info name).validBlkAddr m s.image) :
    ∃ m', Saves fl name Q size (s.withImage m) ret (t.withImage m') ∧
      ((t.info name).argValid = true → AgreeOn fl (t.info name).validBlkAddr m' t.image) := by
  -- the state after the first of two rounds, and the second round
  have htwo : ∀ {l r u} (_ : Round fl name Q size 0 s (Sum.inr (0, l)) u)
      (_ : Round fl name Q size l.blkAddr (u.setInfo name settled) r t),
      ∃ m₁ m₂, Round fl name Q size 0 (s.withImage m) (Sum.inr (0, l)) (u.withImage m₁) ∧
        Round fl name Q size l.blkAddr ((u.withImage m₁).setInfo name settled) r (t.withImage m₂) ∧
        ((t.info name).argValid = true → AgreeOn fl (t.info name).validBlkAddr m₂ t.image) := by
    intro l r u hr hr'
    obtain ⟨hB', xs, himg, hall⟩ := hr.withImage hlow hB
    obtain ⟨h1, h2⟩ := hall m
    have hinfo : (u.setInfo name settled).info name = settled (u.info name) :=
      setInfo_info_self u name settled
    have hlow' : ∀ b, InReserve fl (u.setInfo name settled).blkStatus b →
        resStatus fl (u.setInfo name settled).blkStatus b ≠ blockFactoryBad → b < 2 ^ 16 := by
      change ∀ b, InReserve fl u.blkStatus b → resStatus fl u.blkStatus b ≠ blockFactoryBad →
        b < 2 ^ 16
      rw [hr.keeps.1]
      exact hlow
    obtain ⟨-, ys, himg', hall'⟩ := hr'.withImage hlow' (by rw [hinfo]; exact hB')
    obtain ⟨h3, h4⟩ := hall' (m.replay fl xs)
    refine ⟨_, _, h1, h3, h4 fun hv => ?_⟩
    rw [hinfo] at hv ⊢
    exact h2 hm hv
  cases hs with
  | refused h => exact ⟨m, .refused h, hm⟩
  | failed h hr =>
    obtain ⟨-, ops, -, hall⟩ := hr.withImage hlow hB
    exact ⟨_, .failed h (hall m).1, (hall m).2 hm⟩
  | once h hty hr =>
    obtain ⟨-, ops, -, hall⟩ := hr.withImage hlow hB
    exact ⟨_, .once h hty (hall m).1, (hall m).2 hm⟩
  | half h hty hr hr' =>
    obtain ⟨m₁, m₂, h1, h2, h3⟩ := htwo hr hr'
    exact ⟨m₂, .half h hty h1 h2, h3⟩
  | twice h hty hr hr' =>
    obtain ⟨m₁, m₂, h1, h2, h3⟩ := htwo hr hr'
    exact ⟨m₂, .twice h hty h1 h2, h3⟩

/-- The page a scan of the block arrives at after a save is the one `arg_info` designates. -/
lemma Stable.copyPage_eq {ret : ℤ} (h : Stable fl name type pages s)
    (hp : type = .fullPage → fl.argPages size = pages) (hfit : CopiesFit fl size (s.info name))
    (hs : Saves fl name Q size s ret t) (h0 : 0 ≤ ret) :
    copyPage fl type name size (t.image.recAt fl (t.info name).validBlkAddr) =
      (t.info name).validPageAddr := by
  obtain ⟨h1, h2⟩ := h.saves hp hfit hs
  have hty := h1.argType
  cases type with
  | fullPage => exact ((h2 h0).2 hty).copyPage_eq
  | fullBlk =>
    have hmove : ∀ {l excl}, Round fl name Q size excl s (Sum.inr (0, l)) t →
        copyPage fl .fullBlk name size (t.image.recAt fl (t.info name).validBlkAddr) =
          (t.info name).validPageAddr := by
      intro l excl hr
      cases hr with
      | append ha _ _ _ => exact absurd (h.argType.symm.trans ha.2.2.1) (by decide)
      | move hna _ hb _ ht =>
        have hlt := (h.agree _ _ hb).bounds
        have hinfo : t.info name = moveInfo l.blkAddr (s.info name) := by
          rw [kept_info ht, moved_info_self]
        have hblk : (t.info name).validBlkAddr = l.blkAddr := by
          rw [hinfo]
          exact Nat.mod_eq_of_lt (by omega)
        have hpage : (t.info name).validPageAddr = 0 := by
          rw [hinfo]
          change (if (s.info name).argValid = true then 0 else (s.info name).validPageAddr) = 0
          rcases h.noRecord_or_holds with hn | ⟨size₀, P, hh⟩
          · rw [hn.page]
            exact ite_self 0
          · exact if_pos hh.valid
        have hne : (s.info name).argValid = true → (s.info name).validBlkAddr ≠ l.blkAddr := by
          intro hv heq
          rcases h.noRecord_or_holds with hn | ⟨size₀, P, hh⟩
          · rw [hn.invalid] at hv
            cases hv
          · have hl := hh.listed
            rw [heq, hb.2.1] at hl
            cases hl
        have hnew := (recAt_moveOps (Q := Q) (b := l.blkAddr)
          (by rw [h.argType]; exact hfit.1.fits h.argType hna) hne).1 0 (argPages_pos fl size)
        have himg : t.image = s.image.replay fl (moveOps fl s name Q size l.blkAddr) :=
          (kept_image ht).trans rfl
        rw [hblk, hpage, himg]
        apply copyPage_fullBlk_first
        · rw [hnew]
          rfl
        · rw [hnew]
          simp [Page.oob, tagged, nextTag]
    cases hs with
    | refused _ => exact absurd h0 (by decide)
    | failed _ hr =>
      cases hr with
      | full _ _ _ => exact absurd h0 (by decide)
    | once _ _ hr => exact hmove hr
    | half _ hfp _ _ => exact absurd (h.argType.symm.trans hfp) (by decide)
    | twice _ hfp _ _ => exact absurd (h.argType.symm.trans hfp) (by decide)

/-- The copy a round writes lies on the record pages. -/
lemma Stable.round_fits {l : SaveLocals} (h : Stable fl name type pages s)
    (hp : type = .fullPage → fl.argPages size = pages) (hfit : CopyFits fl size (s.info name))
    (hr : Round fl name Q size excl s (Sum.inr (0, l)) t) :
    (t.info name).validPageAddr + fl.argPages size ≤ fl.pagesRead := by
  have hAC : fl.argPages size ≤ copyStep fl size := Nat.le_add_right _ _
  cases hr with
  | append ha _ _ ht =>
    have hroom := (h.room hp hfit ha).1
    rw [kept_info ht, appended_info_self]
    have hle := Nat.mod_le ((s.info name).validPageAddr + copyStep fl size) (2 ^ 16)
    change ((s.info name).validPageAddr + copyStep fl size) % 2 ^ 16 + _ ≤ _
    omega
  | move _ _ hb _ ht =>
    have hpages := hfit.1
    rw [kept_info ht, moved_info_self]
    change (if (s.info name).argValid = true then 0 else (s.info name).validPageAddr) + _ ≤ _
    rcases h.noRecord_or_holds with hn | ⟨size₀, P, hh⟩
    · rw [hn.page, ite_self]
      omega
    · rw [if_pos hh.valid]
      omega

/-- So does the copy a save leaves in `arg_info`. -/
lemma Stable.saves_fits {ret : ℤ} (h : Stable fl name type pages s)
    (hp : type = .fullPage → fl.argPages size = pages) (hfit : CopiesFit fl size (s.info name))
    (hs : Saves fl name Q size s ret t) (h0 : 0 ≤ ret) :
    (t.info name).validPageAddr + fl.argPages size ≤ fl.pagesRead := by
  cases hs with
  | refused _ => exact absurd h0 (by decide)
  | failed _ hr =>
    cases hr with
    | full _ _ _ => exact absurd h0 (by decide)
  | once _ _ hr => exact h.round_fits hp hfit.1 hr
  | half _ _ _ hr' =>
    cases hr' with
    | full _ _ _ => exact absurd h0 (by decide)
  | twice _ _ hr hr' =>
    obtain ⟨h1, ⟨ret, hret, -⟩ | ⟨-, h2⟩⟩ := h.round hp hfit.1 hr
    · cases hret
    · exact (h1.settled h2 hp).round_fits hp (h.second_fits hfit hr) hr'

/-- What holds between saves whatever the blocks hold that the record has left. -/
def Solo (fl : Flash) (name : RecName) (type : ArgType) (pages : ℕ) (s : St) : Prop :=
  ∃ m, Stable fl name type pages (s.withImage m) ∧
    ((s.info name).argValid = true → AgreeOn fl (s.info name).validBlkAddr m s.image)

/-- The block of the record is all it depends on. -/
lemma Solo.withImage (h : Solo fl name type pages s)
    (hm : AgreeOn fl (s.info name).validBlkAddr m s.image) :
    Solo fl name type pages (s.withImage m) := by
  obtain ⟨m₀, h1, h2⟩ := h
  exact ⟨m₀, h1, fun hv => (h2 hv).trans hm.symm⟩

/-- The last save: `arg_info` designates a copy of the payload, in a block that a scan takes for a
block of the record and in which it arrives at this copy. -/
structure Designates (fl : Flash) (name : RecName) (type : ArgType) (size : ℕ) (Q : Buf) (s : St) :
    Prop where
  argType : (s.info name).argType = type
  visits : ScanVisits fl s.blkStatus (s.info name).validBlkAddr
  copy : HasCopy fl name size (s.image.recAt fl (s.info name).validBlkAddr)
    (s.info name).validPageAddr Q
  found : ¬Silent fl name size (s.image.recAt fl (s.info name).validBlkAddr)
  page : copyPage fl type name size (s.image.recAt fl (s.info name).validBlkAddr) =
    (s.info name).validPageAddr

/-- **A save** keeps it, and if it succeeds `arg_info` designates what it wrote, whatever the other
blocks hold. -/
lemma Solo.saves {ret : ℤ} (h : Solo fl name type pages s)
    (hp : type = .fullPage → fl.argPages size = pages) (hfit : CopiesFit fl size (s.info name))
    (hs : Saves fl name Q size s ret t) :
    Solo fl name type pages t ∧
      (0 ≤ ret → ∀ m', AgreeOn fl (t.info name).validBlkAddr m' t.image →
        Designates fl name type size Q (t.withImage m')) := by
  obtain ⟨m, hst, hm⟩ := h
  -- a block whose number does not fit a byte is never listed, so the allocator could take it
  have hlow : ∀ b, InReserve fl s.blkStatus b → resStatus fl s.blkStatus b ≠ blockFactoryBad →
      b < 2 ^ 16 := by
    intro b hb hf
    by_contra hge
    have hnot : listed s.reservedBlk b = false := by
      rw [← Bool.not_eq_true]
      intro hl
      have := lt_of_listed hl
      omega
    have := (hst.agree b 0 ⟨hb, hnot, by omega, hf⟩).bounds
    omega
  have hB : (s.info name).argValid = true → (s.info name).validBlkAddr < 2 ^ 16 := by
    intro hv
    rcases hst.noRecord_or_holds with hn | ⟨size₀, P, hh⟩
    · have hno : (s.info name).argValid = false := hn.invalid
      rw [hno] at hv
      cases hv
    · have hlt : (s.info name).validBlkAddr < 255 := hh.visits.bounds.2
      omega
  obtain ⟨m₁, hs', hagree⟩ := hs.withImage hlow hB hm
  obtain ⟨h1, h2⟩ := hst.saves hp hfit hs'
  refine ⟨⟨m₁, h1, hagree⟩, fun h0 m' hm' => ?_⟩
  have hsaved := h2 h0
  have hon : AgreeOn fl (t.info name).validBlkAddr m' m₁ := hm'.trans (hagree hsaved.1.valid).symm
  have hpages : ∀ i < fl.pagesRead, m'.recAt fl (t.info name).validBlkAddr i =
      m₁.recAt fl (t.info name).validBlkAddr i := fun i hi => hon.recAt hi
  constructor
  · exact h1.argType
  · exact hsaved.1.visits
  · refine hsaved.1.copy.congr fun j hj => hpages _ ?_
    have hfits := hst.saves_fits hp hfit hs' h0
    have hlt : j < fl.argPages size := by
      rw [fl.argPages_eq]
      have := (Nat.le_div_iff_mul_le fl.pagesize_pos).2 hj.le
      omega
    change (t.info name).validPageAddr + j < fl.pagesRead
    change (t.info name).validPageAddr + fl.argPages size ≤ fl.pagesRead at hfits
    omega
  · change ¬Silent fl name size (m'.recAt fl (t.info name).validBlkAddr)
    rw [silent_congr hpages]
    exact hsaved.1.found
  · change copyPage fl type name size (m'.recAt fl (t.info name).validBlkAddr) = _
    rw [copyPage_congr type hpages]
    exact hst.copyPage_eq hp hfit hs' h0

end Lossy

/-! ## The latest copy -/

/-- Where a run of saves starts: chips that report no failure and an allocator that picks only blocks
the scan visits. Either there is no valid record and the list of reserved blocks has two free places,
and then the contents of the chips are arbitrary; or the state holds a record and the list has one.
The timestamp is arbitrary. The copies of a `FULL_PAGE` record take `pages` pages. -/
structure Begins (fl : Flash) (name : RecName) (type : ArgType) (pages : ℕ) (s : St) : Prop where
  ready : Ready s
  idle : s.state = .ready
  argType : (s.info name).argType = type
  record : (s.info name).argValid = false ∧ (s.info name).validPageAddr = 0 ∧
      2 ≤ s.reservedBlk.count 0xff ∨
    (0xff : UInt8) ∈ s.reservedBlk ∧
      ∃ size P, Holds fl s name size P ∧ (type = .fullPage → fl.argPages size = pages)
  visits : ∀ b, Candidate fl s.blkStatus s.reservedBlk 0 b → ScanVisits fl s.blkStatus b
  area : ∃ n, ReserveEnd fl s.blkStatus n ∧ n < fl.startBlk + scanFuel

/-- A run of saves under one name, each of which finds room for its copies on the record pages. After
each save the block of the record is as the save has left it; any other block may hold anything, as
the erase of a block the record has left may not have taken effect. -/
inductive LossyRun (fl : Flash) (name : RecName) : St → List (Buf × ℕ) → St → Prop
  | nil (s : St) : LossyRun fl name s [] s
  | cons {s t u : St} {Q : Buf} {size : ℕ} {ret : ℤ} {m : Image} {ps : List (Buf × ℕ)}
      (hfit : CopiesFit fl size (s.info name)) (hsave : saveInfo fl name Q size s = (some ret, t))
      (hm : AgreeOn fl (t.info name).validBlkAddr m t.image)
      (hrest : LossyRun fl name (t.withImage m) ps u) : LossyRun fl name s ((Q, size) :: ps) u

/-- A scan from an `arg_info` that is zero except for its type. -/
def freshCheck (fl : Flash) (name : RecName) (size : ℕ) : Act St ℤ := do
  modifyInfo name fun a => { argType := a.argType }
  amlnandCheckInfoByName fl name size

/-- The scan finds the record at page `v` of block `b`. -/
def Selects (fl : Flash) (name : RecName) (size : ℕ) (s : St) (b v : ℕ) : Prop :=
  ∃ ret t, freshCheck fl name size s = (some ret, t) ∧ (t.info name).argValid = true ∧
    (t.info name).validBlkAddr = b ∧ (t.info name).validPageAddr = v

section Latest

variable {fl : Flash} {name : RecName} {type : ArgType} {pages size b : ℕ} {s t u : St}
  {m : Image} {Q : Buf}

/-- Such a state depends on no block the record has left. -/
lemma Begins.solo (h : Begins fl name type pages s) : Solo fl name type pages s := by
  have hagree : ∀ b excl, Candidate fl s.blkStatus s.reservedBlk excl b →
      ScanVisits fl s.blkStatus b := by
    intro b excl hb
    have hpos := fl.startBlk_pos
    have hge := hb.1.1
    exact h.visits b ⟨hb.1, hb.2.1, by omega, hb.2.2.2⟩
  rcases h.record with ⟨hinvalid, hpage, hfree⟩ | hheld
  · refine ⟨fun _ _ => .erased, ⟨⟨h.ready.calm, h.ready.lock⟩, h.argType, hagree, h.area,
      Or.inl ⟨⟨hinvalid, hpage, fun _ _ _ _ => rfl⟩, hfree⟩⟩, fun hv => ?_⟩
    rw [hinvalid] at hv
    cases hv
  · exact ⟨s.image, ⟨h.ready, h.argType, hagree, h.area, Or.inr hheld⟩, fun _ _ _ => rfl⟩

/-- Every save from such a state does what saves on chips without failures do. -/
lemma Solo.saves_of_run {ret : ℤ} (h : Solo fl name type pages s)
    (hsave : saveInfo fl name Q size s = (some ret, t)) : Saves fl name Q size s ret t := by
  obtain ⟨m, hst, -⟩ := h
  obtain ⟨n, hn, hfuel⟩ := hst.area
  have hready : Ready s := ⟨hst.ready.calm, hst.ready.lock⟩
  obtain ⟨ret', t', ht, hs⟩ := amlnandSaveInfoByName_run fl (blockMarkbadOp fl) name Q size hready
    hn hfuel
  have hsame : (some ret', t') = (some ret, t) := ht.symm.trans hsave
  obtain ⟨hret, rfl⟩ := Prod.mk.inj hsame
  obtain rfl := Option.some.inj hret
  exact hs

/-- A run of saves keeps it. -/
lemma LossyRun.solo {ps : List (Buf × ℕ)} (hrun : LossyRun fl name s ps t)
    (hps : ∀ p ∈ ps, type = .fullPage → fl.argPages p.2 = pages) (h : Solo fl name type pages s) :
    Solo fl name type pages t ∧ t.state = s.state := by
  induction hrun with
  | nil s => exact ⟨h, rfl⟩
  | cons hfit hsave hm _ ih =>
    have hs := h.saves_of_run hsave
    obtain ⟨h1, -⟩ := h.saves (hps _ List.mem_cons_self) hfit hs
    obtain ⟨h2, h3⟩ := ih (fun p hp => hps p (List.mem_cons_of_mem _ hp)) (h1.withImage hm)
    exact ⟨h2, h3.trans hs.state_eq⟩

/-- **Where a fresh scan arrives** on chips that report no failure. -/
lemma selects_iff {v : ℕ} (hs : Ready s) (hst : s.state = .ready) :
    Selects fl name size s b v ↔
      let a := checkInfo fl s.blkStatus name size (s.image.recAt fl)
        { argType := (s.info name).argType }
      a.argValid = true ∧ a.validBlkAddr = b ∧ a.validPageAddr = v := by
  obtain ⟨ret, t, ht, htk, -⟩ := amlnandCheckInfoByName_run fl name size
    (hs.setInfo name fun a => { argType := a.argType }) hst
  have hti : t.info name = checkInfo fl s.blkStatus name size (s.image.recAt fl)
      { argType := (s.info name).argType } := by
    rw [kept_info htk, checked_info_self, setInfo_info_self]
    rfl
  have hrun : freshCheck fl name size s = (some ret, t) := by
    rw [freshCheck, modifyInfo_bind, ht]
  rw [Selects, hrun, ← hti]
  constructor
  · rintro ⟨ret', t', h, h1⟩
    obtain ⟨-, rfl⟩ := Prod.mk.inj h
    exact h1
  · exact fun h => ⟨ret, t, rfl, h⟩

/-- **When the latest copy wins.** After any run of saves of one record, whichever erases of blocks
the record has left did not take effect, the last save has left a copy of its payload at the place
`arg_info` designates, and a fresh scan selects that place exactly when the block is the newest: the
first one under the name for a `FULL_BLK` record, the one with the greatest timestamp for a
`FULL_PAGE` record. -/
theorem fresh_scan_latest_iff (hs : Begins fl name type pages s) {ps : List (Buf × ℕ)}
    (hps : ∀ p ∈ ps, type = .fullPage → fl.argPages p.2 = pages)
    (hp : type = .fullPage → fl.argPages size = pages) (hrun : LossyRun fl name s ps t)
    (hfit : CopiesFit fl size (t.info name)) {ret : ℤ}
    (hsave : saveInfo fl name Q size t = (some ret, u)) (hret : 0 ≤ ret)
    (hm : AgreeOn fl (u.info name).validBlkAddr m u.image) :
    HasCopy fl name size (m.recAt fl (u.info name).validBlkAddr) (u.info name).validPageAddr Q ∧
      (Selects fl name size (u.withImage m) (u.info name).validBlkAddr
          (u.info name).validPageAddr ↔
        Newest fl type u.blkStatus name size (m.recAt fl) (u.info name).validBlkAddr) := by
  obtain ⟨hsolo, hstate⟩ := hrun.solo hps hs.solo
  have hsv := hsolo.saves_of_run hsave
  obtain ⟨⟨m₁, hst, -⟩, hdes⟩ := hsolo.saves hp hfit hsv
  have hd := hdes hret m hm
  have hready : Ready (u.withImage m) := ⟨hst.ready.calm, hst.ready.lock⟩
  have hidle : (u.withImage m).state = .ready := hsv.state_eq.trans (hstate.trans hs.idle)
  refine ⟨hd.copy, ?_⟩
  rw [selects_iff hready hidle, hd.argType]
  exact checkInfo_iff type hd.visits hd.found hd.page

end Latest

/-- Blank chips are a state to begin in. -/
lemma begins_blank (name : RecName) (pages : ℕ) :
    Begins .oneChip name (argTypeOf name) pages St.blank := by
  have h := start_blank name pages
  refine ⟨h.ready, h.idle, rfl, Or.inl ⟨rfl, rfl, ?_⟩, h.visits, h.area⟩
  exact show 2 ≤ (List.replicate 48 0xff).count (0xff : UInt8) by simp

/-- Two saves of an environment of one page on blank chips. -/
theorem fresh_scan_latest_blank :
    ∃ t u, saveInfo .oneChip .nenv (fun _ => 1) 100 St.blank = (some 0, t) ∧
      saveInfo .oneChip .nenv (fun _ => 2) 200 t = (some 0, u) ∧
      (Selects .oneChip .nenv 200 u (u.info .nenv).validBlkAddr (u.info .nenv).validPageAddr ↔
        Newest .oneChip .fullPage u.blkStatus .nenv 200 (u.image.recAt .oneChip)
          (u.info .nenv).validBlkAddr) := by
  obtain ⟨t, ht, u, hu⟩ : ∃ t, saveInfo .oneChip .nenv (fun _ => 1) 100 St.blank = (some 0, t) ∧
      ∃ u, saveInfo .oneChip .nenv (fun _ => 2) 200 t = (some 0, u) :=
    exists_of_run (by decide +kernel) (exists_of_returned (by decide +kernel))
  have hsz : ∀ {size}, size < 8192 → Storable .oneChip .fullPage 1 size := storable_oneChip
  have hps : ∀ p ∈ [((fun _ => 1 : Buf), 100)],
      ArgType.fullPage = .fullPage → Flash.oneChip.argPages p.2 = 1 := by
    intro p hp
    obtain rfl := List.mem_singleton.1 hp
    exact (hsz (by decide)).samePages
  have hs := start_blank .nenv 1
  have horder := hs.orderly (hasPlace_blank .nenv)
  have hfit := horder.copiesFit (hsz (show 100 < 8192 by decide))
  obtain ⟨ret, t', ht', horder', -⟩ :=
    horder.saveInfo_run (hsz (show 100 < 8192 by decide)).samePages hfit fun _ => 1
  obtain rfl : t' = t := (Prod.mk.inj (ht'.symm.trans ht)).2
  have hfit' := horder'.copiesFit (hsz (show 200 < 8192 by decide))
  have hrun : LossyRun .oneChip .nenv St.blank [((fun _ => 1 : Buf), 100)] t' :=
    .cons hfit ht (fun _ _ => rfl) (.nil _)
  exact ⟨t', u, ht, hu, (fresh_scan_latest_iff (begins_blank .nenv 1) hps (hsz (by decide)).samePages
    hrun hfit' hu (le_refl 0) fun _ _ => rfl).2⟩

/-- The state with the block the record had in `t` as it was there: its erase has not taken effect. -/
def St.lostErase (u : St) (fl : Flash) (name : RecName) (t : St) : St :=
  u.withImage fun c p =>
    if c = fl.resChip (t.info name).validBlkAddr ∧
        p / fl.ppb = fl.resRow (t.info name).validBlkAddr then t.image c p
    else u.image c p

/-- Two saves of a `FULL_BLK` record on blank chips: the second moves from block 4 to block 5, and
when the erase of block 4 is lost a fresh scan stops there. -/
theorem fresh_scan_takes_stale :
    ¬∀ t u : St, saveInfo .h27ucg8t2a .ncnf (fun _ => 1) 524289 St.blank = (some 0, t) →
      saveInfo .h27ucg8t2a .ncnf (fun _ => 2) 524289 t = (some 0, u) →
      Selects .h27ucg8t2a .ncnf 524289 (u.lostErase .h27ucg8t2a .ncnf t)
        (u.info .ncnf).validBlkAddr (u.info .ncnf).validPageAddr := by
  intro h
  obtain ⟨t, ht, u, hu, hblk, hstale⟩ : ∃ t,
      saveInfo .h27ucg8t2a .ncnf (fun _ => 1) 524289 St.blank = (some 0, t) ∧ ∃ u,
        saveInfo .h27ucg8t2a .ncnf (fun _ => 2) 524289 t = (some 0, u) ∧
        (u.info .ncnf).validBlkAddr = 5 ∧ ((freshCheck .h27ucg8t2a .ncnf 524289
          (u.lostErase .h27ucg8t2a .ncnf t)).2.info .ncnf).validBlkAddr = 4 := by
    refine exists_of_run ?_ (exists_of_run ?_ ?_) <;> decide +kernel
  obtain ⟨ret, w, hw, -, hsel, -⟩ := h t u ht hu
  rw [hw] at hstale
  rw [hblk] at hsel
  exact absurd (hsel.symm.trans hstale) (by decide)

end Amlnf
