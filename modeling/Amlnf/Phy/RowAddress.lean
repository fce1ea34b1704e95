import Amlnf.Phy.IdTable

set_option relaxedAutoImplicit false
set_option autoImplicit false

/-!
# Row addresses

The row addresses `read_page`, `write_page` and `erase_block` send to the chip. A page past the
first internal die is folded: the pages of one die are subtracted and a multiple of them is put in
by a bitwise or. With two planes, the block number is doubled after the fold.

## Main definitions

* `ChipId.fold`, `ChipId.rowAddrs` — the fold, and the rows an operation sends.
* `readPageRows`, `writePageRows`, `eraseBlockRows` — the rows of the three operations.

## Main results

* `rows_distinct_iff` — when different pages get different rows.
* `rows_agree_iff` — when access by one plane and by two planes reach the same page.
-/

namespace Amlnf

/-! ## The arithmetic of the operations -/

/-- A row address goes out in three cycles of eight bits. -/
def addrCycles (row : ℕ) : ℕ := row % 2 ^ 24

namespace ChipId

variable (c : ChipId)

/-- `controller->page_addr` after the fold of the internal dies. -/
def fold (pageAddr : ℕ) : ℕ :=
  if c.internalPageNums ≤ pageAddr then
    (pageAddr - c.internalPageNums) ||| (c.internalPageNums * c.flash.internalChipnr) % 2 ^ 32
  else
    pageAddr

/-- `plane0_page_addr` and `plane1_page_addr`. -/
def planeAddr (shift pageAddr plane : ℕ) : ℕ :=
  let planePageAddr := pageAddr &&& (1 <<< shift - 1)
  let planeBlkAddr := (pageAddr >>> shift) <<< 1
  ((planeBlkAddr + plane) <<< shift) ||| planePageAddr

/-- The rows an operation sends, one for each plane. -/
def rowAddrs (shift : ℕ) (multiPlane : Bool) (pageAddr : ℕ) : List ℕ :=
  if multiPlane then
    [addrCycles (planeAddr shift (c.fold pageAddr) 0),
      addrCycles (planeAddr shift (c.fold pageAddr) 1)]
  else
    [addrCycles (c.fold pageAddr)]

end ChipId

/-- The rows `read_page` sends. -/
def readPageRows (c : ChipId) : Bool → ℕ → List ℕ := c.rowAddrs (c.blockShift - c.pageShift)

/-- The rows `write_page` sends. -/
def writePageRows (c : ChipId) : Bool → ℕ → List ℕ := c.rowAddrs (c.blockShift - c.pageShift)

/-- The rows `erase_block` sends; it takes the pages of a block from the sizes. -/
def eraseBlockRows (c : ChipId) : Bool → ℕ → List ℕ :=
  c.rowAddrs (ffs c.flash.blocksize - ffs c.flash.pagesize)

/-- The rows of all three. -/
def rowMaps (c : ChipId) : List (Bool → ℕ → List ℕ) :=
  [readPageRows c, writePageRows c, eraseBlockRows c]

/-! ## A bitwise or that is no addition -/

/-- The lowest set bit of a number is absorbed by it. -/
lemma two_pow_or_mul_odd (v m : ℕ) (hm : m % 2 = 1) : 2 ^ v ||| 2 ^ v * m = 2 ^ v * m := by
  have hlt : 2 ^ v < 2 ^ (v + 1) := Nat.pow_lt_pow_right (by decide) (Nat.lt_succ_self v)
  have hsplit : 2 ^ v * m = 2 ^ (v + 1) * (m / 2) ||| 2 ^ v := by
    rw [← Nat.two_pow_add_eq_or_of_lt hlt]
    calc 2 ^ v * m = 2 ^ v * (2 * (m / 2) + 1) := by rw [← hm, Nat.div_add_mod]
      _ = 2 ^ (v + 1) * (m / 2) + 2 ^ v := by ring
  rw [hsplit, Nat.or_comm, Nat.or_assoc, Nat.or_self]

/-- Two numbers below `d` that a bitwise or with `2 * d` does not tell apart, unless `d` is a power
of two. -/
lemma exists_or_eq_or {d : ℕ} (hd : 0 < d) (hpow : ¬∃ k, d = 2 ^ k) :
    ∃ x < d, x ≠ 0 ∧ x ||| 2 * d = 0 ||| 2 * d := by
  obtain ⟨v, m, hm, rfl⟩ := Nat.exists_eq_two_pow_mul_odd hd.ne'
  have hodd := Nat.odd_iff.mp hm
  have hone : m ≠ 1 := fun h => hpow ⟨v, by rw [h, Nat.mul_one]⟩
  have hpos : 0 < 2 ^ v := Nat.two_pow_pos v
  refine ⟨2 ^ (v + 1), ?_, (Nat.two_pow_pos _).ne', ?_⟩
  · calc 2 ^ (v + 1) = 2 ^ v * 2 := pow_succ 2 v
      _ < 2 ^ v * m := Nat.mul_lt_mul_of_pos_left (by omega) hpos
  · rw [← Nat.mul_assoc, ← pow_succ', two_pow_or_mul_odd _ _ hodd, Nat.zero_or]

/-! ## Different pages -/

/-- Different pages have different rows, and the pages of a block stay in a block. -/
def RowsDistinct (c : ChipId) : Prop :=
  ∀ rows ∈ rowMaps c, Set.InjOn (rows false) (Set.Iio c.pages) ∧
    ∀ p < c.pages, ∀ q < c.pages, p / c.ppb = q / c.ppb →
      (rows false p).map (· / c.ppb) = (rows false q).map (· / c.ppb)

namespace ChipId

variable {c : ChipId}

lemma ppb_eq (c : ChipId) : c.ppb = 2 ^ (c.blockShift - c.pageShift) := Nat.one_shiftLeft _

lemma ppb_pos (c : ChipId) : 0 < c.ppb := by
  rw [ppb_eq]
  exact Nat.two_pow_pos _

/-- With one die nothing is folded. -/
lemma fold_of_le_one (hc : c.WellFormed) (hn : c.flash.internalChipnr ≤ 1) {p : ℕ}
    (hp : p < c.pages) : c.fold p = p := by
  unfold fold
  rcases hc.dies with ⟨hn, hI⟩ | ⟨hn, hI⟩ | ⟨hn, hI⟩
  · rw [hI, if_pos (Nat.zero_le _), Nat.zero_mul, Nat.zero_mod, Nat.or_zero, Nat.sub_zero]
  · rw [hI, if_neg (Nat.not_le.mpr hp)]
  · omega

lemma two_dies (hc : c.WellFormed) (hn : ¬c.flash.internalChipnr ≤ 1) :
    c.flash.internalChipnr = 2 ∧ c.pages = 2 * c.internalPageNums ∧
      c.internalPageNums % c.ppb = 0 ∧ 0 < c.internalPageNums := by
  rcases hc.dies with ⟨h, -⟩ | ⟨h, -⟩ | h
  · omega
  · omega
  · exact h

/-- With two dies the second one is folded. -/
lemma fold_of_two (hc : c.WellFormed) (hn : ¬c.flash.internalChipnr ≤ 1) (p : ℕ) :
    c.fold p = if c.internalPageNums ≤ p then (p - c.internalPageNums) ||| 2 * c.internalPageNums
      else p := by
  have hle := hc.pages_le
  obtain ⟨h, hI, -⟩ := two_dies hc hn
  unfold fold
  rw [h, Nat.mul_comm c.internalPageNums, Nat.mod_eq_of_lt (by omega)]

/-- A folded page fits the address cycles. -/
lemma fold_lt (hc : c.WellFormed) {p : ℕ} (hp : p < c.pages) : c.fold p < 2 ^ 24 := by
  have hle := hc.pages_le
  by_cases hn : c.flash.internalChipnr ≤ 1
  · rw [fold_of_le_one hc hn hp]
    omega
  · obtain ⟨-, hI, -⟩ := two_dies hc hn
    rw [fold_of_two hc hn]
    split
    · exact Nat.or_lt_two_pow (by omega) (by omega)
    · omega

/-- The fold keeps the pages of a block together. -/
lemma fold_div (hc : c.WellFormed) {p q : ℕ} (hp : p < c.pages) (hq : q < c.pages)
    (h : p / c.ppb = q / c.ppb) : c.fold p / c.ppb = c.fold q / c.ppb := by
  by_cases hn : c.flash.internalChipnr ≤ 1
  · rw [fold_of_le_one hc hn hp, fold_of_le_one hc hn hq, h]
  · obtain ⟨d, hd⟩ := Nat.dvd_of_mod_eq_zero (two_dies hc hn).2.2.1
    have hpos := c.ppb_pos
    have hside : c.internalPageNums ≤ p ↔ c.internalPageNums ≤ q := by
      rw [hd, Nat.mul_comm, ← Nat.le_div_iff_mul_le hpos, ← Nat.le_div_iff_mul_le hpos, h]
    have hor : ∀ x, (x ||| 2 * c.internalPageNums) / c.ppb =
        x / c.ppb ||| 2 * c.internalPageNums / c.ppb := by
      intro x
      simp only [ppb_eq, ← Nat.shiftRight_eq_div_pow, Nat.shiftRight_or_distrib]
    rw [fold_of_two hc hn, fold_of_two hc hn]
    by_cases hle : c.internalPageNums ≤ p
    · rw [if_pos hle, if_pos (hside.mp hle), hor, hor, hd, Nat.sub_mul_div, Nat.sub_mul_div, h]
    · rw [if_neg hle, if_neg (mt hside.mpr hle), h]

/-- The fold tells pages apart if the pages of a die are a power of two. -/
lemma fold_inj_of_two_pow (hc : c.WellFormed)
    (h : c.flash.internalChipnr ≤ 1 ∨ ∃ k, c.internalPageNums = 2 ^ k) {p q : ℕ}
    (hp : p < c.pages) (hq : q < c.pages) (heq : c.fold p = c.fold q) : p = q := by
  by_cases hn : c.flash.internalChipnr ≤ 1
  · rwa [fold_of_le_one hc hn hp, fold_of_le_one hc hn hq] at heq
  · obtain ⟨k, hk⟩ := h.resolve_left hn
    obtain ⟨-, hI, -⟩ := two_dies hc hn
    have hor : ∀ x < c.internalPageNums, x ||| 2 * c.internalPageNums =
        2 * c.internalPageNums + x := by
      intro x hx
      rw [hk] at hx ⊢
      have hlt : x < 2 ^ (k + 1) := hx.trans (Nat.pow_lt_pow_right (by decide) k.lt_succ_self)
      have hadd := Nat.two_pow_add_eq_or_of_lt hlt 1
      rw [← pow_succ', Nat.or_comm]
      rw [Nat.mul_one] at hadd
      exact hadd.symm
    rw [fold_of_two hc hn, fold_of_two hc hn] at heq
    by_cases hp' : c.internalPageNums ≤ p <;> by_cases hq' : c.internalPageNums ≤ q
    · rw [if_pos hp', if_pos hq', hor _ (by omega), hor _ (by omega)] at heq
      omega
    · rw [if_pos hp', if_neg hq', hor _ (by omega)] at heq
      omega
    · rw [if_neg hp', if_pos hq', hor _ (by omega)] at heq
      omega
    · rwa [if_neg hp', if_neg hq'] at heq

/-- Else the first page of the second die shares its row with another. -/
lemma exists_fold_eq (hc : c.WellFormed) (hn : ¬c.flash.internalChipnr ≤ 1)
    (hpow : ¬∃ k, c.internalPageNums = 2 ^ k) :
    ∃ p < c.pages, ∃ q < c.pages, p ≠ q ∧ c.fold p = c.fold q := by
  obtain ⟨-, hI, -, hpos⟩ := two_dies hc hn
  obtain ⟨x, hx, hx0, hor⟩ := exists_or_eq_or hpos hpow
  refine ⟨c.internalPageNums + x, by omega, c.internalPageNums, by omega, by omega, ?_⟩
  rw [fold_of_two hc hn, fold_of_two hc hn, if_pos (by omega), if_pos le_rfl,
    Nat.add_sub_cancel_left, Nat.sub_self, hor]

/-- What the operations send for a page in single-plane mode. -/
lemma rows_false (hc : c.WellFormed) {rows : Bool → ℕ → List ℕ} (h : rows ∈ rowMaps c) {p : ℕ}
    (hp : p < c.pages) : rows false p = [c.fold p] := by
  have hmod : addrCycles (c.fold p) = c.fold p := Nat.mod_eq_of_lt (fold_lt hc hp)
  simp only [rowMaps, List.mem_cons, List.not_mem_nil, or_false] at h
  rcases h with rfl | rfl | rfl
  · exact congrArg (fun x => [x]) hmod
  · exact congrArg (fun x => [x]) hmod
  · exact congrArg (fun x => [x]) hmod

end ChipId

/-- Different pages are sent different rows exactly when the chip has one die or the pages of a
die are a power of two: only then is the bitwise or an addition. -/
theorem rows_distinct_iff {devId : List ℕ} {extid : ℕ} {c : ChipId}
    (h : getFlashType devId extid = some c) :
    RowsDistinct c ↔ c.flash.internalChipnr ≤ 1 ∨ ∃ k, c.internalPageNums = 2 ^ k := by
  have hc := getFlashType_wellFormed h
  constructor
  · intro hrows
    by_contra hcon
    obtain ⟨hn, hpow⟩ := not_or.mp hcon
    obtain ⟨p, hp, q, hq, hne, heq⟩ := ChipId.exists_fold_eq hc hn hpow
    have hmem : readPageRows c ∈ rowMaps c := List.mem_cons_self
    refine hne ((hrows _ hmem).1 hp hq ?_)
    rw [ChipId.rows_false hc hmem hp, ChipId.rows_false hc hmem hq, heq]
  · intro hcond rows hmem
    refine ⟨fun p hp q hq heq => ?_, fun p hp q hq hdiv => ?_⟩
    · rw [ChipId.rows_false hc hmem hp, ChipId.rows_false hc hmem hq] at heq
      exact ChipId.fold_inj_of_two_pow hc hcond hp hq (List.singleton_inj.mp heq)
    · rw [ChipId.rows_false hc hmem hp, ChipId.rows_false hc hmem hq, List.map_singleton,
        List.map_singleton, ChipId.fold_div hc hp hq hdiv]

/-- The two dies of the 16 GiB TC58TEG7DCJTA00. -/
theorem rows_distinct_toshiba : ∃ c, getFlashType [0x98, 0x3a, 0x85, 0x93, 0x76, 0x57] 0 = some c ∧
    c.flash.internalChipnr = 2 ∧ RowsDistinct c := by
  obtain ⟨c, hc, hn, hI⟩ : ∃ c, getFlashType [0x98, 0x3a, 0x85, 0x93, 0x76, 0x57] 0 = some c ∧
      c.flash.internalChipnr = 2 ∧ c.internalPageNums = 2 ^ 19 :=
    ⟨_, rfl, rfl, by decide +kernel⟩
  exact ⟨c, hc, hn, (rows_distinct_iff hc).mpr (.inr ⟨19, hI⟩)⟩

/-- The dies of the TH58NVG7D2FTA20 have 524800 pages: the first page of its second die shares
its row with the page 1024 pages on. -/
theorem not_rows_distinct_toshiba :
    ∃ c, getFlashType [0x98, 0xde, 0x95, 0x32, 0x7a, 0x55] 0 = some c ∧
      524800 < c.pages ∧ 525824 < c.pages ∧
      readPageRows c false 524800 = readPageRows c false 525824 ∧ ¬RowsDistinct c := by
  refine ⟨_, rfl, by decide +kernel, by decide +kernel, by decide +kernel, fun hrows => ?_⟩
  have hinj : (524800 : ℕ) = 525824 := (hrows _ List.mem_cons_self).1
    (Set.mem_Iio.mpr (by decide +kernel)) (Set.mem_Iio.mpr (by decide +kernel)) (by decide +kernel)
  exact absurd hinj (by decide)

/-! ## One plane and two planes -/

/-- The two planes of a page share its place in the block. -/
lemma planeAddr_eq {s blk q k : ℕ} (hq : q < 2 ^ s) :
    ChipId.planeAddr s (blk * 2 ^ s + q) k = (2 * blk + k) * 2 ^ s + q := by
  have hdiv : (blk * 2 ^ s + q) >>> s = blk := by
    rw [Nat.shiftRight_eq_div_pow, Nat.add_comm, Nat.add_mul_div_right _ _ (Nat.two_pow_pos s),
      Nat.div_eq_of_lt hq, Nat.zero_add]
  have hmod : (blk * 2 ^ s + q) &&& (1 <<< s - 1) = q := by
    rw [Nat.one_shiftLeft, Nat.and_two_pow_sub_one_eq_mod, Nat.add_comm,
      Nat.add_mul_mod_self_right, Nat.mod_eq_of_lt hq]
  unfold ChipId.planeAddr
  dsimp only
  rw [hdiv, hmod, Nat.shiftLeft_eq, Nat.shiftLeft_eq, pow_one, Nat.mul_comm _ (2 ^ s),
    ← Nat.two_pow_add_eq_or_of_lt hq, Nat.mul_comm blk, Nat.mul_comm (2 ^ s)]

/-- Access to page `q` of block `b` by one plane sends the row that access by two planes sends for
that block. -/
def RowsAgree (c : ChipId) (b q : ℕ) : Prop :=
  ∀ rows ∈ rowMaps c, rows false (b * c.ppb + q) =
    ((rows true (b / 2 * c.ppb + q))[b % 2]?).toList

namespace ChipId

variable {c : ChipId}

/-- What the operations send for one plane of a page that is not folded. -/
lemma rows_true (hc : c.WellFormed) {rows : Bool → ℕ → List ℕ} (h : rows ∈ rowMaps c) {b q : ℕ}
    (hq : q < c.ppb) (hp : b * c.ppb + q < c.pages)
    (hfold : c.fold (b / 2 * c.ppb + q) = b / 2 * c.ppb + q) :
    (rows true (b / 2 * c.ppb + q))[b % 2]? = some (b * c.ppb + q) := by
  have hle := hc.pages_le
  have hrow : ∀ k, 2 * (b / 2) + k ≤ b →
      addrCycles (planeAddr (c.blockShift - c.pageShift) (c.fold (b / 2 * c.ppb + q)) k) =
        (2 * (b / 2) + k) * c.ppb + q := by
    intro k hk
    have hmul := Nat.mul_le_mul_right c.ppb hk
    rw [hfold, ppb_eq, planeAddr_eq (c.ppb_eq ▸ hq), ← ppb_eq]
    exact Nat.mod_eq_of_lt (by omega)
  have hrows : (c.rowAddrs (c.blockShift - c.pageShift) true (b / 2 * c.ppb + q))[b % 2]? =
      some (b * c.ppb + q) := by
    unfold rowAddrs
    rw [if_pos rfl]
    rcases Nat.mod_two_eq_zero_or_one b with hb | hb
    · rw [hb, List.getElem?_cons_zero, hrow 0 (by omega), Nat.add_zero, Nat.two_mul_div_two_of_even
        (Nat.even_iff.mpr hb)]
    · rw [hb, List.getElem?_cons_succ, List.getElem?_cons_zero, hrow 1 (by omega),
        Nat.two_mul_div_two_add_one_of_odd (Nat.odd_iff.mpr hb)]
  simp only [rowMaps, List.mem_cons, List.not_mem_nil, or_false] at h
  rcases h with rfl | rfl | rfl
  · exact hrows
  · exact hrows
  · unfold eraseBlockRows
    rw [hc.ffs_sub]
    exact hrows

/-- Access by two planes never reaches the second die: its page numbers stay below the pages of
the first. -/
lemma fold_half (hc : c.WellFormed) {b q : ℕ} (hq : q < c.ppb) (hp : b * c.ppb + q < c.pages) :
    c.fold (b / 2 * c.ppb + q) = b / 2 * c.ppb + q := by
  have hmul := Nat.mul_le_mul_right c.ppb (Nat.div_le_self b 2)
  by_cases hn : c.flash.internalChipnr ≤ 1
  · exact fold_of_le_one hc hn (by omega)
  · obtain ⟨-, hI, hdvd, -⟩ := two_dies hc hn
    obtain ⟨d, hd⟩ := Nat.dvd_of_mod_eq_zero hdvd
    have hb : b < 2 * d := by
      refine Nat.lt_of_mul_lt_mul_right (a := c.ppb) ?_
      calc b * c.ppb < c.pages := by omega
        _ = 2 * d * c.ppb := by rw [hI, hd, Nat.mul_comm c.ppb d, Nat.mul_assoc]
    have hhalf : (b / 2 + 1) * c.ppb ≤ d * c.ppb := Nat.mul_le_mul_right _ (by omega)
    rw [Nat.succ_mul, Nat.mul_comm d, ← hd] at hhalf
    rw [fold_of_two hc hn, if_neg (by omega)]

end ChipId

/-- Access by one plane and by two planes reach the same page exactly on chips with one die and in
the first die of the others. -/
theorem rows_agree_iff {devId : List ℕ} {extid : ℕ} {c : ChipId}
    (h : getFlashType devId extid = some c) {b q : ℕ} (hq : q < c.ppb)
    (hp : b * c.ppb + q < c.pages) :
    RowsAgree c b q ↔ c.flash.internalChipnr ≤ 1 ∨ b * c.ppb + q < c.internalPageNums := by
  have hc := getFlashType_wellFormed h
  have hagree : RowsAgree c b q ↔ c.fold (b * c.ppb + q) = b * c.ppb + q := by
    have hrows : ∀ rows ∈ rowMaps c, rows false (b * c.ppb + q) =
        ((rows true (b / 2 * c.ppb + q))[b % 2]?).toList ↔
          c.fold (b * c.ppb + q) = b * c.ppb + q := by
      intro rows hmem
      rw [ChipId.rows_false hc hmem hp,
        ChipId.rows_true hc hmem hq hp (ChipId.fold_half hc hq hp)]
      exact List.singleton_inj
    exact ⟨fun hall => (hrows _ List.mem_cons_self).mp (hall _ List.mem_cons_self),
      fun heq rows hmem => (hrows rows hmem).mpr heq⟩
  rw [hagree]
  by_cases hn : c.flash.internalChipnr ≤ 1
  · exact ⟨fun _ => .inl hn, fun _ => ChipId.fold_of_le_one hc hn hp⟩
  · obtain ⟨-, hI, -, -⟩ := ChipId.two_dies hc hn
    rw [ChipId.fold_of_two hc hn]
    constructor
    · intro heq
      refine .inr (Nat.lt_of_not_le fun hle => ?_)
      have hge : 2 * c.internalPageNums ≤
          (b * c.ppb + q - c.internalPageNums) ||| 2 * c.internalPageNums := Nat.right_le_or
      rw [if_pos hle] at heq
      omega
    · intro hcond
      rw [if_neg (Nat.not_le.mpr (hcond.resolve_left hn))]

/-- A block of the first die of the MT29F256G-C. -/
theorem rows_agree_micron : ∃ c, getFlashType [0x2c, 0xa8, 0x05, 0xcb, 0xa9] 0 = some c ∧
    c.flash.internalChipnr = 2 ∧ RowsAgree c 17 3 := by
  obtain ⟨c, hc, hn, hq, hp, hI⟩ : ∃ c, getFlashType [0x2c, 0xa8, 0x05, 0xcb, 0xa9] 0 = some c ∧
      c.flash.internalChipnr = 2 ∧ 3 < c.ppb ∧ 17 * c.ppb + 3 < c.pages ∧
      17 * c.ppb + 3 < c.internalPageNums :=
    ⟨_, rfl, rfl, by decide +kernel, by decide +kernel, by decide +kernel⟩
  exact ⟨c, hc, hn, (rows_agree_iff hc hq hp).mpr (.inr hI)⟩

/-- Block 4096 of the MT29F256G-C, the first of its second die: access by one plane sends row
2097152, access by two planes row 1048576. -/
theorem not_rows_agree_micron : ∃ c, getFlashType [0x2c, 0xa8, 0x05, 0xcb, 0xa9] 0 = some c ∧
    4096 * c.ppb < c.pages ∧ readPageRows c false (4096 * c.ppb) = [2097152] ∧
    readPageRows c true (2048 * c.ppb) = [1048576, 1048832] ∧ ¬RowsAgree c 4096 0 := by
  refine ⟨_, rfl, by decide +kernel, by decide +kernel, by decide +kernel, fun hagree => ?_⟩
  exact absurd (hagree _ List.mem_cons_self) (by decide +kernel)

end Amlnf
