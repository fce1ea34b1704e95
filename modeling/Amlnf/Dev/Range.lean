import Mathlib.Data.Nat.ModEq
import Amlnf.Dev.Phydev
import Amlnf.Phy.Calm
import Amlnf.Phy.Steps

set_option relaxedAutoImplicit false
set_option autoImplicit false

/-!
# Requests and the range of a device

A request to a device is checked against the size of the device and then walked through in
pages or blocks. Which pages and blocks reach the chip operations is decided by the check,
which adds address and length in 64 bits, and by the walk, which makes at least one step.

## Main definitions

* `Phydev.Placed` — a device in modes of the chips, at a block-aligned place of the chips.
* `DevEntry`, `DevEntry.run` — the five requests of a device.
* `handedBy` — what an action hands to the chip operations.
* `Contained` — everything a request hands on lies inside the device, and a refused request
  does nothing.
* `DevEntry.Sound` — the requests that are contained.

## Main results

* `contained_iff_sound` — a request is contained exactly when it is sound.

## Design

`Phydev.Lands` says where a byte address ends up once the page number has been cut to 32 bits;
for a placed device it decides both for pages and for blocks. `Walk` is what the three loops
have in common, so that what they hand on is determined once.
-/

namespace Amlnf

open Act

/-! ## Places on the chips -/

/-- A device whose write and erase sizes are those of a mode of the chips, at a place aligned
to its erase size. -/
structure Phydev.Placed (fl : Flash) (dev : Phydev) : Prop where
  shift_ge : fl.pageShift ≤ dev.writesizeShift
  shift_le : dev.writesizeShift ≤ fl.pageShift + 3
  writesize_dvd : 2 ^ dev.writesizeShift ∣ dev.writesize
  writesize_pos : 0 < dev.writesize
  writesize_le : dev.writesize ≤ 8 * fl.pagesize
  erasesize_eq : dev.erasesize = dev.writesize * fl.ppb
  offset_dvd : dev.erasesize ∣ dev.offset
  size_dvd : dev.erasesize ∣ dev.size
  /-- `amlnand_phydev_init` refuses a device that leaves the chips. -/
  fits : dev.offset + dev.size ≤ chipBytes fl

/-- The page with number `p` in the mode of the device lies inside it. -/
def Phydev.PageIn (dev : Phydev) (p : ℕ) : Prop :=
  dev.offset ≤ p * 2 ^ dev.writesizeShift ∧
    (p + 1) * 2 ^ dev.writesizeShift ≤ dev.offset + dev.size

/-- The block that holds page `p` lies inside the device. -/
def Phydev.BlockIn (fl : Flash) (dev : Phydev) (p : ℕ) : Prop :=
  dev.offset ≤ p / fl.ppb * (fl.ppb * 2 ^ dev.writesizeShift) ∧
    (p / fl.ppb + 1) * (fl.ppb * 2 ^ dev.writesizeShift) ≤ dev.offset + dev.size

/-- Byte address `a`, as far as 32 bits of page number keep it, lies inside the device. -/
def Phydev.Lands (dev : Phydev) (a : ℕ) : Prop :=
  dev.offset ≤ a % 2 ^ (dev.writesizeShift + 32) ∧
    a % 2 ^ (dev.writesizeShift + 32) < dev.offset + dev.size

instance (dev : Phydev) (p : ℕ) : Decidable (dev.PageIn p) := inferInstanceAs (Decidable (_ ∧ _))

instance (fl : Flash) (dev : Phydev) (p : ℕ) : Decidable (dev.BlockIn fl p) :=
  inferInstanceAs (Decidable (_ ∧ _))

/-- A unit of `u` bytes at `n` lies between two multiples of `u` exactly when a byte of it
does. -/
lemma unit_between {u o e x : ℕ} (hu : 0 < u) (ho : u ∣ o) (he : u ∣ e) :
    (o ≤ x / u * u ∧ (x / u + 1) * u ≤ e) ↔ (o ≤ x ∧ x < e) := by
  obtain ⟨i, rfl⟩ := ho
  obtain ⟨j, rfl⟩ := he
  rw [mul_comm (x / u), mul_comm (x / u + 1), Nat.mul_le_mul_left_iff hu,
    Nat.mul_le_mul_left_iff hu, Nat.le_div_iff_mul_le hu, mul_comm i, Nat.succ_le_iff,
    Nat.div_lt_iff_lt_mul hu, mul_comm j]

namespace Phydev

variable {fl : Flash} {dev : Phydev}

/-- The page number of an address is found in what 32 bits of page number keep of it. -/
lemma pageAddr_eq (dev : Phydev) (a : ℕ) :
    dev.pageAddr a = a % 2 ^ (dev.writesizeShift + 32) / 2 ^ dev.writesizeShift := by
  rw [pageAddr, Nat.shiftRight_eq_div_pow, pow_add, Nat.mod_mul_right_div_self]

/-- A unit of erasing is a whole number of blocks. -/
lemma Placed.block_dvd (h : dev.Placed fl) : fl.ppb * 2 ^ dev.writesizeShift ∣ dev.erasesize := by
  rw [h.erasesize_eq, mul_comm fl.ppb]
  exact Nat.mul_dvd_mul_right h.writesize_dvd _

/-- Pages are handed on inside the device exactly when their address lands there. -/
lemma Placed.pageIn_iff (h : dev.Placed fl) (a : ℕ) :
    dev.PageIn (dev.pageAddr a) ↔ dev.Lands a := by
  have hd : 2 ^ dev.writesizeShift ∣ dev.erasesize := (Nat.dvd_mul_left _ _).trans h.block_dvd
  rw [PageIn, Lands, pageAddr_eq]
  exact unit_between (Nat.two_pow_pos _) (hd.trans h.offset_dvd)
    (Nat.dvd_add (hd.trans h.offset_dvd) (hd.trans h.size_dvd))

/-- Blocks are handed on inside the device exactly when their address lands there. -/
lemma Placed.blockIn_iff (h : dev.Placed fl) (a : ℕ) :
    dev.BlockIn fl (dev.pageAddr a) ↔ dev.Lands a := by
  have hd := h.block_dvd
  rw [BlockIn, Lands, pageAddr_eq, Nat.div_div_eq_div_mul, mul_comm (2 ^ dev.writesizeShift)]
  exact unit_between (Nat.mul_pos fl.ppb_pos (Nat.two_pow_pos _)) (hd.trans h.offset_dvd)
    (Nat.dvd_add (hd.trans h.offset_dvd) (hd.trans h.size_dvd))

/-- Device and one more block are counted without loss by 32 bits of page number. -/
lemma Placed.limit (h : dev.Placed fl) :
    dev.offset + dev.size + dev.erasesize ≤ 2 ^ (dev.writesizeShift + 32) := by
  have hchip : chipBytes fl ≤ 2 ^ (fl.pageShift + 27) := by
    have h1 := Nat.mul_le_mul fl.chipsize_le fl.chipNum_le
    have h2 : 2 ^ (fl.pageShift + fl.ppbShift) ≤ 2 ^ (fl.pageShift + 10) :=
      Nat.pow_le_pow_right (by omega) (by have := fl.ppbShift_le; omega)
    calc chipBytes fl = fl.chipsize * 2 ^ 20 * fl.chipNum := by rw [chipBytes]; ring
      _ ≤ maxChipBlks * 2 ^ (fl.pageShift + fl.ppbShift) * maxChipNum := h1
      _ ≤ maxChipBlks * 2 ^ (fl.pageShift + 10) * maxChipNum := by gcongr
      _ = 2 ^ (fl.pageShift + 27) := by rw [maxChipBlks, maxChipNum]; ring
  have herase : dev.erasesize ≤ 2 ^ (fl.pageShift + 13) := by
    calc dev.erasesize = dev.writesize * fl.ppb := h.erasesize_eq
      _ ≤ 8 * fl.pagesize * 1024 := Nat.mul_le_mul h.writesize_le fl.ppb_le
      _ = 2 ^ (fl.pageShift + 13) := by rw [Flash.pagesize]; ring
  have h27 : 2 ^ (fl.pageShift + 13) ≤ 2 ^ (fl.pageShift + 27) :=
    Nat.pow_le_pow_right (by omega) (by omega)
  calc dev.offset + dev.size + dev.erasesize
      ≤ 2 ^ (fl.pageShift + 27) + 2 ^ (fl.pageShift + 27) := by have := h.fits; omega
    _ = 2 ^ (fl.pageShift + 28) := by ring
    _ ≤ 2 ^ (dev.writesizeShift + 32) :=
      Nat.pow_le_pow_right (by omega) (by have := h.shift_ge; omega)

/-- The page number keeps no more than the 64 bits of an address. -/
lemma Placed.kept_dvd (h : dev.Placed fl) : 2 ^ (dev.writesizeShift + 32) ∣ 2 ^ 64 :=
  Nat.pow_dvd_pow 2 (by have := h.shift_le; have := fl.shift_lt; omega)

/-- An address lands where it does modulo `2 ^ 64`. -/
lemma Placed.lands_mod (h : dev.Placed fl) (a : ℕ) : dev.Lands (a % 2 ^ 64) ↔ dev.Lands a := by
  rw [Lands, Lands, Nat.mod_mod_of_dvd _ h.kept_dvd]

/-- An address of the device lands inside it. -/
lemma Placed.lands_of_lt (h : dev.Placed fl) {x : ℕ} (hx : x < dev.size) :
    dev.Lands (dev.offset + x) := by
  have hlim := h.limit
  rw [Lands, Nat.mod_eq_of_lt (by omega)]
  omega

/-- The address right behind the device does not land inside it. -/
lemma Placed.not_lands_size (h : dev.Placed fl) : ¬dev.Lands (dev.offset + dev.size) := by
  have hlim := h.limit
  have hpos : 0 < dev.erasesize := by
    rw [h.erasesize_eq]
    exact Nat.mul_pos h.writesize_pos fl.ppb_pos
  rw [Lands, Nat.mod_eq_of_lt (by omega)]
  omega

/-- A walk in steps of `unit` bytes over a range that goes round 2^64 leaves the device.

**Proof sketch.** If the first address lands at byte `x` of the device, the walk passes the end
of the device after `S - x` bytes, before 32 bits of page number are exhausted. The bytes up to
2^64 are a multiple of what these bits keep less `x`, so the walk is at least that long. -/
lemma Placed.exists_not_lands (h : dev.Placed fl) {addr len unit : ℕ} (hu : 0 < unit)
    (hue : unit ≤ dev.erasesize) (ha : addr < 2 ^ 64) (hwrap : 2 ^ 64 ≤ addr + len) :
    ∃ k, (k = 0 ∨ k * unit < len) ∧ ¬dev.Lands (dev.offset + addr + k * unit) := by
  by_cases hl : dev.Lands (dev.offset + addr)
  · obtain ⟨h1, h2⟩ := hl
    have hlim := h.limit
    obtain ⟨m, hm⟩ := h.kept_dvd
    set M := 2 ^ (dev.writesizeShift + 32) with hM
    -- the byte of the device the first address lands at
    set x := (dev.offset + addr) % M - dev.offset with hx
    have hmod : (dev.offset + addr) % M = dev.offset + x := by omega
    have haddr : addr % M = x := by
      have hc : dev.offset + addr ≡ dev.offset + x [MOD M] := by
        rw [Nat.ModEq, hmod, Nat.mod_eq_of_lt (by omega)]
      have := Nat.ModEq.add_left_cancel' _ hc
      rwa [Nat.ModEq, Nat.mod_eq_of_lt (show x < M by omega)] at this
    have hlen : M ≤ len + x := by
      have hq := Nat.div_add_mod addr M
      have hlt : addr / M < m := by
        rw [Nat.div_lt_iff_lt_mul (by omega), mul_comm, ← hm]
        exact ha
      have : M * (addr / M) + M ≤ M * m := by
        rw [← Nat.mul_succ]
        exact Nat.mul_le_mul_left _ hlt
      omega
    have hk := Nat.div_add_mod (dev.size - x + unit - 1) unit
    have hr := Nat.mod_lt (dev.size - x + unit - 1) hu
    refine ⟨(dev.size - x + unit - 1) / unit, .inr ?_, ?_⟩
    · rw [mul_comm]
      omega
    · set y := (dev.size - x + unit - 1) / unit * unit with hy
      have hyk : unit * ((dev.size - x + unit - 1) / unit) = y := by rw [hy, mul_comm]
      rw [Lands, ← hM, Nat.add_mod, hmod, Nat.add_mod_mod, Nat.mod_eq_of_lt (by omega)]
      omega
  · exact ⟨0, .inl rfl, by rwa [zero_mul, add_zero]⟩

end Phydev

/-! ## Requests -/

/-- The requests of a device that are bounded by its size. -/
inductive DevEntry
  | read
  | write
  | erase
  | isbad
  | markbad
  deriving DecidableEq, Repr

/-- The request as the device serves it, with its return code. -/
def DevEntry.run (fl : Flash) (dev : Phydev) (r : DevOps) : DevEntry → Act St ℤ
  | .read => do
    let x ← nandRead fl dev r
    pure x.1
  | .write => do
    let x ← nandWrite fl dev r
    pure x.1
  | .erase => do
    let x ← nandErase fl dev r
    pure x.1
  | .isbad => nandBlockIsbad fl dev r
  | .markbad => nandBlockMarkbad fl dev r

/-- Is the request rejected as out of space? -/
def DevEntry.Refused (dev : Phydev) (r : DevOps) : DevEntry → Prop
  | .read | .write | .erase => dev.outOfSpace r
  | .isbad | .markbad => dev.size < r.addr

/-- Reading and writing are handed pages, the other requests blocks. -/
def DevEntry.In (fl : Flash) (dev : Phydev) : DevEntry → ℕ → Prop
  | .read | .write => dev.PageIn
  | .erase | .isbad | .markbad => dev.BlockIn fl

/-- What `x` hands to the chip operations when it is run from `s`. -/
def handedBy {α : Type} (x : Act St α) (s : St) : List ChipOpsPara :=
  (x { s with handed := [] }).2.handed

/-- Whatever the chips do, everything the request hands on lies inside the device, and a
request that is rejected changes nothing. -/
def Contained (fl : Flash) (dev : Phydev) (r : DevOps) (e : DevEntry) : Prop :=
  ∀ s : St, (∀ q ∈ handedBy (e.run fl dev r) s, e.In fl dev q.pageAddr) ∧
    (e.Refused dev r → (e.run fl dev r s).2 = s)

/-- Has the request neither a data buffer nor one for spare bytes? -/
def DevOps.noBuf (r : DevOps) : Bool := !(r.datbuf.isSome || r.hasOob)

lemma DevOps.noBuf_eq_false {r : DevOps} (h : ¬r.noBuf) :
    (r.datbuf.isSome || r.hasOob) = true := by
  rw [noBuf, Bool.not_eq_true, Bool.not_eq_false'] at h
  exact h

/-- The requests that are contained: those that are rejected or ask for nothing, a request for
spare bytes only whose address is not the end of the device, and a request for data whose end
is below 2^64. A read without any buffer and a write without a data buffer stop at their first
page. -/
def DevEntry.Sound (dev : Phydev) (r : DevOps) : DevEntry → Prop
  | .read =>
    dev.outOfSpace r ∨ (r.len = 0 ∧ (r.ooblen = 0 ∨ r.addr ≠ dev.size)) ∨
      (r.len ≠ 0 ∧ (r.addr + r.len < 2 ^ 64 ∨
        (r.noBuf ∧ dev.PageIn (dev.pageAddr (dev.start r)))))
  | .write =>
    dev.outOfSpace r ∨ dev.shutDown ∨ (r.len = 0 ∧ (r.ooblen = 0 ∨ r.addr ≠ dev.size)) ∨
      (r.len ≠ 0 ∧ (r.addr + r.len < 2 ^ 64 ∨
        (r.datbuf.isNone ∧ dev.PageIn (dev.pageAddr (dev.start r)))))
  | .erase => dev.outOfSpace r ∨ dev.shutDown ∨ r.len = 0 ∨ r.addr + r.len < 2 ^ 64
  | .isbad | .markbad => dev.shutDown ∨ r.addr ≠ dev.size

/-! ## What is handed on -/

/-- Everything handed on so far satisfies `I`. -/
def AllIn (I : ℕ → Prop) (s : St) : Prop := ∀ q ∈ s.handed, I q.pageAddr

/-- `x` hands on nothing that does not satisfy `I`. -/
def HandsIn {α : Type} (I : ℕ → Prop) (x : Act St α) : Prop :=
  Spec (AllIn I) x (fun _ => AllIn I) (AllIn I)

/-- What has been handed on stays so. -/
def Grows (s t : St) : Prop := s.handed ⊆ t.handed

instance : Std.Refl Grows := ⟨fun _ => List.Subset.refl _⟩

instance : IsTrans St Grows := ⟨fun _ _ _ => List.Subset.trans⟩

section

variable {fl : Flash} {α β : Type} {I : ℕ → Prop}

/-- Only the list of what was handed on matters. -/
lemma allIn_congr {s t : St} (h : t.handed = s.handed) (hs : AllIn I s) : AllIn I t := by
  intro q hq
  rw [h] at hq
  exact hs q hq

/-- What the chip operations and the record store do hands nothing on. -/
lemma HandsIn.of_steps {x : Act St α} (h : Moves (Steps fl) x) : HandsIn I x := by
  intro s hs
  have ht := allIn_congr (h s).handed hs
  rcases hx : x s with ⟨o, t⟩
  rw [hx] at ht
  cases o <;> exact ht

/-- One after the other. -/
lemma HandsIn.bind {x : Act St α} {f : α → Act St β} (hx : HandsIn I x)
    (hf : ∀ a, HandsIn I (f a)) : HandsIn I (x >>= f) := Spec.bind hx hf

lemma HandsIn.pure (a : α) : HandsIn I (Pure.pure a : Act St α) := Spec.pure fun _ hs => hs

/-- One or the other. -/
lemma HandsIn.ite {c : Prop} [Decidable c] {x y : Act St α} (hx : c → HandsIn I x)
    (hy : ¬c → HandsIn I y) : HandsIn I (if c then x else y) := Spec.ite hx hy

/-- A chip operation takes nothing off the list. -/
lemma grows_of_steps {x : Act St α} (h : Moves (Steps fl) x) : Moves Grows x := by
  intro s
  rw [Grows, (h s).handed]
  exact List.Subset.refl _

/-- The state after a chip operation has been called. -/
lemma hand_handed {op : Act St α} (h : Moves (Steps fl) op) (s : St) :
    (hand op s).2.handed = s.handed ++ [s.opsPara] := by
  change (op _).2.handed = _
  rw [(h _).handed]

/-- An operation that is called hands on its page. -/
lemma handsIn_hand {op : Act St α} (h : Moves (Steps fl) op) :
    Spec (fun s => AllIn I s ∧ I s.opsPara.pageAddr) (hand op) (fun _ => AllIn I) (AllIn I) := by
  intro s hs
  have ht : AllIn I (hand op s).2 := by
    intro q hq
    rw [hand_handed h, List.mem_append, List.mem_singleton] at hq
    rcases hq with hq | rfl
    · exact hs.1 q hq
    · exact hs.2
  rcases hx : hand op s with ⟨o, t⟩
  rw [hx] at ht
  cases o <;> exact ht

/-- The bracket around a device operation hands nothing on itself. -/
lemma HandsIn.withDevice {x : Act St α} (st : ChipState) (fl : Flash) (hx : HandsIn I x) :
    HandsIn I (withDevice st x) :=
  .bind (.of_steps ((steps_ignoresLock fl).moves_amlnandGetDevice st)) fun _ => .bind hx fun _ =>
    .bind (.of_steps (steps_ignoresLock fl).moves_amlnandReleaseDevice) fun _ => .pure _

/-- What the first part of a sequence hands on is handed on by the sequence. -/
lemma mem_handed_bind {x : Act St α} {f : α → Act St β} (hf : ∀ a, Moves Grows (f a)) {s : St}
    {q : ChipOpsPara} (hq : q ∈ (x s).2.handed) : q ∈ ((x >>= f) s).2.handed := by
  rcases hx : x s with ⟨o, t⟩
  rw [hx] at hq
  cases o with
  | none => rwa [bind_none hx]
  | some a =>
    rw [bind_some hx]
    exact hf a t hq

end

/-! ## Walks -/

/-- A round of a walk calls one operation, at address `A v` of its loop variables. It goes on
to the next unit, and only while fewer than `len` bytes are done. -/
structure Walk {α β : Type} (dev : Phydev) (unit len : ℕ) (A D : β → ℕ)
    (body : β → Act St (β ⊕ α)) : Prop where
  hands : ∀ v s, ∃ q : ChipOpsPara, q.pageAddr = dev.pageAddr (A v) ∧
    (body v s).2.handed = s.handed ++ [q]
  next : ∀ v s v' t, body v s = (some (Sum.inl v'), t) →
    A v' = (A v + unit) % 2 ^ 64 ∧ D v' = D v + unit ∧ D v' < len

section Walk

variable {α β : Type} {dev : Phydev} {unit len : ℕ} {A D : β → ℕ}
  {body : β → Act St (β ⊕ α)}

/-- A round of a walk takes nothing off the list. -/
lemma Walk.grows (h : Walk dev unit len A D body) (v : β) : Moves Grows (body v) := by
  intro s
  obtain ⟨q, -, hq⟩ := h.hands v s
  rw [Grows, hq]
  exact List.subset_append_left _ _

/-- One round of a walk, at a unit that may be handed on. -/
lemma Walk.round {I : ℕ → Prop} (h : Walk dev unit len A D body) {v : β} {s : St}
    (hs : AllIn I s) (hI : I (dev.pageAddr (A v))) : AllIn I (body v s).2 := by
  obtain ⟨q, hq, hh⟩ := h.hands v s
  intro p hp
  rw [hh, List.mem_append, List.mem_singleton] at hp
  rcases hp with hp | rfl
  · exact hs p hp
  · rwa [hq]

/-- A walk from the start of its range keeps what each round at a unit of the range keeps. -/
lemma Walk.keeps {I : ℕ → Prop} {K : St → Prop} (h : Walk dev unit len A D body) {v : β}
    (hD : D v = 0) (hA : A v < 2 ^ 64)
    (hI : ∀ k, k = 0 ∨ k * unit < len → I (dev.pageAddr ((A v + k * unit) % 2 ^ 64)))
    (hround : ∀ w s, K s → I (dev.pageAddr (A w)) → K (body w s).2) (n : ℕ) :
    Keeps K (loopUntil body n v) := by
  -- after `k` rounds the walk stands at unit `k` of the range
  let J : β → St → Prop := fun w s => K s ∧ ∃ k, D w = k * unit ∧
    (k = 0 ∨ k * unit < len) ∧ A w = (A v + k * unit) % 2 ^ 64
  have hspec : ∀ w, Spec (J w) (body w)
      (fun r s => Sum.elim (fun w' => J w' s) (fun _ => K s) r) K := by
    rintro w s ⟨hs, k, hk, hkl, hkA⟩
    have hall : K (body w s).2 := hround w s hs (hkA ▸ hI k hkl)
    rcases hb : body w s with ⟨o, t⟩
    rw [hb] at hall
    rcases o with - | w' | a
    · exact hall
    · obtain ⟨h1, h2, h3⟩ := h.next w s w' t hb
      refine ⟨hall, k + 1, ?_, .inr ?_, ?_⟩
      · rw [h2, hk, Nat.succ_mul]
      · rw [Nat.succ_mul, ← hk, ← h2]
        exact h3
      · rw [h1, hkA, Nat.mod_add_mod, Nat.succ_mul, add_assoc]
    · exact hall
  refine Spec.mono (Spec.loopUntil hspec (fun _ _ hJ => hJ.1) n v) (fun s hs => ?_)
    (fun _ _ h => h) fun _ h => h
  refine ⟨hs, 0, by rw [hD, zero_mul], .inl rfl, ?_⟩
  rw [zero_mul, add_zero, Nat.mod_eq_of_lt hA]

/-- A walk from the start of its range hands on no other than the units of the range. -/
lemma Walk.handsIn {I : ℕ → Prop} (h : Walk dev unit len A D body) {v : β} (hD : D v = 0)
    (hA : A v < 2 ^ 64)
    (hI : ∀ k, k = 0 ∨ k * unit < len → I (dev.pageAddr ((A v + k * unit) % 2 ^ 64))) (n : ℕ) :
    HandsIn I (loopUntil body n v) :=
  h.keeps hD hA hI (fun _ _ hs hw => h.round hs hw) n

/-- When no round fails, every unit of the range is handed on. `K` is what the rounds need of
the state and keep. -/
lemma Walk.exists_handed {K : St → Prop} (h : Walk dev unit len A D body)
    (hgo : ∀ v s, K s → D v + unit < len → ∃ v' t, body v s = (some (Sum.inl v'), t) ∧ K t)
    (k : ℕ) {n : ℕ} (hk : k < n) {v : β} {s : St} (hs : K s) (hA : A v < 2 ^ 64)
    (hlen : k = 0 ∨ D v + k * unit < len) :
    ∃ q ∈ (loopUntil body n v s).2.handed,
      q.pageAddr = dev.pageAddr ((A v + k * unit) % 2 ^ 64) := by
  induction k generalizing n v s with
  | zero =>
    obtain ⟨m, rfl⟩ : ∃ m, n = m + 1 := ⟨n - 1, by omega⟩
    obtain ⟨q, hq, hh⟩ := h.hands v s
    refine ⟨q, ?_, by rw [hq, zero_mul, add_zero, Nat.mod_eq_of_lt hA]⟩
    have hmem : q ∈ (body v s).2.handed := by
      rw [hh]
      exact List.mem_append_right _ (List.mem_singleton.mpr rfl)
    refine mem_handed_bind (fun r => ?_) (mem_handed_bind (fun r => ?_) hmem)
    · cases r with
      | inl _ => exact .hang
      | inr _ => exact .pure _
    · cases r with
      | inl w => exact .loop h.grows _ _
      | inr _ => exact .pure _
  | succ k ih =>
    obtain ⟨m, rfl⟩ : ∃ m, n = m + 1 := ⟨n - 1, by omega⟩
    have hlt : D v + (k + 1) * unit < len := hlen.resolve_left (Nat.succ_ne_zero _)
    rw [Nat.succ_mul] at hlt
    obtain ⟨v', t, hb, ht⟩ := hgo v s hs (by omega)
    obtain ⟨h1, h2, h3⟩ := h.next v s v' t hb
    have hA' : A v' < 2 ^ 64 := h1 ▸ Nat.mod_lt _ (Nat.two_pow_pos _)
    obtain ⟨q, hq, hp⟩ := ih (Nat.lt_of_succ_lt_succ hk) ht hA' (.inr (by rw [h2]; omega))
    refine ⟨q, ?_, ?_⟩
    · rwa [loopUntil_inl m hb]
    · rw [hp, h1, Nat.mod_add_mod, Nat.succ_mul, add_assoc, add_comm unit]

end Walk

section Rounds

variable {fl : Flash} {dev : Phydev} {α β : Type}

/-- An operation called at an address hands on the page of the address. -/
lemma seek_hand {op : Act St α} {f : α → Act St β} (hop : Moves (Steps fl) op)
    (hf : ∀ a, Moves (Steps fl) (f a)) (addr : ℕ) (s : St) :
    ((do seekAddr dev addr; let a ← hand op; f a : Act St β) s).2.handed =
      s.handed ++ [{ s.opsPara with pageAddr := dev.pageAddr addr }] := by
  set t : St := { s with opsPara := { s.opsPara with pageAddr := dev.pageAddr addr } } with ht
  change ((hand op >>= f) t).2.handed = _
  have hh := hand_handed hop t
  rcases hx : hand op t with ⟨o, u⟩
  rw [hx] at hh
  cases o with
  | none => rwa [bind_none hx]
  | some a =>
    rw [bind_some hx, (hf a u).handed]
    exact hh

/-- `nand_read` walks over the pages of its request. -/
lemma walk_read (fl : Flash) (dev : Phydev) (r : DevOps) (len : ℕ) :
    Walk dev dev.writesize len (fun v => v.1) (fun v => v.2.1) (readDevRound fl dev r len) where
  hands v s := by
    refine ⟨_, rfl, seek_hand (moves_readPage _ _) (fun b => ?_) v.1 s⟩
    refine .bind .get fun t => .ite (fun _ => .pure _) fun _ => ?_
    exact .ite (fun _ => .pure _) fun _ => .pure _
  next v s v' t h := by
    obtain ⟨_, s1, _, h⟩ := bind_eq_some h
    obtain ⟨b, s2, _, h⟩ := bind_eq_some h
    rw [get_bind] at h
    split_ifs at h with h1 h2
    · simp at h
    · simp at h
    · simp only [pure_apply, Prod.mk.injEq, Option.some.injEq, Sum.inl.injEq] at h
      obtain ⟨rfl, -⟩ := h
      exact ⟨rfl, rfl, by simpa using h2⟩

/-- Rounds that call an operation with a return code, and go on to the next unit while it is not
negative, are a walk. -/
lemma walk_command (dev : Phydev) (unit len : ℕ) {op : ℕ × ℕ → Act St ℤ}
    (hop : ∀ v, Moves (Steps fl) (op v)) :
    Walk dev unit len (fun v => v.1) (fun v => v.2) fun v => do
      seekAddr dev v.1
      let ret ← hand (op v)
      if ret < 0 then
        pure (Sum.inr (ret, v.2))
      else if len ≤ v.2 + unit then
        pure (Sum.inr (ret, v.2 + unit))
      else
        pure (Sum.inl ((v.1 + unit) % 2 ^ 64, v.2 + unit)) where
  hands v s := by
    refine ⟨_, rfl, seek_hand (hop v) (fun ret => ?_) v.1 s⟩
    exact .ite (fun _ => .pure _) fun _ => .ite (fun _ => .pure _) fun _ => .pure _
  next v s v' t h := by
    obtain ⟨_, s1, _, h⟩ := bind_eq_some h
    obtain ⟨ret, s2, _, h⟩ := bind_eq_some h
    split_ifs at h with h1 h2
    · simp at h
    · simp at h
    · simp only [pure_apply, Prod.mk.injEq, Option.some.injEq, Sum.inl.injEq] at h
      obtain ⟨rfl, -⟩ := h
      exact ⟨rfl, rfl, by simpa using h2⟩

/-- `nand_write` walks over the pages of its request. -/
lemma walk_write (fl : Flash) (dev : Phydev) (r : DevOps) :
    Walk dev dev.writesize r.len (fun v => v.1) (fun v => v.2) (writeDevRound fl dev r) :=
  walk_command dev dev.writesize r.len fun _ => moves_writePage _ _

/-- `nand_erase` walks over the blocks of its request. -/
lemma walk_erase (fl : Flash) (dev : Phydev) (len : ℕ) :
    Walk dev dev.erasesize len (fun v => v.1) (fun v => v.2) (eraseDevRound fl dev len) :=
  walk_command dev dev.erasesize len fun _ => moves_eraseBlock

/-! ## Walks in which nothing fails -/

/-- No step fails, writing is allowed, no page is uncorrectable, and none has been so far. -/
def St.Smooth (s : St) : Prop :=
  s.Calm ∧ (∀ c p, (s.image c p).isBad = false) ∧ s.opsPara.eccErr = false

/-- A read in which nothing fails delivers its page. -/
lemma readPage_smooth (fl : Flash) {data oob : Bool} (hbuf : (data || oob) = true) {s : St}
    (hs : s.Smooth) : ∃ r t, readPage fl data oob s = (some r, t) ∧ r.ret = 0 ∧ t.Smooth := by
  obtain ⟨⟨hplan, hro⟩, hbad, hecc⟩ := hs
  obtain ⟨b, hb⟩ := (hplan s.tick).2.2.1
  have hany : ((opPages fl s.opsPara).map fun t => s.image t.1 t.2).any Page.isBad = false := by
    rw [List.any_eq_false]
    intro x hx
    obtain ⟨t, -, rfl⟩ := List.mem_map.mp hx
    simp [hbad]
  rw [readPage, if_pos hbuf, readPageInto, get_bind, bind_some (x := nextOutcome) (s := s) rfl]
  simp only [hb]
  rw [if_neg (by simp [hany])]
  exact ⟨_, _, rfl, rfl, ⟨hplan, hro⟩, hbad, hecc⟩

/-- A round of a read in which nothing fails goes on while bytes are left. -/
lemma readDevRound_go {r : DevOps} (hbuf : ¬r.noBuf) {len : ℕ} (v : ℕ × ℕ × Buf) (s : St)
    (hs : s.Smooth) (hlen : v.2.1 + dev.writesize < len) :
    ∃ v' t, readDevRound fl dev r len v s = (some (Sum.inl v'), t) ∧ t.Smooth := by
  set u : St := { s with
    opsPara := { s.opsPara with pageAddr := dev.pageAddr v.1 }
    handed := s.handed ++ [{ s.opsPara with pageAddr := dev.pageAddr v.1 }] } with hu
  obtain ⟨b, t, hr, hret, ht⟩ := readPage_smooth fl (DevOps.noBuf_eq_false hbuf) (s := u) hs
  have hhand : hand (readPage fl r.datbuf.isSome r.hasOob)
      { s with opsPara := { s.opsPara with pageAddr := dev.pageAddr v.1 } } = (some b, t) := hr
  refine ⟨((v.1 + dev.writesize) % 2 ^ 64, v.2.1 + dev.writesize,
    blit v.2.2 v.2.1 dev.writesize b.data), t, ?_, ht⟩
  rw [readDevRound, seekAddr, modify_bind, bind_some hhand, get_bind,
    if_neg (by simp [ht.2.2, hret]), if_neg (by omega), pure_apply]

/-- A command in which nothing fails returns `0`. -/
lemma issue_go (fl : Flash) {s : St} (hs : s.Calm) (ops : List FlashOp) (hit : ℕ → ℕ → Bool)
    {r : Outcome → OpResult} (hr : ∀ o : Outcome, o.Fine → r o = .done) :
    ∃ t, issue fl ops hit r s = (some 0, t) ∧ t.Calm := by
  rw [issue]
  simp only [hr _ (hs.1 s.tick)]
  exact ⟨_, rfl, hs⟩

/-- A round of a write in which nothing fails goes on while bytes are left. -/
lemma writeDevRound_go {r : DevOps} {d : Buf} (hd : r.datbuf = some d) (v : ℕ × ℕ) (s : St)
    (hs : s.Calm) (hlen : v.2 + dev.writesize < r.len) :
    ∃ v' t, writeDevRound fl dev r v s = (some (Sum.inl v'), t) ∧ t.Calm := by
  set u : St := { s with opsPara := { s.opsPara with pageAddr := dev.pageAddr v.1 } } with hu
  obtain ⟨t, ht, hc⟩ := issue_go fl
    (s := { u with handed := s.handed ++ [u.opsPara] }) hs
    (programOps fl (opPages fl u.opsPara) (fun i => d (v.2 + i)) r.oobbuf)
    (fun c p => (opPages fl u.opsPara).contains (c, p)) fun o ho => ho.1
  have hhand : hand (writePage fl (r.datbuf.map fun d i => d (v.2 + i)) r.oobbuf) u
      = (some 0, t) := by
    rw [hand, modify_bind, writePage, get_bind, if_neg (by simp [hu, hs.2]), hd]
    exact ht
  refine ⟨((v.1 + dev.writesize) % 2 ^ 64, v.2 + dev.writesize), t, ?_, hc⟩
  rw [writeDevRound, seekAddr, modify_bind, bind_some hhand, if_neg (by decide),
    if_neg (by omega), pure_apply]

/-- A round of an erase in which nothing fails goes on while bytes are left. -/
lemma eraseDevRound_go {len : ℕ} (v : ℕ × ℕ) (s : St) (hs : s.Calm)
    (hlen : v.2 + dev.erasesize < len) :
    ∃ v' t, eraseDevRound fl dev len v s = (some (Sum.inl v'), t) ∧ t.Calm := by
  set u : St := { s with opsPara := { s.opsPara with pageAddr := dev.pageAddr v.1 } } with hu
  obtain ⟨t, ht, hc⟩ := issue_go fl
    (s := { u with handed := s.handed ++ [u.opsPara] }) hs (eraseOps (opBlocks fl u.opsPara))
    (fun c p => (opBlocks fl u.opsPara).contains (c, p / fl.ppb)) fun o ho => ho.2.1
  have hhand : hand (eraseBlock fl) u = (some 0, t) := by
    rw [hand, modify_bind, eraseBlock, get_bind, if_neg (by simp [hu, hs.2])]
    exact ht
  refine ⟨((v.1 + dev.erasesize) % 2 ^ 64, v.2 + dev.erasesize), t, ?_, hc⟩
  rw [eraseDevRound, seekAddr, modify_bind, bind_some hhand, if_neg (by decide),
    if_neg (by omega), pure_apply]

end Rounds

/-! ## Sound requests are contained -/

section Sound

variable {fl : Flash} {dev : Phydev} {r : DevOps}

/-- Where unit `k` of a request lands. -/
lemma Phydev.Placed.lands_start (h : dev.Placed fl) (x : ℕ) :
    dev.Lands ((dev.start r + x) % 2 ^ 64) ↔ dev.Lands (dev.offset + r.addr + x) := by
  rw [Phydev.start, Nat.mod_add_mod, h.lands_mod]

/-- The start of a request is a 64-bit number. -/
lemma start_lt (dev : Phydev) (r : DevOps) : dev.start r < 2 ^ 64 :=
  Nat.mod_lt _ (Nat.two_pow_pos _)

/-- A request for data that does not go round 2^64 and is not out of space lies in the device. -/
lemma Phydev.Placed.lands_units (h : dev.Placed fl) (hspace : dev.outOfSpace r = false)
    (hlen : r.len ≠ 0) (hwrap : r.addr + r.len < 2 ^ 64) {x : ℕ} (hx : x = 0 ∨ x < r.len) :
    dev.Lands ((dev.start r + x) % 2 ^ 64) := by
  rw [Phydev.outOfSpace, Nat.mod_eq_of_lt hwrap, decide_eq_false_iff_not] at hspace
  rw [h.lands_start, add_assoc]
  exact h.lands_of_lt (by omega)

/-- A request for spare bytes that is not out of space lies in the device unless it is at its
end. -/
lemma Phydev.Placed.lands_spare (h : dev.Placed fl) (haddr : r.addr < 2 ^ 64)
    (hspace : dev.outOfSpace r = false) (hlen : r.len = 0) (hne : r.addr ≠ dev.size) :
    dev.Lands (dev.start r % 2 ^ 64) := by
  rw [Phydev.outOfSpace, hlen, add_zero, Nat.mod_eq_of_lt haddr, decide_eq_false_iff_not]
    at hspace
  have := (h.lands_start (r := r) 0).mpr
  rw [add_zero, add_zero] at this
  exact this (h.lands_of_lt (by omega))

lemma Phydev.Placed.erasesize_pos (h : dev.Placed fl) : 0 < dev.erasesize := by
  rw [h.erasesize_eq]
  exact Nat.mul_pos h.writesize_pos fl.ppb_pos

lemma moves_setPara (fl : Flash) (dev : Phydev) (b : Bool) : Moves (Steps fl) (setPara dev b) :=
  moves_soft fun _ => rfl

/-- A walk under the bracket of a device hands on the units of its range only. -/
lemma HandsIn.walk {α β : Type} {I : ℕ → Prop} {unit len : ℕ} {A D : β → ℕ}
    {body : β → Act St (β ⊕ α)} (hw : Walk dev unit len A D body) {v : β} (hD : D v = 0)
    (hA : A v = dev.start r)
    (hI : ∀ k, k = 0 ∨ k * unit < len → I (dev.pageAddr ((dev.start r + k * unit) % 2 ^ 64)))
    (fl : Flash) (st : ChipState) (b : Bool) (n : ℕ) :
    HandsIn I (Amlnf.withDevice st (do setPara dev b; loopUntil body n v)) := by
  refine .withDevice st fl (.bind (.of_steps (moves_setPara fl dev b)) fun _ => ?_)
  exact hw.handsIn hD (hA ▸ start_lt dev r) (by rw [hA]; exact hI) n

/-- A read without a buffer makes one round. -/
lemma walk_read_none (fl : Flash) (dev : Phydev) (hbuf : r.noBuf) (len : ℕ) :
    Walk dev dev.writesize 0 (fun v => v.1) (fun v => v.2.1) (readDevRound fl dev r len) where
  hands := (walk_read fl dev r len).hands
  next v s v' t h := by
    obtain ⟨_, s1, _, h⟩ := bind_eq_some h
    obtain ⟨b, s2, hb, h⟩ := bind_eq_some h
    have hnone : ¬(r.datbuf.isSome || r.hasOob) = true := by simpa [DevOps.noBuf] using hbuf
    have hneg : b.ret < 0 := by
      rw [readPage, if_neg hnone] at hb
      cases hb
      decide
    rw [get_bind, if_pos (.inr hneg)] at h
    simp at h

/-- A sound read hands on pages of the device. -/
lemma handsIn_nandRead (h : dev.Placed fl) (haddr : r.addr < 2 ^ 64)
    (hs : DevEntry.read.Sound dev r) : HandsIn dev.PageIn (nandRead fl dev r) := by
  rw [nandRead]
  refine .ite (fun _ => .pure _) fun hspace => .ite (fun _ => .pure _) fun hask => ?_
  rw [Bool.not_eq_true] at hspace
  have htail : ∀ x : ℤ × ℕ × Buf, HandsIn dev.PageIn (do
      let s ← get
      if x.1 = 0 then
        if s.opsPara.eccErr then pure (5, x.2.1, x.2.2)
        else if s.opsPara.bitFlip then pure (-117, x.2.1, x.2.2)
        else pure (x.1, x.2.1, x.2.2)
      else
        pure (x.1, x.2.1, x.2.2) : Act St (ℤ × ℕ × Buf)) := by
    refine fun x => .of_steps (Moves.bind (Moves.get (R := Steps fl)) fun s => ?_)
    refine .ite (fun _ => ?_) fun _ => .pure _
    exact .ite (fun _ => .pure _) fun _ => .ite (fun _ => .pure _) fun _ => .pure _
  by_cases hone : r.noBuf ∧ dev.PageIn (dev.pageAddr (dev.start r))
  · -- no buffer: one page
    refine .bind (.walk (walk_read_none fl dev hone.1 _) rfl rfl (fun k hk => ?_) fl _ _ _) htail
    rw [hk.resolve_right (by omega), zero_mul, add_zero, Nat.mod_eq_of_lt (start_lt dev r)]
    exact hone.2
  refine .bind (.walk (walk_read fl dev r _) rfl rfl (fun k hk => ?_) fl _ _ _) htail
  · rw [h.pageIn_iff]
    rcases hs with hs | ⟨hl, hs⟩ | ⟨hl, hs | hs⟩
    · rw [hs] at hspace
      exact absurd hspace (by decide)
    · -- spare bytes only: one page
      rw [if_pos hl] at hk
      have hk0 : k = 0 := by
        rcases hk with hk | hk
        · exact hk
        · by_contra hne
          have := Nat.le_mul_of_pos_left dev.writesize (Nat.pos_of_ne_zero hne)
          omega
      rw [hk0, zero_mul, add_zero]
      exact h.lands_spare haddr hspace hl (hs.resolve_left fun h0 => hask ⟨hl, h0⟩)
    · rw [if_neg hl] at hk
      refine h.lands_units hspace hl hs (hk.imp (fun hk => ?_) id)
      rw [hk, zero_mul]
    · exact absurd hs hone

/-- A sound erase hands on blocks of the device. -/
lemma handsIn_nandErase (h : dev.Placed fl) (hs : DevEntry.erase.Sound dev r) :
    HandsIn (dev.BlockIn fl) (nandErase fl dev r) := by
  rw [nandErase]
  refine .ite (fun _ => .pure _) fun hspace => .ite (fun _ => .pure _) fun hask => ?_
  rw [not_or] at hask
  refine .walk (walk_erase fl dev _) rfl rfl (fun k hk => ?_) fl _ _ _
  rw [h.blockIn_iff]
  have hwrap : r.addr + r.len < 2 ^ 64 := by
    rcases hs with hs | hs | hs | hs
    · exact absurd hs hspace
    · exact absurd hs hask.2
    · exact absurd hs hask.1
    · exact hs
  refine h.lands_units (by simpa using hspace) hask.1 hwrap (hk.imp (fun hk => ?_) id)
  rw [hk, zero_mul]

/-- A program operation without a buffer fails. -/
lemma writePage_none {oob : Option Tag} {s t : St} {ret : ℤ}
    (h : writePage fl none oob s = (some ret, t)) : ret < 0 := by
  rw [writePage, get_bind] at h
  split_ifs at h
  all_goals
    simp only [pure_apply, Prod.mk.injEq, Option.some.injEq] at h
    rw [← h.1]
    decide

/-- A write without a data buffer makes one round. -/
lemma walk_write_none (fl : Flash) (dev : Phydev) (hd : r.datbuf = none) :
    Walk dev dev.writesize 0 (fun v => v.1) (fun v => v.2) (writeDevRound fl dev r) where
  hands := (walk_write fl dev r).hands
  next v s v' t h := by
    obtain ⟨_, s1, _, h⟩ := bind_eq_some h
    obtain ⟨ret, s2, hw, h⟩ := bind_eq_some h
    rw [hd] at hw
    have hneg : ret < 0 := @writePage_none fl r.oobbuf _ _ _ hw
    rw [if_pos hneg] at h
    simp at h

/-- A sound write hands on pages of the device. -/
lemma handsIn_nandWrite (h : dev.Placed fl) (haddr : r.addr < 2 ^ 64)
    (hs : DevEntry.write.Sound dev r) : HandsIn dev.PageIn (nandWrite fl dev r) := by
  rw [nandWrite]
  refine .ite (fun _ => .pure _) fun hspace => .ite (fun _ => .pure _) fun hask => ?_
  rw [not_or] at hask
  rcases hs with hs | hs | ⟨hl, hs⟩ | ⟨hl, hs | ⟨hd, hs⟩⟩
  · exact absurd hs hspace
  · exact absurd hs hask.2
  · -- spare bytes only: one page
    refine .walk (walk_write fl dev r) rfl rfl (fun k hk => ?_) fl _ _ _
    rw [h.pageIn_iff, hk.resolve_right (by omega), zero_mul, add_zero]
    exact h.lands_spare haddr (by simpa using hspace) hl
      (hs.resolve_left fun h0 => hask.1 ⟨hl, h0⟩)
  · refine .walk (walk_write fl dev r) rfl rfl (fun k hk => ?_) fl _ _ _
    rw [h.pageIn_iff]
    refine h.lands_units (by simpa using hspace) hl hs (hk.imp (fun hk => ?_) id)
    rw [hk, zero_mul]
  · refine .walk (walk_write_none fl dev (by simpa using hd)) rfl rfl (fun k hk => ?_) fl _ _ _
    rwa [hk.resolve_right (by omega), zero_mul, add_zero, Nat.mod_eq_of_lt (start_lt dev r)]

/-- An operation on the block of an address below the end of the device. -/
lemma handsIn_blockOp {op : Act St ℤ} (hop : Moves (Steps fl) op) (h : dev.Placed fl)
    (hs : dev.shutDown ∨ r.addr ≠ dev.size) :
    HandsIn (dev.BlockIn fl) (blockOp dev r true (hand op)) := by
  rw [blockOp]
  refine .ite (fun _ => .pure _) fun hspace => .ite (fun _ => .pure _) fun hdown => ?_
  have hne : r.addr ≠ dev.size := hs.resolve_left fun hs => hdown ⟨rfl, hs⟩
  have hlands : dev.BlockIn fl (dev.pageAddr (dev.start r)) := by
    rw [h.blockIn_iff, Phydev.start, h.lands_mod]
    exact h.lands_of_lt (by omega)
  refine .withDevice _ fl (.bind (.of_steps (moves_setPara fl dev _)) fun _ => ?_)
  refine Spec.bind (M := fun _ s => AllIn (dev.BlockIn fl) s ∧
    dev.BlockIn fl s.opsPara.pageAddr) ?_ fun _ => handsIn_hand hop
  exact Spec.modify fun s hs => ⟨hs, hlands⟩

/-- What a sound request hands on lies inside the device. -/
lemma handsIn_run (h : dev.Placed fl) (haddr : r.addr < 2 ^ 64) {e : DevEntry}
    (hs : e.Sound dev r) : HandsIn (e.In fl dev) (e.run fl dev r) := by
  cases e with
  | read => exact .bind (handsIn_nandRead h haddr hs) fun _ => .pure _
  | write => exact .bind (handsIn_nandWrite h haddr hs) fun _ => .pure _
  | erase => exact .bind (handsIn_nandErase h hs) fun _ => .pure _
  | isbad => exact handsIn_blockOp moves_blockIsbad h hs
  | markbad => exact handsIn_blockOp (moves_blockMarkbadOp fl) h hs

/-- A rejected request leaves the driver as it is. -/
lemma run_refused {e : DevEntry} (he : e.Refused dev r) (s : St) : (e.run fl dev r s).2 = s := by
  cases e with
  | read =>
    replace he : dev.outOfSpace r = true := he
    have hr : nandRead fl dev r s
        = (some (-nandArgumentFailure, 0, r.datbuf.getD fun _ => 0), s) := by
      rw [nandRead, if_pos he, pure_apply]
    exact congrArg Prod.snd (bind_some hr)
  | write =>
    replace he : dev.outOfSpace r = true := he
    have hr : nandWrite fl dev r s = (some (-nandArgumentFailure, 0), s) := by
      rw [nandWrite, if_pos he, pure_apply]
    exact congrArg Prod.snd (bind_some hr)
  | erase =>
    replace he : dev.outOfSpace r = true := he
    have hr : nandErase fl dev r s = (some (-nandArgumentFailure, 0), s) := by
      rw [nandErase, if_pos he, pure_apply]
    exact congrArg Prod.snd (bind_some hr)
  | isbad | markbad =>
    replace he : dev.size < r.addr := he
    change (blockOp dev r true _ s).2 = s
    rw [blockOp, if_pos he]
    rfl

end Sound

/-! ## Other requests are not -/

section Unsound

variable {fl : Flash} {dev : Phydev} {r : DevOps}

/-- The blank driver once a device operation has taken the chips. -/
def St.blankBusy (st : ChipState) : St :=
  { St.blank with state := st, mutex := true, idleflag := true, tick := 1 }

/-- On blank chips nothing fails. -/
lemma St.blankBusy_smooth (st : ChipState) : (St.blankBusy st).Smooth :=
  ⟨⟨fun _ => Outcome.fine_fine, rfl⟩, fun _ _ => rfl, rfl⟩

/-- What the operation under the bracket hands on is handed on by the whole. -/
lemma mem_handed_withDevice (fl : Flash) {α : Type} {x : Act St α} {st : ChipState}
    {q : ChipOpsPara}
    (hq : q ∈ (x (St.blankBusy st)).2.handed) :
    q ∈ (withDevice st x St.blank).2.handed := by
  have hget : amlnandGetDevice st St.blank = (some (), St.blankBusy st) := rfl
  rw [withDevice, bind_some hget]
  refine mem_handed_bind (fun a => ?_) hq
  exact .bind (grows_of_steps (steps_ignoresLock fl).moves_amlnandReleaseDevice) fun _ => .pure _

/-- A range of `len` bytes has no more units than bytes. -/
lemma unit_lt {k unit len : ℕ} (hu : 0 < unit) (hk : k = 0 ∨ k * unit < len) : k < len + 1 := by
  rcases hk with rfl | hk
  · omega
  · have := Nat.le_mul_of_pos_right k hu
    omega

/-- A walk from the blank driver in which no round fails hands on every unit of its range. -/
lemma exists_handed_walk {α β : Type} {K : St → Prop} {unit len : ℕ} {A D : β → ℕ}
    {body : β → Act St (β ⊕ α)} (hw : Walk dev unit len A D body)
    (hgo : ∀ v s, K s → D v + unit < len → ∃ v' t, body v s = (some (Sum.inl v'), t) ∧ K t)
    {v : β} (hD : D v = 0) (hA : A v = dev.start r) (fl : Flash) (st : ChipState) (b : Bool)
    (hK : ∀ s : St, s.Smooth → K s) {k n : ℕ} (hkn : k < n) (hk : k = 0 ∨ k * unit < len) :
    ∃ q ∈ (withDevice st (do setPara dev b; loopUntil body n v) St.blank).2.handed,
      q.pageAddr = dev.pageAddr ((dev.start r + k * unit) % 2 ^ 64) := by
  set s : St := (setPara dev b (St.blankBusy st)).2 with hs
  have hsm : K s := hK s (St.blankBusy_smooth st)
  obtain ⟨q, hq, hp⟩ := hw.exists_handed hgo k hkn hsm (hA ▸ start_lt dev r)
    (by rw [hD, zero_add]; exact hk)
  exact ⟨q, mem_handed_withDevice fl hq, by rw [hp, hA]⟩

/-- A request that goes round 2^64 is not contained when nothing fails, nor is one at the end
of the device. -/
lemma exists_not_lands_of_unsound (h : dev.Placed fl) (haddr : r.addr < 2 ^ 64) {unit : ℕ}
    (hu : 0 < unit) (hue : unit ≤ dev.erasesize)
    (hs : r.len = 0 ∧ r.addr = dev.size ∨ r.len ≠ 0 ∧ 2 ^ 64 ≤ r.addr + r.len) :
    ∃ k, (k = 0 ∨ k * unit < r.len) ∧ ¬dev.Lands ((dev.start r + k * unit) % 2 ^ 64) := by
  rcases hs with ⟨-, hs⟩ | ⟨-, hs⟩
  · refine ⟨0, .inl rfl, ?_⟩
    rw [h.lands_start, zero_mul, add_zero, hs]
    exact h.not_lands_size
  · obtain ⟨k, hk, hl⟩ := h.exists_not_lands hu hue haddr hs
    exact ⟨k, hk, by rwa [h.lands_start]⟩

/-- A page is no larger than a block. -/
lemma Phydev.Placed.writesize_le_erasesize (h : dev.Placed fl) :
    dev.writesize ≤ dev.erasesize := by
  rw [h.erasesize_eq]
  exact Nat.le_mul_of_pos_right _ fl.ppb_pos

/-- An unsound read reads a page outside the device. -/
lemma exists_handed_nandRead (h : dev.Placed fl) (haddr : r.addr < 2 ^ 64)
    (hs : ¬DevEntry.read.Sound dev r) :
    ∃ q ∈ (nandRead fl dev r St.blank).2.handed, ¬dev.PageIn q.pageAddr := by
  simp only [DevEntry.Sound, not_or, not_and] at hs
  obtain ⟨hspace, h0, h1⟩ := hs
  have hask : ¬(r.len = 0 ∧ r.ooblen = 0) := fun hl => h0 hl.1 |>.1 hl.2
  -- a page the loop hands on is handed on by the request
  have hwhole : ∀ q ∈ (withDevice .reading (do
      setPara dev r.softEcc
      loopUntil (readDevRound fl dev r (if r.len = 0 then dev.writesize else r.len))
        ((if r.len = 0 then dev.writesize else r.len) + 1)
        (dev.start r, 0, r.datbuf.getD fun _ => 0)) St.blank).2.handed,
      q ∈ (nandRead fl dev r St.blank).2.handed := by
    intro q hq
    rw [nandRead, if_neg hspace, if_neg hask]
    refine mem_handed_bind (fun x => grows_of_steps (Moves.bind (Moves.get (R := Steps fl))
      fun s => ?_)) hq
    refine .ite (fun _ => ?_) fun _ => .pure _
    exact .ite (fun _ => .pure _) fun _ => .ite (fun _ => .pure _) fun _ => .pure _
  by_cases hbuf : r.noBuf = true
  · -- the only page is the first one
    obtain ⟨q, hq, hp⟩ := exists_handed_walk (K := fun _ => True) (walk_read_none fl dev hbuf _)
      (fun _ _ _ hlt => absurd hlt (Nat.not_lt_zero _))
      (v := (dev.start r, 0, r.datbuf.getD fun _ => 0)) rfl rfl fl .reading
      r.softEcc (fun _ _ => trivial)
      (Nat.succ_pos (if r.len = 0 then dev.writesize else r.len)) (.inl rfl)
    refine ⟨q, hwhole q hq, ?_⟩
    rw [hp, zero_mul, add_zero, Nat.mod_eq_of_lt (start_lt dev r)]
    by_cases hl : r.len = 0
    · have haddr' : r.addr = dev.size := by simpa using (h0 hl).2
      rw [h.pageIn_iff, Phydev.start, h.lands_mod, haddr']
      exact h.not_lands_size
    · exact (h1 hl).2 hbuf
  · obtain ⟨k, hk, hl⟩ := exists_not_lands_of_unsound h haddr h.writesize_pos
      h.writesize_le_erasesize (by by_cases hl : r.len = 0 <;> grind)
    have hk' : k = 0 ∨ k * dev.writesize < if r.len = 0 then dev.writesize else r.len := by
      by_cases hl : r.len = 0
      · exact .inl (hk.resolve_right (by omega))
      · rwa [if_neg hl]
    obtain ⟨q, hq, hp⟩ := exists_handed_walk (K := St.Smooth) (walk_read fl dev r _)
      (fun v s => readDevRound_go hbuf v s) (v := (dev.start r, 0, r.datbuf.getD fun _ => 0))
      rfl rfl fl .reading r.softEcc (fun _ h => h) (unit_lt h.writesize_pos hk') hk'
    exact ⟨q, hwhole q hq, by rwa [hp, h.pageIn_iff]⟩

/-- An unsound write programs a page outside the device. -/
lemma exists_handed_nandWrite (h : dev.Placed fl) (haddr : r.addr < 2 ^ 64)
    (hs : ¬DevEntry.write.Sound dev r) :
    ∃ q ∈ (nandWrite fl dev r St.blank).2.handed, ¬dev.PageIn q.pageAddr := by
  simp only [DevEntry.Sound, not_or, not_and] at hs
  obtain ⟨hspace, hdown, h0, h1⟩ := hs
  have hask : ¬((r.len = 0 ∧ r.ooblen = 0) ∨ dev.shutDown = true) := by
    rintro (hl | hd)
    · exact (h0 hl.1).1 hl.2
    · exact hdown hd
  rw [nandWrite, if_neg hspace, if_neg hask]
  cases hd : r.datbuf with
  | none =>
    -- the only page is the first one
    obtain ⟨q, hq, hp⟩ := exists_handed_walk (K := fun _ => True) (walk_write_none fl dev hd)
      (fun _ _ _ hlt => absurd hlt (Nat.not_lt_zero _)) (v := (dev.start r, 0)) rfl rfl fl .writing
      r.softEcc (fun _ _ => trivial) (Nat.succ_pos r.len) (.inl rfl)
    refine ⟨q, hq, ?_⟩
    rw [hp, zero_mul, add_zero, Nat.mod_eq_of_lt (start_lt dev r)]
    by_cases hl : r.len = 0
    · have haddr' : r.addr = dev.size := by simpa using (h0 hl).2
      rw [h.pageIn_iff, Phydev.start, h.lands_mod, haddr']
      exact h.not_lands_size
    · exact (h1 hl).2 (by rw [hd]; rfl)
  | some d =>
    obtain ⟨k, hk, hl⟩ := exists_not_lands_of_unsound h haddr h.writesize_pos
      h.writesize_le_erasesize (by by_cases hl : r.len = 0 <;> grind)
    obtain ⟨q, hq, hp⟩ := exists_handed_walk (K := St.Calm) (walk_write fl dev r)
      (fun v s => writeDevRound_go hd v s) (v := (dev.start r, 0)) rfl rfl fl .writing r.softEcc
      (fun _ h => h.1) (unit_lt h.writesize_pos hk) hk
    exact ⟨q, hq, by rwa [hp, h.pageIn_iff]⟩

/-- An unsound erase erases a block outside the device. -/
lemma exists_handed_nandErase (h : dev.Placed fl) (haddr : r.addr < 2 ^ 64)
    (hs : ¬DevEntry.erase.Sound dev r) :
    ∃ q ∈ (nandErase fl dev r St.blank).2.handed, ¬dev.BlockIn fl q.pageAddr := by
  simp only [DevEntry.Sound, not_or, not_lt] at hs
  obtain ⟨hspace, hdown, h0, h1⟩ := hs
  have hask : ¬(r.len = 0 ∨ dev.shutDown = true) := by
    rintro (hl | hd)
    · exact h0 hl
    · exact hdown hd
  rw [nandErase, if_neg hspace, if_neg hask]
  obtain ⟨k, hk, hl⟩ := exists_not_lands_of_unsound h haddr h.erasesize_pos le_rfl
    (.inr ⟨h0, h1⟩)
  obtain ⟨q, hq, hp⟩ := exists_handed_walk (K := St.Calm) (walk_erase fl dev r.len)
    (fun v s => eraseDevRound_go v s) (v := (dev.start r, 0)) rfl rfl fl .erasing false
    (fun _ h => h.1) (unit_lt h.erasesize_pos hk) hk
  exact ⟨q, hq, by rwa [hp, h.blockIn_iff]⟩

/-- An operation on the block at the end of the device is handed that block. -/
lemma exists_handed_blockOp {op : Act St ℤ} (hop : Moves (Steps fl) op) (h : dev.Placed fl)
    (hs : ¬(dev.shutDown ∨ r.addr ≠ dev.size)) :
    ∃ q ∈ (blockOp dev r true (hand op) St.blank).2.handed, ¬dev.BlockIn fl q.pageAddr := by
  simp only [not_or, ne_eq, not_not] at hs
  rw [blockOp, if_neg (by omega), if_neg (by simp [hs.1])]
  set s : St := (do setPara dev false; seekAddr dev (dev.start r) : Act St Unit)
    (St.blankBusy .reading) |>.2 with hs'
  refine ⟨s.opsPara, mem_handed_withDevice fl ?_, ?_⟩
  · change s.opsPara ∈ (hand op s).2.handed
    rw [hand_handed hop]
    exact List.mem_append_right _ (List.mem_singleton.mpr rfl)
  · change ¬dev.BlockIn fl (dev.pageAddr (dev.start r))
    rw [h.blockIn_iff, Phydev.start, h.lands_mod, hs.2]
    exact h.not_lands_size

/-- A request that is not sound hands on something outside the device, from the blank driver
and with chips on which nothing fails. -/
lemma exists_handed_run (h : dev.Placed fl) (haddr : r.addr < 2 ^ 64) {e : DevEntry}
    (hs : ¬e.Sound dev r) :
    ∃ q ∈ handedBy (e.run fl dev r) St.blank, ¬e.In fl dev q.pageAddr := by
  cases e with
  | read =>
    obtain ⟨q, hq, hn⟩ := exists_handed_nandRead h haddr hs
    exact ⟨q, mem_handed_bind (fun _ => .pure _) hq, hn⟩
  | write =>
    obtain ⟨q, hq, hn⟩ := exists_handed_nandWrite h haddr hs
    exact ⟨q, mem_handed_bind (fun _ => .pure _) hq, hn⟩
  | erase =>
    obtain ⟨q, hq, hn⟩ := exists_handed_nandErase h haddr hs
    exact ⟨q, mem_handed_bind (fun _ => .pure _) hq, hn⟩
  | isbad => exact exists_handed_blockOp moves_blockIsbad h hs
  | markbad => exact exists_handed_blockOp (moves_blockMarkbadOp fl) h hs

end Unsound

/-! ## Devices as they are set up -/

/-- The chips of a mode: a multiple of the power of two they add to the shift. -/
lemma chips_factor (fl : Flash) (c : Prop) [Decidable c] :
    ∃ k j, (if c then fl.chipNum else 1) = 2 ^ k * j ∧ 0 < j ∧ 2 ^ k * j ≤ 4 ∧ k ≤ 2 ∧
      (if c then (if fl.chipNum = 2 then 1 else if fl.chipNum = 4 then 2 else 0) else 0) = k := by
  have hpos := fl.chipNum_pos
  have hle := fl.chipNum_le
  rw [maxChipNum] at hle
  by_cases hc : c
  · simp only [if_pos hc]
    by_cases h2 : fl.chipNum = 2
    · exact ⟨1, 1, by omega, by omega, by omega, by omega, if_pos h2⟩
    · by_cases h4 : fl.chipNum = 4
      · exact ⟨2, 1, by omega, by omega, by omega, by omega, by rw [if_neg h2, if_pos h4]⟩
      · exact ⟨0, fl.chipNum, by omega, hpos, by omega, by omega, by rw [if_neg h2, if_neg h4]⟩
  · exact ⟨0, 1, by simp [hc]⟩

/-- The planes of a mode: the power of two they add to the shift. -/
lemma planes_factor (c : Prop) [Decidable c] :
    ∃ k, (if c then 2 else 1) = 2 ^ k ∧ k ≤ 1 ∧ (if c then 1 else 0) = k := by
  by_cases hc : c
  · exact ⟨1, by simp [hc]⟩
  · exact ⟨0, by simp [hc]⟩

/-- A device in a mode of the chips is placed wherever its ends are aligned. -/
lemma setModes_placed (fl : Flash) (para : DevPara) {offset size : ℕ}
    (ho : (setModes fl para).erasesize ∣ offset) (hs : (setModes fl para).erasesize ∣ size)
    (hfits : offset + size ≤ chipBytes fl) :
    { setModes fl para with offset := offset, size := size }.Placed fl := by
  obtain ⟨k, j, hf, hj, hle, hk, hsh⟩ := chips_factor fl (para.multiChip ∧ 1 < fl.chipNum)
  obtain ⟨m, hf', hm, hsh'⟩ := planes_factor (para.multiPlane ∧ fl.multiPlane)
  have hw : (setModes fl para).writesize = fl.pagesize * (2 ^ k * j * 2 ^ m) := by
    simp only [setModes, hf, hf']
  have hw' : (setModes fl para).writesizeShift = fl.pageShift + (k + m) := by
    simp only [setModes, hsh, hsh']
  have hm2 : (2 : ℕ) ^ m ≤ 2 := by
    calc (2 : ℕ) ^ m ≤ 2 ^ 1 := Nat.pow_le_pow_right (by omega) hm
      _ = 2 := by norm_num
  refine ⟨?_, ?_, ?_, ?_, ?_, ?_, ho, hs, hfits⟩
  · change _ ≤ (setModes fl para).writesizeShift
    omega
  · change (setModes fl para).writesizeShift ≤ _
    omega
  · change 2 ^ (setModes fl para).writesizeShift ∣ (setModes fl para).writesize
    rw [hw, hw', Flash.pagesize]
    exact ⟨j, by ring⟩
  · change 0 < (setModes fl para).writesize
    rw [hw]
    exact Nat.mul_pos fl.pagesize_pos
      (Nat.mul_pos (Nat.mul_pos (Nat.two_pow_pos _) hj) (Nat.two_pow_pos _))
  · change (setModes fl para).writesize ≤ _
    rw [hw, mul_comm 8]
    exact Nat.mul_le_mul_left _ (Nat.mul_le_mul hle hm2)
  · change (setModes fl para).erasesize = (setModes fl para).writesize * fl.ppb
    simp only [setModes]
    rw [fl.blocksize_eq]
    ring

/-- A data device of 64 MiB in the middle of one chip. -/
def sampleDev : Phydev :=
  { setModes Flash.oneChip ⟨false, 0, [], false, false⟩ with offset := 2 ^ 26, size := 2 ^ 26 }

lemma sampleDev_placed : sampleDev.Placed Flash.oneChip :=
  setModes_placed Flash.oneChip ⟨false, 0, [], false, false⟩ (by decide) (by decide) (by decide)

end Amlnf
