import Mathlib.Data.List.Chain
import Amlnf.Phy.PageSteps
import Amlnf.Phy.StatusCheck

set_option relaxedAutoImplicit false
set_option autoImplicit false

/-!
# Where does `read_page` put the pages?

The pointer into the caller's buffer moves on with every page that is copied, whichever round of
whichever chip copied it. A first plane found blank is copied again when its second plane is
retried, and a chip whose second plane is found blank makes the next chip skip its first plane.

## Main definitions

* `Bus.Placed` — every slot of the buffer holds the last page of its chip and plane, and nothing
  is written behind the slots.
* `Bus.InOrder`, `Bus.NotCut` — the conditions for it, on the pages that came over the bus.
* `Bus.ReadFrame`, `Bus.Good`, `Bus.Bad` — the invariants of a read that is still in order, and of
  one that is not.

## Main results

* `Bus.readStep_placeInv` — every step keeps a read in order or shows that it is not.
* `Bus.placed_iff` — when the pages are placed.
-/

namespace Amlnf.Bus

open Act

/-! ## The property and the conditions -/

/-- The last page of a chip and a plane that came over the bus. -/
def lastPage (fetched : List Fetch) (chip plane : ℕ) : Option Transfer :=
  fetched.findSome? fun f => if f.chip = chip ∧ f.plane = plane then some f.page else none

/-- The byte a slot is to hold. -/
def PageReq.cell (req : PageReq) (ctl : Controller) (x : Transfer) (j : ℕ) : UInt8 :=
  if req.verdict ctl x = .blank then 0xff else x.data j

/-- Every slot of the caller's buffer holds the last page of its chip and plane, and no byte
behind the slots is written. -/
structure Placed (fl : Flash) (ctl : Controller) (req : PageReq) (b : Bench) : Prop where
  slot : ∀ i chip plane, (opChips fl req.para)[i]? = some chip → plane < req.planeNum →
    ∃ x, lastPage b.fetched chip plane = some x ∧ ∀ j < req.pageSize ctl,
      b.buf ((i * req.planeNum + plane) * req.pageSize ctl + j) = req.cell ctl x j
  inside : ∀ d ∈ b.delivered, d.place + req.pageSize ctl ≤
    (opChips fl req.para).length * req.planeNum * req.pageSize ctl

/-- What a page `y` may follow: a second plane that failed does not follow a blank first plane,
and a blank second plane follows one, unless the chip is the last. -/
def Follows (fl : Flash) (ctl : Controller) (req : PageReq) (y x : Fetch) : Prop :=
  ¬(x.plane = 0 ∧ req.verdict ctl x.page = .blank ∧
      y.plane = 1 ∧ req.verdict ctl y.page = .fail) ∧
    (y.plane = 1 → req.verdict ctl y.page = .blank →
      (opChips fl req.para).getLast? ≠ some y.chip →
        x.plane = 0 ∧ req.verdict ctl x.page = .blank)

/-- Every page follows the one before it in order; the newest comes first. -/
def InOrder (fl : Flash) (ctl : Controller) (req : PageReq) (fetched : List Fetch) : Prop :=
  fetched.IsChain (Follows fl ctl req)

/-- Where a transfer without the ECC engine was cut off, the bytes of the page were in the
controller's buffer already. -/
def NotCut (fl : Flash) (ctl : Controller) (req : PageReq) (dataBuf : Buf)
    (fetched : List Fetch) : Prop :=
  ∀ chip ∈ opChips fl req.para, ∀ plane < req.planeNum, ∀ x,
    lastPage fetched chip plane = some x → req.verdict ctl x ≠ .blank →
      ∀ j < req.pageSize ctl, req.dmaSize ctl ≤ j → dataBuf j = x.data j

section

variable {fl : Flash} {ctl : Controller} {req : PageReq}

lemma lastPage_cons_self (f : Fetch) (fs : List Fetch) :
    lastPage (f :: fs) f.chip f.plane = some f.page := by simp [lastPage]

lemma lastPage_cons_of_ne {f : Fetch} {chip plane : ℕ} (h : ¬(f.chip = chip ∧ f.plane = plane))
    (fs : List Fetch) : lastPage (f :: fs) chip plane = lastPage fs chip plane := by
  rw [lastPage, List.findSome?_cons, if_neg h]
  rfl

lemma lastPage_mem {fs : List Fetch} {chip plane : ℕ} {x : Transfer}
    (h : lastPage fs chip plane = some x) : ∃ f ∈ fs, f.chip = chip ∧ f.plane = plane := by
  obtain ⟨f, hf, hx⟩ := List.exists_of_findSome?_eq_some h
  refine ⟨f, hf, ?_⟩
  by_contra hne
  rw [if_neg hne] at hx
  cases hx

/-- A first-plane page may follow anything. -/
lemma follows_of_plane_zero {y x : Fetch} (h : y.plane = 0) : Follows fl ctl req y x :=
  ⟨fun h' => by simp [h] at h', fun h' => by simp [h] at h'⟩

/-! ## What a page does to the lists and the buffer -/

/-- What a slot holds after a page was copied to it. -/
def held (ctl : Controller) (req : PageReq) (dataBuf : Buf) (x : Transfer) (j : ℕ) : UInt8 :=
  if req.verdict ctl x = .blank then 0xff
  else if j < req.dmaSize ctl then x.data j else dataBuf j

/-- The bench seen by the placement: what a page that was copied, or not, makes of it. -/
structure Moved (ctl : Controller) (req : PageReq) (dataBuf : Buf) (b b' : Bench) (f : Fetch)
    (copied : Bool) : Prop where
  fetched : b'.fetched = f :: b.fetched
  stale : ∀ j, req.dmaSize ctl ≤ j → b'.dataBuf j = b.dataBuf j
  pos : b'.pos = b.pos + if copied then req.pageSize ctl else 0
  delivered : ∃ d : Delivery, d.place = b.pos ∧
    b'.delivered = if copied then d :: b.delivered else b.delivered
  buf : ∀ j < b.pos, b'.buf j = b.buf j
  slot : copied = true → (∀ j, req.dmaSize ctl ≤ j → b.dataBuf j = dataBuf j) →
    ∀ j < req.pageSize ctl, b'.buf (b.pos + j) = held ctl req dataBuf f.page j

/-- A page that was copied. -/
lemma moved_deliver (hd : req.withData = true) (dataBuf : Buf) (b : Bench) (l : List ChipCall)
    (f : Fetch) {allFf : Bool} (hff : allFf = true ↔ req.verdict ctl f.page = .blank) :
    Moved ctl req dataBuf b (req.dlv ctl ((req.take ctl b f).note l) f allFf) f true where
  fetched := by rw [dlv_fetched, Bench.note, take_fetched]
  stale j hj := by
    rw [dlv_dataBuf, Bench.note, take_dataBuf]
    exact if_neg (Nat.not_lt.mpr hj)
  pos := by rw [dlv_pos, if_pos hd, Bench.note, take_pos, if_pos rfl]
  delivered := by
    refine ⟨⟨f, allFf, b.pos⟩, rfl, ?_⟩
    rw [dlv_delivered, if_pos hd, Bench.note, take_pos, take_delivered, if_pos rfl]
  buf j hj := by
    rw [dlv_buf, if_pos hd, Bench.deliver, Bench.note]
    simp only [take_pos, take_buf]
    exact if_neg fun h => absurd h.1 (Nat.not_le.mpr hj)
  slot _ hstale j hj := by
    rw [dlv_buf, if_pos hd, Bench.deliver, Bench.note]
    simp only [take_pos, take_buf, take_dataBuf, Bench.fetch]
    rw [if_pos ⟨Nat.le_add_right _ _, Nat.add_lt_add_left hj _⟩, Nat.add_sub_cancel_left, held]
    by_cases hv : req.verdict ctl f.page = .blank
    · rw [if_pos (hff.mpr hv), if_pos hv]
    · rw [if_neg fun h => hv (hff.mp h), if_neg hv]
      split
      · rfl
      · exact hstale j (by omega)

/-- A page of a read with a buffer that counted no error. -/
lemma PageStep.moved {chip plane n n' : ℕ} {resets : Bool} {b b' : Bench} {r : AttemptEnd}
    (h : PageStep fl ctl req chip plane resets b n b' r n') (hd : req.withData = true)
    (dataBuf : Buf) :
    b'.eccErr ≠ 0 ∨ ∃ x, Moved ctl req dataBuf b b' ⟨chip, plane, x⟩ (r != .again) ∧
      b'.eccErr = b.eccErr ∧
      (r = .again ∧ req.verdict ctl x = .fail ∨ r = .blank ∧ req.verdict ctl x = .blank ∨
        r = .corrected ∧ req.verdict ctl x = .ok) := by
  cases h with
  | again x hv hr hn =>
    have hmoved : Moved ctl req dataBuf b ((req.take ctl b ⟨chip, plane, x⟩).call (.handle chip))
        ⟨chip, plane, x⟩ false := by
      refine ⟨take_fetched .., fun j hj => ?_, take_pos .., ?_, fun j _ => ?_, by simp⟩
      · rw [Bench.call, take_dataBuf]
        exact if_neg (Nat.not_lt.mpr hj)
      · exact ⟨⟨⟨chip, plane, x⟩, false, b.pos⟩, rfl, take_delivered ..⟩
      · rw [Bench.call, take_buf]
    exact .inr ⟨x, hmoved, take_eccErr .., .inl ⟨rfl, hv⟩⟩
  | blank x hv =>
    refine .inr ⟨x, ?_, by rw [dlv_eccErr, take_eccErr], .inr (.inl ⟨rfl, hv⟩)⟩
    exact moved_deliver hd dataBuf b [] ⟨chip, plane, x⟩ (iff_of_true rfl hv)
  | ok x hv =>
    refine .inr ⟨x, ?_, by rw [dlv_eccErr, Bench.note, take_eccErr], .inr (.inr ⟨rfl, hv⟩)⟩
    exact moved_deliver hd dataBuf b _ ⟨chip, plane, x⟩ (iff_of_false (by simp) (by simp [hv]))
  | given x hv hn =>
    left
    rw [dlv_eccErr]
    exact Nat.succ_ne_zero _

/-- An error that was counted stays counted. -/
lemma PageStep.eccErr_ne_zero {chip plane n n' : ℕ} {resets : Bool} {b b' : Bench}
    {r : AttemptEnd} (h : PageStep fl ctl req chip plane resets b n b' r n')
    (hb : b.eccErr ≠ 0) : b'.eccErr ≠ 0 := by
  cases h with
  | again x hv hr hn => simpa [Bench.call] using hb
  | blank x hv => simpa using hb
  | ok x hv => simpa [Bench.note] using hb
  | given x hv hn =>
    rw [dlv_eccErr]
    exact Nat.succ_ne_zero _

/-! ## The frame -/

/-- How many slots are filled when the read is in order. -/
def Turn.slots (fl : Flash) (req : PageReq) (T : Turn) : ℕ :=
  ((opChips fl req.para).length - T.chips.length) * req.planeNum +
    if T.chips = [] then 0 else T.plane

/-- What holds of every read: the chips that follow have not been read, the flag is clear when a
first plane comes next, and the pages copied are one after the other. -/
structure ReadFrame (fl : Flash) (ctl : Controller) (req : PageReq) (dataBuf : Buf) (T : Turn) :
    Prop where
  suffix : ∃ done, opChips fl req.para = done ++ T.chips
  future : ∀ c ∈ T.chips.tail, ∀ f ∈ T.bench.fetched, f.chip ≠ c
  shape : req.para.option.multiPlane = true → T.second = false → T.flag = false
  single : req.para.option.multiPlane = false → T.second = false
  soft : req.soft ctl = true → T.flag = false
  stale : ∀ j, req.dmaSize ctl ≤ j → T.bench.dataBuf j = dataBuf j
  pos : T.bench.pos = T.bench.delivered.length * req.pageSize ctl
  newest : T.bench.delivered ≠ [] →
    ∃ d ∈ T.bench.delivered, d.place + req.pageSize ctl = T.bench.pos

lemma roundAt_shape (req : PageReq) (chips : List ℕ) (flag : Bool) (n : ℕ) (b : Bench) :
    (req.para.option.multiPlane = true → (roundAt req chips flag n b).second = false →
      (roundAt req chips flag n b).flag = false) ∧
    (req.para.option.multiPlane = false → (roundAt req chips flag n b).second = false) := by
  constructor
  · intro hm hs
    simpa [roundAt, hm] using hs
  · intro hm
    simp [roundAt, hm]

/-- Where a step goes: to the second plane of its chip, to another round of it, or to the next
chip. -/
lemma after_cases (ctl : Controller) (req : PageReq) (T : Turn) (r : AttemptEnd) (n : ℕ) (b : Bench) :
    (T.isLast req = false ∧ r ≠ .again ∧ (T.after ctl req r n b).chips = T.chips ∧
      (T.after ctl req r n b).second = true ∧
      (T.after ctl req r n b).flag = (T.flag || (r != .blank && !req.soft ctl))) ∨
    (r = .again ∧ T.after ctl req r n b = roundAt req T.chips T.flag n b) ∨
    (T.isLast req = true ∧ r ≠ .again ∧ T.after ctl req r n b = roundAt req T.chips.tail
      (if r = .blank then T.flag else T.flagAfter ctl req) 0 b) := by
  cases hlast : T.isLast req with
  | true =>
    cases r with
    | again => exact .inr (.inl ⟨rfl, rfl⟩)
    | blank => exact .inr (.inr ⟨rfl, nofun, if_pos hlast⟩)
    | corrected => exact .inr (.inr ⟨rfl, nofun, if_pos hlast⟩)
    | uncorrected => exact .inr (.inr ⟨rfl, nofun, if_pos hlast⟩)
  | false =>
    have hdone : (T.afterRead ctl req b).chips = T.chips ∧
        (T.afterRead ctl req b).second = true ∧
        (T.afterRead ctl req b).flag = (T.flag || !req.soft ctl) := by
      rw [Turn.afterRead, if_neg (by simp [hlast])]
      cases hsoft : req.soft ctl <;> simp
    cases r with
    | again => exact .inr (.inl ⟨rfl, rfl⟩)
    | blank =>
      rw [Turn.after, if_neg (by simp [hlast])]
      exact .inl ⟨rfl, nofun, rfl, rfl, (Bool.or_false _).symm⟩
    | corrected => exact .inl ⟨rfl, nofun, hdone⟩
    | uncorrected => exact .inl ⟨rfl, nofun, hdone⟩

section Step

variable {dataBuf : Buf} {T : Turn} {chip : ℕ} {rest : List ℕ} {b : Bench} {r : AttemptEnd}
  {n : ℕ} {x : Transfer}

/-- Every page keeps the frame. -/
lemma ReadFrame.step (hT : ReadFrame fl ctl req dataBuf T) (hc : T.chips = chip :: rest)
    (hm : Moved ctl req dataBuf T.bench b ⟨chip, T.plane, x⟩ (r != .again)) :
    ReadFrame fl ctl req dataBuf (T.after ctl req r n b) := by
  obtain ⟨done, hdone⟩ := hT.suffix
  have hnd := opChips_nodup fl req.para
  rw [hdone, hc] at hnd
  have hnotin : chip ∉ rest := (List.nodup_cons.mp (List.nodup_append.mp hnd).2.1).1
  have hfut : ∀ c ∈ rest, ∀ f ∈ b.fetched, f.chip ≠ c := by
    intro c hcr f hf
    rw [hm.fetched] at hf
    rcases List.mem_cons.mp hf with rfl | hf
    · intro he
      have hcc : chip = c := he
      exact hnotin (hcc ▸ hcr)
    · exact hT.future c (by rw [hc]; exact hcr) f hf
  obtain ⟨d, hplace, hdel⟩ := hm.delivered
  have hpos : b.pos = b.delivered.length * req.pageSize ctl := by
    rw [hm.pos, hdel, hT.pos]
    split
    · rw [List.length_cons, Nat.add_mul, Nat.one_mul]
    · rfl
  have hnew : b.delivered ≠ [] → ∃ d ∈ b.delivered, d.place + req.pageSize ctl = b.pos := by
    rw [hdel, hm.pos]
    split
    · exact fun _ => ⟨d, List.mem_cons_self, by rw [hplace]⟩
    · exact hT.newest
  have hstale : ∀ j, req.dmaSize ctl ≤ j → b.dataBuf j = dataBuf j :=
    fun j hj => (hm.stale j hj).trans (hT.stale j hj)
  have hbench := after_bench ctl req T r n b
  have hframe : ∀ U : Turn, U.bench = b → (U.chips = T.chips ∨ U.chips = rest) →
      (req.para.option.multiPlane = true → U.second = false → U.flag = false) →
      (req.para.option.multiPlane = false → U.second = false) →
      (req.soft ctl = true → U.flag = false) → ReadFrame fl ctl req dataBuf U := by
    rintro U rfl hU hshape hsingle hsoft
    refine ⟨?_, fun c hcr => ?_, hshape, hsingle, hsoft, hstale, hpos, hnew⟩
    · rcases hU with hU | hU
      · exact ⟨done, hU ▸ hdone⟩
      · exact ⟨done ++ [chip], by rw [hU, hdone, hc]; simp⟩
    · refine hfut c ?_
      rcases hU with hU | hU
      · rwa [hU, hc] at hcr
      · exact List.mem_of_mem_tail (hU ▸ hcr)
  rcases after_cases ctl req T r n b with
    ⟨hlast, -, hch, hsec, hflag⟩ | ⟨-, hU⟩ | ⟨-, -, hU⟩
  · have hmulti : req.para.option.multiPlane = true := by
      simp only [Turn.isLast, Bool.or_eq_false_iff, Bool.not_eq_false'] at hlast
      exact hlast.2
    refine hframe _ hbench (.inl hch) (fun _ h => ?_) (fun h => ?_) fun h => ?_
    · rw [hsec] at h
      cases h
    · rw [hmulti] at h
      cases h
    · rw [hflag, hT.soft h, h]
      simp
  · rw [hU]
    have hs := roundAt_shape req T.chips T.flag n b
    exact hframe _ rfl (.inl rfl) hs.1 hs.2 hT.soft
  · rw [hU]
    have hs := roundAt_shape req T.chips.tail
      (if r = .blank then T.flag else T.flagAfter ctl req) 0 b
    refine hframe _ rfl (.inr (by rw [hc]; rfl)) hs.1 hs.2 fun h => ?_
    simp [roundAt, Turn.flagAfter, hT.soft h]

end Step

/-! ## Counting the slots -/

section Slots

variable {dataBuf : Buf} {T : Turn} {chip : ℕ} {rest done : List ℕ}

lemma plane_lt (hT : ReadFrame fl ctl req dataBuf T) : T.plane < req.planeNum := by
  unfold Turn.plane PageReq.planeNum
  cases hm : req.para.option.multiPlane with
  | true => split <;> simp
  | false => simp [hT.single hm]

/-- While a chip has its turn, the slots of the chips before it are filled, and as many of its
own as planes come before the next. -/
lemma slots_eq (hdone : opChips fl req.para = done ++ T.chips) (hc : T.chips = chip :: rest) :
    T.slots fl req = done.length * req.planeNum + T.plane := by
  rw [Turn.slots, hdone, List.length_append, Nat.add_sub_cancel, if_neg (by simp [hc])]

/-- The slots at the head of a round of the same chip. -/
lemma slots_roundAt (hdone : opChips fl req.para = done ++ T.chips) (hc : T.chips = chip :: rest)
    (n : ℕ) (b : Bench) : (roundAt req T.chips T.flag n b).slots fl req =
      done.length * req.planeNum + if req.para.option.multiPlane && T.flag then 1 else 0 :=
  slots_eq (T := roundAt req T.chips T.flag n b) hdone hc

/-- The slots when the next chip has its turn. -/
lemma slots_next (hdone : opChips fl req.para = done ++ T.chips) (hc : T.chips = chip :: rest)
    (g : Bool) (n : ℕ) (b : Bench) : (roundAt req T.chips.tail g n b).slots fl req =
      (done.length + 1) * req.planeNum +
        if rest ≠ [] ∧ (req.para.option.multiPlane && g) = true then 1 else 0 := by
  have hsub : (opChips fl req.para).length - rest.length = done.length + 1 := by
    rw [hdone, hc, List.length_append, List.length_cons]
    omega
  rw [Turn.slots]
  simp only [roundAt, hc, List.tail_cons, hsub, Turn.plane]
  congr 1
  by_cases hr : rest = []
  · simp [hr]
  · simp [hr]

/-- The last plane of a chip fills its last slot. -/
lemma plane_of_isLast (hT : ReadFrame fl ctl req dataBuf T) (hlast : T.isLast req = true) :
    T.plane + 1 = req.planeNum := by
  unfold Turn.isLast at hlast
  unfold Turn.plane PageReq.planeNum
  cases hm : req.para.option.multiPlane with
  | true => simp_all
  | false => simp [hT.single hm]

lemma plane_of_not_isLast (hlast : T.isLast req = false) :
    T.plane = 0 ∧ T.second = false ∧ req.para.option.multiPlane = true := by
  simp only [Turn.isLast, Bool.or_eq_false_iff, Bool.not_eq_false'] at hlast
  exact ⟨by simp [Turn.plane, hlast.1], hlast.1, hlast.2⟩

end Slots

/-! ## Reads in order -/

/-- A read that is in order so far: as many pages were copied as slots are filled, each to its
slot, and the flag is clear before a second plane exactly when the first was found blank. -/
structure Good (fl : Flash) (ctl : Controller) (req : PageReq) (dataBuf : Buf) (T : Turn) :
    Prop where
  count : T.bench.delivered.length = T.slots fl req
  filled : ∀ i chip plane, (opChips fl req.para)[i]? = some chip → plane < req.planeNum →
    i * req.planeNum + plane < T.slots fl req →
    ∃ x, lastPage T.bench.fetched chip plane = some x ∧ ∀ j < req.pageSize ctl,
      T.bench.buf ((i * req.planeNum + plane) * req.pageSize ctl + j) = held ctl req dataBuf x j
  inside : ∀ d ∈ T.bench.delivered, d.place + req.pageSize ctl ≤ T.bench.pos
  newest : T.chips ≠ [] → T.second = true → req.soft ctl = false →
    ∃ f fs, T.bench.fetched = f :: fs ∧
      (T.flag = false ↔ f.plane = 0 ∧ req.verdict ctl f.page = .blank)
  inOrder : InOrder fl ctl req T.bench.fetched

section Good

variable {dataBuf : Buf} {T : Turn} {chip : ℕ} {rest done : List ℕ} {b : Bench} {x : Transfer}

/-- The page of a slot filled before is not the page that comes now. -/
lemma slot_ne (hdone : opChips fl req.para = done ++ chip :: rest) {i c p q : ℕ}
    (hi : (opChips fl req.para)[i]? = some c) (hp : p < req.planeNum)
    (hlt : i * req.planeNum + p < done.length * req.planeNum + q) :
    ¬(chip = c ∧ q = p) := by
  rintro ⟨rfl, rfl⟩
  have hmid : (opChips fl req.para)[done.length]? = some chip := by
    rw [hdone, List.getElem?_append_right le_rfl, Nat.sub_self]
    rfl
  have hlen : i < (opChips fl req.para).length := by
    by_contra hge
    rw [List.getElem?_eq_none (Nat.le_of_not_lt hge)] at hi
    cases hi
  obtain rfl : i = done.length :=
    (List.getElem?_inj hlen (opChips_nodup fl req.para)).mp (hi.trans hmid.symm)
  omega

/-- The slots filled before keep what they hold. -/
lemma Good.filled_of_moved (hG : Good fl ctl req dataBuf T) (hT : ReadFrame fl ctl req dataBuf T)
    (hdone : opChips fl req.para = done ++ T.chips) (hc : T.chips = chip :: rest) {copied : Bool}
    (hm : Moved ctl req dataBuf T.bench b ⟨chip, T.plane, x⟩ copied) {i c p : ℕ}
    (hi : (opChips fl req.para)[i]? = some c) (hp : p < req.planeNum)
    (hlt : i * req.planeNum + p < T.slots fl req) :
    ∃ x, lastPage b.fetched c p = some x ∧ ∀ j < req.pageSize ctl,
      b.buf ((i * req.planeNum + p) * req.pageSize ctl + j) = held ctl req dataBuf x j := by
  obtain ⟨y, hy, hbuf⟩ := hG.filled i c p hi hp hlt
  have hslots := slots_eq hdone hc
  rw [hc] at hdone
  refine ⟨y, ?_, fun j hj => ?_⟩
  · rw [hm.fetched, lastPage_cons_of_ne, hy]
    rw [hslots] at hlt
    exact slot_ne hdone hi hp hlt
  · rw [hm.buf _ ?_, hbuf j hj]
    rw [hT.pos, hG.count]
    calc (i * req.planeNum + p) * req.pageSize ctl + j
        < (i * req.planeNum + p + 1) * req.pageSize ctl := by
          rw [Nat.succ_mul]
          omega
      _ ≤ T.slots fl req * req.pageSize ctl := Nat.mul_le_mul_right _ hlt

/-- A page that is not copied leaves the read in order when the slots do not change. -/
lemma Good.again (hG : Good fl ctl req dataBuf T) (hT : ReadFrame fl ctl req dataBuf T)
    (hdone : opChips fl req.para = done ++ T.chips) (hc : T.chips = chip :: rest)
    (hm : Moved ctl req dataBuf T.bench b ⟨chip, T.plane, x⟩ false) {U : Turn}
    (hb : U.bench = b) (hslots : U.slots fl req = T.slots fl req)
    (hnew : U.chips ≠ [] → U.second = true → req.soft ctl = false →
      (U.flag = false ↔ T.plane = 0 ∧ req.verdict ctl x = .blank))
    (horder : InOrder fl ctl req b.fetched) : Good fl ctl req dataBuf U := by
  obtain ⟨d, -, hdel⟩ := hm.delivered
  rw [if_neg (by simp)] at hdel
  have hpos : b.pos = T.bench.pos := by simpa using hm.pos
  subst hb
  refine ⟨by rw [hdel, hslots, hG.count], fun i c p hi hp hlt => ?_, ?_, fun h0 h1 h2 => ?_, horder⟩
  · exact hG.filled_of_moved hT hdone hc hm hi hp (hslots ▸ hlt)
  · rw [hdel, hpos]
    exact hG.inside
  · exact ⟨_, _, hm.fetched, hnew h0 h1 h2⟩

/-- A page that is copied fills the next slot. -/
lemma Good.copy (hG : Good fl ctl req dataBuf T) (hT : ReadFrame fl ctl req dataBuf T)
    (hdone : opChips fl req.para = done ++ T.chips) (hc : T.chips = chip :: rest)
    (hm : Moved ctl req dataBuf T.bench b ⟨chip, T.plane, x⟩ true) {U : Turn}
    (hb : U.bench = b) (hslots : U.slots fl req = T.slots fl req + 1)
    (hnew : U.chips ≠ [] → U.second = true → req.soft ctl = false →
      (U.flag = false ↔ T.plane = 0 ∧ req.verdict ctl x = .blank))
    (horder : InOrder fl ctl req b.fetched) : Good fl ctl req dataBuf U := by
  obtain ⟨d, hplace, hdel⟩ := hm.delivered
  rw [if_pos rfl] at hdel
  have hpos : b.pos = T.bench.pos + req.pageSize ctl := by simpa using hm.pos
  subst hb
  refine ⟨by rw [hdel, hslots, List.length_cons, hG.count], fun i c p hi hp hlt => ?_,
    fun e he => ?_, fun h0 h1 h2 => ?_, horder⟩
  · rw [hslots] at hlt
    rcases Nat.lt_succ_iff_lt_or_eq.mp hlt with hlt | heq
    · exact hG.filled_of_moved hT hdone hc hm hi hp hlt
    · -- the slot just filled
      have hplane := plane_lt hT
      rw [slots_eq hdone hc] at heq
      have hpp : p = T.plane := by
        have := congrArg (· % req.planeNum) heq
        simpa [Nat.mul_add_mod_self_right, Nat.mod_eq_of_lt, hp, hplane] using this
      have hii : i = done.length := by
        rw [hpp] at heq
        exact Nat.eq_of_mul_eq_mul_right (by omega) (Nat.add_right_cancel heq)
      have hcc : chip = c := by
        rw [hii, hdone, hc, List.getElem?_append_right le_rfl, Nat.sub_self] at hi
        exact Option.some.inj hi
      subst hpp hcc
      refine ⟨x, ?_, fun j hj => ?_⟩
      · rw [hm.fetched]
        exact lastPage_cons_self ⟨chip, T.plane, x⟩ _
      · rw [hii, ← slots_eq hdone hc, ← hG.count, ← hT.pos]
        exact hm.slot rfl hT.stale j hj
  · rw [hdel] at he
    rw [hpos]
    rcases List.mem_cons.mp he with rfl | he
    · rw [hplace]
    · exact (hG.inside e he).trans (Nat.le_add_right _ _)
  · exact ⟨_, _, hm.fetched, hnew h0 h1 h2⟩

end Good

/-! ## Reads out of order -/

/-- The first plane of a chip was not read and will not be. -/
def Skipped (fl : Flash) (req : PageReq) (c : ℕ) (T : Turn) : Prop :=
  c ∈ opChips fl req.para ∧ (∀ f ∈ T.bench.fetched, ¬(f.chip = c ∧ f.plane = 0)) ∧
    (c ∉ T.chips ∨ ∃ rest, T.chips = c :: rest ∧ T.second = true ∧ T.flag = true)

/-- A read that is out of order: a first plane is skipped, or more pages were copied than slots
are filled. -/
structure Bad (fl : Flash) (ctl : Controller) (req : PageReq) (T : Turn) : Prop where
  multi : req.para.option.multiPlane = true
  why : (∃ c, Skipped fl req c T) ∨ T.slots fl req < T.bench.delivered.length
  disorder : ¬InOrder fl ctl req T.bench.fetched

section Bad

variable {dataBuf : Buf} {T : Turn} {chip : ℕ} {rest done : List ℕ} {b : Bench} {r : AttemptEnd}
  {n : ℕ} {x : Transfer}

/-- The chip that follows a chip left with the flag set is skipped. -/
lemma skipped_next (hm : req.para.option.multiPlane = true)
    (hT : ReadFrame fl ctl req dataBuf T) (hdone : opChips fl req.para = done ++ T.chips)
    (hc : T.chips = chip :: rest)
    (hmv : Moved ctl req dataBuf T.bench b ⟨chip, T.plane, x⟩ (r != .again)) (hr : rest ≠ []) :
    ∃ c, Skipped fl req c (roundAt req T.chips.tail true 0 b) := by
  obtain ⟨c, cs, rfl⟩ := List.exists_cons_of_ne_nil hr
  have hnd := opChips_nodup fl req.para
  rw [hdone, hc] at hnd
  have hne : chip ≠ c := by
    rintro rfl
    exact (List.nodup_cons.mp (List.nodup_append.mp hnd).2.1).1 List.mem_cons_self
  refine ⟨c, by rw [hdone, hc]; simp, fun f hf hfc => ?_, .inr ⟨cs, by rw [hc]; rfl, ?_, rfl⟩⟩
  · have hf' : f ∈ b.fetched := hf
    rw [hmv.fetched] at hf'
    rcases List.mem_cons.mp hf' with rfl | hf'
    · exact hne hfc.1
    · exact hT.future c (by rw [hc]; exact List.mem_cons_self) f hf' hfc.1
  · simp [roundAt, hm]

/-- A chip that is skipped stays so. -/
lemma Skipped.step {c : ℕ} (hs : Skipped fl req c T) (hm : req.para.option.multiPlane = true)
    (hdone : opChips fl req.para = done ++ T.chips) (hc : T.chips = chip :: rest)
    (hmv : Moved ctl req dataBuf T.bench b ⟨chip, T.plane, x⟩ (r != .again)) :
    Skipped fl req c (T.after ctl req r n b) := by
  obtain ⟨hmem, hnot, hwhere⟩ := hs
  have hnd := opChips_nodup fl req.para
  rw [hdone, hc] at hnd
  have hrest : chip ∉ rest := (List.nodup_cons.mp (List.nodup_append.mp hnd).2.1).1
  have hfetch : ∀ f ∈ (T.after ctl req r n b).bench.fetched, ¬(f.chip = c ∧ f.plane = 0) := by
    rw [after_bench, hmv.fetched]
    intro f hf
    rcases List.mem_cons.mp hf with rfl | hf
    · rintro ⟨hfc, hfp⟩
      rcases hwhere with hout | ⟨cs, hcs, hsec, -⟩
      · exact hout (by rw [hc, ← hfc]; exact List.mem_cons_self)
      · simp [Turn.plane, hsec] at hfp
    · exact hnot f hf
  refine ⟨hmem, hfetch, ?_⟩
  rcases hwhere with hout | ⟨cs, hcs, hsec, hflag⟩
  · left
    rw [hc] at hout
    rcases after_cases ctl req T r n b with ⟨-, -, hch, -⟩ | ⟨-, hU⟩ | ⟨-, -, hU⟩
    · rwa [hch, hc]
    · rw [hU, roundAt, hc]
      exact hout
    · rw [hU, roundAt, hc]
      exact fun h => hout (List.mem_cons_of_mem _ h)
  · obtain ⟨rfl, rfl⟩ := List.cons.inj (hc.symm.trans hcs)
    rcases after_cases ctl req T r n b with ⟨hlast, -⟩ | ⟨-, hU⟩ | ⟨-, -, hU⟩
    · simp [Turn.isLast, hsec] at hlast
    · right
      rw [hU]
      exact ⟨rest, hc, by simp [roundAt, hm, hflag], hflag⟩
    · left
      rw [hU, roundAt, hc]
      exact hrest

/-- **A read that is out of order stays so.** -/
lemma Bad.step (hB : Bad fl ctl req T) (hT : ReadFrame fl ctl req dataBuf T)
    (hc : T.chips = chip :: rest)
    (hmv : Moved ctl req dataBuf T.bench b ⟨chip, T.plane, x⟩ (r != .again)) :
    Bad fl ctl req (T.after ctl req r n b) := by
  have hm := hB.multi
  obtain ⟨done, hdone⟩ := hT.suffix
  obtain ⟨d, -, hdel⟩ := hmv.delivered
  have hplanes : req.planeNum = 2 := if_pos hm
  have hslots := slots_eq hdone hc
  refine ⟨hm, ?_, ?_⟩
  · rcases hB.why with ⟨c, hs⟩ | hmore
    · exact .inl ⟨c, hs.step hm hdone hc hmv⟩
    · rw [hslots, hplanes] at hmore
      rcases after_cases ctl req T r n b with ⟨hlast, hr, hch, hsec, -⟩ | ⟨rfl, hU⟩ | ⟨hlast, hr, hU⟩
      · -- the second plane comes next
        right
        have hp := (plane_of_not_isLast hlast).1
        have hU := slots_eq (T := T.after ctl req r n b) (hch ▸ hdone) (hch.trans hc)
        have hplane : (T.after ctl req r n b).plane = 1 := by simp [Turn.plane, hsec]
        rw [hU, after_bench, hdel, if_pos (by simpa using hr), hplanes, hplane, List.length_cons]
        omega
      · -- another round
        right
        have hU' := slots_roundAt hdone hc n b
        have hdel' : b.delivered = T.bench.delivered := hdel.trans (if_neg (by simp))
        rw [hU, hU', hplanes]
        change _ < b.delivered.length
        rw [hdel', hm, Bool.true_and]
        unfold Turn.plane at hmore
        cases hsec : T.second with
        | false =>
          rw [hT.shape hm hsec]
          simp [hsec] at hmore
          simpa using hmore
        | true =>
          simp [hsec] at hmore
          split <;> omega
      · -- the next chip
        have hp := plane_of_isLast hT hlast
        have hU' := slots_next hdone hc (if r = .blank then T.flag else T.flagAfter ctl req) 0 b
        rw [hU]
        by_cases hskip : rest ≠ [] ∧
            (req.para.option.multiPlane &&
              (if r = .blank then T.flag else T.flagAfter ctl req)) = true
        · left
          have hg : (if r = .blank then T.flag else T.flagAfter ctl req) = true := by
            simpa [hm] using hskip.2
          rw [hg]
          exact skipped_next hm hT hdone hc hmv hskip.1
        · right
          rw [hU', if_neg hskip, hplanes]
          change _ < b.delivered.length
          rw [hdel, if_pos (by simpa using hr), List.length_cons]
          omega
  · rw [after_bench, hmv.fetched]
    exact fun h => hB.disorder (List.isChain_cons.mp h).2

end Bad

/-! ## Every read -/

/-- A read counted an error, is in order, or is out of order. -/
def PlaceInv (fl : Flash) (ctl : Controller) (req : PageReq) (dataBuf : Buf) (T : Turn) : Prop :=
  T.bench.eccErr ≠ 0 ∨
    ReadFrame fl ctl req dataBuf T ∧ (Good fl ctl req dataBuf T ∨ Bad fl ctl req T)

section Step

variable {dataBuf : Buf} {T : Turn} {chip : ℕ} {rest : List ℕ} {b : Bench} {n : ℕ} {x : Transfer}

/-- A further page is in order if it may follow the newest. -/
lemma Good.inOrder_cons (hG : Good fl ctl req dataBuf T) {f : Fetch} {copied : Bool}
    (hmv : Moved ctl req dataBuf T.bench b f copied)
    (h : ∀ y ∈ T.bench.fetched.head?, Follows fl ctl req f y) :
    InOrder fl ctl req b.fetched := by
  rw [hmv.fetched]
  exact List.isChain_cons.mpr ⟨h, hG.inOrder⟩

/-- A page that is retried: a first plane or a second plane after a correct first plane leaves the
read in order, a second plane after a blank first plane does not. -/
lemma Good.step_again (hG : Good fl ctl req dataBuf T) (hT : ReadFrame fl ctl req dataBuf T)
    (hc : T.chips = chip :: rest) (hv : req.verdict ctl x = .fail)
    (hmv : Moved ctl req dataBuf T.bench b ⟨chip, T.plane, x⟩ false) :
    Good fl ctl req dataBuf (T.after ctl req .again n b) ∨
      Bad fl ctl req (T.after ctl req .again n b) := by
  obtain ⟨done, hdone⟩ := hT.suffix
  have hsoft : req.soft ctl = false := by
    by_contra h
    rw [verdict_soft (by simpa using h)] at hv
    cases hv
  have hslots := slots_eq hdone hc
  have hU := slots_roundAt hdone hc n b
  change Good fl ctl req dataBuf (roundAt req T.chips T.flag n b) ∨
    Bad fl ctl req (roundAt req T.chips T.flag n b)
  cases hsec : T.second with
  | false =>
    left
    have hplane : T.plane = 0 := by simp [Turn.plane, hsec]
    have hflag : (req.para.option.multiPlane && T.flag) = false := by
      cases hm : req.para.option.multiPlane with
      | false => rfl
      | true => exact hT.shape hm hsec
    refine hG.again hT hdone hc hmv rfl ?_ (fun _ h => ?_)
      (hG.inOrder_cons hmv fun y _ => follows_of_plane_zero hplane)
    · rw [hU, hslots, hflag, hplane]
      rfl
    · simp [roundAt, hflag] at h
  | true =>
    have hm : req.para.option.multiPlane = true := by
      by_contra h
      rw [hT.single (by simpa using h)] at hsec
      cases hsec
    have hplane : T.plane = 1 := by simp [Turn.plane, hsec]
    obtain ⟨f, fs, hf, hblank⟩ := hG.newest (by simp [hc]) hsec hsoft
    cases hflag : T.flag with
    | true =>
      left
      have hnot : ¬(f.plane = 0 ∧ req.verdict ctl f.page = .blank) := fun h => by
        rw [hflag] at hblank
        exact absurd (hblank.mpr h) (by simp)
      refine hG.again hT hdone hc hmv rfl ?_ (fun _ _ _ => ?_) (hG.inOrder_cons hmv fun y hy => ?_)
      · rw [← hflag, hU, hslots, hm, hflag, hplane]
        rfl
      · simp [roundAt, hplane]
      · obtain rfl : f = y := by simpa [hf] using hy
        exact ⟨fun h => hnot ⟨h.1, h.2.1⟩, fun _ h => by simp [hv] at h⟩
    | false =>
      right
      have hyes := hblank.mp hflag
      refine ⟨hm, .inr ?_, fun h => ?_⟩
      · rw [← hflag, hU, hm, hflag]
        change _ < b.delivered.length
        obtain ⟨d, -, hdel⟩ := hmv.delivered
        have hdel' : b.delivered = T.bench.delivered := hdel.trans (if_neg (by simp))
        rw [hdel', hG.count, hslots, hplane]
        simp
      · change InOrder fl ctl req b.fetched at h
        rw [hmv.fetched, hf] at h
        have := (List.isChain_cons_cons.mp h).1.1
        exact this ⟨hyes.1, hyes.2, hplane, hv⟩

/-- The first of two planes that is copied leaves the read in order. -/
lemma Good.step_first (hG : Good fl ctl req dataBuf T) (hT : ReadFrame fl ctl req dataBuf T)
    (hc : T.chips = chip :: rest) (hlast : T.isLast req = false) {r : AttemptEnd}
    (hr : r ≠ .again) (hv : r = .blank ↔ req.verdict ctl x = .blank)
    (hmv : Moved ctl req dataBuf T.bench b ⟨chip, T.plane, x⟩ true) :
    Good fl ctl req dataBuf (T.after ctl req r n b) := by
  obtain ⟨done, hdone⟩ := hT.suffix
  obtain ⟨hplane, hsec, hm⟩ := plane_of_not_isLast hlast
  have hflag := hT.shape hm hsec
  rcases after_cases ctl req T r n b with ⟨-, -, hch, hsec', hflag'⟩ | ⟨h, -⟩ | ⟨h, -⟩
  · refine hG.copy hT hdone hc hmv (after_bench ctl req T r n b) ?_ (fun _ _ hsoft => ?_)
      (hG.inOrder_cons hmv fun y _ => follows_of_plane_zero hplane)
    · rw [slots_eq (T := T.after ctl req r n b) (hch ▸ hdone) (hch.trans hc), slots_eq hdone hc,
        hplane, Turn.plane, hsec']
      rfl
    · rw [hflag', hflag, hsoft, ← hv]
      simp [hplane]
  · exact absurd h hr
  · rw [hlast] at h
    cases h

/-- The last plane of a chip, copied, leaves the read in order when the flag is not carried over
to another chip. -/
lemma Good.step_last (hG : Good fl ctl req dataBuf T) (hT : ReadFrame fl ctl req dataBuf T)
    (hc : T.chips = chip :: rest) (hlast : T.isLast req = true) {g : Bool}
    (hmv : Moved ctl req dataBuf T.bench b ⟨chip, T.plane, x⟩ true)
    (hg : rest = [] ∨ (req.para.option.multiPlane && g) = false)
    (horder : ∀ y ∈ T.bench.fetched.head?, Follows fl ctl req ⟨chip, T.plane, x⟩ y) :
    Good fl ctl req dataBuf (roundAt req T.chips.tail g 0 b) := by
  obtain ⟨done, hdone⟩ := hT.suffix
  have hnext : ¬(rest ≠ [] ∧ (req.para.option.multiPlane && g) = true) := by
    rintro ⟨hne, hset⟩
    rcases hg with hg | hg
    · exact hne hg
    · rw [hg] at hset
      cases hset
  refine hG.copy hT hdone hc hmv rfl ?_ (fun hne hsec _ => ?_) (hG.inOrder_cons hmv horder)
  · rw [slots_next hdone hc, if_neg hnext, slots_eq hdone hc, Nat.succ_mul,
      ← plane_of_isLast hT hlast]
    omega
  · refine absurd ⟨?_, hsec⟩ hnext
    rwa [roundAt, hc] at hne

/-- The chip that has its turn is the last exactly when no chip follows. -/
lemma getLast?_eq_some_iff {done : List ℕ} (hdone : opChips fl req.para = done ++ chip :: rest) :
    (opChips fl req.para).getLast? = some chip ↔ rest = [] := by
  have hnd := opChips_nodup fl req.para
  rw [hdone] at hnd ⊢
  constructor
  · intro h
    by_contra hne
    obtain ⟨c, cs, rfl⟩ := List.exists_cons_of_ne_nil hne
    rw [List.getLast?_append_cons, List.getLast?_cons_cons] at h
    exact (List.nodup_cons.mp (List.nodup_append.mp hnd).2.1).1 (List.mem_of_getLast? h)
  · rintro rfl
    rw [List.getLast?_append_cons]
    rfl

/-- The last plane of a chip that is read and not blank leaves the read in order. -/
lemma Good.step_corrected (hG : Good fl ctl req dataBuf T) (hT : ReadFrame fl ctl req dataBuf T)
    (hc : T.chips = chip :: rest) (hlast : T.isLast req = true) (hv : req.verdict ctl x = .ok)
    (hmv : Moved ctl req dataBuf T.bench b ⟨chip, T.plane, x⟩ true) :
    Good fl ctl req dataBuf (roundAt req T.chips.tail (T.flagAfter ctl req) 0 b) := by
  refine hG.step_last hT hc hlast hmv (.inr ?_) fun y _ => ⟨fun h => ?_, fun _ h => ?_⟩
  · cases hm : req.para.option.multiPlane with
    | false => rfl
    | true =>
      cases hsoft : req.soft ctl with
      | false => simp [Turn.flagAfter, hm, hsoft]
      | true => simp [Turn.flagAfter, hm, hT.soft hsoft]
  · simp [hv] at h
  · simp [hv] at h

/-- A blank last plane of a chip leaves the read in order when it is the only plane, when the
first plane is blank too, or when the chip is the last; else the next chip is skipped. -/
lemma Good.step_blank (hG : Good fl ctl req dataBuf T) (hT : ReadFrame fl ctl req dataBuf T)
    (hc : T.chips = chip :: rest) (hlast : T.isLast req = true) (hv : req.verdict ctl x = .blank)
    (hmv : Moved ctl req dataBuf T.bench b ⟨chip, T.plane, x⟩ true) :
    Good fl ctl req dataBuf (roundAt req T.chips.tail T.flag 0 b) ∨
      Bad fl ctl req (roundAt req T.chips.tail T.flag 0 b) := by
  obtain ⟨done, hdone⟩ := hT.suffix
  have hsoft : req.soft ctl = false := by
    by_contra h
    rw [verdict_soft (by simpa using h)] at hv
    cases hv
  cases hm : req.para.option.multiPlane with
  | false =>
    left
    have hplane : T.plane = 0 := by simp [Turn.plane, hT.single hm]
    exact hG.step_last hT hc hlast hmv (.inr (by rw [hm]; rfl))
      fun y _ => follows_of_plane_zero hplane
  | true =>
    have hsec : T.second = true := by simpa [Turn.isLast, hm] using hlast
    have hplane : T.plane = 1 := by simp [Turn.plane, hsec]
    obtain ⟨f, fs, hf, hblank⟩ := hG.newest (by simp [hc]) hsec hsoft
    have hfol : (rest ≠ [] → T.flag = false) →
        ∀ y ∈ T.bench.fetched.head?, Follows fl ctl req ⟨chip, T.plane, x⟩ y := by
      intro hfl y hy
      obtain rfl : f = y := by simpa [hf] using hy
      refine ⟨fun h => by simp [hv] at h, fun _ _ hne => hblank.mp (hfl fun hnil => hne ?_)⟩
      exact (getLast?_eq_some_iff (hc ▸ hdone)).mpr hnil
    by_cases hflag : rest = [] ∨ T.flag = false
    · left
      refine hG.step_last hT hc hlast hmv ?_ (hfol fun hne => hflag.resolve_left hne)
      exact hflag.imp_right fun h => by rw [h, Bool.and_false]
    · right
      rw [not_or, Bool.not_eq_false] at hflag
      have hnot : ¬(f.plane = 0 ∧ req.verdict ctl f.page = .blank) := fun h => by
        have := hblank.mpr h
        rw [hflag.2] at this
        cases this
      refine ⟨hm, .inl ?_, fun h => ?_⟩
      · rw [hflag.2]
        exact skipped_next (r := .blank) hm hT hdone hc hmv hflag.1
      · change InOrder fl ctl req b.fetched at h
        rw [hmv.fetched, hf] at h
        refine hnot ((List.isChain_cons_cons.mp h).1.2 hplane hv fun hl => hflag.1 ?_)
        exact (getLast?_eq_some_iff (hc ▸ hdone)).mp hl

end Step

/-- **Every step keeps a read in order, or shows that it is not.** -/
lemma readStep_placeInv {dataBuf : Buf} {T U : Turn} (hd : req.withData = true)
    (h : ReadStep fl ctl req T U) (hI : PlaceInv fl ctl req dataBuf T) :
    PlaceInv fl ctl req dataBuf U := by
  obtain ⟨chip, rest, b, r, n, hc, hp, rfl⟩ := h.cases
  rcases hI with herr | ⟨hT, hGB⟩
  · left
    rw [after_bench]
    exact hp.eccErr_ne_zero herr
  · rcases hp.moved hd dataBuf with herr | ⟨x, hmv, -, hr⟩
    · left
      rwa [after_bench]
    · refine .inr ⟨hT.step hc hmv, ?_⟩
      rcases hGB with hG | hB
      · rcases hr with ⟨rfl, hv⟩ | ⟨rfl, hv⟩ | ⟨rfl, hv⟩
        · exact hG.step_again hT hc hv hmv
        · cases hlast : T.isLast req with
          | false => exact .inl (hG.step_first hT hc hlast (by simp) (iff_of_true rfl hv) hmv)
          | true =>
            rw [Turn.after, if_pos hlast]
            exact hG.step_blank hT hc hlast hv hmv
        · left
          cases hlast : T.isLast req with
          | false =>
            exact hG.step_first hT hc hlast (by simp) (iff_of_false (by simp) (by simp [hv])) hmv
          | true =>
            rw [Turn.after, Turn.afterRead, if_pos hlast]
            exact hG.step_corrected hT hc hlast hv hmv
      · exact .inr (hB.step hT hc hmv)

/-! ## The start and the end of a read -/

/-- No slot is filled at the start. -/
lemma slots_startTurn (b : Bench) : (startTurn fl req b).slots fl req = 0 := by
  simp [Turn.slots, startTurn, roundAt, Turn.plane]

/-- A read starts in order. -/
lemma placeInv_startTurn (hw : Hw) (dataBuf buf : Buf) (k : ℕ) :
    PlaceInv fl ctl req dataBuf
      (startTurn fl req ((startSt hw dataBuf buf).toBench.entered k)) := by
  have hshape := roundAt_shape req (opChips fl req.para) false 0
    ((startSt hw dataBuf buf).toBench.entered k)
  refine .inr ⟨⟨⟨[], rfl⟩, fun _ _ _ hf => ?_, hshape.1, hshape.2, fun _ => rfl, fun _ _ => rfl,
    ?_, fun h => absurd rfl h⟩, .inl ⟨?_, fun i c p _ _ hlt => ?_, fun _ hd => ?_,
    fun _ hsec => ?_, .nil⟩⟩
  · cases hf
  · exact (Nat.zero_mul _).symm
  · exact (slots_startTurn _).symm
  · rw [slots_startTurn] at hlt
    exact absurd hlt (Nat.not_lt_zero _)
  · cases hd
  · simp [startTurn, roundAt] at hsec

section End

variable {dataBuf : Buf} {T : Turn}

/-- All slots are filled when every chip had its turn. -/
lemma slots_of_nil (h : T.chips = []) :
    T.slots fl req = (opChips fl req.para).length * req.planeNum := by
  simp [Turn.slots, h]

/-- What a slot holds is what it is to hold, up to the bytes that were cut off. -/
lemma held_eq_cell_iff (x : Transfer) (j : ℕ) :
    held ctl req dataBuf x j = req.cell ctl x j ↔
      (req.verdict ctl x ≠ .blank → req.dmaSize ctl ≤ j → dataBuf j = x.data j) := by
  unfold held PageReq.cell
  by_cases hv : req.verdict ctl x = .blank
  · simp [hv]
  · by_cases hj : j < req.dmaSize ctl
    · simp [hv, hj, Nat.not_le.mpr hj]
    · simp [hv, hj, Nat.le_of_not_lt hj]

/-- At the end of a read in order, the pages are placed unless bytes were cut off. -/
lemma Good.placed_iff_notCut (hG : Good fl ctl req dataBuf T)
    (hT : ReadFrame fl ctl req dataBuf T) (hend : T.chips = []) :
    Placed fl ctl req T.bench ↔ NotCut fl ctl req dataBuf T.bench.fetched := by
  have hslots : T.slots fl req = _ := slots_of_nil hend
  have hall : ∀ {i c p : ℕ}, (opChips fl req.para)[i]? = some c → p < req.planeNum →
      i * req.planeNum + p < T.slots fl req := by
    intro i c p hi hp
    obtain ⟨hlt, -⟩ := List.getElem?_eq_some_iff.mp hi
    rw [hslots]
    calc i * req.planeNum + p < (i + 1) * req.planeNum := by
          rw [Nat.succ_mul]
          omega
      _ ≤ (opChips fl req.para).length * req.planeNum := Nat.mul_le_mul_right _ hlt
  constructor
  · intro hP c hcm p hp x hx hv j hj hcut
    obtain ⟨i, hi⟩ := List.mem_iff_getElem?.mp hcm
    obtain ⟨y, hy, hheld⟩ := hG.filled i c p hi hp (hall hi hp)
    obtain ⟨z, hz, hcell⟩ := hP.slot i c p hi hp
    obtain rfl : y = x := Option.some.inj (hy.symm.trans hx)
    obtain rfl : z = y := Option.some.inj (hz.symm.trans hx)
    exact (held_eq_cell_iff z j).mp ((hheld j hj).symm.trans (hcell j hj)) hv hcut
  · intro hN
    refine ⟨fun i c p hi hp => ?_, fun d hd => ?_⟩
    · obtain ⟨x, hx, hheld⟩ := hG.filled i c p hi hp (hall hi hp)
      refine ⟨x, hx, fun j hj => (hheld j hj).trans ((held_eq_cell_iff x j).mpr fun hv hcut => ?_)⟩
      exact hN c (List.mem_of_getElem? hi) p hp x hx hv j hj hcut
    · rw [← hslots, ← hG.count, ← hT.pos]
      exact hG.inside d hd

/-- At the end of a read out of order, the pages are not placed: a first plane is missing, or
the last page copied lies behind the slots. -/
lemma Bad.not_placed (hB : Bad fl ctl req T) (hT : ReadFrame fl ctl req dataBuf T)
    (hend : T.chips = []) : ¬Placed fl ctl req T.bench := by
  intro hP
  rcases hB.why with ⟨c, hcm, hnot, -⟩ | hmore
  · obtain ⟨i, hi⟩ := List.mem_iff_getElem?.mp hcm
    have hp : 0 < req.planeNum := by simp [PageReq.planeNum, hB.multi]
    obtain ⟨x, hx, -⟩ := hP.slot i c 0 hi hp
    obtain ⟨f, hf, hfc⟩ := lastPage_mem hx
    exact hnot f hf hfc
  · rw [slots_of_nil hend] at hmore
    have hne : T.bench.delivered ≠ [] := by
      rintro h
      rw [h] at hmore
      exact absurd hmore (Nat.not_lt_zero _)
    obtain ⟨d, hd, hplace⟩ := hT.newest hne
    have hin := hP.inside d hd
    rw [hplace, hT.pos] at hin
    exact absurd (Nat.le_of_mul_le_mul_right hin (req.pageSize_pos ctl)) (Nat.not_le.mpr hmore)

end End

/-- **When does `read_page` place the pages?** Of a read that returns 0 without an ECC error:
exactly when every page followed the page before it in order and no byte of a page was cut off.
**Proof sketch.** Every step of the read keeps it in order or puts it out of order for good
(`readStep_placeInv`). At the end of a read in order the slots hold the last pages, up to the
bytes that were cut off; one out of order lacks a page or wrote behind the slots. -/
theorem placed_iff {hw : Hw} {dataBuf buf : Buf} {t : BusSt}
    (h : readPage fl ctl req (startSt hw dataBuf buf) = (some 0, t)) (herr : t.eccErr = 0) :
    (req.withData = true → Placed fl ctl req t.toBench) ↔
      (req.withData = true → InOrder fl ctl req t.fetched ∧ NotCut fl ctl req dataBuf t.fetched) := by
  refine imp_congr_right fun hd => ?_
  obtain ⟨k, T, hT, hb, hend, -⟩ := readPage_steps h
  have hnil : T.chips = [] := (hend rfl).resolve_right (by simp [PageReq.newOob, hd])
  have hI := hT.invariant (fun U U' => readStep_placeInv hd)
    (placeInv_startTurn hw dataBuf buf k)
  rw [← hb] at herr ⊢
  obtain ⟨hF, hG | hB⟩ := hI.resolve_left (fun h => h herr)
  · rw [hG.placed_iff_notCut hF hnil]
    exact (and_iff_right hG.inOrder).symm
  · exact iff_of_false (hB.not_placed hF hnil) fun h => hB.disorder h.1

end

/-- Pages that were all read correctly are in order. -/
lemma inOrder_of_ok {fl : Flash} {ctl : Controller} {req : PageReq} {fetched : List Fetch}
    (h : ∀ f ∈ fetched, req.verdict ctl f.page = .ok) : InOrder fl ctl req fetched := by
  refine List.Pairwise.isChain (List.pairwise_of_forall_mem_list fun y hy x _ => ?_)
  exact ⟨fun hf => by simp [h y hy] at hf, fun _ hb => by simp [h y hy] at hb⟩

/-- A read of both planes of a page. -/
def twoPlaneReq : PageReq where
  para := { option := { multiPlane := true } }
  withData := true
  withOob := false

/-- Two planes that are read correctly at once. -/
theorem placed_corrected :
    ∃ t, readPage .h27ucg8t2a ctl8k twoPlaneReq
        (startSt (.steady (.uniform 0x05000000 0x5a) 0xe0) (fun _ => 0) fun _ => 0) = (some 0, t) ∧
      t.eccErr = 0 ∧ Placed .h27ucg8t2a ctl8k twoPlaneReq t.toBench := by
  obtain ⟨t, ht, herr, hok⟩ := exists_of_run
    (x := readPage .h27ucg8t2a ctl8k twoPlaneReq)
    (s := startSt (.steady (.uniform 0x05000000 0x5a) 0xe0) (fun _ => 0) fun _ => 0) (a := 0)
    (P := fun t => t.eccErr = 0 ∧
      (t.fetched.all fun f => twoPlaneReq.verdict ctl8k f.page == .ok) = true)
    (by decide +kernel) (by decide +kernel)
  refine ⟨t, ht, herr, (placed_iff ht herr).mpr (fun _ => ⟨inOrder_of_ok fun f hf => ?_, ?_⟩) rfl⟩
  · exact eq_of_beq (List.all_eq_true.mp hok f hf)
  · intro c _ p _ x _ _ j hj hcut
    exact absurd hj (Nat.not_lt.mpr hcut)

/-- The hardware of a page whose first plane is blank and whose second plane needs one retry. -/
def blankThenRetry : Hw :=
  { Hw.steady (.uniform 0x05000000 0x5a) 0xe0 with
    page := fun _ plane k =>
      if plane = 0 then .uniform 0x3f000000 0xff
      else if k = 0 then .uniform 0x3f3f0000 0 else .uniform 0x05000000 0x5a }

/-- The blank first plane is copied in both rounds, and the second plane is written behind the
two slots, without an ECC error. -/
theorem not_placed_blankThenRetry :
    ∃ t, readPage .h27ucg8t2a ctl8k twoPlaneReq
        (startSt blankThenRetry (fun _ => 0) fun _ => 0) = (some 0, t) ∧
      t.eccErr = 0 ∧ ¬Placed .h27ucg8t2a ctl8k twoPlaneReq t.toBench := by
  obtain ⟨t, ht, herr, hany⟩ := exists_of_run
    (x := readPage .h27ucg8t2a ctl8k twoPlaneReq)
    (s := startSt blankThenRetry (fun _ => 0) fun _ => 0) (a := 0)
    (P := fun t => t.eccErr = 0 ∧ (t.delivered.any fun d => d.place == 16384) = true)
    (by decide +kernel) (by decide +kernel)
  obtain ⟨d, hd, hplace⟩ := List.any_eq_true.mp hany
  refine ⟨t, ht, herr, fun hP => absurd (hP.inside d hd) ?_⟩
  rw [eq_of_beq hplace]
  decide

end Amlnf.Bus
