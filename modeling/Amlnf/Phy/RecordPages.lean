import Amlnf.Lib.WriteOnce
import Amlnf.Phy.Stored

set_option relaxedAutoImplicit false
set_option autoImplicit false

/-!
# The pages a record is written to

The chips as a medium whose pages are programmed and erased, and the commands that write a record as
commands that program, one record page after another, the page the record page is mapped to and, on
the `HYNIX_1YNM_8GB` type, the page behind it.

## Main definitions

* `Flash.medium` — pages, programmed and erased.
* `OnErased`, `OncePerErase` — commands program erased pages only; no page is programmed twice
  between two erases of its block.
* `recPages` — the pages that go with a record page.
* `Striped` — commands that write record pages of one block.
* `CleanFrom` — a block is erased from a record page on.
* `writeIdx` — the record pages that writing a record programs.

## Main results

* `recPages_inj` — different record pages have different pages.
* `Striped.onErased`, `CleanFrom.striped` — writing clean record pages, and what stays clean.
* `striped_writeOps` — writing a record of either type.
-/

namespace Amlnf

/-! ## Chips as a medium -/

/-- Does the command program this page? -/
def FlashOp.Programs : FlashOp → ℕ × ℕ → Prop
  | .program c p _ _, a => a = (c, p)
  | .erase _ _, _ => False

/-- Does the command erase the block of this page? -/
def FlashOp.Erases (fl : Flash) : FlashOp → ℕ × ℕ → Prop
  | .program _ _ _ _, _ => False
  | .erase c b, a => a.1 = c ∧ a.2 / fl.ppb = b

/-- The pages of the chips, written by a program command and cleared by the erase of their block. -/
def Flash.medium (fl : Flash) : Medium FlashOp (ℕ × ℕ) where
  writes := FlashOp.Programs
  clears := FlashOp.Erases fl
  apart := by
    rintro (_ | _) c h
    · exact id
    · exact absurd h id

/-- The erased pages of an image. -/
def Image.erasedPages (m : Image) : Set (ℕ × ℕ) := {a | m a.1 a.2 = .erased}

/-- A command does to the erased pages what it does to the medium. -/
lemma Image.erasedPages_apply (fl : Flash) (m : Image) (op : FlashOp) :
    (m.apply fl op).erasedPages = fl.medium.step m.erasedPages op := by
  ext ⟨c, p⟩
  change m.apply fl op c p = .erased ↔ op.Erases fl (c, p) ∨ m c p = .erased ∧ ¬op.Programs (c, p)
  cases op with
  | program c' p' d o =>
    by_cases h : c = c' ∧ p = p'
    · obtain ⟨rfl, rfl⟩ := h
      have hne : (m c p).program d o ≠ .erased := by cases m c p <;> exact nofun
      simp [Image.apply, FlashOp.Erases, FlashOp.Programs, hne]
    · simp [Image.apply, FlashOp.Erases, FlashOp.Programs, h]
  | erase c' b =>
    by_cases h : c = c' ∧ p / fl.ppb = b
    · simp [Image.apply, FlashOp.Erases, h]
    · simp [Image.apply, FlashOp.Erases, FlashOp.Programs, h]

/-- The erased pages after commands are those the medium says. -/
lemma Image.erasedPages_replay (fl : Flash) (m : Image) (ops : List FlashOp) :
    (m.replay fl ops).erasedPages = ops.foldl fl.medium.step m.erasedPages := by
  induction ops generalizing m with
  | nil => rfl
  | cons op ops ih => rw [Image.replay_cons, ih, Image.erasedPages_apply, List.foldl_cons]

/-- The commands program erased pages only. -/
def OnErased (fl : Flash) (m : Image) (ops : List FlashOp) : Prop :=
  fl.medium.OnClear m.erasedPages ops

/-- Sequences of commands compose. -/
lemma onErased_append {fl : Flash} {m : Image} {xs ys : List FlashOp} :
    OnErased fl m (xs ++ ys) ↔ OnErased fl m xs ∧ OnErased fl (m.replay fl xs) ys := by
  rw [OnErased, Medium.onClear_append, ← Image.erasedPages_replay]
  rfl

/-- An erase programs nothing. -/
lemma onErased_erase (fl : Flash) (m : Image) (c b : ℕ) : OnErased fl m [.erase c b] :=
  Medium.onClear_singleton fun _ => id

/-- Two program commands for one page have an erase of its block between them. -/
def OncePerErase (fl : Flash) (ops : List FlashOp) : Prop :=
  ∀ xs ys zs c p d o d' o',
    ops = xs ++ .program c p d o :: (ys ++ .program c p d' o' :: zs) →
      .erase c (p / fl.ppb) ∈ ys

/-- Programs of erased pages program no page twice between two erases. -/
lemma OnErased.once {fl : Flash} {m : Image} {ops : List FlashOp} (h : OnErased fl m ops) :
    OncePerErase fl ops := by
  intro xs ys zs c p d o d' o' hops
  obtain ⟨op, hop, her⟩ := h.writesOnce xs ys zs _ _ (c, p) hops rfl rfl
  cases op with
  | program _ _ _ _ => exact absurd her id
  | erase c' b =>
    obtain ⟨rfl, rfl⟩ : c = c' ∧ p / fl.ppb = b := her
    exact hop

/-! ## The pages behind a record page -/

section Stripe

variable {fl : Flash}

/-- The pages of block `b` that go with its record page `i`: on the `HYNIX_1YNM_8GB` type the page
behind it is programmed too, except behind the first. -/
def recPages (fl : Flash) (b i : ℕ) : List ℕ :=
  fl.recPage b i :: if fl.newType = .hynix1ynm8gb ∧ 1 ≤ i then [fl.recPage b i + 1] else []

/-- The commands that program them. -/
def stripeOps (fl : Flash) (b i : ℕ) (d : Buf) (o : Option Tag) : List FlashOp :=
  .program (fl.resChip b) (fl.recPage b i) d o ::
    if fl.newType = .hynix1ynm8gb ∧ 1 ≤ i then [pairedOp fl b i] else []

/-- They lie in the block. -/
lemma recPages_div {b i p : ℕ} (hi : i < fl.pagesRead) (hp : p ∈ recPages fl b i) :
    p / fl.ppb = fl.resRow b := by
  rcases List.mem_cons.1 hp with rfl | hp
  · exact fl.recPage_div b hi
  · split at hp
    · rename_i hx
      obtain rfl := List.mem_singleton.1 hp
      have hlt := (fl.paired_facts hx.1 hi hx.2).1
      rw [fl.recPage_eq b hi, Nat.add_assoc, Nat.add_comm, Nat.add_mul_div_right _ _ fl.ppb_pos,
        Nat.div_eq_of_lt hlt, Nat.zero_add]
    · cases hp

/-- Pages that go with different record pages are different. -/
lemma recPages_inj {b b' i j p : ℕ} (hi : i < fl.pagesRead) (hj : j < fl.pagesRead)
    (hc : fl.resChip b = fl.resChip b') (hp : p ∈ recPages fl b i) (hp' : p ∈ recPages fl b' j) :
    b = b' ∧ i = j := by
  have hrow : fl.resRow b = fl.resRow b' := (recPages_div hi hp).symm.trans (recPages_div hj hp')
  obtain rfl := fl.res_injective hc hrow
  refine ⟨rfl, ?_⟩
  have hslot : ∀ k < fl.pagesRead, p ∈ recPages fl b k → p = fl.resRow b * fl.ppb + fl.slot k ∨
      (fl.newType = .hynix1ynm8gb ∧ 1 ≤ k) ∧ p = fl.resRow b * fl.ppb + (fl.slot k + 1) := by
    intro k hk hpk
    rcases List.mem_cons.1 hpk with rfl | hpk
    · exact Or.inl (fl.recPage_eq b hk)
    · split at hpk
      · rename_i hx
        obtain rfl := List.mem_singleton.1 hpk
        exact Or.inr ⟨hx, by rw [fl.recPage_eq b hk, Nat.add_assoc]⟩
      · cases hpk
  rcases hslot i hi hp with h1 | ⟨hx, h1⟩ <;> rcases hslot j hj hp' with h2 | ⟨hx', h2⟩
  · exact fl.slot_injOn hi hj (by omega)
  · exact absurd (by omega) ((fl.paired_facts hx'.1 hj hx'.2).2 i hi)
  · exact absurd (by omega) ((fl.paired_facts hx.1 hi hx.2).2 j hj)
  · exact fl.slot_injOn hi hj (by omega)

/-- What the commands of a record page program. -/
lemma programs_stripeOps {b i : ℕ} {d : Buf} {o : Option Tag} {op : FlashOp} {a : ℕ × ℕ}
    (hop : op ∈ stripeOps fl b i d o) (h : op.Programs a) :
    a.1 = fl.resChip b ∧ a.2 ∈ recPages fl b i := by
  rcases List.mem_cons.1 hop with rfl | hop
  · obtain rfl : a = (fl.resChip b, fl.recPage b i) := h
    exact ⟨rfl, List.mem_cons_self⟩
  · split at hop
    · rename_i hx
      obtain rfl := List.mem_singleton.1 hop
      obtain rfl : a = (fl.resChip b, fl.recPage b i + 1) := h
      refine ⟨rfl, List.mem_cons_of_mem _ ?_⟩
      rw [if_pos hx]
      exact List.mem_cons_self
    · cases hop

/-- They program different pages. -/
lemma pairwise_stripeOps (b i : ℕ) (d : Buf) (o : Option Tag) :
    (stripeOps fl b i d o).Pairwise fun x y => ∀ a, x.Programs a → ¬y.Programs a := by
  rw [stripeOps]
  split
  · refine List.pairwise_cons.2 ⟨fun y hy a hx hp => ?_, List.pairwise_singleton _ _⟩
    obtain rfl := List.mem_singleton.1 hy
    have h1 : a = (fl.resChip b, fl.recPage b i) := hx
    have h2 : a = (fl.resChip b, fl.recPage b i + 1) := hp
    have := congrArg Prod.snd (h1.symm.trans h2)
    simp at this
  · exact List.pairwise_singleton _ _

/-- The commands write the record pages `is` of block `b` one after another. -/
inductive Striped (fl : Flash) (b : ℕ) : List ℕ → List FlashOp → Prop
  | nil : Striped fl b [] []
  | cons {is : List ℕ} {ops : List FlashOp} (i : ℕ) (d : Buf) (o : Option Tag)
      (h : Striped fl b is ops) : Striped fl b (i :: is) (stripeOps fl b i d o ++ ops)

/-- Stripes behind one another, on different record pages. -/
lemma Striped.append {b : ℕ} {is js : List ℕ} {xs ys : List FlashOp} (hx : Striped fl b is xs)
    (hy : Striped fl b js ys) : Striped fl b (is ++ js) (xs ++ ys) := by
  induction hx with
  | nil => exact hy
  | cons i d o _ ih =>
    rw [List.append_assoc]
    exact .cons i d o ih

/-- The stripe of one record page. -/
lemma Striped.single (b i : ℕ) (d : Buf) (o : Option Tag) :
    Striped fl b [i] (stripeOps fl b i d o) := by
  have h : Striped fl b [i] (stripeOps fl b i d o ++ []) := .cons i d o .nil
  rwa [List.append_nil] at h

/-- What they program. -/
lemma Striped.programs {b : ℕ} {is : List ℕ} {ops : List FlashOp} (h : Striped fl b is ops)
    {op : FlashOp} {a : ℕ × ℕ} (hop : op ∈ ops) (hp : op.Programs a) :
    a.1 = fl.resChip b ∧ ∃ i ∈ is, a.2 ∈ recPages fl b i := by
  induction h with
  | nil => cases hop
  | cons i d o _ ih =>
    rcases List.mem_append.1 hop with hop | hop
    · obtain ⟨h1, h2⟩ := programs_stripeOps hop hp
      exact ⟨h1, i, List.mem_cons_self, h2⟩
    · obtain ⟨h1, j, hj, h2⟩ := ih hop
      exact ⟨h1, j, List.mem_cons_of_mem _ hj, h2⟩

/-- Every one of the record pages is programmed. -/
lemma Striped.covers {b i : ℕ} {is : List ℕ} {ops : List FlashOp} (h : Striped fl b is ops)
    (hi : i ∈ is) : ∃ d o, .program (fl.resChip b) (fl.recPage b i) d o ∈ ops := by
  induction h with
  | nil => cases hi
  | cons j d o _ ih =>
    rcases List.mem_cons.1 hi with rfl | hi
    · exact ⟨d, o, List.mem_append_left _ List.mem_cons_self⟩
    · obtain ⟨d', o', hop⟩ := ih hi
      exact ⟨d', o', List.mem_append_right _ hop⟩

/-- They program pages that differ from command to command. -/
lemma Striped.pairwise {b : ℕ} {is : List ℕ} {ops : List FlashOp} (h : Striped fl b is ops)
    (hnd : is.Nodup) (hin : ∀ i ∈ is, i < fl.pagesRead) :
    ops.Pairwise fun x y => ∀ a, x.Programs a → ¬y.Programs a := by
  induction h with
  | nil => exact List.Pairwise.nil
  | @cons is ops i d o hs ih =>
    obtain ⟨hi, hnd'⟩ := List.nodup_cons.1 hnd
    have hin' : ∀ j ∈ is, j < fl.pagesRead := fun j hj => hin j (List.mem_cons_of_mem _ hj)
    refine List.pairwise_append.2 ⟨pairwise_stripeOps b i d o, ih hnd' hin', ?_⟩
    intro x hx y hy a hxa hya
    obtain ⟨-, h1⟩ := programs_stripeOps hx hxa
    obtain ⟨-, j, hj, h2⟩ := hs.programs hy hya
    obtain ⟨-, rfl⟩ := recPages_inj (hin i List.mem_cons_self) (hin' j hj) rfl h1 h2
    exact hi hj

/-- They change the pages they program. -/
lemma Striped.hits {b : ℕ} {is : List ℕ} {ops : List FlashOp} (h : Striped fl b is ops)
    {op : FlashOp} {c p : ℕ} (hop : op ∈ ops) (hp : op.Hits fl c p) :
    c = fl.resChip b ∧ ∃ i ∈ is, p ∈ recPages fl b i := by
  have hprog : ∀ {is ops}, Striped fl b is ops → op ∈ ops → op.Programs (c, p) := by
    intro is ops h hop
    induction h with
    | nil => cases hop
    | cons i d o _ ih =>
      rcases List.mem_append.1 hop with hop | hop
      · rcases List.mem_cons.1 hop with rfl | hop
        · exact Prod.ext hp.1 hp.2
        · split at hop
          · obtain rfl := List.mem_singleton.1 hop
            exact Prod.ext hp.1 hp.2
          · cases hop
      · exact ih hop
  exact h.programs hop (hprog h hop)

/-! ## Erased pages of a block -/

/-- The record pages of block `b` from `base` on are erased, with the pages that go with them. -/
def CleanFrom (fl : Flash) (m : Image) (b base : ℕ) : Prop :=
  ∀ i, base ≤ i → i < fl.pagesRead → ∀ p ∈ recPages fl b i, m (fl.resChip b) p = .erased

variable {m : Image} {b b' base base' : ℕ} {is : List ℕ} {ops : List FlashOp}

/-- Writing clean pages, each once. -/
lemma Striped.onErased (h : Striped fl b is ops) (hnd : is.Nodup)
    (hin : ∀ i ∈ is, base ≤ i ∧ i < fl.pagesRead) (hc : CleanFrom fl m b base) :
    OnErased fl m ops := by
  refine Medium.onClear_of_pairwise (fun op hop a ha => ?_) (h.pairwise hnd fun i hi => (hin i hi).2)
  obtain ⟨h1, i, hi, h2⟩ := h.programs hop ha
  have := hc i (hin i hi).1 (hin i hi).2 a.2 h2
  rwa [← h1] at this

/-- Writing leaves the pages behind it clean, and other blocks as they are. -/
lemma CleanFrom.striped (h : CleanFrom fl m b' base') (hs : Striped fl b is ops)
    (hin : ∀ i ∈ is, i < fl.pagesRead) (hne : b' = b → ∀ i ∈ is, i < base') :
    CleanFrom fl (m.replay fl ops) b' base' := by
  intro i hi hlt p hp
  rw [Image.replay_of_not_hits, h i hi hlt p hp]
  intro op hop hhit
  obtain ⟨hc, j, hj, hp'⟩ := hs.hits hop hhit
  obtain ⟨hb, rfl⟩ := recPages_inj hlt (hin j hj) hc hp hp'
  have := hne hb i hj
  omega

/-- An erase cleans its block. -/
lemma cleanFrom_erase (m : Image) (b base : ℕ) :
    CleanFrom fl (m.apply fl (.erase (fl.resChip b) (fl.resRow b))) b base := by
  intro i _ hlt p hp
  exact if_pos ⟨rfl, recPages_div hlt hp⟩

/-- An erase soils nothing. -/
lemma CleanFrom.erase (h : CleanFrom fl m b base) (c r : ℕ) :
    CleanFrom fl (m.apply fl (.erase c r)) b base := by
  intro i hi hlt p hp
  by_cases hhit : (FlashOp.erase c r).Hits fl (fl.resChip b) p
  · exact if_pos hhit
  · rw [Image.apply_of_not_hits fl m hhit]
    exact h i hi hlt p hp

end Stripe

/-! ## The record pages a save writes -/

section Idx

variable (fl : Flash)

/-- The record pages of a block filled with copies of a `FULL_BLK` record, from page `i` on. -/
def fullBlkIdx (size : ℕ) : ℕ → ℕ → List ℕ
  | 0, _ => []
  | n + 1, i =>
    if i < fl.pagesRead then
      if fl.pagesRead - i < fl.argPages size then
        if fl.newType = .hynix1ynm8gb then [i] else []
      else
        List.range' i (fl.argPages size) ++ fullBlkIdx size n (i + fl.argPages size)
    else []

/-- The record pages that writing a record programs. A copy of a `FULL_PAGE` record is followed by
its dummy page. -/
def writeIdx (type : ArgType) (size base : ℕ) : List ℕ :=
  match type with
  | .fullBlk => fullBlkIdx fl size (fl.pagesRead + 1) 0
  | .fullPage => List.range' base (copyStep fl size)

variable {fl} {tag : Tag} {buf : Buf} {size b base : ℕ}

/-- A copy takes the record pages from its base on. -/
lemma striped_copyOps : Striped fl b (List.range' base (fl.argPages size))
    (copyOps fl tag buf size b base) := by
  have h : ∀ js : List ℕ, Striped fl b (js.map (base + ·))
      (js.flatMap (pieceOps fl tag buf size b base)) := by
    intro js
    induction js with
    | nil => exact .nil
    | cons j js ih => exact .cons (base + j) (recSlice fl buf size j) (some tag) ih
  rw [List.range'_eq_map_range]
  exact h _

/-- A dummy page takes one record page. -/
lemma striped_dummyOps (hx : fl.newType = .hynix1ynm8gb) {i : ℕ} (h1 : 1 ≤ i) :
    Striped fl b [i] (dummyOps fl b i) := by
  have h : dummyOps fl b i = stripeOps fl b i (fun _ => 0x5a) none := by
    rw [stripeOps, if_pos ⟨hx, h1⟩]
    rfl
  rw [h]
  exact .single b i _ _

/-- A copy of a `FULL_PAGE` record takes its pages and that of the dummy. -/
lemma striped_fullPageOps : Striped fl b (List.range' base (copyStep fl size))
    (fullPageOps fl tag buf size b base) := by
  have hA := argPages_pos fl size
  unfold fullPageOps copyStep
  by_cases hx : fl.newType = .hynix1ynm8gb
  · rw [if_pos hx, if_pos hx, List.range'_1_concat]
    exact striped_copyOps.append (striped_dummyOps hx (by omega))
  · rw [if_neg hx, if_neg hx, List.append_nil, Nat.add_zero]
    exact striped_copyOps

/-- The copies of a `FULL_BLK` record take the record pages of the block. -/
lemma striped_fullBlkOps : ∀ n i, (i = 0 → fl.argPages size ≤ fl.pagesRead) →
    Striped fl b (fullBlkIdx fl size n i) (fullBlkOps fl tag buf size b n i) := by
  have hA := argPages_pos fl size
  intro n
  induction n with
  | zero =>
    intro i _
    exact .nil
  | succ n ih =>
    intro i hi
    rw [fullBlkIdx, fullBlkOps]
    split
    · split
      · split
        · rename_i hx
          exact striped_dummyOps hx (by omega)
        · exact .nil
      · exact striped_copyOps.append (ih _ (by omega))
    · exact .nil

/-- Writing a record programs those record pages. -/
lemma striped_writeOps (type : ArgType) (hfit : fl.argPages size ≤ fl.pagesRead) :
    Striped fl b (writeIdx fl type size base) (writeOps fl type tag buf size b base) := by
  cases type with
  | fullBlk => exact striped_fullBlkOps _ _ fun _ => hfit
  | fullPage => exact striped_fullPageOps

/-- These are record pages from the first copy on. -/
lemma mem_fullBlkIdx : ∀ n {i j}, j ∈ fullBlkIdx fl size n i → i ≤ j ∧ j < fl.pagesRead := by
  intro n
  induction n with
  | zero =>
    intro i j hj
    cases hj
  | succ n ih =>
    intro i j hj
    rw [fullBlkIdx] at hj
    split at hj
    · split at hj
      · split at hj
        · obtain rfl := List.mem_singleton.1 hj
          exact ⟨le_refl _, by assumption⟩
        · cases hj
      · rcases List.mem_append.1 hj with hj | hj
        · rw [List.mem_range'_1] at hj
          omega
        · have := ih hj
          omega
    · cases hj

/-- Each is taken once. -/
lemma nodup_fullBlkIdx : ∀ n i, (fullBlkIdx fl size n i).Nodup := by
  intro n
  induction n with
  | zero =>
    intro i
    exact List.nodup_nil
  | succ n ih =>
    intro i
    rw [fullBlkIdx]
    split
    · split
      · split
        · exact List.nodup_singleton i
        · exact List.nodup_nil
      · refine List.nodup_append.2 ⟨List.nodup_range', ih _, ?_⟩
        intro x hx y hy hxy
        rw [List.mem_range'_1] at hx
        have := (mem_fullBlkIdx n hy).1
        omega
    · exact List.nodup_nil

/-- So are those of a write of either type. -/
lemma nodup_writeIdx (type : ArgType) : (writeIdx fl type size base).Nodup := by
  cases type with
  | fullBlk => exact nodup_fullBlkIdx _ _
  | fullPage => exact List.nodup_range'

end Idx

end Amlnf
