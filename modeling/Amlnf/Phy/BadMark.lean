import Amlnf.Phy.Steps

set_option relaxedAutoImplicit false
set_option autoImplicit false

/-!
# Where the bad mark lands

`block_markbad` sets the entries of the bad-block table, saves the table and then programs a page of
zeros at the address in `ops_para`. The save goes through the same `ops_para`.

## Main definitions

* `beforeMark` — the state in which the page is programmed.
* `MarkLands` — the page lies in a block that `ops_para` named at the call.

## Main results

* `markLands_of` — the mark lands where it should unless a save of the table comes in between.
-/

namespace Amlnf

open Act

section

variable {fl : Flash}

/-- The state when `block_markbad` comes to program its page. -/
def beforeMark (fl : Flash) (s : St) : St :=
  if MarkReaches fl s then
    (innerUpdate fl { s with
      blkStatus := setEntries s.blkStatus blockUsedBad (markbadEntries fl s.opsPara) }).2
  else s

/-- The commands `block_markbad` issues itself, after the save of the table. -/
def markOps (fl : Flash) (s : St) : List FlashOp :=
  (blockMarkbadOp fl s).2.log.drop (beforeMark fl s).log.length

/-- Every page `block_markbad` programs, apart from the save of the table, lies in a block that
`ops_para` named at the call. -/
def MarkLands (fl : Flash) (s : St) : Prop :=
  ∀ op ∈ markOps fl s, ∀ c p, op.Hits fl c p → (c, p / fl.ppb) ∈ opBlocks fl s.opsPara

/-! ## The page of zeros -/

/-- A program touches the blocks `ops_para` names. -/
lemma programOps_hits {p : ChipOpsPara} {d : Buf} {oob : Option Tag} {op : FlashOp}
    (hop : op ∈ programOps fl (opPages fl p) d oob) {c pg : ℕ} (h : op.Hits fl c pg) :
    (c, pg / fl.ppb) ∈ opBlocks fl p := by
  simp only [programOps, List.mem_map] at hop
  obtain ⟨⟨t, k⟩, ht, rfl⟩ := hop
  obtain ⟨rfl, rfl⟩ := h
  have hmem : t ∈ opPages fl p := List.fst_mem_of_mem_zipIdx ht
  simp only [opPages, List.mem_map] at hmem
  obtain ⟨u, hu, rfl⟩ := hmem
  have hdiv : (u.2 * fl.ppb + p.pageAddr % fl.ppb) / fl.ppb = u.2 := by
    rw [Nat.add_comm, Nat.add_mul_div_right _ _ fl.ppb_pos,
      Nat.div_eq_of_lt (Nat.mod_lt _ fl.ppb_pos), Nat.zero_add]
  rw [hdiv]
  exact hu

/-- The mark is one program at the address in `ops_para`, or nothing. -/
lemma markPage_log (fl : Flash) (s : St) : ∃ ops, (markPage fl s).2.log = s.log ++ ops ∧
    ∀ op ∈ ops, ∀ c p, op.Hits fl c p → (c, p / fl.ppb) ∈ opBlocks fl s.opsPara := by
  -- taking and releasing the chip changes neither the commands nor `ops_para`
  let R : St → St → Prop := fun s t => t.opsPara = s.opsPara ∧
    ∃ ops, t.log = s.log ++ ops ∧
      ∀ op ∈ ops, ∀ c p, op.Hits fl c p → (c, p / fl.ppb) ∈ opBlocks fl s.opsPara
  have : Std.Refl R := ⟨fun s => ⟨rfl, [], (List.append_nil _).symm, nofun⟩⟩
  have : IsTrans St R := by
    refine ⟨?_⟩
    rintro s t u ⟨hp, xs, hxs, hx⟩ ⟨hq, ys, hys, hy⟩
    refine ⟨hq.trans hp, xs ++ ys, by rw [hys, hxs, List.append_assoc], fun op hop => ?_⟩
    rcases List.mem_append.mp hop with h | h
    · exact hx op h
    · rw [← hp]
      exact hy op h
  have hwrite : Moves R (writePage fl (some fun _ => 0) none) := by
    refine Moves.get_bind fun s => ?_
    by_cases hro : s.readonly = true
    · rw [if_pos hro]
      exact refl_of R s
    · rw [if_neg hro]
      refine ⟨?_, _, issue_log _ _ _ s, fun op hop c p h => programOps_hits hop h⟩
      unfold issue
      dsimp only
      cases (s.plan s.tick).prog <;> rfl
  have hmark : Moves R (markPage fl) := by
    refine .bind (moves_bracket (fun s m i f k => ?_) hwrite) fun _ => .pure _
    exact ⟨rfl, [], (List.append_nil _).symm, nofun⟩
  exact (hmark s).2

/-- A mark right after the call lands where it should. -/
lemma markLands_of_markPage {s t : St} (hbefore : (beforeMark fl s).log = t.log)
    (hp : t.opsPara = s.opsPara) (hrun : (blockMarkbadOp fl s).2 = (markPage fl t).2) :
    MarkLands fl s := by
  obtain ⟨ops, hlog, hops⟩ := markPage_log fl t
  intro op hop
  rw [markOps, hrun, hlog, hbefore, List.drop_left] at hop
  rw [← hp]
  exact hops op hop

/-! ## When the mark lands -/

lemma blockMarkbadOp_eq : blockMarkbadOp fl = blockMarkbad fl (innerUpdate fl) := rfl

/-- The way through the save of the table. -/
lemma blockMarkbadOp_reaches {s : St} (h : MarkReaches fl s) :
    blockMarkbadOp fl s = (innerUpdate fl >>= fun _ => markPage fl) { s with
      blkStatus := setEntries s.blkStatus blockUsedBad (markbadEntries fl s.opsPara) } :=
  blockMarkbad_reaches (innerUpdate fl) h

/-- A call that issues nothing after the save marks nothing. -/
lemma markLands_of_log {s : St} (h : (blockMarkbadOp fl s).2.log = (beforeMark fl s).log) :
    MarkLands fl s := by
  intro op hop
  rw [markOps, h, List.drop_length] at hop
  cases hop

/-- While `amlnf_readonly` is on nothing is issued at all. -/
lemma markLands_of_readonly {s : St} (hreach : MarkReaches fl s) (hro : s.readonly = true) :
    MarkLands fl s := by
  have hinner := moves_innerUpdate fl
  have hmark := Steps.log_of_readonly (moves_blockMarkbadOp fl s) hro
  have hbefore : (beforeMark fl s).log = s.log := by
    have hlog := Steps.log_of_readonly (hinner { s with
      blkStatus := setEntries s.blkStatus blockUsedBad (markbadEntries fl s.opsPara) }) hro
    rw [beforeMark, if_pos hreach]
    exact hlog
  exact markLands_of_log (hmark.trans hbefore.symm)

/-- The bad mark lands on the marked block when marking or writing is not allowed, when records may
not be saved, and when the table is not loaded or does not say that the block is good. Otherwise the
save of the table comes in between and leaves its own address in `ops_para`. -/
theorem markLands_of (fl : Flash) (s : St)
    (h : s.readonly = true ∨ s.allowMeta = false ∨ ¬MarkReaches fl s) : MarkLands fl s := by
  by_cases hreach : MarkReaches fl s
  · rcases h with hro | hmeta | hnot
    · exact markLands_of_readonly hreach hro
    · -- the save is refused at once, and `ops_para` is as it was
      have hupd : innerUpdate fl { s with
          blkStatus := setEntries s.blkStatus blockUsedBad (markbadEntries fl s.opsPara) } =
          (some (-eROFS), { s with
            blkStatus := setEntries s.blkStatus blockUsedBad (markbadEntries fl s.opsPara) }) := by
        rw [innerUpdate, amlnandUpdateBbt, get_bind, amlnandSaveInfoByName, get_bind,
          if_pos (by simp [hmeta])]
        rfl
      refine markLands_of_markPage (t := { s with
        blkStatus := setEntries s.blkStatus blockUsedBad (markbadEntries fl s.opsPara) }) ?_ rfl ?_
      · rw [beforeMark, if_pos hreach, hupd]
      · rw [blockMarkbadOp_reaches hreach, bind_some hupd]
    · exact absurd hreach hnot
  · have hbefore : beforeMark fl s = s := if_neg hreach
    by_cases hallow : s.allowMarkbad = true
    · rw [MarkReaches, not_and, not_and] at hreach
      by_cases hbad : (s.info .nbbt).argValid ∧
          (s.blkStatus s.opsPara.chipnr (s.opsPara.pageAddr >>> fl.ppbShift) = blockUsedBad ∨
            s.blkStatus s.opsPara.chipnr (s.opsPara.pageAddr >>> fl.ppbShift) = blockFactoryBad)
      · refine markLands_of_log ?_
        rw [hbefore, blockMarkbadOp_eq, blockMarkbad, get_bind, if_neg (by simp [hallow]),
          if_pos hbad]
        rfl
      · refine markLands_of_markPage (congrArg St.log hbefore) rfl ?_
        rw [blockMarkbadOp_eq, blockMarkbad, get_bind, if_neg (by simp [hallow]), if_neg hbad,
          if_neg fun hgood => hreach hallow hgood.1 hgood.2]
    · refine markLands_of_log ?_
      rw [hbefore, blockMarkbadOp_eq, blockMarkbad, get_bind, if_pos (by simpa using hallow)]
      rfl

/-- The table in block 5, and a call that marks block 100. -/
def markHundred : St :=
  { St.blank with
    info := fun n => { argType := argTypeOf n, argValid := n = .nbbt, validBlkAddr := 5 }
    opsPara := { pageAddr := 25600 } }

/-- With `amlnf_allow_meta` off, the mark goes to block 100. -/
theorem markLands_noMeta : MarkLands .oneChip { markHundred with allowMeta := false } ∧
    ∃ op ∈ markOps .oneChip { markHundred with allowMeta := false }, op.Hits .oneChip 0 25600 :=
  ⟨markLands_of _ _ (.inr (.inl rfl)), by decide +kernel⟩

/-- With it on, the save moves the table to another block and erases block 5 last: the mark goes to
the first page of block 5. -/
theorem mark_strays : (∃ op ∈ markOps .oneChip markHundred, op.Hits .oneChip 0 1280) ∧
    ¬MarkLands .oneChip markHundred := by
  have hstray : ∃ op ∈ markOps .oneChip markHundred, op.Hits .oneChip 0 1280 := by
    decide +kernel
  refine ⟨hstray, fun h => ?_⟩
  obtain ⟨op, hop, hhits⟩ := hstray
  exact absurd (h op hop 0 1280 hhits) (by decide)

end

end Amlnf
