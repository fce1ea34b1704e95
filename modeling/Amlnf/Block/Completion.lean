import Amlnf.Block.Nftl

set_option relaxedAutoImplicit false
set_option autoImplicit false

/-!
# Completion of block requests

`ntd_blktrans_work` completes a request with `BLK_STS_OK` when the driver's request function
returns zero. There are two request functions: the driver's own `do_nftltrans_request`, and a
fallback for drivers that have none. The first reports a request as done in cases in which the
second would not.

## Main definitions

* `doBlktransRequestFallback`, `ntdBlktransWork` — the layer above the driver.
* `Request.Done` — what a request asks for, by its own sectors, has been done by some calls.
* `Honest` — a request that is completed with success has been done.

## Main results

* `fallback_honest` — the fallback is honest.
* `honest_iff` — when the driver is.

## Design

What a request asks for is stated by the operation and the sectors of the request alone, so that
it does not depend on how the request functions turn them into calls.
-/

namespace Amlnf

/-- `blk_status_t`. -/
inductive BlkSts
  | ok
  | ioerr
  deriving DecidableEq, Repr

/-- `struct ntd_blktrans_ops`: the request function, and which of the other functions there are. -/
structure BlktransOps where
  doBlktransRequest : Option (NftlDev → NftlBlk → Request → (ℕ → ℕ) → ℤ × List (FtlCall × ℕ))
  readsect : Bool
  writesect : Bool
  flush : Bool
  discard : Bool

/-! ## What a request asks for -/

/-- The functions of the translation layer that do what an operation asks for; none for the
operations the layer does not have. -/
def ReqOp.Serves : ReqOp → FtlKind → Prop
  | .read, k => k = .read
  | .write, k => ∃ sync, k = .write sync
  | .discard, k | .writeZeroes, k => ∃ sync, k = .discard sync
  | .flush, k => k = .flush
  | .other _, _ => False

/-- The sectors some calls went through, in order. -/
def sectorsOf (calls : List (FtlCall × ℕ)) : List ℕ :=
  calls.flatMap fun c => List.range' c.1.start c.1.len

/-- The calls do what a request on the disk that starts at sector `base` asks for: each returned
zero and is one for the operation, and together they go through the sectors of the request once,
in order; a flush is one call at least, and other operations are never done. -/
def Request.Done (req : Request) (base : ℕ) (calls : List (FtlCall × ℕ)) : Prop :=
  (∀ c ∈ calls, c.2 = 0 ∧ req.op.Serves c.1.kind) ∧
    match req.op with
    | .read | .write | .discard | .writeZeroes =>
      sectorsOf calls = List.range' (base + req.pos) req.sectors
    | .flush => calls ≠ []
    | .other _ => False

/-! ## The fallback -/

/-- Sectors one by one: did all succeed, and the calls with their return codes. -/
def sectorLoop (k : FtlKind) (ftl : ℕ → ℕ) : ℕ → ℕ → ℕ → Bool × List (FtlCall × ℕ)
  | 0, _, _ => (true, [])
  | nsect + 1, block, n =>
    if ftl n ≠ 0 then (false, [(⟨k, block, 1⟩, ftl n)])
    else
      let (ok, calls) := sectorLoop k ftl nsect (block + 1) (n + 1)
      (ok, (⟨k, block, 1⟩, ftl n) :: calls)

/-- The segments of a request sector by sector. -/
def fallbackSegs (k : FtlKind) (ftl : ℕ → ℕ) : List ℕ → ℕ → ℕ → Bool × List (FtlCall × ℕ)
  | [], _, _ => (true, [])
  | len :: segs, block, n =>
    match sectorLoop k ftl (len >>> 9) block n with
    | (false, calls) => (false, calls)
    | (true, calls) =>
      let (ok, calls') := fallbackSegs k ftl segs (block + len >>> 9) (n + len >>> 9)
      (ok, calls ++ calls')

/-- A call that may fail. -/
def single (c : FtlCall) (code : ℕ) : BlkSts × List (FtlCall × ℕ) :=
  (if code ≠ 0 then .ioerr else .ok, [(c, code)])

/-- The result of the loop over the segments. -/
def ofLoop (r : Bool × List (FtlCall × ℕ)) : BlkSts × List (FtlCall × ℕ) :=
  (if r.1 then .ok else .ioerr, r.2)

/-- `do_blktrans_request_fallback`. Without `readsect` the first sector of a read fails. -/
def doBlktransRequestFallback (tr : BlktransOps) (req : Request) (ftl : ℕ → ℕ) :
    BlkSts × List (FtlCall × ℕ) :=
  match req.op with
  | .flush => if tr.flush then single ⟨.flush, 0, 0⟩ (ftl 0) else (.ok, [])
  | .discard | .writeZeroes =>
    if tr.discard then single ⟨.discard false, blockOf req.pos, req.sectors⟩ (ftl 0) else (.ok, [])
  | .read =>
    if tr.readsect then ofLoop (fallbackSegs .read ftl req.segs (blockOf req.pos) 0)
    else if req.segs.any fun len => len >>> 9 ≠ 0 then (.ioerr, []) else (.ok, [])
  | .write =>
    if tr.writesect then ofLoop (fallbackSegs (.write false) ftl req.segs (blockOf req.pos) 0)
    else (.ioerr, [])
  | .other _ => (.ioerr, [])

/-- The sectors of segments, one call each. -/
def sectorCalls (k : FtlKind) : List ℕ → ℕ → List FtlCall
  | [], _ => []
  | len :: segs, block =>
    (List.range' block (len >>> 9)).map (fun b => ⟨k, b, 1⟩) ++ sectorCalls k segs (block + len >>> 9)

/-- A loop over sectors that succeeds called for each of them. -/
lemma sectorLoop_true (k : FtlKind) (ftl : ℕ → ℕ) : ∀ nsect block n,
    (sectorLoop k ftl nsect block n).1 = true → (sectorLoop k ftl nsect block n).2 =
      (List.range' block nsect).map fun b => (⟨k, b, 1⟩, 0) := by
  intro nsect
  induction nsect with
  | zero =>
    intro block n _
    rfl
  | succ nsect ih =>
    intro block n h
    unfold sectorLoop at h ⊢
    split at h
    · cases h
    · rename_i hf
      rw [if_neg hf, List.range'_succ, List.map_cons, ← ih _ _ h, not_not.1 hf]

/-- A fallback that succeeds called for each sector. -/
lemma fallbackSegs_true (k : FtlKind) (ftl : ℕ → ℕ) : ∀ segs block n,
    (fallbackSegs k ftl segs block n).1 = true → (fallbackSegs k ftl segs block n).2 =
      (sectorCalls k segs block).map fun c => (c, 0) := by
  intro segs
  induction segs with
  | nil =>
    intro block n _
    rfl
  | cons len segs ih =>
    intro block n h
    have hloop := sectorLoop_true k ftl (len >>> 9) block n
    unfold fallbackSegs at h ⊢
    cases hr : sectorLoop k ftl (len >>> 9) block n with
    | mk ok calls =>
      rw [hr] at h hloop
      cases ok with
      | false => cases h
      | true =>
        dsimp only at h hloop ⊢
        rw [ih _ _ h, hloop rfl, sectorCalls, List.map_append, List.map_map]
        rfl

/-- The sectors of segments, one after the other. -/
lemma sectorsOf_sectorCalls (k : FtlKind) : ∀ (segs : List ℕ) (block : ℕ),
    (∀ len ∈ segs, 512 ∣ len) →
      sectorsOf ((sectorCalls k segs block).map fun c => (c, 0)) =
        List.range' block (segs.sum / 512) := by
  intro segs
  induction segs with
  | nil =>
    intro block _
    rfl
  | cons len segs ih =>
    intro block hdvd
    obtain ⟨n, rfl⟩ := hdvd len List.mem_cons_self
    have hlen : (512 * n) >>> 9 = n := by
      rw [Nat.shiftRight_eq_div_pow]
      omega
    have hhead : ∀ m b, sectorsOf ((List.range' b m).map fun x => ((⟨k, x, 1⟩ : FtlCall), 0)) =
        List.range' b m := by
      intro m
      induction m with
      | zero => exact fun b => rfl
      | succ m ihm =>
        intro b
        rw [List.range'_succ, List.map_cons, sectorsOf, List.flatMap_cons]
        exact congrArg (List.cons b) (ihm (b + 1))
    rw [sectorCalls, List.map_append, sectorsOf, List.flatMap_append, List.map_map, hlen]
    change sectorsOf ((List.range' block n).map fun x => ((⟨k, x, 1⟩ : FtlCall), 0)) ++
      sectorsOf _ = _
    rw [hhead, ih _ fun l hl => hdvd l (List.mem_cons_of_mem _ hl), List.sum_cons,
      show (512 * n + segs.sum) / 512 = n + segs.sum / 512 by omega, List.range'_append_1]

/-- Calls for sectors are of one kind. -/
lemma mem_sectorCalls {k : FtlKind} : ∀ {segs : List ℕ} {block : ℕ} {c : FtlCall},
    c ∈ sectorCalls k segs block → c.kind = k := by
  intro segs
  induction segs with
  | nil =>
    intro block c hc
    cases hc
  | cons len segs ih =>
    intro block c hc
    rcases List.mem_append.1 hc with hc | hc
    · obtain ⟨b, -, rfl⟩ := List.mem_map.1 hc
      rfl
    · exact ih hc

/-- A sector number below `2 ^ 32` is kept as it is. -/
lemma blockOf_eq {pos : ℕ} (h : pos < 2 ^ 32) : blockOf pos = pos := by
  rw [blockOf, Nat.shiftLeft_eq, Nat.shiftRight_eq_div_pow]
  omega

/-- Length of the segments of a read or write in sectors. -/
lemma Request.segs_sectors (req : Request) (h : req.op = .read ∨ req.op = .write) :
    req.segs.sum / 512 = req.sectors := by
  rw [req.segs_sum h]
  omega

/-- **The fallback is honest** for a driver with all four functions, on disks whose sector numbers
have 32 bits: what it completes with success has been done, and every call returned zero. -/
lemma fallback_honest {tr : BlktransOps} (h1 : tr.readsect = true) (h2 : tr.writesect = true)
    (h3 : tr.flush = true) (h4 : tr.discard = true) (req : Request)
    (hpos : req.pos < 2 ^ 32) (ftl : ℕ → ℕ)
    (hok : (doBlktransRequestFallback tr req ftl).1 = .ok) :
    req.Done 0 (doBlktransRequestFallback tr req ftl).2 := by
  have hcode : ∀ c code, (single c code).1 = .ok → code = 0 := by
    intro c code h
    by_contra hne
    rw [single, if_pos hne] at h
    cases h
  have hsegs : ∀ k, (ofLoop (fallbackSegs k ftl req.segs (blockOf req.pos) 0)).1 = .ok →
      (ofLoop (fallbackSegs k ftl req.segs (blockOf req.pos) 0)).2 =
        (sectorCalls k req.segs req.pos).map fun c => (c, 0) := by
    intro k h
    have htrue : (fallbackSegs k ftl req.segs (blockOf req.pos) 0).1 = true := by
      by_contra hne
      rw [ofLoop, if_neg hne] at h
      cases h
    have hcalls := fallbackSegs_true k ftl req.segs (blockOf req.pos) 0 htrue
    rwa [blockOf_eq hpos] at hcalls ⊢
  have hmem : ∀ {k : FtlKind} {c : FtlCall × ℕ},
      c ∈ (sectorCalls k req.segs req.pos).map (fun c => (c, 0)) → c.2 = 0 ∧ c.1.kind = k := by
    intro k c hc
    obtain ⟨d, hd, rfl⟩ := List.mem_map.1 hc
    exact ⟨rfl, mem_sectorCalls hd⟩
  unfold doBlktransRequestFallback at hok ⊢
  unfold Request.Done
  cases hop : req.op with
  | flush =>
    simp only [hop, h3, if_true] at hok ⊢
    simp [single, hcode _ _ hok, ReqOp.Serves]
  | discard =>
    simp only [hop, h4, if_true] at hok ⊢
    simp [single, hcode _ _ hok, ReqOp.Serves, sectorsOf, blockOf_eq hpos]
  | writeZeroes =>
    simp only [hop, h4, if_true] at hok ⊢
    simp [single, hcode _ _ hok, ReqOp.Serves, sectorsOf, blockOf_eq hpos]
  | read =>
    simp only [hop, h1, if_true] at hok ⊢
    rw [hsegs _ hok]
    refine ⟨fun c hc => hmem hc, ?_⟩
    rw [sectorsOf_sectorCalls _ _ _ req.segs_dvd, req.segs_sectors (.inl hop), Nat.zero_add]
  | write =>
    simp only [hop, h2, if_true] at hok ⊢
    rw [hsegs _ hok]
    refine ⟨fun c hc => ⟨(hmem hc).1, false, (hmem hc).2⟩, ?_⟩
    rw [sectorsOf_sectorCalls _ _ _ req.segs_dvd, req.segs_sectors (.inr hop), Nat.zero_add]
  | other code =>
    simp only [hop] at hok
    cases hok

/-! ## The driver -/

/-- The body of the loop of `ntd_blktrans_work`: the status a request is ended with. -/
def ntdBlktransWork (tr : BlktransOps) (dev : NftlDev) (blk : NftlBlk) (req : Request)
    (ftl : ℕ → ℕ) : BlkSts × List (FtlCall × ℕ) :=
  match tr.doBlktransRequest with
  | some f =>
    let (err, calls) := f dev blk req ftl
    (if err ≠ 0 then .ioerr else .ok, calls)
  | none => doBlktransRequestFallback tr req ftl

/-- `aml_nftl_tr`. -/
def amlNftlTr : BlktransOps where
  doBlktransRequest := some doNftltransRequest
  readsect := false
  writesect := true
  flush := true
  discard := false

/-- If the request is completed with `BLK_STS_OK`, what it asks for has been done and every call
returned zero. -/
def Honest (dev : NftlDev) (blk : NftlBlk) (req : Request) (ftl : ℕ → ℕ) : Prop :=
  (ntdBlktransWork amlNftlTr dev blk req ftl).1 = .ok →
    req.Done blk.offset (ntdBlktransWork amlNftlTr dev blk req ftl).2

/-- A read or write is honest unless it is dropped after the reboot notifier, a discard if it is
refused or its call returns zero, any other request if it is refused. -/
def HonestWhen (dev : NftlDev) (blk : NftlBlk) (req : Request) (ftl : ℕ → ℕ) : Prop :=
  match req.op with
  | .read | .write => dev.rebootFlag = true → req.sectors = 0
  | .discard | .writeZeroes =>
    if dev.rebootFlag then req.sectors = 0 else req.beyond blk ∨ ftl 0 = 0
  | .flush | .other _ => dev.rebootFlag = false ∧ (req.beyond blk ∨ req.segs ≠ [])

section

variable {dev : NftlDev} {blk : NftlBlk} {req : Request} {ftl : ℕ → ℕ}

/-- A request that the driver answers with zero is completed with success. -/
lemma honest_of_ret {ret : ℤ} {calls : List (FtlCall × ℕ)}
    (h : doNftltransRequest dev blk req ftl = (ret, calls)) :
    Honest dev blk req ftl ↔ (ret = 0 → req.Done blk.offset calls) := by
  have hw : ntdBlktransWork amlNftlTr dev blk req ftl =
      (if ret ≠ 0 then .ioerr else .ok, calls) := by
    simp only [ntdBlktransWork, amlNftlTr, h]
  rw [Honest, hw]
  by_cases hz : ret = 0
  · simp [hz]
  · simp [hz]

/-- After the reboot notifier every request is dropped. -/
lemma doNftltransRequest_reboot (h : dev.rebootFlag = true) :
    doNftltransRequest dev blk req ftl = (0, []) := by
  rw [doNftltransRequest, if_pos h]

/-- A request past the end is refused. -/
lemma doNftltransRequest_beyond (h : dev.rebootFlag = false) (hb : req.beyond blk) :
    doNftltransRequest dev blk req ftl = (-eIo, []) := by
  rw [doNftltransRequest, if_neg (by simp [h]), if_pos hb]

/-- A request that is refused promises nothing. -/
lemma honest_of_refused {calls : List (FtlCall × ℕ)}
    (h : doNftltransRequest dev blk req ftl = (-eIo, calls)) : Honest dev blk req ftl :=
  (honest_of_ret h).2 fun h0 => absurd h0 (by decide)

/-- Without a call a request for sectors is done when it has none. -/
lemma Request.done_nil {base : ℕ} (hop : req.op = .read ∨ req.op = .write ∨ req.op = .discard ∨
    req.op = .writeZeroes) : req.Done base [] ↔ req.sectors = 0 := by
  have hnil : sectorsOf [] = List.range' (base + req.pos) req.sectors ↔ req.sectors = 0 := by
    rw [eq_comm, show sectorsOf [] = [] from rfl, List.range'_eq_nil_iff]
  rw [Request.Done]
  rcases hop with hop | hop | hop | hop <;> rw [hop] <;>
    exact ⟨fun h => hnil.1 h.2, fun h => ⟨fun _ hc => (List.not_mem_nil hc).elim, hnil.2 h⟩⟩

/-- The calls for the segments of a read or write on the disk go through its sectors. -/
lemma sectorsOf_segCalls {k : FtlKind} (hcap : blk.offset + blk.size < 2 ^ 32) :
    ∀ (segs : List ℕ) (pos : ℕ), (∀ len ∈ segs, 512 ∣ len) → pos + segs.sum / 512 ≤ blk.size →
      sectorsOf ((segCalls blk k segs pos).map fun c => (c, 0)) =
        List.range' (blk.offset + pos) (segs.sum / 512) := by
  intro segs
  induction segs with
  | nil =>
    intro pos _ _
    rfl
  | cons len segs ih =>
    intro pos hdvd hsum
    obtain ⟨n, rfl⟩ := hdvd len List.mem_cons_self
    have hlen : (512 * n) >>> 9 = n := by
      rw [Nat.shiftRight_eq_div_pow]
      omega
    rw [List.sum_cons, show (512 * n + segs.sum) / 512 = n + segs.sum / 512 by omega] at hsum ⊢
    obtain ⟨h1, h2⟩ := blkNand_inRange (n := n) k pos hcap (by omega)
    rw [segCalls, hlen, List.map_cons, sectorsOf, List.flatMap_cons]
    change List.range' (blkNand blk k (blockOf pos) n).start (blkNand blk k (blockOf pos) n).len ++
      sectorsOf _ = _
    rw [h1, h2, ih _ (fun l hl => hdvd l (List.mem_cons_of_mem _ hl)) (by omega), ← Nat.add_assoc,
      List.range'_append_1]

/-- Calls for segments are of one kind. -/
lemma mem_segCalls {k : FtlKind} : ∀ {segs : List ℕ} {pos : ℕ} {c : FtlCall},
    c ∈ segCalls blk k segs pos → c.kind = k := by
  intro segs
  induction segs with
  | nil =>
    intro pos c hc
    cases hc
  | cons len segs ih =>
    intro pos c hc
    rcases List.mem_cons.1 hc with rfl | hc
    · rfl
    · exact ih hc

/-- The end of a request that is not beyond the disk. -/
lemma Request.end_le (hcap : blk.offset + blk.size < 2 ^ 32) (hb : ¬req.beyond blk) :
    req.pos + req.sectors ≤ blk.size := by
  rw [Request.beyond, Nat.mod_eq_of_lt req.pos_lt, Nat.mod_eq_of_lt (by omega)] at hb
  omega

/-- Reads and writes. -/
lemma honest_segs (hcap : blk.offset + blk.size < 2 ^ 32) {k : FtlKind}
    (hk : segKind blk req = some k) (hserves : req.op.Serves k)
    (hop : req.op = .read ∨ req.op = .write) :
    Honest dev blk req ftl ↔ (dev.rebootFlag = true → req.sectors = 0) := by
  cases hr : dev.rebootFlag with
  | true =>
    rw [honest_of_ret (doNftltransRequest_reboot hr),
      Request.done_nil (hop.imp id .inl)]
    simp
  | false =>
    refine ⟨fun _ h => absurd h Bool.false_ne_true, fun _ => ?_⟩
    by_cases hb : req.beyond blk
    · exact honest_of_refused (doNftltransRequest_beyond hr hb)
    · have hd : ¬(req.op = .discard ∨ req.op = .writeZeroes) := by
        rcases hop with h | h <;> simp [h]
      have hrun : doNftltransRequest dev blk req ftl =
          transSegs blk (some k) ftl req.segs req.pos 0 := by
        rw [doNftltransRequest, if_neg (by simp [hr]), if_neg hb, if_neg hd, hk]
      refine (honest_of_ret hrun).2 fun h0 => ?_
      rw [(transSegs_spec blk k ftl req.segs req.pos 0).2 h0]
      have hsectors := sectorsOf_segCalls (k := k) hcap req.segs req.pos req.segs_dvd
        (by rw [req.segs_sectors hop]; exact Request.end_le hcap hb)
      rw [req.segs_sectors hop] at hsectors
      have hall : ∀ c ∈ (segCalls blk k req.segs req.pos).map (fun c => (c, 0)),
          c.2 = 0 ∧ req.op.Serves c.1.kind := by
        intro c hc
        obtain ⟨d, hd, rfl⟩ := List.mem_map.1 hc
        exact ⟨rfl, mem_segCalls hd ▸ hserves⟩
      refine ⟨hall, ?_⟩
      rcases hop with h | h <;> rw [h] <;> exact hsectors

/-- Discards. -/
lemma honest_discard (hcap : blk.offset + blk.size < 2 ^ 32)
    (hd : req.op = .discard ∨ req.op = .writeZeroes) :
    Honest dev blk req ftl ↔
      if dev.rebootFlag then req.sectors = 0 else req.beyond blk ∨ ftl 0 = 0 := by
  cases hr : dev.rebootFlag with
  | true =>
    rw [honest_of_ret (doNftltransRequest_reboot hr), Request.done_nil (.inr (.inr hd))]
    simp
  | false =>
    rw [if_neg Bool.false_ne_true]
    by_cases hb : req.beyond blk
    · exact iff_of_true (honest_of_refused (doNftltransRequest_beyond hr hb)) (Or.inl hb)
    · have hrun : doNftltransRequest dev blk req ftl =
          (0, [(blkNand blk (.discard dev.syncFlag) (blockOf req.pos) req.sectors, ftl 0)]) := by
        rw [doNftltransRequest, if_neg (by simp [hr]), if_neg hb, if_pos hd]
      rw [honest_of_ret hrun]
      refine ⟨fun h => Or.inr ((h rfl).1 _ (List.mem_singleton_self _)).1, fun h _ => ?_⟩
      obtain ⟨h1, h2⟩ := blkNand_inRange (.discard dev.syncFlag) req.pos hcap
        (Request.end_le hcap hb)
      have hsectors : sectorsOf
          [(blkNand blk (.discard dev.syncFlag) (blockOf req.pos) req.sectors, ftl 0)] =
            List.range' (blk.offset + req.pos) req.sectors := by
        rw [sectorsOf, List.flatMap_cons, List.flatMap_nil, List.append_nil, h1, h2]
      refine ⟨fun c hc => ?_, ?_⟩
      · obtain rfl := List.mem_singleton.1 hc
        refine ⟨h.resolve_left hb, ?_⟩
        rcases hd with h | h <;> rw [h] <;> exact ⟨_, rfl⟩
      · rcases hd with h | h <;> rw [h] <;> exact hsectors

/-- Requests that the driver's request function does not know. -/
lemma honest_unknown (hk : segKind blk req = none)
    (hd : ¬(req.op = .discard ∨ req.op = .writeZeroes)) (hnil : ¬req.Done blk.offset []) :
    Honest dev blk req ftl ↔ dev.rebootFlag = false ∧ (req.beyond blk ∨ req.segs ≠ []) := by
  cases hr : dev.rebootFlag with
  | true =>
    rw [honest_of_ret (doNftltransRequest_reboot hr)]
    exact ⟨fun h => absurd (h rfl) hnil, fun h => by cases h.1⟩
  | false =>
    by_cases hb : req.beyond blk
    · exact iff_of_true (honest_of_refused (doNftltransRequest_beyond hr hb)) ⟨rfl, Or.inl hb⟩
    · have hrun : doNftltransRequest dev blk req ftl = transSegs blk none ftl req.segs req.pos 0 := by
        rw [doNftltransRequest, if_neg (by simp [hr]), if_neg hb, if_neg hd, hk]
      cases hs : req.segs with
      | nil =>
        rw [hs] at hrun
        rw [honest_of_ret hrun]
        refine ⟨fun h => absurd (h rfl) hnil, fun h => ?_⟩
        exact absurd rfl (h.2.resolve_left hb)
      | cons len segs =>
        rw [hs] at hrun
        exact iff_of_true (honest_of_refused hrun) ⟨rfl, Or.inr (by simp)⟩

/-- **When completion is honest**, for the disks of a device whose capacity has 32 bits. -/
theorem honest_iff {cap : ℕ} (hcap : cap < 2 ^ 32) (ok : ℕ → Bool) (parts : List NtdPartition)
    (dev : NftlDev) {blk : NftlBlk} (hblk : blk ∈ amlNftlAddNtd cap ok parts) (req : Request)
    (ftl : ℕ → ℕ) : Honest dev blk req ftl ↔ HonestWhen dev blk req ftl := by
  have hend : blk.offset + blk.size < 2 ^ 32 := (addDisks_end cap hcap ok parts 0 0 _ hblk).trans_lt hcap
  unfold HonestWhen
  cases hop : req.op with
  | read =>
    exact honest_segs hend (k := .read) (by simp [segKind, hop]) (by rw [hop]; rfl) (.inl hop)
  | write =>
    exact honest_segs hend (k := .write (writeSyncFlag blk req)) (by simp [segKind, hop])
      (by rw [hop]; exact ⟨_, rfl⟩) (.inr hop)
  | discard => exact honest_discard hend (Or.inl hop)
  | writeZeroes => exact honest_discard hend (Or.inr hop)
  | flush =>
    refine honest_unknown (by simp [segKind, hop]) (by simp [hop]) ?_
    rw [Request.Done, hop]
    exact fun h => h.2 rfl
  | other code =>
    refine honest_unknown (by simp [segKind, hop]) (by simp [hop]) ?_
    rw [Request.Done, hop]
    exact fun h => h.2

/-- A read of one sector of a disk of 4096 sectors, behind a disk of 2048 sectors. -/
theorem honest_oneSector :
    ∃ blk, blk ∈ amlNftlAddNtd 6144 (fun _ => true)
        [⟨"system", 2 ^ 20, by decide⟩, ⟨"data", 2 ^ 21, by decide⟩] ∧ blk.offset = 2048 ∧
      Honest ⟨false, false⟩ blk ⟨.read, 7, 1, [512], false, by decide, by decide, by decide⟩
        fun _ => 0 := by
  have hblk : (⟨"data", 2048, 4096⟩ : NftlBlk) ∈ amlNftlAddNtd 6144 (fun _ => true)
      [⟨"system", 2 ^ 20, by decide⟩, ⟨"data", 2 ^ 21, by decide⟩] := by
    exact List.mem_cons_of_mem _ List.mem_cons_self
  exact ⟨_, hblk, rfl, (honest_iff (by decide) _ _ ⟨false, false⟩ hblk
    ⟨.read, 7, 1, [512], false, by decide, by decide, by decide⟩ fun _ => 0).2
    (fun h => absurd h Bool.false_ne_true)⟩

end

/-- A flush is completed with success although nothing is flushed. -/
theorem flush_not_honest :
    ¬Honest ⟨false, false⟩ ⟨"data", 0, 4096⟩
      ⟨.flush, 0, 0, [], false, by decide, by decide, by decide⟩ fun _ => 0 := by
  intro h
  exact (h (by decide)).2 (by decide)

end Amlnf
