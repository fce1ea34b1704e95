import Mathlib.Data.List.Basic
import Mathlib.Algebra.BigOperators.Group.List.Basic
import Mathlib.Tactic.Linarith

set_option relaxedAutoImplicit false
set_option autoImplicit false

/-!
# Disks over the translation layer

A device of the translation layer is cut into disks by its partition table, and a request on a
disk becomes calls of the layer on the sectors of the device.

## Main definitions

* `NtdPartition`, `NftlBlk` — a partition and the disk made from it.
* `amlBlktransInitialize`, `amlNftlAddNtd` — cutting a device into disks.
* `Request`, `FtlCall` — a block request and a call of the translation layer.
* `doNftltransRequest` — what a request does.
* `serve` — a sequence of requests.

## Main results

* `transSegs_spec` — the calls for the segments of a request.
* `NftlBlk.calls_inRange` — the calls for a request stay inside the disk.
* `disks_isolated` — the disks are disjoint, and so is what is done for them.

## Design

The translation layer itself is a library without source; a call is recorded with its arguments,
and its return code is an input. `unsigned long` has 32 bits on the ARM the driver is built for.
What the block layer promises of a request is part of its type.
-/

namespace Amlnf

/-- `struct ntd_partition`, as far as the disks use it. -/
structure NtdPartition where
  name : String
  /-- In bytes, an `uint64_t`. -/
  size : ℕ
  size_lt : size < 2 ^ 64

/-- `struct aml_nftl_blk`: a disk. -/
structure NftlBlk where
  name : String
  /-- First sector on the device. -/
  offset : ℕ
  /-- Number of sectors. -/
  size : ℕ

/-- `aml_blktrans_initialize`: first sector and number of sectors of a disk on a device of `cap`
sectors, from the offset and the size of its partition in bytes. -/
def amlBlktransInitialize (cap offset size : ℕ) : Option (ℕ × ℕ) :=
  let offsetT := offset >>> 9
  let sizeT := size >>> 9
  if offsetT < cap then
    some (offsetT, if (offsetT + sizeT) % 2 ^ 64 ≤ cap then sizeT else cap - offsetT)
  else none

/-- The loop of `aml_nftl_add_ntd` over the partitions; `ok` says whether the allocations and
`add_ntd_blktrans_dev` for a disk succeed. -/
def addDisks (cap : ℕ) (ok : ℕ → Bool) : List NtdPartition → ℕ → ℕ → List NftlBlk
  | [], _, _ => []
  | part :: parts, curOffset, i =>
    match amlBlktransInitialize cap curOffset part.size with
    | none => []
    | some (offset, size) =>
      if ok i then
        ⟨part.name, offset, size⟩ :: addDisks cap ok parts ((curOffset + part.size) % 2 ^ 64) (i + 1)
      else []

/-- `aml_nftl_add_ntd`: the disks of a device. -/
def amlNftlAddNtd (cap : ℕ) (ok : ℕ → Bool) (parts : List NtdPartition) : List NftlBlk :=
  addDisks cap ok parts 0 0

/-! ## Requests -/

/-- `req_op`. -/
inductive ReqOp
  | read
  | write
  | flush
  | discard
  | writeZeroes
  /-- Any other operation code. -/
  | other (code : ℕ)
  deriving DecidableEq, Repr

/-- `struct request`. The block layer hands over segments in whole sectors that make up the length
of a read or a write, and checks sector numbers before (`pos + sectors` does not wrap). -/
structure Request where
  op : ReqOp
  /-- `blk_rq_pos`. -/
  pos : ℕ
  /-- `blk_rq_sectors`. -/
  sectors : ℕ
  /-- `bv_len` of the segments. -/
  segs : List ℕ
  /-- `cmd_flags & REQ_SYNC`. -/
  sync : Bool
  segs_dvd : ∀ len ∈ segs, 512 ∣ len
  segs_sum : op = .read ∨ op = .write → segs.sum = 512 * sectors
  pos_lt : pos + sectors < 2 ^ 64

/-- The functions of the translation layer that requests end in; those that write take
`sync_flag`. -/
inductive FtlKind
  | read
  | write (sync : Bool)
  | discard (sync : Bool)
  | flush
  deriving DecidableEq, Repr

/-- A call of the translation layer: a range of sectors of the device. -/
structure FtlCall where
  kind : FtlKind
  start : ℕ
  len : ℕ
  deriving DecidableEq, Repr

/-- `_blk_nand_read`, `_blk_nand_write`, `_blk_nand_discard`: the first sector goes through an
`unsigned long` to an `uint32`. -/
def blkNand (blk : NftlBlk) (kind : FtlKind) (block nblk : ℕ) : FtlCall :=
  ⟨kind, (block + blk.offset) % 2 ^ 64 % 2 ^ 32, nblk % 2 ^ 32⟩

/-- A sector number as the block number of a disk: `pos << 9 >> blkshift`. -/
def blockOf (pos : ℕ) : ℕ := (((pos <<< 9) % 2 ^ 64) >>> 9) % 2 ^ 32

/-- `EIO`. -/
def eIo : ℤ := 5

/-- `write_sync_flag`. -/
def writeSyncFlag (blk : NftlBlk) (req : Request) : Bool :=
  !("media".isPrefixOf blk.name) && (req.op = .write && req.sync)

/-- The function that the segments of a request go to. -/
def segKind (blk : NftlBlk) (req : Request) : Option FtlKind :=
  match req.op with
  | .read => some .read
  | .write => some (.write (writeSyncFlag blk req))
  | _ => none

/-- The loop of `do_nftltrans_request` over the segments: the result and the calls with their
return codes. `ftl` gives the return code of the `n`-th call. -/
def transSegs (blk : NftlBlk) (kind : Option FtlKind) (ftl : ℕ → ℕ) :
    List ℕ → ℕ → ℕ → ℤ × List (FtlCall × ℕ)
  | [], _, _ => (0, [])
  | len :: segs, pos, n =>
    match kind with
    | none => (-eIo, [])
    | some k =>
      let c := blkNand blk k (blockOf pos) (len >>> 9)
      if ftl n ≠ 0 then (-eIo, [(c, ftl n)])
      else
        let (ret, calls) := transSegs blk kind ftl segs (pos + len >>> 9) (n + 1)
        (ret, (c, ftl n) :: calls)

/-- What of `struct aml_nftl_dev` requests depend on. -/
structure NftlDev where
  rebootFlag : Bool
  syncFlag : Bool

/-- Does the request lie beyond the end of the disk (`nbd.size` is an `unsigned long`)? -/
def Request.beyond (req : Request) (blk : NftlBlk) : Prop :=
  blk.size % 2 ^ 32 < (req.pos + req.sectors) % 2 ^ 64

instance (req : Request) (blk : NftlBlk) : Decidable (req.beyond blk) :=
  inferInstanceAs (Decidable (_ < _))

/-- `do_nftltrans_request`: the result and the calls. -/
def doNftltransRequest (dev : NftlDev) (blk : NftlBlk) (req : Request) (ftl : ℕ → ℕ) :
    ℤ × List (FtlCall × ℕ) :=
  if dev.rebootFlag then (0, [])
  else if req.beyond blk then (-eIo, [])
  else if req.op = .discard ∨ req.op = .writeZeroes then
    (0, [(blkNand blk (.discard dev.syncFlag) (blockOf req.pos) req.sectors, ftl 0)])
  else transSegs blk (segKind blk req) ftl req.segs req.pos 0

/-- The device after a request: a write leaves its `sync_flag`. -/
def NftlDev.after (dev : NftlDev) (blk : NftlBlk) (req : Request) : NftlDev :=
  if dev.rebootFlag ∨ req.beyond blk ∨ req.op ≠ .write ∨ req.segs = [] then dev
  else { dev with syncFlag := writeSyncFlag blk req }

/-- An event: a request with the return codes its calls will meet, or the reboot notifier. -/
inductive NftlEvent
  | request (blk : NftlBlk) (req : Request) (ftl : ℕ → ℕ)
  | reboot

/-- A sequence of events: the calls made for each disk. -/
def serve : NftlDev → List NftlEvent → List (NftlBlk × FtlCall)
  | _, [] => []
  | dev, .request blk req ftl :: evs =>
    (doNftltransRequest dev blk req ftl).2.map (fun c => (blk, c.1)) ++
      serve (dev.after blk req) evs
  | dev, .reboot :: evs => serve { dev with rebootFlag := true } evs

/-! ## The calls of a request -/

/-- The calls for segments when none fails. -/
def segCalls (blk : NftlBlk) (k : FtlKind) : List ℕ → ℕ → List FtlCall
  | [], _ => []
  | len :: segs, pos =>
    blkNand blk k (blockOf pos) (len >>> 9) :: segCalls blk k segs (pos + len >>> 9)

section

variable {blk : NftlBlk} {ftl : ℕ → ℕ}

/-- Up to the first failure the calls are those for the segments, and the result is zero exactly
if none fails. -/
lemma transSegs_spec (blk : NftlBlk) (k : FtlKind) (ftl : ℕ → ℕ) :
    ∀ segs pos n, let r := transSegs blk (some k) ftl segs pos n
      r.2.map Prod.fst <+: segCalls blk k segs pos ∧
      (r.1 = 0 → r.2 = (segCalls blk k segs pos).map fun c => (c, 0)) := by
  intro segs
  induction segs with
  | nil =>
    intro pos n
    exact ⟨List.nil_prefix, fun _ => rfl⟩
  | cons len segs ih =>
    intro pos n
    obtain ⟨h1, h2⟩ := ih (pos + len >>> 9) (n + 1)
    dsimp only
    rw [transSegs, segCalls]
    dsimp only
    by_cases hf : ftl n ≠ 0
    · rw [if_pos hf]
      refine ⟨?_, fun h => absurd h (show ¬-eIo = 0 by decide)⟩
      exact List.cons_prefix_cons.2 ⟨rfl, List.nil_prefix⟩
    · rw [if_neg hf]
      refine ⟨List.cons_prefix_cons.2 ⟨rfl, h1⟩, fun h => ?_⟩
      rw [List.map_cons, ← h2 h, not_not.1 hf]

/-- A call for sectors of a disk that ends below sector `2 ^ 32` of the device. -/
lemma blkNand_inRange {n : ℕ} (k : FtlKind) (pos : ℕ) (hcap : blk.offset + blk.size < 2 ^ 32)
    (h : pos + n ≤ blk.size) :
    let c := blkNand blk k (blockOf pos) n
    c.start = blk.offset + pos ∧ c.len = n := by
  have hb : blockOf pos = pos := by
    rw [blockOf, Nat.shiftLeft_eq, Nat.shiftRight_eq_div_pow]
    omega
  dsimp only
  rw [hb, blkNand]
  constructor <;> dsimp only <;> omega

/-- The calls for segments that lie on the disk. -/
lemma segCalls_inRange {k : FtlKind} (hcap : blk.offset + blk.size < 2 ^ 32) :
    ∀ segs pos, (∀ len ∈ segs, 512 ∣ len) → 512 * pos + segs.sum ≤ 512 * blk.size →
      ∀ c ∈ segCalls blk k segs pos,
        blk.offset ≤ c.start ∧ c.start + c.len ≤ blk.offset + blk.size := by
  intro segs
  induction segs with
  | nil =>
    intro pos _ _ c hc
    cases hc
  | cons len segs ih =>
    intro pos hdvd hsum c hc
    have hlen : 512 * (len >>> 9) = len := by
      rw [Nat.shiftRight_eq_div_pow]
      exact Nat.mul_div_cancel' (hdvd len List.mem_cons_self)
    rw [List.sum_cons] at hsum
    rcases List.mem_cons.1 hc with rfl | hc
    · obtain ⟨h1, h2⟩ := blkNand_inRange (n := len >>> 9) k pos hcap (by omega)
      rw [h1, h2]
      omega
    · exact ih _ (fun l hl => hdvd l (List.mem_cons_of_mem _ hl)) (by omega) c hc

/-- **Every call made for a request stays inside the disk.** -/
lemma NftlBlk.calls_inRange (hcap : blk.offset + blk.size < 2 ^ 32) (dev : NftlDev) (req : Request)
    (ftl : ℕ → ℕ) : ∀ c ∈ (doNftltransRequest dev blk req ftl).2,
      blk.offset ≤ c.1.start ∧ c.1.start + c.1.len ≤ blk.offset + blk.size := by
  intro c hc
  unfold doNftltransRequest at hc
  split at hc
  · cases hc
  split at hc
  · cases hc
  rename_i hbeyond
  have hend : req.pos + req.sectors ≤ blk.size := by
    rw [Request.beyond, Nat.mod_eq_of_lt req.pos_lt, Nat.mod_eq_of_lt (by omega)] at hbeyond
    omega
  split at hc
  · obtain rfl := List.mem_singleton.1 hc
    obtain ⟨h1, h2⟩ := blkNand_inRange (.discard dev.syncFlag) req.pos hcap hend
    rw [h1, h2]
    omega
  · cases hk : segKind blk req with
    | none =>
      rw [hk] at hc
      cases hs : req.segs with
      | nil =>
        rw [hs] at hc
        cases hc
      | cons len segs =>
        rw [hs] at hc
        cases hc
    | some k =>
      have hop : req.op = .read ∨ req.op = .write := by
        unfold segKind at hk
        split at hk
        · exact Or.inl ‹_›
        · exact Or.inr ‹_›
        · cases hk
      rw [hk] at hc
      have hmem := (transSegs_spec blk k ftl req.segs req.pos 0).1.subset (List.mem_map_of_mem hc)
      have hsum := req.segs_sum hop
      exact segCalls_inRange hcap req.segs req.pos req.segs_dvd (by omega) c.1 hmem

/-- Every call made in a sequence of events stays inside the disk it is made for. -/
lemma serve_inRange (dev : NftlDev) (evs : List NftlEvent)
    (hcap : ∀ blk req ftl, NftlEvent.request blk req ftl ∈ evs → blk.offset + blk.size < 2 ^ 32) :
    ∀ p ∈ serve dev evs,
      p.1.offset ≤ p.2.start ∧ p.2.start + p.2.len ≤ p.1.offset + p.1.size := by
  induction evs generalizing dev with
  | nil =>
    intro p hp
    cases hp
  | cons ev evs ih =>
    intro p hp
    have ih' := fun dev => ih dev fun b r f h => hcap b r f (List.mem_cons_of_mem _ h)
    cases ev with
    | request blk req ftl =>
      rcases List.mem_append.1 hp with hp | hp
      · obtain ⟨c, hc, rfl⟩ := List.mem_map.1 hp
        exact NftlBlk.calls_inRange (hcap blk req ftl List.mem_cons_self) dev req ftl c hc
      · exact ih' _ p hp
    | reboot => exact ih' _ p hp

end

/-! ## The disks of a device -/

/-- The disks that follow an offset: in order, disjoint and inside the device. -/
lemma addDisks_spec (cap : ℕ) (hcap : cap < 2 ^ 32) (ok : ℕ → Bool) :
    ∀ (parts : List NtdPartition) (cur i : ℕ),
      cur + (parts.dropLast.map NtdPartition.size).sum < 2 ^ 64 →
      let disks := addDisks cap ok parts cur i
      (disks.Pairwise fun a b => a.offset + a.size ≤ b.offset) ∧
      ∀ d ∈ disks, cur / 512 ≤ d.offset ∧ d.offset + d.size ≤ cap := by
  intro parts
  induction parts with
  | nil =>
    intro cur i _
    exact ⟨.nil, fun d hd => by cases hd⟩
  | cons part parts ih =>
    intro cur i hsum
    dsimp only
    rw [addDisks, amlBlktransInitialize]
    rw [Nat.shiftRight_eq_div_pow, Nat.shiftRight_eq_div_pow]
    have hsize := part.size_lt
    by_cases hlt : cur / 2 ^ 9 < cap
    swap
    · rw [if_neg hlt]
      exact ⟨.nil, fun d hd => by cases hd⟩
    rw [if_pos hlt]
    dsimp only
    by_cases hok : ok i = true
    swap
    · rw [if_neg hok]
      exact ⟨.nil, fun d hd => by cases hd⟩
    rw [if_pos hok]
    set size := if (cur / 2 ^ 9 + part.size / 2 ^ 9) % 2 ^ 64 ≤ cap then part.size / 2 ^ 9
      else cap - cur / 2 ^ 9 with hsz
    have hend : cur / 2 ^ 9 + size ≤ cap ∧ size ≤ part.size / 2 ^ 9 := by
      rw [hsz]
      split <;> omega
    cases parts with
    | nil =>
      refine ⟨List.pairwise_singleton _ _, fun d hd => ?_⟩
      obtain rfl := List.mem_singleton.1 hd
      exact ⟨le_refl _, hend.1⟩
    | cons p ps =>
      rw [List.dropLast_cons_cons, List.map_cons, List.sum_cons] at hsum
      have hmod : (cur + part.size) % 2 ^ 64 = cur + part.size := Nat.mod_eq_of_lt (by omega)
      rw [hmod]
      obtain ⟨h1, h2⟩ := ih (cur + part.size) (i + 1) (by omega)
      refine ⟨List.pairwise_cons.2 ⟨fun d hd => ?_, h1⟩, fun d hd => ?_⟩
      · have hge := (h2 d hd).1
        change cur / 2 ^ 9 + size ≤ d.offset
        omega
      · rcases List.mem_cons.1 hd with rfl | hd
        · exact ⟨le_refl _, hend.1⟩
        · have := h2 d hd
          exact ⟨by omega, this.2⟩

/-- Every disk ends inside the device, whatever the partition table says. -/
lemma addDisks_end (cap : ℕ) (hcap : cap < 2 ^ 32) (ok : ℕ → Bool) :
    ∀ (parts : List NtdPartition) (cur i : ℕ),
      ∀ d ∈ addDisks cap ok parts cur i, d.offset + d.size ≤ cap := by
  intro parts
  induction parts with
  | nil =>
    intro cur i d hd
    cases hd
  | cons part parts ih =>
    intro cur i d hd
    have hsize := part.size_lt
    rw [addDisks, amlBlktransInitialize, Nat.shiftRight_eq_div_pow, Nat.shiftRight_eq_div_pow] at hd
    by_cases hlt : cur / 2 ^ 9 < cap
    swap
    · rw [if_neg hlt] at hd
      cases hd
    rw [if_pos hlt] at hd
    dsimp only at hd
    by_cases hok : ok i = true
    swap
    · rw [if_neg hok] at hd
      cases hd
    rw [if_pos hok] at hd
    rcases List.mem_cons.1 hd with rfl | hd
    · dsimp only
      split <;> omega
    · exact ih _ _ d hd

/-- **Disks are isolated.** For a partition table whose sizes, the last apart, sum without wrap and
a device of less than `2 ^ 32` sectors: the disks have disjoint ranges of sectors inside the
device, and in every sequence of requests on them every call of the translation layer stays inside
the range of the disk it is made for. -/
theorem disks_isolated {cap : ℕ} (hcap : cap < 2 ^ 32) {parts : List NtdPartition}
    (hsum : (parts.dropLast.map NtdPartition.size).sum < 2 ^ 64) (ok : ℕ → Bool) :
    let disks := amlNftlAddNtd cap ok parts
    (disks.Pairwise fun a b => a.offset + a.size ≤ b.offset) ∧
    (∀ d ∈ disks, d.offset + d.size ≤ cap) ∧
    ∀ dev evs, (∀ blk req ftl, NftlEvent.request blk req ftl ∈ evs → blk ∈ disks) →
      ∀ p ∈ serve dev evs,
        p.1.offset ≤ p.2.start ∧ p.2.start + p.2.len ≤ p.1.offset + p.1.size := by
  obtain ⟨h1, h2⟩ := addDisks_spec cap hcap ok parts 0 0 (by omega)
  refine ⟨h1, fun d hd => (h2 d hd).2, fun dev evs hevs => serve_inRange dev evs ?_⟩
  intro blk req ftl h
  have := (h2 blk (hevs blk req ftl h)).2
  omega

/-- A write of two sectors, in one segment. -/
def writeTwo : Request where
  op := .write
  pos := 5
  sectors := 2
  segs := [1024]
  sync := false
  segs_dvd := by simp
  segs_sum := by simp
  pos_lt := by simp

/-- A table of a partition of 1 MiB and the rest of a device of 4096 sectors, and a write on the
second disk: its call begins five sectors behind the first disk. -/
theorem disks_isolated_two :
    let parts : List NtdPartition := [⟨"system", 2 ^ 20, by decide⟩, ⟨"data", 2 ^ 64 - 1, by decide⟩]
    let disks := amlNftlAddNtd 4096 (fun _ => true) parts
    let data : NftlBlk := ⟨"data", 2048, 2048⟩
    let calls := serve ⟨false, false⟩ [.request data writeTwo fun _ => 0]
    (parts.dropLast.map NtdPartition.size).sum < 2 ^ 64 ∧
      (disks.Pairwise fun a b => a.offset + a.size ≤ b.offset) ∧
      calls = [(data, ⟨.write false, 2053, 2⟩)] ∧
      ∀ p ∈ calls, p.1.offset ≤ p.2.start ∧ p.2.start + p.2.len ≤ p.1.offset + p.1.size := by
  intro parts disks data calls
  have hsum : (parts.dropLast.map NtdPartition.size).sum < 2 ^ 64 := by decide
  obtain ⟨hdisjoint, -, hcalls⟩ := disks_isolated (by decide : 4096 < 2 ^ 32) hsum fun _ => true
  have hrun : calls = [(data, ⟨.write false, 2053, 2⟩)] := by
    simp [calls, serve, doNftltransRequest, Request.beyond, transSegs, segKind, writeSyncFlag,
      writeTwo, blkNand, blockOf, data]
  refine ⟨hsum, hdisjoint, hrun, hcalls _ _ ?_⟩
  intro blk req ftl hmem
  have hdata : data ∈ disks := by
    simp [disks, parts, data, amlNftlAddNtd, addDisks, amlBlktransInitialize]
  rw [List.mem_singleton] at hmem
  cases hmem
  exact hdata

end Amlnf
