import Amlnf.Dev.EnvWrite
import Amlnf.Dev.Layout
import Amlnf.Dev.PowerCycle
import Amlnf.Lib.Durable
import Amlnf.Phy.BbtModify

set_option relaxedAutoImplicit false
set_option autoImplicit false

/-!
# The records as a service

What the devices ask of the bad-block table and of the environment: changes of the table in memory,
saves of it, look-ups, reads and writes of the environment, and power cycles in between. On chips
that report no failure the driver answers as an abstract service does, which knows nothing of blocks
and copies: a table with a stored copy, and the bytes of the environment.

## Main definitions

* `RecCall`, `RecCall.run` — the calls as the driver serves them.
* `Records`, `RecCall.reply`, `RecCall.next` — the service, its answers and what becomes of it.
* `Mirrors` — the driver and the chips hold what the service says.

## Main results

* `Mirrors.call` — one call is answered as the service answers it.
* `recCalls_served` — so is every sequence of calls.
* `table_survives`, `env_survives` — what a power cycle brings back.

## Design

A change of the table for a block of the reserved area is not among the calls; it would hide records
from the scan. Changes and look-ups concern entries the table has. As in `PowerCycle`, the Hynix
types, which have read-retry values of their own in the reserved area, and `SANDISK_24NM`, whose
bring-up always fails, are left out wherever the power may go.
-/

namespace Amlnf

open Act

/-! ## Calls -/

/-- A call that concerns the records. -/
inductive RecCall
  | modifybbt (dev : Phydev) (r : DevOps) (value : UInt16)
  | updateBbt (dev : Phydev) (r : DevOps)
  | isbad (dev : Phydev) (r : DevOps)
  | envWrite (pos count : ℕ) (data : Buf)
  | envRead (pos count : ℕ)
  /-- The power goes and comes back, with new values of the module parameters. -/
  | powerCycle (allowMeta allowMarkbad : Bool)

/-- What a call returns: a code or count, the file position and the bytes read. -/
structure Reply where
  ret : ℤ
  pos : ℕ := 0
  bytes : List UInt8 := []
  deriving DecidableEq

/-- The calls as the driver serves them. -/
def RecCall.run (fl : Flash) : RecCall → Act St Reply
  | .modifybbt dev r value => do
    let ret ← blockModifybbt fl dev r value
    pure { ret := ret }
  | .updateBbt dev r => do
    let ret ← Amlnf.updateBbt fl dev r
    pure { ret := ret }
  | .isbad dev r => do
    let ret ← nandBlockIsbad fl dev r
    pure { ret := ret }
  | .envWrite pos count data => do
    let (ret, pos) ← ubootEnvWrite fl {} pos count data
    pure { ret := ret, pos := pos }
  | .envRead pos count => do
    let (ret, pos, buf) ← ubootEnvRead fl {} pos count
    pure { ret := ret, pos := pos, bytes := buf.bytes ret.toNat }
  | .powerCycle m k => do
    let ret ← Amlnf.powerCycle fl m k
    pure { ret := ret }

/-- Serve calls one after the other. -/
def runRecCalls (fl : Flash) : List RecCall → Act St (List Reply)
  | [] => pure []
  | c :: cs => do
    let x ← c.run fl
    let xs ← runRecCalls fl cs
    pure (x :: xs)

/-! ## The service -/

/-- What the service knows: the table in use and the one stored, the environment and the
permissions. -/
structure Records where
  table : Durable BlkStatus
  env : Buf
  allowMeta : Bool
  allowMarkbad : Bool

/-- What a call does to the table. -/
def RecCall.tableOp (fl : Flash) (a : Records) : RecCall → DurableOp BlkStatus
  | .modifybbt dev r value =>
    if r.addr ≤ dev.size ∧ a.allowMarkbad then
      .edit fun tbl => setEntries tbl value (modifyEntries fl (dev.para r.addr) value)
    else .edit id
  | .updateBbt dev r => if r.addr ≤ dev.size ∧ a.allowMeta then .commit else .edit id
  | .powerCycle _ _ => .restart
  | _ => .edit id

/-- What a call makes of the environment. -/
def RecCall.envNext (a : Records) : RecCall → Buf
  | .envWrite pos count data =>
    if pos < configEnvSize ∧ a.allowMeta then blit a.env pos (envCount pos count) data else a.env
  | _ => a.env

/-- The permissions after a call. -/
def RecCall.allowed (a : Records) : RecCall → Bool × Bool
  | .powerCycle m k => (m, k)
  | _ => (a.allowMeta, a.allowMarkbad)

/-- The service after a call. -/
def RecCall.next (fl : Flash) (a : Records) (c : RecCall) : Records where
  table := a.table.apply (c.tableOp fl a)
  env := c.envNext a
  allowMeta := (c.allowed a).1
  allowMarkbad := (c.allowed a).2

/-- Answer of a block operation that is allowed or not. -/
def blockReply (dev : Phydev) (r : DevOps) (ret : ℤ) : Reply :=
  { ret := if dev.size < r.addr then -nandArgumentFailure else ret }

/-- Answer of the environment at a position. -/
def envReply (pos : ℕ) (inside : Reply) : Reply :=
  if pos = configEnvSize then { ret := 0, pos := pos }
  else if configEnvSize ≤ pos then { ret := -eFAULT, pos := pos }
  else inside

/-- What the service answers. -/
def RecCall.reply (fl : Flash) (a : Records) : RecCall → Reply
  | .modifybbt dev r _ => blockReply dev r (if a.allowMarkbad then 0 else -eROFS)
  | .updateBbt dev r => blockReply dev r (if a.allowMeta then 0 else -eROFS)
  | .isbad dev r =>
    blockReply dev r (if dev.shutDown then 0 else isbadVal fl a.table.now (dev.para r.addr))
  | .envWrite pos count _ => envReply pos
    { ret := envCount pos count, pos := if a.allowMeta then pos + envCount pos count else pos }
  | .envRead pos count => envReply pos
    { ret := envCount pos count, pos := pos + envCount pos count,
      bytes := Buf.bytes (fun i => a.env (pos + i)) (envCount pos count) }
  | .powerCycle _ _ => { ret := 0 }

/-- The service after a sequence of calls. -/
def Records.after (fl : Flash) (a : Records) (cs : List RecCall) : Records :=
  cs.foldl (fun a c => c.next fl a) a

/-- Its answers. -/
def Records.replies (fl : Flash) (a : Records) : List RecCall → List Reply
  | [] => []
  | c :: cs => c.reply fl a :: (c.next fl a).replies fl cs

/-- A call stays away from the entries of the reserved blocks, and inside the table. -/
def RecCall.Fits (fl : Flash) : RecCall → Prop
  | .modifybbt dev r value =>
    ∀ e ∈ modifyEntries fl (dev.para r.addr) value, ¬InWindow fl e.1 e.2 ∧ HasEntry e.1 e.2
  | .isbad dev r => ∀ e ∈ isbadEntries fl (dev.para r.addr), HasEntry e.1 e.2
  | _ => True

/-- The driver and the chips hold what the service says: three records, the table and the
environment among them, and a table in memory. -/
structure Mirrors (fl : Flash) (s : St) (a : Records) : Prop where
  idle : s.state = .ready
  allow : s.allowMeta = a.allowMeta ∧ s.allowMarkbad = a.allowMarkbad
  table : ∀ c b, HasEntry c b → s.blkStatus c b = a.table.now c b
  stored : ∃ tbl config env, Stocked fl bootSize bootNames s (bootStock tbl config env) ∧
    GoodReserve fl tbl ∧ (∀ c b, HasEntry c b → tbl c b = a.table.kept c b) ∧
    ∀ i < configEnvSize, env i = a.env i

section

variable {fl : Flash} {s t : St} {a : Records} {dev : Phydev} {r : DevOps}

/-! ## Taking a device -/

/-- The state in which a device works. -/
def St.taken (s : St) (st : ChipState) : St :=
  { s with state := st, mutex := true, idleflag := true, tick := s.tick + 1 }

/-- The state in which a block operation works. -/
def St.pointed (s : St) (dev : Phydev) (r : DevOps) : St :=
  { s.taken .reading with
    opsPara := dev.para r.addr, handed := s.handed ++ [dev.para r.addr] }

/-- The state after a device has been released. -/
def St.released (s : St) : St := { s with state := .ready, mutex := false, idleflag := false }

/-- A driver that mirrors the service is free. -/
lemma Mirrors.free (h : Mirrors fl s a) :
    s.mutex = false ∧ s.idleflag = false ∧ (s.plan s.tick).pin = true ∧ Ready s := by
  obtain ⟨_, _, _, hst, -⟩ := h.stored
  obtain ⟨h1, h2⟩ := hst.ready.lock h.idle
  exact ⟨h1, h2, (hst.ready.calm.1 s.tick).2.2.2, hst.ready⟩

/-- A device that is taken by a free driver works and is released. -/
lemma Mirrors.withDevice {α : Type} (h : Mirrors fl s a) (st : ChipState) {x : Act St α} {v : α}
    (hx : x (s.taken st) = (some v, t)) (hmutex : t.mutex = true) (hidle : t.idleflag = true) :
    Amlnf.withDevice st x s = (some v, t.released) := by
  obtain ⟨hfree, -, hpin, -⟩ := h.free
  exact withDevice_run st h.idle hfree hpin hx hmutex hidle

/-- A block operation inside the device. -/
lemma Mirrors.blockOp (h : Mirrors fl s a) {guarded : Bool} {op : Act St ℤ} {v : ℤ}
    (haddr : ¬dev.size < r.addr) (hshut : ¬(guarded ∧ dev.shutDown))
    (hop : op (s.pointed dev r) = (some v, t)) (hmutex : t.mutex = true)
    (hidle : t.idleflag = true) :
    Amlnf.blockOp dev r guarded (hand op) s = (some v, t.released) := by
  rw [Amlnf.blockOp, if_neg haddr, if_neg hshut]
  refine h.withDevice .reading ?_ hmutex hidle
  rw [setPara, modify_bind, seekAddr, modify_bind, hand, modify_bind, Bool.or_false]
  exact hop

/-- What the service says does not change while a device is taken and released. -/
lemma Mirrors.still (h : Mirrors fl s a) (dev : Phydev) (r : DevOps) :
    Mirrors fl (s.pointed dev r).released a := by
  obtain ⟨tbl, config, env, hst, hrest⟩ := h.stored
  exact ⟨rfl, h.allow, h.table, tbl, config, env,
    hst.retable ⟨hst.ready.calm, fun _ => ⟨rfl, rfl⟩⟩ rfl rfl rfl hst.reserve, hrest⟩

/-- One call is answered as the service answers it, and changes no page outside the scan range. -/
def CallServed (fl : Flash) (s : St) (a : Records) (c : RecCall) : Prop :=
  ∃ t, c.run fl s = (some (c.reply fl a), t) ∧ Mirrors fl t (c.next fl a) ∧
    s.image.SameOutside fl t.image

/-- A call that is an operation on a block. -/
lemma Mirrors.served_blockOp (h : Mirrors fl s a) {c : RecCall} {guarded : Bool} {op : Act St ℤ}
    {v : ℤ} (hc : c.run fl = (Amlnf.blockOp dev r guarded (hand op) >>= fun ret =>
      pure { ret := ret }))
    (hreply : c.reply fl a = blockReply dev r (if guarded ∧ dev.shutDown then 0 else v))
    (hout : dev.size < r.addr ∨ (guarded ∧ dev.shutDown) → c.next fl a = a)
    (hop : ¬dev.size < r.addr → ∃ t, op (s.pointed dev r) = (some v, t) ∧ t.mutex = true ∧
      t.idleflag = true ∧ Mirrors fl t.released (c.next fl a) ∧ s.image.SameOutside fl t.image) :
    CallServed fl s a c := by
  by_cases haddr : dev.size < r.addr
  · have hrun : Amlnf.blockOp dev r guarded (hand op) s = (some (-nandArgumentFailure), s) := by
      rw [Amlnf.blockOp, if_pos haddr, pure_apply]
    refine ⟨s, ?_, ?_, fun _ _ _ => rfl⟩
    · rw [hc, bind_some hrun, hreply, blockReply, if_pos haddr, pure_apply]
    · rw [hout (.inl haddr)]
      exact h
  by_cases hshut : guarded ∧ dev.shutDown
  · have hrun : Amlnf.blockOp dev r guarded (hand op) s = (some 0, s) := by
      rw [Amlnf.blockOp, if_neg haddr, if_pos hshut, pure_apply]
    refine ⟨s, ?_, ?_, fun _ _ _ => rfl⟩
    · rw [hc, bind_some hrun, hreply, blockReply, if_neg haddr, if_pos hshut, pure_apply]
    · rw [hout (.inr hshut)]
      exact h
  · obtain ⟨t, ht, hmutex, hidle, hnext, himg⟩ := hop haddr
    refine ⟨t.released, ?_, hnext, himg⟩
    rw [hc, bind_some (h.blockOp haddr hshut ht hmutex hidle), hreply, blockReply, if_neg haddr,
      if_neg hshut, pure_apply]

/-! ## The table -/

/-- A change of the table in memory. -/
lemma Mirrors.modifybbt (h : Mirrors fl s a) {value : UInt16}
    (hfit : (RecCall.modifybbt dev r value).Fits fl) :
    CallServed fl s a (.modifybbt dev r value) := by
  obtain ⟨hmeta, hmark⟩ := h.allow
  obtain ⟨tbl, config, env, hst, hgood, hkept, henv⟩ := h.stored
  have hsame : ¬(r.addr ≤ dev.size ∧ a.allowMarkbad = true) →
      (RecCall.modifybbt dev r value).next fl a = a := by
    intro hno
    rw [RecCall.next, RecCall.tableOp, if_neg hno]
    rfl
  refine h.served_blockOp (v := if a.allowMarkbad then 0 else -eROFS) rfl
    (by rw [if_neg (by simp)]; rfl) (fun hout => hsame fun hin => ?_) fun haddr => ?_
  · simp only [Bool.false_eq_true, false_and, or_false] at hout
    omega
  by_cases hallow : a.allowMarkbad = true
  · -- the entries are set
    let u : St := { s.pointed dev r with
      blkStatus := setEntries s.blkStatus value (modifyEntries fl (dev.para r.addr) value) }
    have hop : blkModifyBbtChipOp fl value (s.pointed dev r) = (some 0, u) :=
      blkModifyBbtChipOp_run (hmark.trans hallow)
    have hreserve : GoodReserve fl u.blkStatus := by
      intro b h1 h2
      change setEntries _ _ _ (fl.resChip b) (fl.resRow b) = _
      rw [setEntries_apply, if_neg fun he => (hfit _ he).1 ⟨b, h1, h2, rfl, rfl⟩]
      exact hst.reserve b h1 h2
    have hnext : (RecCall.modifybbt dev r value).next fl a =
        { a with table := { a.table with
          now := setEntries a.table.now value (modifyEntries fl (dev.para r.addr) value) } } := by
      rw [RecCall.next, RecCall.tableOp, if_pos ⟨not_lt.1 haddr, hallow⟩]
      rfl
    refine ⟨u, by rw [if_pos hallow]; exact hop, rfl, rfl, ?_, fun _ _ _ => rfl⟩
    rw [hnext]
    refine ⟨rfl, ⟨hmeta, hmark⟩, fun c b hcb => ?_, tbl, config, env, ?_, hgood, hkept, henv⟩
    · change setEntries _ _ _ c b = setEntries _ _ _ c b
      rw [setEntries_apply, setEntries_apply, h.table c b hcb]
    · exact hst.retable ⟨hst.ready.calm, fun _ => ⟨rfl, rfl⟩⟩ rfl rfl rfl hreserve
  · have hop : blkModifyBbtChipOp fl value (s.pointed dev r) = (some (-eROFS), s.pointed dev r) := by
      have hno : ¬(s.pointed dev r).allowMarkbad = true := by
        rw [← hmark] at hallow
        exact hallow
      rw [blkModifyBbtChipOp, get_bind, if_pos hno, pure_apply]
    refine ⟨s.pointed dev r, by rw [if_neg hallow]; exact hop, rfl, rfl, ?_, fun _ _ _ => rfl⟩
    rw [hsame fun hin => hallow hin.2]
    exact h.still dev r

/-- A look-up. -/
lemma Mirrors.isbad (h : Mirrors fl s a) (hfit : (RecCall.isbad dev r).Fits fl) :
    CallServed fl s a (.isbad dev r) := by
  have hval : isbadVal fl s.blkStatus (dev.para r.addr) = isbadVal fl a.table.now (dev.para r.addr) :=
    firstBad_congr fun e he => h.table e.1 e.2 (hfit e he)
  refine h.served_blockOp (v := isbadVal fl a.table.now (dev.para r.addr)) rfl
    (by simp only [true_and]; rfl) (fun _ => rfl) fun _ =>
      ⟨s.pointed dev r, ?_, rfl, rfl, h.still dev r, fun _ _ _ => rfl⟩
  rw [← hval]
  rfl

/-- Replacing one of the three payloads. -/
lemma update_bootStock (tbl tbl' : BlkStatus) (config env env' : Buf) :
    Function.update (bootStock tbl config env) .nbbt (some (blockStatusBuf tbl')) =
        bootStock tbl' config env ∧
      Function.update (bootStock tbl config env) .nenv (some env') = bootStock tbl config env' := by
  constructor
  all_goals
    funext n
    cases n <;> rfl

lemma untouched_lock (h : t.untouched = s.untouched) : t.lock = s.lock := by
  change t.untouched.lock = s.untouched.lock
  rw [h]

/-- A save of the table. -/
lemma Mirrors.updateBbt (h : Mirrors fl s a) (hsz : AllStorable fl bootSize bootNames) :
    CallServed fl s a (.updateBbt dev r) := by
  obtain ⟨hmeta, hmark⟩ := h.allow
  obtain ⟨tbl, config, env, hst, hgood, hkept, henv⟩ := h.stored
  have hsame : ¬(r.addr ≤ dev.size ∧ a.allowMeta = true) →
      (RecCall.updateBbt dev r).next fl a = a := by
    intro hno
    rw [RecCall.next, RecCall.tableOp, if_neg hno]
    rfl
  refine h.served_blockOp (v := if a.allowMeta then 0 else -eROFS) rfl
    (by rw [if_neg (by simp)]; rfl) (fun hout => hsame fun hin => ?_) fun haddr => ?_
  · simp only [Bool.false_eq_true, false_and, or_false] at hout
    omega
  have hst' : Stocked fl bootSize bootNames (s.pointed dev r) (bootStock tbl config env) :=
    hst.retable ⟨hst.ready.calm, fun hr => by cases hr⟩ rfl rfl rfl hst.reserve
  obtain ⟨ret, u, hu, hun, himg, hok, hrefused⟩ := hst'.saveInfo_run (by decide) hsz
    (show .nbbt ∈ bootNames by simp [bootNames]) (blockStatusBuf s.blkStatus)
  have hlock := untouched_lock hun
  simp only [St.lock, Prod.mk.injEq] at hlock
  have hop : amlnandUpdateBbt fl (blockMarkbadOp fl) (s.pointed dev r) = (some ret, u) := hu
  by_cases hallow : a.allowMeta = true
  · obtain ⟨rfl, hnew⟩ := hok (hmeta.trans hallow)
    rw [(update_bootStock tbl s.blkStatus config env env).1] at hnew
    have hnext : (RecCall.updateBbt dev r).next fl a =
        { a with table := { a.table with kept := a.table.now } } := by
      rw [RecCall.next, RecCall.tableOp, if_pos ⟨not_lt.1 haddr, hallow⟩]
      rfl
    refine ⟨u, by rw [if_pos hallow]; exact hop, hlock.1, hlock.2.1, ?_, himg⟩
    obtain ⟨ha1, ha2⟩ := untouched_allow hun
    have htbl : u.blkStatus = s.blkStatus := (untouched_blkStatus hun).trans rfl
    rw [hnext]
    refine ⟨rfl, ⟨ha1.trans hmeta, ha2.trans hmark⟩, fun c b hcb => ?_, s.blkStatus, config, env, ?_,
      hst.reserve, h.table, henv⟩
    · change u.blkStatus c b = _
      rw [htbl]
      exact h.table c b hcb
    · exact hnew.retable ⟨hnew.ready.calm, fun _ => ⟨rfl, rfl⟩⟩ rfl rfl rfl hnew.reserve
  · obtain ⟨rfl, rfl⟩ := hrefused (hmeta.trans (by simpa using hallow))
    refine ⟨s.pointed dev r, by rw [if_neg hallow]; exact hop, rfl, rfl, ?_, himg⟩
    rw [hsame fun hin => hallow hin.2]
    exact h.still dev r

/-! ## The environment -/

/-- Reading the environment while the device is taken. -/
lemma Mirrors.readEnv (h : Mirrors fl s a) {st : ChipState} (hst : st ≠ .ready) :
    ∃ out u, amlnfEnvRead fl true (fun _ => 0) (s.taken st) = (some (0, out), u) ∧
      (∀ i < configEnvSize, out i = a.env i) ∧ u.kept = (s.taken st).kept := by
  obtain ⟨tbl, config, env, hstock, -, -, henv⟩ := h.stored
  obtain ⟨u, hu, huk⟩ := amlnfEnvRead_run fl (s := s.taken st)
    ⟨hstock.ready.calm.1, fun hr => absurd hr hst⟩ (fun _ => rfl) fun _ => 0
  have hheld := hstock.housed .nenv (by simp [bootNames]) env rfl
  refine ⟨_, u, hu, fun i hi => ?_, huk⟩
  rw [blit, if_pos ⟨Nat.zero_le i, by omega⟩, Nat.sub_zero, ← henv i hi]
  exact hheld.saved.1.envBytes i hi

/-- What a driver with the same records mirrors. -/
lemma Mirrors.of_stocked {tbl : BlkStatus} {config env : Buf} (h : Mirrors fl s a)
    (hst : Stocked fl bootSize bootNames t (bootStock tbl config env)) (hgood : GoodReserve fl tbl)
    (hkept : ∀ c b, HasEntry c b → tbl c b = a.table.kept c b)
    (hun : t.untouched.blkStatus = s.blkStatus)
    (hallow : t.allowMeta = s.allowMeta ∧ t.allowMarkbad = s.allowMarkbad) :
    Mirrors fl t.released { a with env := env } := by
  obtain ⟨h1, h2⟩ := h.allow
  refine ⟨rfl, ⟨hallow.1.trans h1, hallow.2.trans h2⟩, fun c b hcb => ?_, tbl, config, env,
    hst.retable ⟨hst.ready.calm, fun _ => ⟨rfl, rfl⟩⟩ rfl rfl rfl hst.reserve, hgood, hkept,
    fun _ _ => rfl⟩
  rw [← h.table c b hcb, ← hun]
  rfl

/-- The bytes of the environment beyond its size do not matter. -/
lemma Mirrors.congr_env (h : Mirrors fl s a) {E : Buf} (hE : ∀ i < configEnvSize, a.env i = E i) :
    Mirrors fl s { a with env := E } := by
  obtain ⟨tbl, config, env, h1, h2, h3, h4⟩ := h.stored
  exact ⟨h.idle, h.allow, h.table, tbl, config, env, h1, h2, h3, fun i hi => (h4 i hi).trans (hE i hi)⟩

/-- A position outside the environment is refused. -/
lemma Mirrors.served_outside (h : Mirrors fl s a) {pos : ℕ} (count : ℕ) (data : Buf)
    (hpos : configEnvSize ≤ pos) :
    CallServed fl s a (.envWrite pos count data) ∧ CallServed fl s a (.envRead pos count) := by
  have hnext : (RecCall.envWrite pos count data).next fl a = a := by
    rw [RecCall.next, RecCall.envNext, if_neg fun hc => absurd hc.1 (not_lt.2 hpos)]
    rfl
  by_cases hend : pos = configEnvSize
  · refine ⟨⟨s, ?_, by rw [hnext]; exact h, fun _ _ _ => rfl⟩, s, ?_, h, fun _ _ _ => rfl⟩
    · have hrun : ubootEnvWrite fl {} pos count data s = (some (0, pos), s) := by
        rw [ubootEnvWrite, if_pos hend, pure_apply]
      rw [RecCall.run, bind_some hrun, RecCall.reply, envReply, if_pos hend]
      rfl
    · have hrun : ubootEnvRead fl {} pos count s = (some (0, pos, fun _ => 0), s) := by
        rw [ubootEnvRead, if_pos hend, pure_apply]
      rw [RecCall.run, bind_some hrun, RecCall.reply, envReply, if_pos hend]
      rfl
  · refine ⟨⟨s, ?_, by rw [hnext]; exact h, fun _ _ _ => rfl⟩, s, ?_, h, fun _ _ _ => rfl⟩
    · have hrun : ubootEnvWrite fl {} pos count data s = (some (-eFAULT, pos), s) := by
        rw [ubootEnvWrite, if_neg hend, if_pos hpos, pure_apply]
      rw [RecCall.run, bind_some hrun, RecCall.reply, envReply, if_neg hend, if_pos hpos]
      rfl
    · have hrun : ubootEnvRead fl {} pos count s = (some (-eFAULT, pos, fun _ => 0), s) := by
        rw [ubootEnvRead, if_neg hend, if_pos hpos, pure_apply]
      rw [RecCall.run, bind_some hrun, RecCall.reply, envReply, if_neg hend, if_pos hpos]
      rfl

/-- A read of the environment. -/
lemma Mirrors.envRead (h : Mirrors fl s a) (pos count : ℕ) :
    CallServed fl s a (.envRead pos count) := by
  by_cases hpos : configEnvSize ≤ pos
  · exact (h.served_outside count (fun _ => 0) hpos).2
  obtain ⟨out, u, hu, hout, huk⟩ := h.readEnv (show ChipState.reading ≠ .ready by decide)
  have hcount : pos + envCount pos count ≤ configEnvSize := envCount_le (not_le.1 hpos)
  have hrun : ubootEnvRead fl {} pos count s = (some ((envCount pos count : ℤ),
      pos + envCount pos count, fun i => out (pos + i)), u.released) := by
    rw [ubootEnvRead, if_neg (by omega), if_neg hpos, if_neg (by decide)]
    refine h.withDevice .reading ?_ ((kept_mutex huk).trans rfl) ((kept_idleflag huk).trans rfl)
    rw [bind_some hu]
    rfl
  refine ⟨u.released, ?_, ?_, ?_⟩
  · rw [RecCall.run, bind_some hrun, RecCall.reply, envReply, if_neg (by omega), if_neg hpos]
    simp only [pure_apply, Int.toNat_natCast]
    rw [bytes_congr fun i hi => hout (pos + i) (by omega)]
  · obtain ⟨tbl, config, env, hst, hgood, hkept, henv⟩ := h.stored
    have htaken : Stocked fl bootSize bootNames (s.taken .reading) (bootStock tbl config env) :=
      hst.retable ⟨hst.ready.calm, fun hr => by cases hr⟩ rfl rfl rfl hst.reserve
    exact (h.of_stocked (htaken.of_kept huk) hgood hkept ((kept_blkStatus huk).trans rfl)
      ⟨(congrArg St.allowMeta huk :), (congrArg St.allowMarkbad huk :)⟩).congr_env henv
  · have himg : u.image = s.image := (kept_image huk).trans rfl
    change s.image.SameOutside fl u.image
    rw [himg]
    exact fun _ _ _ => rfl

/-- A write of the environment. -/
lemma Mirrors.envWrite (h : Mirrors fl s a) (hsz : AllStorable fl bootSize bootNames)
    (pos count : ℕ) (data : Buf) : CallServed fl s a (.envWrite pos count data) := by
  by_cases hpos : configEnvSize ≤ pos
  · exact (h.served_outside count data hpos).1
  obtain ⟨hmeta, -⟩ := h.allow
  obtain ⟨out, u, hu, hout, huk⟩ := h.readEnv (show ChipState.writing ≠ .ready by decide)
  obtain ⟨tbl, config, env, hst, hgood, hkept, henv⟩ := h.stored
  have htaken : Stocked fl bootSize bootNames (s.taken .writing) (bootStock tbl config env) :=
    hst.retable ⟨hst.ready.calm, fun hr => by cases hr⟩ rfl rfl rfl hst.reserve
  -- the bytes replaced, and what is saved of them
  let E : Buf := blit out pos (envCount pos count) data
  let Q : Buf := blit (fun _ => 0) 0 configEnvSize E
  have hQ : ∀ i < configEnvSize, Q i = blit a.env pos (envCount pos count) data i := by
    intro i hi
    have h1 : Q i = E i := by
      change blit _ _ _ _ i = _
      rw [blit, if_pos ⟨Nat.zero_le i, by omega⟩, Nat.sub_zero]
    rw [h1]
    change blit _ _ _ _ i = _
    rw [blit, blit, hout i hi]
  obtain ⟨ret, v, hv, hun, himg, hok, hrefused⟩ := (htaken.of_kept huk).saveInfo_run (by decide) hsz
    (show .nenv ∈ bootNames by simp [bootNames]) Q
  have hlock := untouched_lock hun
  simp only [St.lock, Prod.mk.injEq] at hlock
  have hmutex : v.mutex = true := hlock.1.trans ((kept_mutex huk).trans rfl)
  have hidle : v.idleflag = true := hlock.2.1.trans ((kept_idleflag huk).trans rfl)
  have hallow : v.allowMeta = s.allowMeta ∧ v.allowMarkbad = s.allowMarkbad := by
    obtain ⟨h1, h2⟩ := untouched_allow hun
    exact ⟨h1.trans (congrArg St.allowMeta huk :), h2.trans (congrArg St.allowMarkbad huk :)⟩
  have htbl : v.untouched.blkStatus = s.blkStatus :=
    (untouched_blkStatus hun).trans ((kept_blkStatus huk).trans rfl)
  have himg' : s.image.SameOutside fl v.released.image := by
    rw [show s.image = u.image from ((kept_image huk).trans rfl).symm]
    exact himg
  have hmeta' : u.allowMeta = a.allowMeta := (congrArg St.allowMeta huk :).trans hmeta
  by_cases hperm : a.allowMeta = true
  · obtain ⟨rfl, hnew⟩ := hok (hmeta'.trans hperm)
    rw [(update_bootStock tbl tbl config env Q).2] at hnew
    have hrun : ubootEnvWrite fl {} pos count data s = (some ((envCount pos count : ℤ),
        pos + envCount pos count), v.released) := by
      rw [ubootEnvWrite, if_neg (by omega), if_neg hpos, if_neg (by decide)]
      refine h.withDevice .writing ?_ hmutex hidle
      have hsave : amlnfEnvSave fl true E u = (some 0, v) := (bind_some hv).trans rfl
      rw [bind_some hu]
      exact (bind_some hsave).trans rfl
    refine ⟨v.released, ?_, ?_, himg'⟩
    · rw [RecCall.run, bind_some hrun, RecCall.reply, envReply, if_neg (by omega), if_neg hpos,
        if_pos hperm]
      rfl
    · have hnext : (RecCall.envWrite pos count data).next fl a =
          { a with env := blit a.env pos (envCount pos count) data } := by
        rw [RecCall.next, RecCall.envNext, if_pos ⟨not_le.1 hpos, hperm⟩]
        rfl
      rw [hnext]
      exact (h.of_stocked hnew hgood hkept htbl hallow).congr_env hQ
  · obtain ⟨rfl, rfl⟩ := hrefused (hmeta'.trans (by simpa using hperm))
    have hrun : ubootEnvWrite fl {} pos count data s = (some ((envCount pos count : ℤ), pos),
        v.released) := by
      rw [ubootEnvWrite, if_neg (by omega), if_neg hpos, if_neg (by decide)]
      refine h.withDevice .writing ?_ hmutex hidle
      have hsave : amlnfEnvSave fl true E v = (some (-eFAULT), v) := (bind_some hv).trans rfl
      rw [bind_some hu]
      exact (bind_some hsave).trans rfl
    refine ⟨v.released, ?_, ?_, himg'⟩
    · rw [RecCall.run, bind_some hrun, RecCall.reply, envReply, if_neg (by omega), if_neg hpos,
        if_neg hperm]
      rfl
    · have hnext : (RecCall.envWrite pos count data).next fl a = a := by
        rw [RecCall.next, RecCall.envNext, if_neg fun hc => hperm hc.2]
        rfl
      rw [hnext]
      exact (h.of_stocked (htaken.of_kept huk) hgood hkept htbl hallow).congr_env henv

/-! ## Power cycles and runs -/

/-- A power cycle. -/
lemma Mirrors.powerCycle (h : Mirrors fl s a) (hhynix : fl.newType.isHynix = false)
    (hsandisk : fl.newType ≠ .sandisk24nm) (m k : Bool) :
    CallServed fl s a (.powerCycle m k) := by
  obtain ⟨tbl, config, env, hst, hgood, hkept, henv⟩ := h.stored
  obtain ⟨u, hu, hidle, himg, hm, hk, htbl, hst'⟩ := powerCycle_run hhynix hsandisk hst hgood m k
  refine ⟨u, (bind_some hu).trans rfl, ⟨hidle, ⟨hm, hk⟩, fun c b hcb => ?_, tbl, config, env, hst',
    hgood, hkept, henv⟩, ?_⟩
  · exact (htbl c b hcb).trans (hkept c b hcb)
  · rw [himg]
    exact fun _ _ _ => rfl

/-- **One call** is answered as the service answers it. -/
lemma Mirrors.call (h : Mirrors fl s a) (hsz : AllStorable fl bootSize bootNames)
    (hhynix : fl.newType.isHynix = false) (hsandisk : fl.newType ≠ .sandisk24nm) {c : RecCall}
    (hfit : c.Fits fl) : CallServed fl s a c := by
  cases c with
  | modifybbt dev r value => exact h.modifybbt hfit
  | updateBbt dev r => exact h.updateBbt hsz
  | isbad dev r => exact h.isbad hfit
  | envWrite pos count data => exact h.envWrite hsz pos count data
  | envRead pos count => exact h.envRead pos count
  | powerCycle m k => exact h.powerCycle hhynix hsandisk m k

/-! ## Sequences of calls -/

/-- Sequences of calls are answered as the service answers them. -/
lemma Mirrors.calls (h : Mirrors fl s a) (hsz : AllStorable fl bootSize bootNames)
    (hhynix : fl.newType.isHynix = false) (hsandisk : fl.newType ≠ .sandisk24nm) {cs : List RecCall}
    (hfit : ∀ c ∈ cs, c.Fits fl) :
    ∃ t, runRecCalls fl cs s = (some (a.replies fl cs), t) ∧ Mirrors fl t (a.after fl cs) ∧
      s.image.SameOutside fl t.image := by
  induction cs generalizing s a with
  | nil => exact ⟨s, rfl, h, fun _ _ _ => rfl⟩
  | cons c cs ih =>
    obtain ⟨u, hu, hmirror, himg⟩ := h.call hsz hhynix hsandisk (hfit c List.mem_cons_self)
    obtain ⟨t, ht, hlast, himg'⟩ := ih hmirror fun d hd => hfit d (List.mem_cons_of_mem _ hd)
    exact ⟨t, (bind_some hu).trans ((bind_some ht).trans rfl), hlast, himg.trans himg'⟩

/-- What a sequence of calls does to the table. -/
def Records.tableOps (fl : Flash) (a : Records) : List RecCall → List (DurableOp BlkStatus)
  | [] => []
  | c :: cs => c.tableOp fl a :: (c.next fl a).tableOps fl cs

lemma Records.after_table (fl : Flash) (a : Records) (cs : List RecCall) :
    (a.after fl cs).table = a.table.run (a.tableOps fl cs) := by
  induction cs generalizing a with
  | nil => rfl
  | cons c cs ih => exact ih (c.next fl a)

lemma Records.tableOps_append (fl : Flash) (a : Records) (xs ys : List RecCall) :
    a.tableOps fl (xs ++ ys) = a.tableOps fl xs ++ (a.after fl xs).tableOps fl ys := by
  induction xs generalizing a with
  | nil => rfl
  | cons c xs ih => exact congrArg (c.tableOp fl a :: ·) (ih (c.next fl a))

lemma Records.replies_append (fl : Flash) (a : Records) (xs ys : List RecCall) :
    a.replies fl (xs ++ ys) = a.replies fl xs ++ (a.after fl xs).replies fl ys := by
  induction xs generalizing a with
  | nil => rfl
  | cons c xs ih => exact congrArg (c.reply fl a :: ·) (ih (c.next fl a))

/-- Only a save of the table stores it. -/
lemma Records.not_isCommit_tableOps (a : Records) {cs : List RecCall}
    (h : ∀ c ∈ cs, ∀ dev r, c ≠ .updateBbt dev r) :
    ∀ op ∈ a.tableOps fl cs, ¬op.IsCommit := by
  induction cs generalizing a with
  | nil =>
    intro op hop
    cases hop
  | cons c cs ih =>
    intro op hop
    rcases List.mem_cons.1 hop with rfl | hop
    · cases c with
      | modifybbt dev r value =>
        rw [RecCall.tableOp]
        split <;> exact id
      | updateBbt dev r => exact absurd rfl (h _ List.mem_cons_self dev r)
      | _ => exact id
    · exact ih (c.next fl a) (fun d hd => h d (List.mem_cons_of_mem _ hd)) op hop

/-- Only a write changes the environment. -/
lemma Records.after_env (a : Records) {cs : List RecCall}
    (h : ∀ c ∈ cs, ∀ pos count data, c ≠ .envWrite pos count data) : (a.after fl cs).env = a.env := by
  induction cs generalizing a with
  | nil => rfl
  | cons c cs ih =>
    have hrest : ((c.next fl a).after fl cs).env = (c.next fl a).env :=
      ih _ fun d hd => h d (List.mem_cons_of_mem _ hd)
    refine hrest.trans ?_
    cases c with
    | envWrite pos count data => exact absurd rfl (h _ List.mem_cons_self pos count data)
    | _ => rfl

end

/-! ## Three records on one chip -/

/-- What the service knows after the three records have been saved on blank chips. -/
def blankRecords : Records where
  table := ⟨fun _ _ => 0, fun _ _ => 0⟩
  env := fun _ => 0
  allowMeta := true
  allowMarkbad := true

/-- The records of bring-up can be saved on `Flash.oneChip`. -/
lemma allStorable_boot : AllStorable .oneChip bootSize bootNames := by
  intro n hn
  have hstep : ∀ size, copyStep .oneChip size = Flash.oneChip.argPages size := copyStep_of_ne (by decide)
  have hfit : Flash.oneChip.argPages (bootSize n) ≤ Flash.oneChip.pagesRead := by
    simp only [bootNames, List.mem_cons, List.not_mem_nil, or_false] at hn
    rcases hn with rfl | rfl | rfl <;> decide
  refine ⟨⟨hfit, fun _ => ?_⟩, fun _ => ⟨rfl, noSpill_of_ne (by decide) _⟩⟩
  rw [hstep]
  exact hfit

/-- There is such a driver. -/
lemma mirrors_blank : ∃ s, Mirrors .oneChip s blankRecords := by
  obtain ⟨s, -, hun, hst⟩ := (stocked_blank .oneChip bootSize (N := bootNames)
    (by decide)).saveSeq_run (by decide) allStorable_boot
    [(.nbbt, blockStatusBuf fun _ _ => 0), (.ncnf, sealConfig fun _ => 0), (.nenv, fun _ => 0)]
    (by simp [bootNames]) rfl
  have hstock : Stocked .oneChip bootSize bootNames s
      (bootStock (fun _ _ => 0) (fun _ => 0) fun _ => 0) := by
    convert hst using 1
    funext n
    cases n <;> rfl
  have hallow := untouched_allow hun
  have hlock := untouched_lock hun
  simp only [St.lock, Prod.mk.injEq] at hlock
  refine ⟨s, hlock.2.2.2, hallow, fun c b _ => ?_, _, _, _, hstock, fun _ _ _ => rfl,
    fun _ _ _ => rfl, fun _ _ => rfl⟩
  rw [untouched_blkStatus hun]
  rfl

/-- A data device behind the reserved blocks. -/
def behindDev : Phydev :=
  { setModes Flash.oneChip ⟨false, 0, [], false, false⟩ with offset := 2 ^ 27, size := 2 ^ 26 }

/-- Its first block is none of them. -/
lemma modifyEntries_behind (value : UInt16) (e : ℕ × ℕ)
    (he : e ∈ modifyEntries .oneChip (behindDev.para 0) value) :
    ¬InWindow .oneChip e.1 e.2 ∧ HasEntry e.1 e.2 := by
  have hentries : modifyEntries .oneChip (behindDev.para 0) value = [(0, 64)] := by
    by_cases hbits : (behindDev.para 0).option.bits &&& value = 0
    · rw [modifyEntries, if_neg (by decide), if_neg (by simp [hbits]), if_neg (by decide)]
      rfl
    · rw [modifyEntries, if_neg (by decide), if_pos ⟨by decide, hbits⟩]
      rfl
  rw [hentries, List.mem_singleton] at he
  subst he
  refine ⟨?_, ⟨by decide, by decide⟩⟩
  rintro ⟨b, -, hb, -, hrow⟩
  have hwindow : Flash.oneChip.startBlk + reservedBlockCnt = 52 := rfl
  have hres : Flash.oneChip.resRow b = b := by
    rw [Flash.resRow, show Flash.oneChip.chipNum = 1 from rfl, Nat.mod_one]
    omega
  omega

section

variable {fl : Flash} {s : St} {a : Records}

/-- **The driver answers as the service does**, for every sequence of table changes, table saves,
look-ups, reads and writes of the environment and power cycles: on chips that report no failure, have
no bad block in the scan range and hold the three records. -/
theorem recCalls_served (h : Mirrors fl s a) (hsz : AllStorable fl bootSize bootNames)
    (hhynix : fl.newType.isHynix = false) (hsandisk : fl.newType ≠ .sandisk24nm) {cs : List RecCall}
    (hfit : ∀ c ∈ cs, c.Fits fl) :
    ∃ t, runRecCalls fl cs s = (some (a.replies fl cs), t) ∧ Mirrors fl t (a.after fl cs) := by
  obtain ⟨t, ht, hmirror, -⟩ := h.calls hsz hhynix hsandisk hfit
  exact ⟨t, ht, hmirror⟩

/-- A block is marked and the table saved, the mark is lifted in memory only, and the power goes:
the block is marked again. -/
theorem recCalls_served_twice : ∃ s t, runRecCalls .oneChip
    [.modifybbt behindDev { addr := 0 } blockUsedBad, .updateBbt behindDev { addr := 0 },
      .modifybbt behindDev { addr := 0 } blockGood, .isbad behindDev { addr := 0 },
      .powerCycle true true, .isbad behindDev { addr := 0 }] s =
    (some [{ ret := 0 }, { ret := 0 }, { ret := 0 }, { ret := 0 }, { ret := 0 }, { ret := 1 }], t) := by
  obtain ⟨s, hs⟩ := mirrors_blank
  have hfit : ∀ c ∈ ([.modifybbt behindDev { addr := 0 } blockUsedBad,
      .updateBbt behindDev { addr := 0 }, .modifybbt behindDev { addr := 0 } blockGood,
      .isbad behindDev { addr := 0 }, .powerCycle true true,
      .isbad behindDev { addr := 0 }] : List RecCall), c.Fits .oneChip := by
    simp only [List.forall_mem_cons, List.not_mem_nil, false_implies, implies_true, and_true]
    have hread : (RecCall.isbad behindDev { addr := 0 }).Fits .oneChip :=
      fun e he => (modifyEntries_behind blockGood e he).2
    exact ⟨modifyEntries_behind _, trivial,
      modifyEntries_behind _, hread, trivial, hread⟩
  obtain ⟨t, ht, -⟩ := recCalls_served hs allStorable_boot rfl (by decide) hfit
  exact ⟨s, t, ht⟩

/-- **A table that was saved survives**: whatever is asked afterwards, other saves of the table
apart, the next power cycle brings back the table of the save. -/
theorem table_survives (h : Mirrors fl s a) (hsz : AllStorable fl bootSize bootNames)
    (hhynix : fl.newType.isHynix = false) (hsandisk : fl.newType ≠ .sandisk24nm)
    (hmeta : s.allowMeta = true) {dev : Phydev} {r : DevOps} (haddr : r.addr ≤ dev.size)
    {mid : List RecCall} (hfit : ∀ c ∈ mid, c.Fits fl)
    (hmid : ∀ c ∈ mid, ∀ dev r, c ≠ .updateBbt dev r) (m k : Bool) :
    ∃ xs t, runRecCalls fl (.updateBbt dev r :: (mid ++ [.powerCycle m k])) s = (some xs, t) ∧
      ∀ c b, HasEntry c b → t.blkStatus c b = s.blkStatus c b := by
  have hall : ∀ c ∈ RecCall.updateBbt dev r :: (mid ++ [.powerCycle m k]), c.Fits fl := by
    intro c hc
    rcases List.mem_cons.1 hc with rfl | hc
    · trivial
    rcases List.mem_append.1 hc with hc | hc
    · exact hfit c hc
    · rw [List.mem_singleton.1 hc]
      trivial
  obtain ⟨t, ht, hmirror, -⟩ := h.calls hsz hhynix hsandisk hall
  refine ⟨_, t, ht, fun c b hcb => ?_⟩
  rw [hmirror.table c b hcb, Records.after_table, Records.tableOps, Records.tableOps_append]
  have hcommit : (RecCall.updateBbt dev r).tableOp fl a = .commit := by
    rw [RecCall.tableOp, if_pos ⟨haddr, h.allow.1.symm.trans hmeta⟩]
  -- the save is the last commit before the restart
  have hcommits : ∀ op ∈ ((RecCall.updateBbt dev r).next fl a).tableOps fl mid, ¬op.IsCommit :=
    Records.not_isCommit_tableOps _ hmid
  have hlast := a.table.now_restart hcommits []
  rw [List.nil_append, Durable.run_nil] at hlast
  rw [hcommit]
  exact (congrFun (congrFun hlast c) b).trans (h.table c b hcb).symm

/-- A block that is marked after the save is good again after the power cycle. -/
theorem table_survives_marked : ∃ s xs t, s.blkStatus 0 64 = 0 ∧ runRecCalls .oneChip
    [.updateBbt behindDev { addr := 0 }, .modifybbt behindDev { addr := 0 } blockUsedBad,
      .powerCycle true true] s = (some xs, t) ∧ t.blkStatus 0 64 = 0 := by
  obtain ⟨s, hs⟩ := mirrors_blank
  have hentry : HasEntry 0 64 := ⟨by decide, by decide⟩
  have hgood : s.blkStatus 0 64 = 0 := hs.table 0 64 hentry
  have hfit : ∀ c ∈ ([.modifybbt behindDev { addr := 0 } blockUsedBad] : List RecCall),
      c.Fits .oneChip := by
    rw [List.forall_mem_singleton]
    exact modifyEntries_behind blockUsedBad
  obtain ⟨xs, t, ht, htbl⟩ := table_survives hs allStorable_boot rfl (by decide) hs.allow.1
    (show ({ addr := 0 } : DevOps).addr ≤ behindDev.size from Nat.zero_le _) hfit (by simp)
    true true
  exact ⟨s, xs, t, hgood, ht, (htbl 0 64 hentry).trans hgood⟩

/-- **An environment that was written survives**: a read at the same place, after any calls that
write no environment, table saves and power cycles among them, returns the bytes written. -/
theorem env_survives (h : Mirrors fl s a) (hsz : AllStorable fl bootSize bootNames)
    (hhynix : fl.newType.isHynix = false) (hsandisk : fl.newType ≠ .sandisk24nm)
    (hmeta : s.allowMeta = true) {pos : ℕ} (hpos : pos < configEnvSize) (count : ℕ) (data : Buf)
    {mid : List RecCall} (hfit : ∀ c ∈ mid, c.Fits fl)
    (hmid : ∀ c ∈ mid, ∀ pos count data, c ≠ .envWrite pos count data) :
    ∃ xs t, runRecCalls fl (.envWrite pos count data :: (mid ++ [.envRead pos count])) s =
      (some (xs ++ [⟨envCount pos count, pos + envCount pos count,
        data.bytes (envCount pos count)⟩]), t) := by
  have hall : ∀ c ∈ RecCall.envWrite pos count data :: (mid ++ [.envRead pos count]),
      c.Fits fl := by
    intro c hc
    rcases List.mem_cons.1 hc with rfl | hc
    · trivial
    rcases List.mem_append.1 hc with hc | hc
    · exact hfit c hc
    · rw [List.mem_singleton.1 hc]
      trivial
  obtain ⟨t, ht, -⟩ := h.calls hsz hhynix hsandisk hall
  let b := (RecCall.envWrite pos count data).next fl a
  have henv : (b.after fl mid).env = blit a.env pos (envCount pos count) data := by
    rw [Records.after_env b hmid]
    change RecCall.envNext a (.envWrite pos count data) = _
    rw [RecCall.envNext, if_pos ⟨hpos, h.allow.1.symm.trans hmeta⟩]
  have hread : (RecCall.envRead pos count).reply fl (b.after fl mid) =
      ⟨envCount pos count, pos + envCount pos count, data.bytes (envCount pos count)⟩ := by
    rw [RecCall.reply, henv, envReply, if_neg (by omega), if_neg (by omega)]
    rw [bytes_congr fun i hi => show blit a.env pos (envCount pos count) data (pos + i) = data i by
      rw [blit, if_pos ⟨by omega, by omega⟩, Nat.add_sub_cancel_left]]
  refine ⟨(RecCall.envWrite pos count data).reply fl a :: b.replies fl mid, t, ht.trans ?_⟩
  rw [Records.replies, Records.replies_append, List.cons_append, ← hread]
  rfl

/-- Eight bytes written before a power cycle are read after it. -/
theorem env_survives_cycle : ∃ s xs t, runRecCalls .oneChip
    [.envWrite 16 8 fun i => UInt8.ofNat i, .updateBbt behindDev { addr := 0 },
      .powerCycle true true, .envRead 16 8] s =
    (some (xs ++ [⟨8, 24, [0, 1, 2, 3, 4, 5, 6, 7]⟩]), t) := by
  obtain ⟨s, hs⟩ := mirrors_blank
  have hfit : ∀ c ∈ ([.updateBbt behindDev { addr := 0 }, .powerCycle true true] : List RecCall),
      c.Fits .oneChip := by simp [RecCall.Fits]
  obtain ⟨xs, t, ht⟩ := env_survives hs allStorable_boot rfl (by decide) hs.allow.1
    (show 16 < configEnvSize by decide) 8 (fun i => UInt8.ofNat i) hfit (by simp)
  exact ⟨s, xs, t, ht⟩

end

end Amlnf
