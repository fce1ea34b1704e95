import Amlnf.Dev.Entries
import Amlnf.Phy.Wire

set_option relaxedAutoImplicit false
set_option autoImplicit false

/-!
# The write guard

`write_page` and `erase_block` return at once when `amlnf_readonly` is on. The other functions of
the driver that put command bytes on the wires, the polls, the reads, the retries and the mode
registers, never send the byte that starts a program or an erase, although one of the two-plane
reads opens like an erase. The guard is looked at once in a call, before its loops over the chips: a
program or an erase under way goes on when the parameter is set.

## Main definitions

* `Wire.Sends` — which commands an action may send.
* `Wire.Completes` — a program or an erase was completed towards a chip.
* `Wire.UnderWay` — a call that found the guard off when it began.
* `Wire.NoneWhileReadonly` — nothing is completed while the guard is on.

## Main results

* `Wire.plain_act` — only `write_page` and `erase_block` start programs and erases.
* `Wire.completed_underWay` — what is completed belongs to a call that found the guard off.
* `Wire.lateGuard_completes` — the guard switched on between two chips.

## Design

The entries of the driver reach the chips through `Wire.BusCall` only, so what is said of any calls
in any order is said of every run of entries. Of the entries themselves it is said that they issue
no program and no erase while the guard stays on.
-/

namespace Amlnf

open Act

/-! ## Runs of entries under the guard -/

/-- What the guard keeps: its own value and, while it is on, the commands issued. -/
def GuardKept (s t : St) : Prop := t.readonly = s.readonly ∧ (s.readonly = true → t.log = s.log)

instance : Std.Refl GuardKept := ⟨fun _ => ⟨rfl, fun _ => rfl⟩⟩

instance : IsTrans St GuardKept :=
  ⟨fun _ _ _ h1 h2 => ⟨h2.1.trans h1.1, fun h => (h2.2 (h1.1.trans h)).trans (h1.2 h)⟩⟩

section

variable {fl : Flash} {V : UInt16 → Prop} {s t : St} {α : Type}

/-- The steps of the driver keep the guard. -/
lemma DriverSteps.guardKept (h : DriverSteps fl V s t) : GuardKept s t := by
  obtain ⟨hro, ops, hlog, hnil⟩ := h.log
  refine ⟨hro, fun hs => ?_⟩
  rw [hlog, hnil hs, List.append_nil]

/-- An action made of steps of the driver. -/
lemma guarded_driver {x : Act St α} (h : Moves (DriverSteps fl V) x) : Moves GuardKept x :=
  h.imp fun _ _ => DriverSteps.guardKept

/-- An action made of steps of the record store. -/
lemma guarded_store {x : Act St α} (h : Moves (Steps fl) x) : Moves GuardKept x :=
  guarded_driver (V := AnyValue) (moves_store h)

/-- Changing neither the guard nor the commands issued. -/
lemma guarded_modify {f : St → St} (h : ∀ s, (f s).readonly = s.readonly ∧ (f s).log = s.log) :
    Moves GuardKept (Act.modify f) := .modify fun s => ⟨(h s).1, fun _ => (h s).2⟩

/-- The bring-up respects the guard. -/
lemma guarded_amlnandGetDevConfigs : Moves GuardKept (amlnandGetDevConfigs fl) := by
  have hprelude : Moves GuardKept (bringUpPrelude fl) := by
    refine .bind (guarded_modify fun s => ⟨rfl, rfl⟩) fun _ => ?_
    refine .bind (guarded_store moves_readretrySlcInit) fun ret => ?_
    refine .ite (fun _ => .pure _) fun _ => ?_
    exact .bind (guarded_modify fun s => ⟨rfl, rfl⟩) fun _ => .pure _
  have hload : Moves GuardKept (loadBbt fl) :=
    .bind (guarded_store (moves_amlnandInfoInit _ _ _)) fun _ => guarded_modify fun s => ⟨rfl, rfl⟩
  refine .bind hprelude fun ret => .ite (fun _ => .pure _) fun _ => .bind hload fun _ => ?_
  exact guarded_driver moves_bringUpRest

/-- **Every entry but a change of the parameters respects the guard**, also when it does not
return. -/
lemma guarded_act {e : Entry} (hset : ∀ a b c, e ≠ .settings a b c) :
    Moves GuardKept (e.act fl) := by
  by_cases hup : e = .bringUp
  · subst hup
    exact .bind guarded_amlnandGetDevConfigs fun _ => .pure _
  · exact guarded_driver (moves_act hset hup)

/-- While the guard stays on, a run issues no program and no erase. -/
lemma runEntries_log (es : List Entry) (hs : s.readonly = true)
    (hset : ∀ a b c, Entry.settings a b c ∈ es → a = true) : (runEntries fl es s).log = s.log := by
  have hrun : (runEntries fl es s).readonly = true ∧ (runEntries fl es s).log = s.log := by
    refine runEntries_induction (I := fun t => t.readonly = true ∧ t.log = s.log)
      (fun e he t ht => ?_) ⟨hs, rfl⟩
    by_cases hsettings : ∃ a b c, e = .settings a b c
    · obtain ⟨a, b, c, rfl⟩ := hsettings
      exact ⟨hset a b c he, ht.2⟩
    · have hguard : Moves GuardKept (e.act fl) :=
        guarded_act fun a b c heq => hsettings ⟨a, b, c, heq⟩
      obtain ⟨hro, hlog⟩ := hguard t
      exact ⟨hro.trans ht.1, (hlog ht.1).trans ht.2⟩
  exact hrun.2

end

namespace Wire

/-! ## The commands an action sends -/

/-- From `s` to `t` only commands of a kind were sent, at moments between the two. -/
def Sends (allowed : UInt8 → Prop) (s t : WireSt) : Prop :=
  t.around = s.around ∧ s.now ≤ t.now ∧ ∃ new, t.sent = new ++ s.sent ∧
    ∀ x ∈ new, s.now ≤ x.moment ∧ x.moment < t.now ∧ (x.command = true → allowed x.byte)

instance (allowed : UInt8 → Prop) : Std.Refl (Sends allowed) :=
  ⟨fun _ => ⟨rfl, le_rfl, [], rfl, by simp⟩⟩

instance (allowed : UInt8 → Prop) : IsTrans WireSt (Sends allowed) := by
  refine ⟨fun s t r ⟨ha, hn, new, hs, hx⟩ ⟨ha', hn', new', hs', hx'⟩ =>
    ⟨ha'.trans ha, hn.trans hn', new' ++ new, by rw [hs', hs, List.append_assoc], fun x hm => ?_⟩⟩
  rcases List.mem_append.1 hm with hm | hm
  · obtain ⟨h1, h2, h3⟩ := hx' x hm
    exact ⟨hn.trans h1, h2, h3⟩
  · obtain ⟨h1, h2, h3⟩ := hx x hm
    exact ⟨h1, h2.trans_le hn', h3⟩

/-- More may be allowed. -/
lemma Sends.mono {allowed allowed' : UInt8 → Prop} (h : ∀ b, allowed b → allowed' b) {s t : WireSt}
    (hs : Sends allowed s t) : Sends allowed' s t := by
  obtain ⟨ha, hn, new, hsent, hx⟩ := hs
  refine ⟨ha, hn, new, hsent, fun x hm => ?_⟩
  obtain ⟨hfrom, hto, hkind⟩ := hx x hm
  exact ⟨hfrom, hto, fun hc => h _ (hkind hc)⟩

/-- The byte starts neither a program nor an erase. -/
def Plain (b : UInt8) : Prop := b ≠ UInt8.ofNat nandCmdPageprog ∧ b ≠ UInt8.ofNat nandCmdErase2

instance (b : UInt8) : Decidable (Plain b) := inferInstanceAs (Decidable (_ ∧ _))

section

variable {fl : Flash} {u : Setup} {allowed : UInt8 → Prop} {α : Type}

/-- A change of the state that sends nothing. -/
lemma sends_modify {f : WireSt → WireSt}
    (h : ∀ s, (f s).around = s.around ∧ s.now ≤ (f s).now ∧ (f s).sent = s.sent) :
    Moves (Sends allowed) (modify f) :=
  .modify fun s => ⟨(h s).1, (h s).2.1, [], (h s).2.2, by simp⟩

/-- Looking at the surroundings sends nothing. -/
lemma sends_look (f : Surroundings → ℕ → α) : Moves (Sends allowed) (look f) :=
  fun s => ⟨rfl, Nat.le_succ _, [], rfl, by simp⟩

/-- A byte that goes through `controller_cmd_ctrl` is recorded with its moment. -/
lemma sends_cmdCtrl {cmd : ℕ} {command : Bool} (h : command = true → allowed (UInt8.ofNat cmd)) :
    Moves (Sends allowed) (cmdCtrl cmd command) := by
  refine .ite (fun _ => .pure _) fun _ => .modify fun s => ?_
  refine ⟨rfl, Nat.le_succ _, [_], rfl, fun x hx => ?_⟩
  rw [List.mem_singleton.1 hx]
  exact ⟨le_rfl, Nat.lt_succ_self _, h⟩

/-- A command of an allowed kind. -/
lemma sends_cle {cmd : ℕ} (h : allowed (UInt8.ofNat cmd)) : Moves (Sends allowed) (cle cmd) :=
  sends_cmdCtrl fun _ => h

/-- An address byte is no command. -/
lemma sends_ale (addr : ℕ) : Moves (Sends allowed) (ale addr) :=
  sends_cmdCtrl fun h => by cases h

/-- The column is no command. -/
lemma sends_aleColumn : Moves (Sends allowed) aleColumn :=
  .bind (sends_ale _) fun _ => sends_ale _

/-- A row address is no command. -/
lemma sends_aleRow (row : ℕ) : Moves (Sends allowed) (aleRow row) :=
  .bind (sends_ale _) fun _ => .bind (sends_ale _) fun _ => sends_ale _

/-- A data byte is no command. -/
lemma sends_writebyte : Moves (Sends allowed) writebyte :=
  sends_modify fun _ => ⟨rfl, Nat.le_succ _, rfl⟩

/-- A byte read is no command. -/
lemma sends_readbyte : Moves (Sends allowed) readbyte := sends_look _

/-- Selecting a chip sends nothing. -/
lemma sends_selectChip (chip : ℕ) : Moves (Sends allowed) (selectChip chip) :=
  .ite (fun _ => sends_modify fun _ => ⟨rfl, Nat.le_succ _, rfl⟩) fun _ => .hang

/-- Waiting for the FIFO sends nothing. -/
lemma sends_checkCmdfifoSize : Moves (Sends allowed) checkCmdfifoSize :=
  .bind (sends_look _) fun _ => .ite (fun _ => .pure _) fun _ => .hang

/-- What each of a list may send the whole list may send. -/
lemma sends_each {f : α → Act WireSt Unit} (h : ∀ a, Moves (Sends allowed) (f a)) (as : List α) :
    Moves (Sends allowed) (each f as) := by
  induction as with
  | nil => exact .pure _
  | cons a as ih => exact .bind (h a) fun _ => ih

/-! ## Everything but programs and erases -/

/-- A poll sends the status command, or nothing. -/
lemma plain_queneRb (chip : ℕ) : Moves (Sends Plain) (queneRb u chip) :=
  .bind (sends_selectChip _) fun _ => .bind (.when (sends_cle (by decide))) fun _ =>
    .bind (sends_look _) fun _ => .ite (fun _ => .pure _) fun _ => .pure _

/-- The reset and the status behind it. -/
lemma plain_nandReset (chip : ℕ) : Moves (Sends Plain) (nandReset u chip) := by
  refine .bind (sends_cle (by decide)) fun _ => .bind (plain_queneRb _) fun _ => ?_
  refine .ite (fun _ => .pure _) fun _ => .bind (sends_cle (by decide)) fun _ => ?_
  exact .bind sends_readbyte fun _ => .ite (fun _ => .pure _) fun _ => .pure _

/-- The identification, behind a reset. -/
lemma plain_readId (chip idAddr : ℕ) (buf : Bool) :
    Moves (Sends Plain) (readId u chip idAddr buf) := by
  refine .ite (fun _ => .pure _) fun _ => .bind (sends_selectChip _) fun _ => ?_
  refine .bind (plain_nandReset _) fun _ => .ite (fun _ => .pure _) fun _ => ?_
  refine .bind (sends_cle (by decide)) fun _ => .bind (sends_ale _) fun _ => ?_
  exact .bind (sends_each (fun _ => .bind sends_readbyte fun _ => .pure _) _) fun _ => .pure _

/-- Features are read. -/
lemma plain_getOnfiFeatures (addr : ℕ) : Moves (Sends Plain) (getOnfiFeatures fl addr) := by
  refine .bind (sends_each (fun chip => ?_) _) fun _ => .pure _
  refine .bind (sends_selectChip _) fun _ => .bind (sends_cle (by decide)) fun _ => ?_
  exact .bind (sends_ale _) fun _ => sends_each (fun _ => .bind sends_readbyte fun _ => .pure _) _

/-- Features are written. -/
lemma plain_setOnfiFeatures (addr : ℕ) : Moves (Sends Plain) (setOnfiFeatures fl addr) := by
  unfold setOnfiFeatures
  induction List.range fl.chipNum with
  | nil => exact .pure _
  | cons chip rest ih =>
    refine .bind (sends_selectChip _) fun _ => .bind (sends_cle (by decide)) fun _ => ?_
    refine .bind (sends_ale _) fun _ => .bind (sends_each (fun _ => sends_writebyte) _) fun _ => ?_
    exact .bind (sends_look _) fun _ => .ite (fun _ => ih) fun _ => .pure _

/-- The status of every chip. -/
lemma plain_checkWp : Moves (Sends Plain) (checkWp fl u) := by
  refine .ite (fun _ => .pure _) fun _ => ?_
  induction List.range fl.chipNum with
  | nil => exact .pure _
  | cons chip rest ih =>
    refine .bind (sends_selectChip _) fun _ => .bind (sends_cle (by decide)) fun _ => ?_
    refine .bind (sends_look _) fun _ => .ite (fun _ => .pure _) fun _ => ?_
    exact .bind sends_readbyte fun _ => .ite (fun _ => .pure _) fun _ => ih

/-- A function on the registers sends what its middle part sends, and polls. -/
lemma plain_regCall (chip : ℕ) {body : Act WireSt Unit} (h : Moves (Sends Plain) body) :
    Moves (Sends Plain) (regCall u chip body) := by
  refine .bind (plain_queneRb _) fun _ => .ite (fun _ => .pure _) fun _ => .bind h fun _ => ?_
  exact .bind (plain_queneRb _) fun _ => .ite (fun _ => .pure _) fun _ => .pure _

/-- Registers of a Hynix chip are read. -/
lemma plain_getRegValueHynix (chip : ℕ) (addrs : List ℕ) :
    Moves (Sends Plain) (getRegValueHynix fl u chip addrs) := by
  refine .ite (fun _ => .pure _) fun _ => plain_regCall _ ?_
  refine .bind (sends_cle (by decide)) fun _ => sends_each (fun a => ?_) _
  exact .bind (sends_ale _) fun _ => .bind sends_readbyte fun _ => .pure _

/-- Registers of a Hynix chip are written. -/
lemma plain_setRegValueHynix (chip : ℕ) (addrs : List ℕ) :
    Moves (Sends Plain) (setRegValueHynix fl u chip addrs) := by
  refine .ite (fun _ => .pure _) fun _ => plain_regCall _ ?_
  refine .bind (sends_cle (by decide)) fun _ => .bind (sends_each (fun a => ?_) _) fun _ =>
    sends_cle (by decide)
  exact .bind (sends_ale _) fun _ => sends_writebyte

/-- One register of a Toshiba chip. -/
lemma plain_toshibaReg (a : ℕ) : Moves (Sends Plain) (toshibaReg a) :=
  .bind (sends_cle (by decide)) fun _ => .bind (sends_ale _) fun _ => sends_writebyte

/-- The registers of a Toshiba chip, behind the two bytes of a first retry. -/
lemma plain_setRegValueToshiba (chip : ℕ) (addrs : List ℕ) :
    Moves (Sends Plain) (setRegValueToshiba u chip addrs) := by
  refine plain_regCall _ (.bind .get fun s => .bind (.when ?_) fun _ => ?_)
  · exact .bind (sends_cle (by decide)) fun _ => sends_cle (by decide)
  · refine .bind (sends_each plain_toshibaReg _) fun _ => ?_
    exact .bind (sends_cle (by decide)) fun _ => sends_cle (by decide)

/-- The registers of a Samsung chip. -/
lemma plain_setRegValueSamsung (chip : ℕ) (addrs : List ℕ) :
    Moves (Sends Plain) (setRegValueSamsung fl u chip addrs) := by
  refine .ite (fun _ => .pure _) fun _ => plain_regCall _ (sends_each (fun a => ?_) _)
  refine .bind (sends_cle (by decide)) fun _ => .bind (sends_ale _) fun _ => ?_
  exact .bind (sends_ale _) fun _ => sends_writebyte

/-- The registers of a Micron chip. -/
lemma plain_setRegValueMicron (chip : ℕ) (addrs : List ℕ) :
    Moves (Sends Plain) (setRegValueMicron fl u chip addrs) := by
  refine .ite (fun _ => .pure _) fun _ => plain_regCall _ (sends_each (fun a => ?_) _)
  refine .bind (sends_cle (by decide)) fun _ => .bind (sends_ale _) fun _ => ?_
  exact sends_each (fun _ => sends_writebyte) _

/-- One register of a SanDisk chip. -/
lemma plain_sandiskReg (a : ℕ) : Moves (Sends Plain) (sandiskReg a) :=
  .bind (sends_cle (by decide)) fun _ => .bind (sends_ale _) fun _ => sends_writebyte

/-- The registers of a SanDisk chip are cleared. -/
lemma plain_readretryInitSandisk : Moves (Sends Plain) (readretryInitSandisk fl) := by
  refine .bind (sends_each (fun _ => ?_) _) fun _ => .pure _
  refine .bind (sends_cle (by decide)) fun _ => .bind (sends_cle (by decide)) fun _ => ?_
  exact sends_each plain_sandiskReg _

/-- The registers of a SanDisk chip. -/
lemma plain_setRegValueSandisk (chip : ℕ) (addrs : List ℕ) :
    Moves (Sends Plain) (setRegValueSandisk u chip addrs) := by
  refine plain_regCall _ ?_
  refine .bind (sends_cle (by decide)) fun _ => .bind (sends_cle (by decide)) fun _ => ?_
  exact .bind (sends_each plain_sandiskReg _) fun _ => sends_cle (by decide)

/-- The one register of the later SanDisk chips. -/
lemma plain_setA19RegValueSandisk (chip addr cnt : ℕ) :
    Moves (Sends Plain) (setA19RegValueSandisk u chip addr cnt) := by
  refine plain_regCall _ (.bind (sends_cle (by decide)) fun _ => .bind (sends_ale _) fun _ => ?_)
  exact sends_each (fun _ => sends_writebyte) _

/-- The SLC registers are read. -/
lemma plain_enslcInitHynix : Moves (Sends Plain) (enslcInitHynix fl u) := by
  refine .ite (fun _ => .pure _) fun _ => .bind (sends_each (fun chip => ?_) _) fun _ => .pure _
  exact .bind (plain_getRegValueHynix _ _) fun _ => .pure _

/-- The SLC registers are written. -/
lemma plain_enslcHynix : Moves (Sends Plain) (enslcHynix fl u) := by
  refine .ite (fun _ => .pure _) fun _ => .bind (sends_each (fun chip => ?_) _) fun _ => .pure _
  exact .bind (plain_setRegValueHynix _ _) fun _ => .pure _

/-- Entering the SLC mode. -/
lemma plain_slcEnter : Moves (Sends Plain) (slcEnter fl u) :=
  .ite (fun _ => .bind (sends_cle (by decide)) fun _ => .pure _) fun _ => plain_enslcHynix

/-! ## The handlers of the retries -/

/-- The counters are not on the wires. -/
lemma sends_putCntLp (chip value : ℕ) : Moves (Sends allowed) (putCntLp chip value) :=
  sends_modify fun _ => ⟨rfl, le_rfl, rfl⟩

/-- Neither are those of the upper pages. -/
lemma sends_putCntUp (chip value : ℕ) : Moves (Sends allowed) (putCntUp chip value) :=
  sends_modify fun _ => ⟨rfl, le_rfl, rfl⟩

/-- A handler with a table sends what programs a row. -/
lemma plain_handleLp (chip : ℕ) {setReg : Act WireSt ℤ} (h : Moves (Sends Plain) setReg) :
    Moves (Sends Plain) (handleLp fl chip setReg) :=
  .bind .get fun _ => .bind h fun _ => .ite (fun _ => .pure _) fun _ =>
    .bind (sends_putCntLp _ _) fun _ => .pure _

/-- A retry on a Hynix chip. -/
lemma plain_readretryHandleHynix (chip : ℕ) :
    Moves (Sends Plain) (readretryHandleHynix fl u chip) :=
  .bind (plain_setRegValueHynix _ _) fun _ => .bind .get fun _ =>
    .bind (sends_putCntLp _ _) fun _ => .pure _

/-- A retry on an Intel chip. -/
lemma plain_readretryHandleIntel (chip : ℕ) :
    Moves (Sends Plain) (readretryHandleIntel fl u chip) := by
  have hadvance : Moves (Sends Plain) (intelAdvance fl u chip) :=
    .bind .get fun _ => .ite (fun _ => plain_setRegValueMicron _ _) fun _ => .pure _
  refine .bind hadvance fun _ => .ite (fun _ => .pure _) fun _ => ?_
  exact plain_handleLp _ (plain_setRegValueMicron _ _)

/-- A retry on a SanDisk chip. -/
lemma plain_readretryHandleSandisk (kind : PageKind) (chip : ℕ) :
    Moves (Sends Plain) (readretryHandleSandisk fl u kind chip) := by
  cases kind with
  | lower => exact plain_handleLp _ (plain_setRegValueSandisk _ _)
  | upper =>
    refine .bind .get fun s => .bind (plain_setRegValueSandisk _ _) fun _ => ?_
    exact .ite (fun _ => .pure _) fun _ => .bind (sends_putCntUp _ _) fun _ => .pure _

/-- A retry on the later SanDisk chips. -/
lemma plain_readretryHandleA19Sandisk (chip : ℕ) :
    Moves (Sends Plain) (readretryHandleA19Sandisk fl u chip) := by
  refine .bind .get fun s => .bind (plain_setA19RegValueSandisk _ _ _) fun _ => ?_
  refine .bind (sends_cle (by decide)) fun _ => .bind (.when (sends_cle (by decide))) fun _ => ?_
  exact .bind (sends_cle (by decide)) fun _ => .bind (sends_putCntUp _ _) fun _ => .pure _

/-- No handler starts a program or an erase. -/
lemma plain_readretryHandle (kind : PageKind) (chip : ℕ) :
    Moves (Sends Plain) (readretryHandle fl u kind chip) := by
  unfold readretryHandle
  split
  · exact plain_readretryHandleHynix _
  · exact plain_readretryHandleHynix _
  · exact plain_readretryHandleHynix _
  · exact plain_readretryHandleHynix _
  · exact plain_readretryHandleHynix _
  · exact plain_handleLp _ (plain_setRegValueToshiba _ _)
  · exact plain_handleLp _ (plain_setRegValueToshiba _ _)
  · exact plain_handleLp _ (plain_setRegValueSamsung _ _)
  · exact plain_readretryHandleSandisk _ _
  · exact plain_readretryHandleA19Sandisk _
  · exact plain_readretryHandleA19Sandisk _
  · exact plain_handleLp _ (plain_setRegValueMicron _ _)
  · exact plain_readretryHandleIntel _
  · exact .pure _
  · exact .pure _

/-- Clearing the counters sends nothing. -/
lemma sends_clearLp : Moves (Sends allowed) clearLp := sends_modify fun _ => ⟨rfl, le_rfl, rfl⟩

/-- What comes behind the wait of an exit. -/
lemma plain_exitWhenReady (chip : ℕ) {rest : Act WireSt ℤ} (h : Moves (Sends Plain) rest) :
    Moves (Sends Plain) (exitWhenReady u chip rest) :=
  .bind (plain_queneRb _) fun _ => .ite (fun _ => .pure _) fun _ => .bind sends_clearLp fun _ => h

/-- A return value is not on the wires. -/
lemma plain_orFailed {x : Act WireSt ℤ} (h : Moves (Sends Plain) x) :
    Moves (Sends Plain) (orFailed x) :=
  .bind h fun _ => .ite (fun _ => .pure _) fun _ => .pure _

/-- The way back on a Hynix chip. -/
lemma plain_readretrySetDefValHynix (chip : ℕ) :
    Moves (Sends Plain) (readretrySetDefValHynix fl u chip) :=
  .bind sends_clearLp fun _ => .bind (plain_setRegValueHynix _ _) fun _ =>
    .ite (fun _ => plain_setRegValueHynix _ _) fun _ => .pure _

/-- The way back on a Toshiba chip. -/
lemma plain_readretryExitToshiba (chip : ℕ) :
    Moves (Sends Plain) (readretryExitToshiba fl u chip) :=
  plain_exitWhenReady _ (.bind (.when (sends_each plain_toshibaReg _)) fun _ =>
    plain_orFailed (plain_nandReset _))

/-- The way back on a Samsung chip. -/
lemma plain_readretryExitSamsung (chip : ℕ) :
    Moves (Sends Plain) (readretryExitSamsung fl u chip) :=
  .ite (fun _ => .pure _) fun _ =>
    plain_exitWhenReady _ (plain_orFailed (plain_setRegValueSamsung _ _))

/-- The way back on a Micron chip. -/
lemma plain_readretryExitMicron (chip : ℕ) : Moves (Sends Plain) (readretryExitMicron fl u chip) :=
  .ite (fun _ => .pure _) fun _ =>
    plain_exitWhenReady _ (plain_orFailed (plain_setRegValueMicron _ _))

/-- The way back on an Intel chip. -/
lemma plain_readretryExitIntel (chip : ℕ) : Moves (Sends Plain) (readretryExitIntel fl u chip) := by
  refine .ite (fun _ => .pure _) fun _ => plain_exitWhenReady _ ?_
  refine .bind (plain_setRegValueMicron _ _) fun _ => .ite (fun _ => .pure _) fun _ => ?_
  exact plain_orFailed (plain_setRegValueMicron _ _)

/-- Polled once more, a chip is reset. -/
lemma plain_pollReset (chip : ℕ) : Moves (Sends Plain)
    (do if (← queneRb u chip) ≠ 0 then pure (-nandFailed) else orFailed (nandReset u chip)) :=
  .bind (plain_queneRb _) fun _ => .ite (fun _ => .pure _) fun _ =>
    plain_orFailed (plain_nandReset _)

/-- The way back on a SanDisk chip. -/
lemma plain_readretryExitSandisk (chip : ℕ) :
    Moves (Sends Plain) (readretryExitSandisk fl u chip) := by
  refine plain_exitWhenReady _ (.bind (sends_modify fun _ => ⟨rfl, le_rfl, rfl⟩) fun _ => ?_)
  refine .bind (sends_cle (by decide)) fun _ => .bind plain_readretryInitSandisk fun _ => ?_
  exact plain_pollReset _

/-- The way back on the later SanDisk chips. -/
lemma plain_readretryExitA19Sandisk (chip : ℕ) :
    Moves (Sends Plain) (readretryExitA19Sandisk u chip) :=
  plain_exitWhenReady _ (.bind (plain_setA19RegValueSandisk _ _ _) fun _ => plain_pollReset _)

/-- No way back to the default registers starts a program or an erase. -/
lemma plain_readretryExit (chip : ℕ) : Moves (Sends Plain) (readretryExit fl u chip) := by
  unfold readretryExit
  split
  · exact plain_readretrySetDefValHynix _
  · exact plain_readretrySetDefValHynix _
  · exact plain_readretrySetDefValHynix _
  · exact plain_readretrySetDefValHynix _
  · exact plain_readretrySetDefValHynix _
  · exact plain_readretryExitToshiba _
  · exact plain_readretryExitToshiba _
  · exact plain_readretryExitSamsung _
  · exact plain_readretryExitSandisk _
  · exact plain_readretryExitA19Sandisk _
  · exact plain_readretryExitA19Sandisk _
  · exact plain_readretryExitMicron _
  · exact plain_readretryExitIntel _
  · exact .pure _
  · exact .pure _

/-! ## The reads -/

/-- The commands of a read; on two planes they open like an erase. -/
lemma plain_sendCmd {req : Bus.PageReq} (chip : ℕ) :
    Moves (Sends Plain) (sendCmd fl u req chip) := by
  have hread0 : Moves (Sends Plain) (cle nandCmdRead0) := sends_cle (by decide)
  have hstart : Moves (Sends Plain) (do cle nandCmdReadstart; checkCmdfifoSize) :=
    .bind (sends_cle (by decide)) fun _ => sends_checkCmdfifoSize
  refine .ite (fun _ => .ite (fun _ => ?_) fun _ => ?_) fun _ => ?_
  · refine .bind hread0 fun _ => .bind sends_aleColumn fun _ => .bind (sends_aleRow _) fun _ => ?_
    refine .bind (sends_cle (by decide)) fun _ => .bind (plain_queneRb _) fun _ => ?_
    refine .bind hread0 fun _ => .bind sends_aleColumn fun _ => ?_
    exact .bind (sends_aleRow _) fun _ => hstart
  · refine .bind (sends_cle (by decide)) fun _ => .bind (sends_aleRow _) fun _ => ?_
    exact .bind (sends_cle (by decide)) fun _ => .bind (sends_aleRow _) fun _ => hstart
  · refine .bind hread0 fun _ => .bind sends_aleColumn fun _ => ?_
    exact .bind (sends_aleRow _) fun _ => hstart

/-- The commands of a read on all its chips. -/
lemma plain_sendRead {req : Bus.PageReq} (chips : List ℕ) :
    Moves (Sends Plain) (sendRead fl u req chips) := by
  induction chips with
  | nil => exact .pure _
  | cons chip rest ih =>
    refine .bind (plain_queneRb _) fun _ => .ite (fun _ => .pure _) fun _ => ?_
    refine .bind (.when (.bind plain_slcEnter fun _ => .pure _)) fun _ => ?_
    exact .bind (plain_sendCmd _) fun _ => ih

/-- One transfer, with the handler when the page is to be retried. -/
lemma plain_pageAttempt {req : Bus.PageReq} (chip row retryCnt : ℕ) :
    Moves (Sends Plain) (pageAttempt fl u req chip row retryCnt) := by
  refine .bind (sends_look _) fun ecc => ?_
  cases ecc with
  | bug => exact .hang
  | ok => exact .ite (fun _ => .pure _) fun _ => .pure _
  | blank => exact .ite (fun _ => .pure _) fun _ => .pure _
  | fail =>
    refine .ite (fun _ => .pure _) fun _ => .ite (fun _ => .ite (fun _ => ?_) fun _ => .pure _)
      fun _ => .pure _
    exact .bind (plain_readretryHandle _ _) fun _ => .pure _

/-- The reset and the way back behind a page. -/
lemma plain_finishPage (r : AttemptEnd) (resets : Bool) (chip retryCnt : ℕ) :
    Moves (Sends Plain) (finishPage fl u r resets chip retryCnt) :=
  .bind (.when (.bind (plain_nandReset _) fun _ => .pure _)) fun _ =>
    .when (.bind (plain_readretryExit _) fun _ => .pure _)

/-- The page of a round. -/
lemma plain_pagePart {req : Bus.PageReq} (chip row : ℕ) (resets : Bool) (retryCnt : ℕ) :
    Moves (Sends Plain) (pagePart fl u req chip row resets retryCnt) := by
  refine .bind (plain_pageAttempt _ _ _) fun p => ?_
  obtain ⟨r, n⟩ := p
  cases r with
  | again => exact .bind (plain_sendCmd _) fun _ => .pure _
  | blank => exact .pure _
  | corrected => exact .bind (plain_finishPage _ _ _ _) fun _ => .pure _
  | uncorrected => exact .bind (plain_finishPage _ _ _ _) fun _ => .pure _

/-- Turning a chip to one of its planes. -/
lemma plain_selectPlane (row : ℕ) : Moves (Sends Plain) (selectPlane row) := by
  refine .bind (sends_cle (by decide)) fun _ => .bind sends_aleColumn fun _ => ?_
  refine .bind (sends_aleRow _) fun _ => .bind (sends_cle (by decide)) fun _ => ?_
  exact .bind sends_aleColumn fun _ => sends_cle (by decide)

/-- Turning a chip to its second plane. -/
lemma plain_selectPlane1 (row : ℕ) : Moves (Sends Plain) (selectPlane1 u row) := by
  refine .ite (fun _ => .bind (sends_cle (by decide)) fun _ => ?_) fun _ => plain_selectPlane _
  exact .bind sends_aleColumn fun _ => .bind (sends_aleRow _) fun _ => sends_cle (by decide)

/-- The start of a round. -/
lemma plain_startRound (chip : ℕ) : Moves (Sends Plain) (startRound u chip) :=
  .bind (plain_queneRb _) fun _ => .ite (fun _ => .pure _) fun _ =>
    .bind (.when (sends_cle (by decide))) fun _ => .pure _

/-- A round of a single plane. -/
lemma plain_onePlaneRound {req : Bus.PageReq} (flag : Bool) (chip retryCnt : ℕ) :
    Moves (Sends Plain) (onePlaneRound fl u req flag chip retryCnt) := by
  refine .bind (plain_startRound _) fun _ => .ite (fun _ => .pure _) fun _ => ?_
  refine .bind (plain_pagePart _ _ _ _) fun p => ?_
  obtain ⟨r, n⟩ := p
  cases r with
  | again => exact .pure _
  | blank => exact .bind sends_checkCmdfifoSize fun _ => .pure _
  | corrected => exact .bind sends_checkCmdfifoSize fun _ => .pure _
  | uncorrected => exact .bind sends_checkCmdfifoSize fun _ => .pure _

/-- The first plane of a round. -/
lemma plain_plane0Part {req : Bus.PageReq} (chip : ℕ) (v : Bool × ℕ) :
    Moves (Sends Plain) (plane0Part fl u req chip v) := by
  refine .ite (fun _ => .pure _) fun _ => .bind (.when (plain_selectPlane _)) fun _ => ?_
  refine .bind (plain_pagePart _ _ _ _) fun p => ?_
  obtain ⟨r, n⟩ := p
  cases r <;> exact .pure _

/-- The second plane of a round. -/
lemma plain_plane1Part {req : Bus.PageReq} (chip : ℕ) (v : Bool × ℕ) :
    Moves (Sends Plain) (plane1Part fl u req chip v) := by
  refine .bind (plain_selectPlane1 _) fun _ => .bind (plain_pagePart _ _ _ _) fun p => ?_
  obtain ⟨r, n⟩ := p
  cases r with
  | again => exact .pure _
  | blank => exact .bind sends_checkCmdfifoSize fun _ => .pure _
  | corrected => exact .bind sends_checkCmdfifoSize fun _ => .pure _
  | uncorrected => exact .bind sends_checkCmdfifoSize fun _ => .pure _

/-- A round over both planes. -/
lemma plain_twoPlaneRound {req : Bus.PageReq} (chip : ℕ) (v : Bool × ℕ) :
    Moves (Sends Plain) (twoPlaneRound fl u req chip v) := by
  refine .bind (plain_startRound _) fun _ => .ite (fun _ => .pure _) fun _ => ?_
  refine .bind (plain_plane0Part _ _) fun r => ?_
  cases r with
  | inl v => exact .pure _
  | inr v => exact .ite (fun _ => .pure _) fun _ => plain_plane1Part _ _

/-- The turn of a chip. -/
lemma plain_readChip {req : Bus.PageReq} (flag : Bool) (chip : ℕ) :
    Moves (Sends Plain) (readChip fl u req flag chip) :=
  .ite (fun _ => .loopUntil (fun v => plain_twoPlaneRound _ v) _ _) fun _ =>
    .loopUntil (fun n => plain_onePlaneRound _ _ n) _ _

/-- The turns of the chips. -/
lemma plain_readChips {req : Bus.PageReq} (flag : Bool) (chips : List ℕ) :
    Moves (Sends Plain) (readChips fl u req flag chips) := by
  induction chips generalizing flag with
  | nil => exact .pure _
  | cons chip rest ih =>
    refine .bind (plain_readChip _ _) fun e => ?_
    cases e with
    | busy => exact .pure _
    | leave => exact .pure _
    | next flag => exact ih _

/-- **A read starts no program and no erase**, whatever its retries. -/
lemma plain_readPage {req : Bus.PageReq} : Moves (Sends Plain) (readPage fl u req) :=
  .ite (fun _ => .pure _) fun _ => .bind (plain_sendRead _) fun _ =>
    .ite (fun _ => plain_readChips _ _) fun _ => .pure _

/-! ## Programs and erases -/

/-- The two bytes differ. -/
lemma pageprog_ne_erase2 : UInt8.ofNat nandCmdPageprog ≠ UInt8.ofNat nandCmdErase2 := by decide

/-- Not the byte that starts an erase. -/
def NoErase (b : UInt8) : Prop := b ≠ UInt8.ofNat nandCmdErase2

/-- Not the byte that starts a program. -/
def NoProgram (b : UInt8) : Prop := b ≠ UInt8.ofNat nandCmdPageprog

instance (b : UInt8) : Decidable (NoErase b) := inferInstanceAs (Decidable (_ ≠ _))

instance (b : UInt8) : Decidable (NoProgram b) := inferInstanceAs (Decidable (_ ≠ _))

/-- What starts neither starts no erase. -/
lemma noErase_of_plain {x : Act WireSt α} (h : Moves (Sends Plain) x) : Moves (Sends NoErase) x :=
  h.imp fun _ _ => Sends.mono fun _ hb => hb.2

/-- What starts neither starts no program. -/
lemma noProgram_of_plain {x : Act WireSt α} (h : Moves (Sends Plain) x) :
    Moves (Sends NoProgram) x := h.imp fun _ _ => Sends.mono fun _ hb => hb.1

/-- What the start on each chip may send the whole loop may send. -/
lemma sends_startAll {start : ℕ → Act WireSt (Option ℤ)}
    (h : ∀ chip, Moves (Sends allowed) (start chip)) (chips : List ℕ) :
    Moves (Sends allowed) (startAll start chips) := by
  induction chips with
  | nil => exact .pure _
  | cons chip rest ih =>
    refine .bind (h chip) fun o => ?_
    cases o with
    | none => exact ih
    | some code => exact .pure _

/-- Reading the status again and again. -/
lemma plain_statusTry (n : ℕ) : Moves (Sends Plain) (statusTry n) := by
  induction n with
  | zero => exact .bind sends_readbyte fun _ => .pure _
  | succ n ih =>
    refine .bind sends_readbyte fun _ => .ite (fun _ => .pure _) fun _ => ?_
    exact .ite (fun _ => ih) fun _ => .pure _

/-- The status of the chips, and what follows it on each. -/
lemma plain_checkStatus {after : Act WireSt Unit} (h : Moves (Sends Plain) after)
    (chips : List ℕ) : Moves (Sends Plain) (checkStatus u after chips) := by
  induction chips with
  | nil => exact .pure _
  | cons chip rest ih =>
    refine .bind (plain_queneRb _) fun _ => .ite (fun _ => .pure _) fun _ => ?_
    refine .bind (sends_cle (by decide)) fun _ => .bind (plain_statusTry _) fun _ => ?_
    exact .ite (fun _ => .bind h fun _ => ih) fun _ => .pure _

/-- The program on one chip starts no erase. -/
lemma noErase_programChip {req : Bus.PageReq} (chip : ℕ) :
    Moves (Sends NoErase) (programChip fl u req chip) := by
  have hpoll : ∀ c, Moves (Sends NoErase) (queneRb u c) := fun _ =>
    noErase_of_plain (plain_queneRb _)
  have hstart : Moves (Sends NoErase)
      (do cle nandCmdPageprog; checkCmdfifoSize; pure (none : Option ℤ)) :=
    .bind (sends_cle (by decide)) fun _ => .bind sends_checkCmdfifoSize fun _ => .pure _
  have htwo : NoErase (UInt8.ofNat (twoplaneWrite2 u)) := by
    unfold twoplaneWrite2
    split <;> decide
  refine .bind (hpoll _) fun _ => .ite (fun _ => .pure _) fun _ => .ite (fun _ => ?_) fun _ => ?_
  · refine .bind (sends_cle (by decide)) fun _ => .bind sends_aleColumn fun _ => ?_
    refine .bind (sends_aleRow _) fun _ => .bind (sends_look _) fun _ => ?_
    refine .ite (fun _ => .pure _) fun _ => .bind (sends_cle (by decide)) fun _ => ?_
    refine .bind (hpoll _) fun _ => .ite (fun _ => .pure _) fun _ => ?_
    refine .bind (sends_cle htwo) fun _ => ?_
    refine .bind sends_aleColumn fun _ => .bind (sends_aleRow _) fun _ => ?_
    exact .bind (sends_look _) fun _ => .ite (fun _ => .pure _) fun _ => hstart
  · refine .bind (.when (noErase_of_plain (.bind plain_slcEnter fun _ => .pure _))) fun _ => ?_
    refine .bind (hpoll _) fun _ => .bind (sends_cle (by decide)) fun _ => ?_
    refine .bind sends_aleColumn fun _ => .bind (sends_aleRow _) fun _ => ?_
    exact .bind (sends_look _) fun _ => .ite (fun _ => .pure _) fun _ => hstart

/-- `write_page` starts no erase. -/
lemma noErase_programPage {req : Bus.PageReq} : Moves (Sends NoErase) (programPage fl u req) := by
  refine .ite (fun _ => .pure _) fun _ => .bind (sends_startAll noErase_programChip _) fun o => ?_
  cases o with
  | none =>
    exact noErase_of_plain (plain_checkStatus (.when (.bind plain_enslcHynix fun _ => .pure _)) _)
  | some code => exact .pure _

/-- The erase on one chip starts no program. -/
lemma noProgram_eraseChip {req : Bus.PageReq} (chip : ℕ) :
    Moves (Sends NoProgram) (eraseChip fl u req chip) := by
  have hend : Moves (Sends Plain) (endFirstBlock u chip) :=
    .ite (fun _ => .bind (sends_cle (by decide)) fun _ => plain_queneRb _) fun _ => .pure _
  have hstart : Moves (Sends NoProgram)
      (do cle nandCmdErase2; checkCmdfifoSize; pure (none : Option ℤ)) :=
    .bind (sends_cle (by decide)) fun _ => .bind sends_checkCmdfifoSize fun _ => .pure _
  refine .bind (noProgram_of_plain (plain_queneRb _)) fun _ => .ite (fun _ => .pure _) fun _ => ?_
  refine .ite (fun _ => ?_) fun _ => ?_
  · refine .bind (sends_cle (by decide)) fun _ => .bind (sends_aleRow _) fun _ => ?_
    refine .bind (noProgram_of_plain hend) fun _ => .ite (fun _ => .pure _) fun _ => ?_
    exact .bind (sends_cle (by decide)) fun _ => .bind (sends_aleRow _) fun _ => hstart
  · refine .bind (.when (noProgram_of_plain (.bind plain_slcEnter fun _ => .pure _))) fun _ => ?_
    exact .bind (sends_cle (by decide)) fun _ => .bind (sends_aleRow _) fun _ => hstart

/-- `erase_block` starts no program. -/
lemma noProgram_eraseRow {req : Bus.PageReq} : Moves (Sends NoProgram) (eraseRow fl u req) := by
  refine .bind (sends_startAll noProgram_eraseChip _) fun o => ?_
  cases o with
  | none => exact noProgram_of_plain (plain_checkStatus (.pure _) _)
  | some code => exact .pure _

/-! ## The guard -/

/-- The call finds the guard off, and the byte starts what it is for. -/
def Starts (c : BusCall) (s : WireSt) (b : UInt8) : Prop :=
  s.around.readonly s.now = false ∧ match c with
    | .writePage _ => b = UInt8.ofNat nandCmdPageprog
    | .eraseBlock _ => b = UInt8.ofNat nandCmdErase2
    | _ => False

/-- What looks at the guard first sends nothing when it is on, and else what comes behind it
sends. -/
lemma sends_guarded {x : Act WireSt ℤ} (s : WireSt)
    (h : s.around.readonly s.now = false → Moves (Sends allowed) x) :
    Sends allowed s
      ((do if ← look Surroundings.readonly then pure (-eROFS) else x) s : Option ℤ × WireSt).2 := by
  have hlater : Sends allowed s s.later := sends_look Surroundings.readonly s
  change Sends allowed s ((if s.around.readonly s.now then pure (-eROFS) else x) s.later).2
  cases hro : s.around.readonly s.now with
  | true => exact hlater
  | false => exact trans_of _ hlater (h hro s.later)

/-- **What a call sends**: a program or an erase is started by `write_page` or `erase_block` only,
when it finds the guard off. -/
lemma sends_act (c : BusCall) (s : WireSt) :
    Sends (fun b => Plain b ∨ Starts c s b) s (c.act fl u s).2 := by
  have hplain : ∀ {x : Act WireSt ℤ}, Moves (Sends Plain) x →
      Sends (fun b => Plain b ∨ Starts c s b) s (x s).2 :=
    fun h => (h s).mono fun _ => Or.inl
  cases c with
  | writePage req =>
    refine sends_guarded s fun hro => noErase_programPage.imp fun _ _ => Sends.mono fun b hb => ?_
    by_cases hp : b = UInt8.ofNat nandCmdPageprog
    · exact .inr ⟨hro, hp⟩
    · exact .inl ⟨hp, hb⟩
  | eraseBlock req =>
    refine sends_guarded s fun hro => noProgram_eraseRow.imp fun _ _ => Sends.mono fun b hb => ?_
    by_cases he : b = UInt8.ofNat nandCmdErase2
    · exact .inr ⟨hro, he⟩
    · exact .inl ⟨hb, he⟩
  | readPage req => exact hplain plain_readPage
  | nandReset chip => exact hplain (plain_nandReset _)
  | readId chip idAddr buf => exact hplain (plain_readId _ _ _)
  | checkWp => exact hplain plain_checkWp
  | getOnfiFeatures addr => exact hplain (plain_getOnfiFeatures _)
  | setOnfiFeatures addr => exact hplain (plain_setOnfiFeatures _)
  | enslcInitHynix => exact hplain plain_enslcInitHynix
  | readretryInitSandisk => exact hplain plain_readretryInitSandisk

/-! ## Runs of calls -/

/-- A sequence to one chip, opened by a command and at any later time closed by another, `x`. -/
def Completes (opening closing : ℕ) (sent : List Latch) (x : Latch) : Prop :=
  x ∈ sent ∧ x.command = true ∧ x.byte = UInt8.ofNat closing ∧
    ∃ y ∈ sent, y.command = true ∧ y.byte = UInt8.ofNat opening ∧ y.chip = x.chip ∧
      y.moment < x.moment

instance (opening closing : ℕ) (sent : List Latch) (x : Latch) :
    Decidable (Completes opening closing sent x) := inferInstanceAs (Decidable (_ ∧ _ ∧ _ ∧ _))

/-- At a moment of a run the call `c` is under way, which found the guard off when it began. -/
def UnderWay (fl : Flash) (u : Setup) (cs : List BusCall) (w : WireSt) (c : BusCall)
    (moment : ℕ) : Prop :=
  ∃ before behind, cs = before ++ c :: behind ∧
    (w.around.readonly (runCalls fl u before w).2.now = false) ∧
    (runCalls fl u before w).2.now ≤ moment ∧ moment < (runCalls fl u (before ++ [c]) w).2.now

/-- A call behind another one. -/
lemma UnderWay.cons {cs : List BusCall} {w w' : WireSt} {c c' : BusCall} {r : ℤ} {moment : ℕ}
    (hc : c.act fl u w = (some r, w')) (ha : w'.around = w.around)
    (h : UnderWay fl u cs w' c' moment) : UnderWay fl u (c :: cs) w c' moment := by
  have hrun : ∀ l, runCalls fl u (c :: l) w = runCalls fl u l w' := fun l => bind_some hc
  obtain ⟨before, behind, rfl, hro, hfrom, hto⟩ := h
  refine ⟨c :: before, behind, rfl, ?_, ?_, ?_⟩
  · rw [hrun, ← ha]
    exact hro
  · rw [hrun]
    exact hfrom
  · rw [List.cons_append, hrun]
    exact hto

/-- **A byte that starts a program or an erase was sent by a call under way.** By induction on the
calls; the first one either sent the byte itself or is passed. -/
lemma underWay_of_closing (cs : List BusCall) (w : WireSt) {x : Latch}
    (hx : x ∈ (runCalls fl u cs w).2.sent) (hold : x ∉ w.sent) (hc : x.command = true)
    (hb : ¬Plain x.byte) :
    ∃ c, UnderWay fl u cs w c x.moment ∧ ∃ s, Starts c s x.byte := by
  induction cs generalizing w with
  | nil => exact absurd hx hold
  | cons c cs ih =>
    obtain ⟨ha, -, new, hsent, hnew⟩ := show Sends _ w (c.act fl u w).2 from sends_act c w
    have hown : x ∈ (c.act fl u w).2.sent →
        ∃ d, UnderWay fl u (c :: cs) w d x.moment ∧ ∃ s, Starts d s x.byte := by
      intro hmem
      rw [hsent] at hmem
      obtain ⟨hfrom, hto, hkind⟩ := hnew x ((List.mem_append.1 hmem).resolve_right hold)
      have hstarts := (hkind hc).resolve_left hb
      refine ⟨c, ⟨[], cs, rfl, hstarts.1, hfrom, ?_⟩, w, hstarts⟩
      have hone : (runCalls fl u [c] w).2 = (c.act fl u w).2 := by
        cases h : c.act fl u w with
        | mk o t =>
          cases o with
          | none => exact congrArg Prod.snd (bind_none h)
          | some r => exact congrArg Prod.snd (bind_some h)
      rw [List.nil_append, hone]
      exact hto
    cases h : c.act fl u w with
    | mk o t =>
      rw [h] at ha hown
      cases o with
      | none =>
        have hrun : runCalls fl u (c :: cs) w = (none, t) := bind_none h
        rw [hrun] at hx
        exact hown hx
      | some r =>
        have hrun : runCalls fl u (c :: cs) w = runCalls fl u cs t := bind_some h
        by_cases hmem : x ∈ t.sent
        · exact hown hmem
        · rw [hrun] at hx
          obtain ⟨d, hd, hs⟩ := ih t hx hmem
          exact ⟨d, hd.cons h ha, hs⟩

/-- Nothing is completed at a moment at which the guard is on. -/
def NoneWhileReadonly (fl : Flash) (u : Setup) (cs : List BusCall) (w : WireSt) : Prop :=
  ∀ x, Completes nandCmdSeqin nandCmdPageprog (runCalls fl u cs w).2.sent x ∨
      Completes nandCmdErase1 nandCmdErase2 (runCalls fl u cs w).2.sent x →
    w.around.readonly x.moment = false

end

/-- **The write guard.** While the guard stays on, a run of entries issues no program and no erase.
And whatever calls are made in whatever order, with whatever answers and whatever values of
`amlnf_readonly` at each moment, a page program, `0x80` to `0x10`, is completed only by a
`write_page` under way that found the guard off when it began, and a block erase, `0x60` to `0xd0`,
only by such an `erase_block`. -/
theorem completed_underWay (fl : Flash) (u : Setup) :
    (∀ (es : List Entry) (s : St), s.readonly = true →
      (∀ a b c, Entry.settings a b c ∈ es → a = true) → (runEntries fl es s).log = s.log) ∧
    ∀ (cs : List BusCall) (w : WireSt), w.sent = [] → ∀ x,
      (Completes nandCmdSeqin nandCmdPageprog (runCalls fl u cs w).2.sent x →
        ∃ req, UnderWay fl u cs w (.writePage req) x.moment) ∧
      (Completes nandCmdErase1 nandCmdErase2 (runCalls fl u cs w).2.sent x →
        ∃ req, UnderWay fl u cs w (.eraseBlock req) x.moment) := by
  refine ⟨fun es s hs hset => runEntries_log es hs hset, fun cs w hw x => ⟨?_, ?_⟩⟩
  · rintro ⟨hx, hc, hb, -⟩
    obtain ⟨c, hc, s, hs⟩ := underWay_of_closing cs w hx (by simp [hw]) hc (fun hp => hp.1 hb)
    rw [hb] at hs
    cases c with
    | writePage req => exact ⟨req, hc⟩
    | eraseBlock req => exact absurd hs.2 pageprog_ne_erase2
    | _ => exact hs.2.elim
  · rintro ⟨hx, hc, hb, -⟩
    obtain ⟨c, hc, s, hs⟩ := underWay_of_closing cs w hx (by simp [hw]) hc (fun hp => hp.2 hb)
    rw [hb] at hs
    cases c with
    | eraseBlock req => exact ⟨req, hc⟩
    | writePage req => exact absurd hs.2 pageprog_ne_erase2.symm
    | _ => exact hs.2.elim

/-- Two chips `H27UBG8T2A`. -/
def twoChips : Flash := .h27ubg8t2a 2 Nat.two_pos (Nat.le_of_ble_eq_true rfl)

/-- Their controller, with the ready lines connected. -/
def twoChipsSetup : Setup where
  mfrType := nandMfrHynix
  noneRb := false
  forceWp := false
  bchNone := false
  oobMod := false
  internalPageNums := 2 ^ 19
  internalChipnr := 1
  regCntLp := 0
  regAddrLp := fun _ => 0
  regCntUp := 0
  regAddrUp := fun _ => 0
  slcRegCnt := 0
  slcRegAddr := fun _ => 0

/-- Chips that are always ready, and a guard that is switched on at a moment. -/
def guardFrom (n : ℕ) : WireSt where
  around :=
    { readonly := fun t => decide (n ≤ t)
      rb := fun _ => true
      fifo := fun _ => true
      dma := fun _ => true
      ecc := fun _ => .ok
      byte := fun _ => 0xe0 }

/-- A page written on both chips. -/
def pageOnBoth : Bus.PageReq :=
  { para := { pageAddr := 1024, option := { multiChip := true } }
    withData := true
    withOob := false }

/-- A bring-up, a save of the environment and a self-test under the guard, metadata and marking
being allowed; and a page written on two chips, with the guard switched on in the end. -/
theorem completed_underWay_twoChips :
    (runEntries twoChips [.bringUp, .settings true true true, .save .nenv (fun _ => 0) 64,
        .testBlockReserved 8] { St.blank with readonly := true }).log = [] ∧
      ∃ req, UnderWay twoChips twoChipsSetup [.checkWp, .writePage pageOnBoth] (guardFrom 100)
        (.writePage req) 29 :=
  ⟨(completed_underWay twoChips twoChipsSetup).1 _ { St.blank with readonly := true } rfl (by simp),
    ((completed_underWay twoChips twoChipsSetup).2 [.checkWp, .writePage pageOnBoth] (guardFrom 100)
      rfl ⟨29, 1, true, 0x10⟩).1 (by decide)⟩

/-- **Switched on between two chips, the guard does not stop the second one**: `write_page` goes on,
and the page program is completed towards the second chip while `amlnf_readonly` is on. -/
theorem lateGuard_completes :
    ¬NoneWhileReadonly twoChips twoChipsSetup [.writePage pageOnBoth] (guardFrom 13) := by
  intro h
  have hlate := h ⟨25, 1, true, 0x10⟩ (.inl (by decide))
  simp [guardFrom] at hlate

end Wire

end Amlnf
