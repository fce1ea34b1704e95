import Amlnf.Lib.Threads
import Amlnf.Phy.ChipOperation

set_option relaxedAutoImplicit false
set_option autoImplicit false

/-!
# The chip lock between threads

The operations of the devices, the environment and the bootloader take the chip with
`amlnand_get_device` and give it back with `amlnand_release_device`. The state of the chip is
changed under the spin lock `amlnf_lock`; a thread that finds the chip busy sleeps on `amlnf_wq`
until a release wakes it. With the chip taken, `nand_get_chip` locks `spi_nand_mutex` and selects
the pins, and `nand_release_chip` unlocks it. Any number of threads run interleaved, suspend and
resume among them.

## Main definitions

* `ChipPc`, `ChipMem` — where a thread is, and what the threads share.
* `ChipMove`, `ChipStep` — the steps of a call that has begun, and these together with new calls.
* `ChipInv` — what holds in every state.
* `Owners` — what holds in addition while nobody suspends or resumes.

## Main results

* `chip_exclusive` — one thread at most uses the chip, and a release gives back its own lock.
* `no_lost_wakeup` — a chip that is ready has no sleeper that was not woken.
* `state_held` — between taking and releasing the chip its state is the one the thread has set.
* `calls_return` — without new calls the steps come to an end, and then every call has returned.

## Design

`pm` says whether suspend and resume are called, `pinFail` whether selecting the pins may fail,
`nests` whether an operation may call `nand_get_chip` itself (a save in an operation tests a failing
block so): in both cases a thread locks the mutex again that it holds, and waits for ever. An
operation that does not do so is taken to end. `schedule` returns once the task is not marked
as sleeping. `wake_up` wakes all tasks that wait on the queue, none of them being exclusive.
-/

namespace Amlnf

variable {τ : Type}

/-! ## The code -/

/-- `chip_state_t` as the lock uses it: the states of the operations, and `CHIP_PM_SUSPENDED`. -/
inductive LockState
  | op (c : ChipState)
  | pmSuspended

/-- The states `amlnand_get_device` is called with. -/
abbrev BusyState := { c : ChipState // c ≠ .ready }

/-- Who calls `nand_get_chip`: an operation that has entered a state, or `amlchip_resume`. -/
inductive Taker
  | op (c : BusyState)
  | resume

/-- Where a thread is. -/
inductive ChipPc
  /-- Not in the driver. -/
  | idle
  /-- `amlnand_get_device`: before `spin_lock`. -/
  | getLock (c : BusyState)
  /-- Before the test of the state. -/
  | getTest (c : BusyState)
  /-- The state has been set; before `spin_unlock`. -/
  | getUnlock (c : BusyState)
  /-- The task is marked as sleeping; before `add_wait_queue`. -/
  | addWait (c : BusyState)
  /-- Before the `spin_unlock` of a thread that has to wait. -/
  | waitUnlock (c : BusyState)
  /-- In `schedule`. -/
  | sleep (c : BusyState)
  /-- Before `remove_wait_queue`. -/
  | leaveWait (c : BusyState)
  /-- `nand_get_chip`: before the first `mutex_lock`. -/
  | takeMutex (u : Taker)
  /-- Before the `mutex_lock` of a thread that holds the mutex: the pins were not selected, or the
  operation calls `nand_get_chip` itself. -/
  | retakeMutex (u : Taker)
  /-- Before `nand_idleflag = 1`. -/
  | setIdle (u : Taker)
  /-- Before `pinctrl_select_state`. -/
  | pins (u : Taker)
  /-- The operation is under way. -/
  | inside (u : Taker)
  /-- `amlnand_release_device`: before `spin_lock`. -/
  | relLock (u : Taker)
  /-- Before `set_chip_state`. -/
  | relState (u : Taker)
  /-- Before `wake_up`. -/
  | relWake (u : Taker)
  /-- Before `spin_unlock`. -/
  | relUnlock (u : Taker)
  /-- `nand_release_chip`: before the test of `nand_idleflag`. -/
  | relTest (u : Taker)
  /-- Before `pinctrl_select_state`, whose result is only printed. -/
  | relPins (u : Taker)
  /-- Before `nand_idleflag = 0`. -/
  | clearIdle (u : Taker)
  /-- Before `mutex_unlock`. -/
  | dropMutex (u : Taker)
  /-- `phydev_suspend`: before `spin_lock`. -/
  | susLock
  /-- Before `set_chip_state`. -/
  | susState
  /-- Before `spin_unlock`. -/
  | susUnlock

/-- What the threads share. -/
structure ChipMem (τ : Type) where
  /-- Who holds `amlnf_lock`? -/
  spin : Option τ
  state : LockState
  /-- Who holds `spi_nand_mutex`? -/
  mutex : Option τ
  idleflag : Bool
  /-- Is the thread on `amlnf_wq`? -/
  waiting : τ → Bool
  /-- Is the task `TASK_UNINTERRUPTIBLE`? -/
  asleep : τ → Bool

/-- The driver before the first call. -/
def ChipMem.init : ChipMem τ := ⟨none, .op .ready, none, false, fun _ => false, fun _ => false⟩

/-- No thread is in the driver. -/
def chipStart : Threads τ ChipPc (ChipMem τ) := ⟨fun _ => .idle, .init⟩

section Steps

variable [DecidableEq τ]

/-- A step of a call that has begun. -/
inductive ChipMove (pinFail nests : Prop) (i : τ) :
    ChipPc → ChipMem τ → ChipPc → ChipMem τ → Prop
  | getLock {c : BusyState} {m : ChipMem τ} (h : m.spin = none) :
      ChipMove pinFail nests i (.getLock c) m (.getTest c) { m with spin := some i }
  | getReady {c : BusyState} {m : ChipMem τ} (h : m.state = .op .ready) :
      ChipMove pinFail nests i (.getTest c) m (.getUnlock c) { m with state := .op c.1 }
  | getUnlock {c : BusyState} {m : ChipMem τ} :
      ChipMove pinFail nests i (.getUnlock c) m (.takeMutex (.op c)) { m with spin := none }
  | getBusy {c : BusyState} {m : ChipMem τ} (h : m.state ≠ .op .ready) :
      ChipMove pinFail nests i (.getTest c) m (.addWait c)
        { m with asleep := Function.update m.asleep i true }
  | addWait {c : BusyState} {m : ChipMem τ} :
      ChipMove pinFail nests i (.addWait c) m (.waitUnlock c)
        { m with waiting := Function.update m.waiting i true }
  | waitUnlock {c : BusyState} {m : ChipMem τ} :
      ChipMove pinFail nests i (.waitUnlock c) m (.sleep c) { m with spin := none }
  | schedule {c : BusyState} {m : ChipMem τ} (h : m.asleep i = false) :
      ChipMove pinFail nests i (.sleep c) m (.leaveWait c) m
  | leaveWait {c : BusyState} {m : ChipMem τ} :
      ChipMove pinFail nests i (.leaveWait c) m (.getLock c)
        { m with waiting := Function.update m.waiting i false }
  | takeMutex {u : Taker} {m : ChipMem τ} (h : m.mutex = none) :
      ChipMove pinFail nests i (.takeMutex u) m (.setIdle u) { m with mutex := some i }
  | retakeMutex {u : Taker} {m : ChipMem τ} (h : m.mutex = none) :
      ChipMove pinFail nests i (.retakeMutex u) m (.setIdle u) { m with mutex := some i }
  | setIdle {u : Taker} {m : ChipMem τ} :
      ChipMove pinFail nests i (.setIdle u) m (.pins u) { m with idleflag := true }
  | pins {u : Taker} {m : ChipMem τ} : ChipMove pinFail nests i (.pins u) m (.inside u) m
  | pinsFail {u : Taker} {m : ChipMem τ} (h : pinFail) :
      ChipMove pinFail nests i (.pins u) m (.retakeMutex u) m
  /-- The operation calls `nand_get_chip` itself, as `test_block_reserved` does. -/
  | nest (h : nests) {c : BusyState} {m : ChipMem τ} :
      ChipMove pinFail nests i (.inside (.op c)) m (.retakeMutex (.op c)) m
  | finish {u : Taker} {m : ChipMem τ} : ChipMove pinFail nests i (.inside u) m (.relLock u) m
  | relLock {u : Taker} {m : ChipMem τ} (h : m.spin = none) :
      ChipMove pinFail nests i (.relLock u) m (.relState u) { m with spin := some i }
  | relState {u : Taker} {m : ChipMem τ} :
      ChipMove pinFail nests i (.relState u) m (.relWake u) { m with state := .op .ready }
  | relWake {u : Taker} {m : ChipMem τ} :
      ChipMove pinFail nests i (.relWake u) m (.relUnlock u)
        { m with asleep := fun j => m.asleep j && !m.waiting j }
  | relUnlock {u : Taker} {m : ChipMem τ} :
      ChipMove pinFail nests i (.relUnlock u) m (.relTest u) { m with spin := none }
  | relTest {u : Taker} {m : ChipMem τ} (h : m.idleflag = true) :
      ChipMove pinFail nests i (.relTest u) m (.relPins u) m
  | relSkip {u : Taker} {m : ChipMem τ} (h : m.idleflag = false) :
      ChipMove pinFail nests i (.relTest u) m .idle m
  | relPins {u : Taker} {m : ChipMem τ} : ChipMove pinFail nests i (.relPins u) m (.clearIdle u) m
  | clearIdle {u : Taker} {m : ChipMem τ} :
      ChipMove pinFail nests i (.clearIdle u) m (.dropMutex u) { m with idleflag := false }
  | dropMutex {u : Taker} {m : ChipMem τ} :
      ChipMove pinFail nests i (.dropMutex u) m .idle { m with mutex := none }
  | susLock {m : ChipMem τ} (h : m.spin = none) :
      ChipMove pinFail nests i .susLock m .susState { m with spin := some i }
  | susState {m : ChipMem τ} :
      ChipMove pinFail nests i .susState m .susUnlock { m with state := .pmSuspended }
  | susUnlock {m : ChipMem τ} : ChipMove pinFail nests i .susUnlock m .idle { m with spin := none }

/-- A step of a thread: a call it makes, or a step of the call it has made. -/
inductive ChipStep (pm pinFail nests : Prop) (i : τ) :
    ChipPc → ChipMem τ → ChipPc → ChipMem τ → Prop
  /-- An operation calls `amlnand_get_device`. -/
  | operate (c : BusyState) {m : ChipMem τ} : ChipStep pm pinFail nests i .idle m (.getLock c) m
  /-- `phydev_suspend` of a device that is not the boot device. -/
  | suspend (h : pm) {m : ChipMem τ} : ChipStep pm pinFail nests i .idle m .susLock m
  /-- `amlchip_resume` of the code device. -/
  | resume (h : pm) {m : ChipMem τ} : ChipStep pm pinFail nests i .idle m (.takeMutex .resume) m
  | move {k k' : ChipPc} {m m' : ChipMem τ} (h : ChipMove pinFail nests i k m k' m') :
      ChipStep pm pinFail nests i k m k' m'

end Steps

/-! ## Parts of the code -/

namespace ChipPc

/-- Does the thread hold `amlnf_lock`? -/
def holdsSpin : ChipPc → Bool
  | .getTest _ | .getUnlock _ | .addWait _ | .waitUnlock _ => true
  | .relState _ | .relWake _ | .relUnlock _ => true
  | .susState | .susUnlock => true
  | _ => false

/-- Does the thread hold `spi_nand_mutex`? -/
def holdsMutex : ChipPc → Bool
  | .retakeMutex _ | .setIdle _ | .pins _ | .inside _ => true
  | .relLock _ | .relState _ | .relWake _ | .relUnlock _ => true
  | .relTest _ | .relPins _ | .clearIdle _ | .dropMutex _ => true
  | _ => false

/-- Has the thread that holds the mutex set `nand_idleflag`? -/
def flagged : ChipPc → Bool
  | .setIdle _ | .dropMutex _ => false
  | k => k.holdsMutex

/-- Is the thread on `amlnf_wq`? -/
def onQueue : ChipPc → Bool
  | .waitUnlock _ | .sleep _ | .leaveWait _ => true
  | _ => false

/-- Has the thread been marked as sleeping without having come back from `schedule`? -/
def dozes : ChipPc → Bool
  | .addWait _ | .waitUnlock _ | .sleep _ => true
  | _ => false

/-- Is the thread about to wake the sleepers? -/
def wakes : ChipPc → Bool
  | .relWake _ => true
  | _ => false

/-- The state an operation has entered and not left. -/
def owns : ChipPc → Option BusyState
  | .getUnlock c => some c
  | .takeMutex (.op c) | .retakeMutex (.op c) | .setIdle (.op c) => some c
  | .pins (.op c) | .inside (.op c) | .relLock (.op c) | .relState (.op c) => some c
  | _ => none

/-- Does the thread neither suspend nor resume? -/
def operates : ChipPc → Bool
  | .takeMutex .resume | .retakeMutex .resume | .setIdle .resume | .pins .resume => false
  | .inside .resume | .relLock .resume | .relState .resume | .relWake .resume => false
  | .relUnlock .resume | .relTest .resume | .relPins .resume => false
  | .clearIdle .resume | .dropMutex .resume => false
  | .susLock | .susState | .susUnlock => false
  | _ => true

/-- Has the thread selected the pins whenever it tried? -/
def pinned : ChipPc → Bool
  | .retakeMutex _ => false
  | _ => true

end ChipPc

/-! ## What holds in every state -/

section Inv

variable [DecidableEq τ] {pm pinFail nests : Prop} {s t : Threads τ ChipPc (ChipMem τ)} {i j : τ}
  {k k' : ChipPc} {m m' : ChipMem τ}

open Threads

/-- A thread that is marked as sleeping while the chip is ready is about to be woken. -/
def Awake (s : Threads τ ChipPc (ChipMem τ)) : Prop :=
  s.mem.state = .op .ready → ∀ i, (s.pc i).dozes = true → s.mem.asleep i = true →
    ∃ j, (s.pc j).wakes = true

/-- What holds in every state: both locks are held by the threads in their protected parts,
`nand_idleflag` is set while the holder of the mutex says so, the threads on the queue are those
that are between entering and leaving it, and sleepers of a chip that is ready are about to be
woken. -/
structure ChipInv (s : Threads τ ChipPc (ChipMem τ)) : Prop where
  spin : Owned ChipMem.spin ChipPc.holdsSpin s
  mutex : Owned ChipMem.mutex ChipPc.holdsMutex s
  idleflag : Guarded ChipMem.mutex ChipPc.holdsMutex ChipMem.idleflag false ChipPc.flagged s
  waiting : Marked ChipMem.waiting ChipPc.onQueue s
  awake : Awake s

/-- Every step takes or drops the spin lock or leaves it alone. -/
lemma ChipMove.spin (h : ChipMove pinFail nests i k m k' m') :
    LockMove i m.spin k.holdsSpin m'.spin k'.holdsSpin := by
  cases h with
  | getLock h | relLock h | susLock h =>
    rw [h]
    exact .take
  | getUnlock | waitUnlock | relUnlock | susUnlock => exact .drop _
  | getReady | getBusy | addWait | schedule | leaveWait | takeMutex | retakeMutex => exact .keep ..
  | setIdle | pins | pinsFail | nest | finish | relState | relWake => exact .keep ..
  | relTest | relSkip | relPins | clearIdle | dropMutex | susState => exact .keep ..

/-- Every step takes or drops the mutex or leaves it alone, a thread that locks the mutex again
being stuck. -/
lemma ChipMove.mutex (h : ChipMove pinFail nests i k m k' m')
    (hheld : k.holdsMutex = true → m.mutex ≠ none)
    (hflag : k.holdsMutex = true → m.idleflag = k.flagged) :
    LockMove i m.mutex k.holdsMutex m'.mutex k'.holdsMutex := by
  cases h with
  | takeMutex h =>
    rw [h]
    exact .take
  | retakeMutex h => exact absurd h (hheld rfl)
  | relSkip h =>
    rw [hflag rfl] at h
    cases h
  | dropMutex => exact .drop _
  | getLock | getReady | getUnlock | getBusy | addWait | waitUnlock | schedule => exact .keep ..
  | leaveWait | setIdle | pins | pinsFail | nest | finish | relLock | relState => exact .keep ..
  | relWake | relUnlock | relTest | relPins | clearIdle => exact .keep ..
  | susLock | susState | susUnlock => exact .keep ..

/-- `nand_idleflag` after a step. -/
lemma ChipMove.idleflag (h : ChipMove pinFail nests i k m k' m')
    (hheld : k.holdsMutex = true → m.mutex ≠ none)
    (hflag : k.holdsMutex = true → m.idleflag = k.flagged)
    (hfree : m.mutex = none → m.idleflag = false) :
    (k'.holdsMutex = true → m'.idleflag = k'.flagged) ∧
    (k.holdsMutex = false → k'.holdsMutex = false → m'.idleflag = m.idleflag) ∧
    (k.holdsMutex = true → k'.holdsMutex = false → m'.idleflag = false) := by
  cases h with
  | takeMutex h => exact ⟨fun _ => hfree h, fun _ _ => rfl, by simp [ChipPc.holdsMutex]⟩
  | retakeMutex h => exact absurd h (hheld rfl)
  | setIdle | clearIdle => simp [ChipPc.holdsMutex, ChipPc.flagged]
  | dropMutex => exact ⟨by simp [ChipPc.holdsMutex], fun _ _ => rfl, fun _ _ => hflag rfl⟩
  | relSkip h => exact ⟨by simp [ChipPc.holdsMutex], fun _ _ => rfl, fun _ _ => h⟩
  | pins | pinsFail | nest | finish | relLock | relState | relWake | relUnlock | relTest
  | relPins =>
    exact ⟨fun _ => hflag rfl, fun _ _ => rfl, by simp [ChipPc.holdsMutex]⟩
  | getLock | getReady | getUnlock | getBusy | addWait | waitUnlock | schedule | leaveWait =>
    simp [ChipPc.holdsMutex]
  | susLock | susState | susUnlock => simp [ChipPc.holdsMutex]

/-- The threads on the queue after a step. -/
lemma ChipMove.waiting (h : ChipMove pinFail nests i k m k' m') (hw : m.waiting i = k.onQueue) :
    m'.waiting i = k'.onQueue ∧ ∀ j ≠ i, m'.waiting j = m.waiting j := by
  cases h with
  | addWait | leaveWait =>
    refine ⟨Function.update_self .., fun j hj => Function.update_of_ne hj ..⟩
  | getLock | getReady | getUnlock | getBusy | waitUnlock | schedule => exact ⟨hw, fun _ _ => rfl⟩
  | takeMutex | retakeMutex | setIdle | pins | pinsFail | nest | finish =>
    exact ⟨hw, fun _ _ => rfl⟩
  | relLock | relState | relWake | relUnlock | relTest | relSkip => exact ⟨hw, fun _ _ => rfl⟩
  | relPins | clearIdle | dropMutex | susLock | susState | susUnlock => exact ⟨hw, fun _ _ => rfl⟩

/-- A step that leaves the chip ready either found it so, without falling asleep or waking anybody,
or made it so and will wake the sleepers, or has just woken them. -/
lemma ChipMove.ready (h : ChipMove pinFail nests i k m k' m') (hr : m'.state = .op .ready) :
    (m.state = .op .ready ∧ m'.asleep = m.asleep ∧ k.wakes = false ∧
      (k'.dozes = true → k.dozes = true)) ∨ k'.wakes = true ∨
    (k.holdsSpin = true ∧ k'.dozes = false ∧ m'.asleep = fun j => m.asleep j && !m.waiting j) := by
  cases h with
  | @getReady c => exact absurd (LockState.op.inj hr) c.2
  | getBusy h => exact absurd hr h
  | susState => cases hr
  | relState => exact .inr (.inl rfl)
  | relWake => exact .inr (.inr ⟨rfl, rfl, rfl⟩)
  | addWait | waitUnlock => exact .inl ⟨hr, rfl, rfl, fun _ => rfl⟩
  | getLock | getUnlock | schedule | leaveWait => exact .inl ⟨hr, rfl, rfl, by simp [ChipPc.dozes]⟩
  | takeMutex | retakeMutex | setIdle | pins => exact .inl ⟨hr, rfl, rfl, by simp [ChipPc.dozes]⟩
  | pinsFail | nest | finish => exact .inl ⟨hr, rfl, rfl, by simp [ChipPc.dozes]⟩
  | relLock | relUnlock => exact .inl ⟨hr, rfl, rfl, by simp [ChipPc.dozes]⟩
  | relTest | relSkip | relPins | clearIdle => exact .inl ⟨hr, rfl, rfl, by simp [ChipPc.dozes]⟩
  | dropMutex | susLock | susUnlock => exact .inl ⟨hr, rfl, rfl, by simp [ChipPc.dozes]⟩

/-- **A step of a call** keeps what holds in every state. -/
lemma ChipInv.move (hi : ChipInv s) (h : ChipMove pinFail nests i (s.pc i) s.mem k m) :
    ChipInv (s.move i k m) := by
  have hheld : (s.pc i).holdsMutex = true → s.mem.mutex ≠ none := by
    intro hh
    rw [(hi.mutex i).2 hh]
    exact Option.some_ne_none i
  have hflag := hi.idleflag.2 i
  have hmutex := h.mutex hheld hflag
  obtain ⟨hin, hout, hdrop⟩ := h.idleflag hheld hflag hi.idleflag.1
  obtain ⟨hself, hother⟩ := h.waiting (hi.waiting i)
  refine ⟨hi.spin.move h.spin, hi.mutex.move hmutex,
    hi.idleflag.move hi.mutex hmutex hin hout hdrop, hi.waiting.move hself hother, ?_⟩
  intro hr j hdoze hsleep
  rw [move_mem] at hr hsleep
  rcases h.ready hr with ⟨hs, hasleep, hnot, hsame⟩ | hwakes | ⟨hspin, hup, hasleep⟩
  · -- the chip was ready before: whoever is about to wake the sleepers still is
    have hbefore : (s.pc j).dozes = true := by
      by_cases hji : j = i
      · subst hji
        rw [move_pc_self] at hdoze
        exact hsame hdoze
      · rwa [move_pc_of_ne s i k m hji] at hdoze
    rw [hasleep] at hsleep
    obtain ⟨w, hw⟩ := hi.awake hs j hbefore hsleep
    have hwi : w ≠ i := by
      rintro rfl
      rw [hnot] at hw
      cases hw
    exact ⟨w, by rwa [move_pc_of_ne s i k m hwi]⟩
  · exact ⟨i, by rwa [move_pc_self]⟩
  · -- everybody on the queue has been woken, and nobody is about to enter it
    have hji : j ≠ i := by
      rintro rfl
      rw [move_pc_self, hup] at hdoze
      cases hdoze
    rw [move_pc_of_ne s i k m hji] at hdoze
    rw [hasleep, Bool.and_eq_true, Bool.not_eq_true', hi.waiting j] at hsleep
    have hspinj : (s.pc j).holdsSpin = true := by
      generalize s.pc j = p at hdoze hsleep
      cases p with
      | addWait c => rfl
      | waitUnlock c | sleep c => simp [ChipPc.onQueue] at hsleep
      | _ => simp [ChipPc.dozes] at hdoze
    exact absurd (hi.spin.unique hspinj hspin) hji

/-- A thread that begins a call keeps what holds in every state. -/
lemma ChipInv.call (hi : ChipInv s) (hidle : s.pc i = .idle) (hspin : k.holdsSpin = false)
    (hmutex : k.holdsMutex = false) (hqueue : k.onQueue = false) (hdozes : k.dozes = false) :
    ChipInv (s.move i k s.mem) := by
  have hm : LockMove i s.mem.mutex (s.pc i).holdsMutex s.mem.mutex k.holdsMutex := by
    rw [hidle, hmutex]
    exact .keep ..
  refine ⟨hi.spin.move ?_, hi.mutex.move hm, hi.idleflag.move hi.mutex hm ?_ (fun _ _ => rfl) ?_,
    hi.waiting.move ?_ fun _ _ => rfl, ?_⟩
  · rw [hidle, hspin]
    exact .keep ..
  · simp [hmutex]
  · simp [hidle, ChipPc.holdsMutex]
  · rw [hi.waiting i, hidle, hqueue]
    rfl
  · intro hr j hdoze hsleep
    have hji : j ≠ i := by
      rintro rfl
      rw [move_pc_self, hdozes] at hdoze
      cases hdoze
    rw [move_pc_of_ne s i k s.mem hji] at hdoze
    obtain ⟨w, hw⟩ := hi.awake hr j hdoze hsleep
    have hwi : w ≠ i := by
      rintro rfl
      rw [hidle] at hw
      cases hw
    exact ⟨w, by rwa [move_pc_of_ne s i k s.mem hwi]⟩

/-- **Every step** keeps what holds in every state. -/
lemma ChipInv.step (hi : ChipInv s) (h : ChipStep pm pinFail nests i (s.pc i) s.mem k m) :
    ChipInv (s.move i k m) := by
  generalize hp : s.pc i = p, hM : s.mem = n at h
  cases h with
  | operate | suspend | resume =>
    subst hM
    exact hi.call hp rfl rfl rfl rfl
  | move h =>
    subst hp hM
    exact hi.move h

omit [DecidableEq τ] in
/-- Before the first call. -/
lemma chipInv_start : ChipInv (chipStart : Threads τ ChipPc (ChipMem τ)) := by
  refine ⟨fun i => ?_, fun i => ?_, ⟨fun _ => rfl, fun i h => ?_⟩, fun i => rfl, fun _ i h => ?_⟩
  · simp [chipStart, ChipMem.init, ChipPc.holdsSpin]
  · simp [chipStart, ChipMem.init, ChipPc.holdsMutex]
  · simp [chipStart, ChipPc.holdsMutex] at h
  · simp [chipStart, ChipPc.dozes] at h

/-- The invariant holds after any interleaving. -/
lemma chipInv_of_reach (h : Reach (ChipStep pm pinFail nests) chipStart s) : ChipInv s :=
  h.invariant (fun _ _ _ _ hstep hi => hi.step hstep) chipInv_start

/-! ## Runs -/

/-- A thread that finds the chip ready and the mutex free, with nobody in its way. -/
lemma get_alone (hidle : s.pc i = .idle) (hspin : s.mem.spin = none)
    (hready : s.mem.state = .op .ready) (hmutex : s.mem.mutex = none) (c : BusyState) :
    Reach (ChipStep pm pinFail nests) s (s.move i (.inside (.op c))
      { s.mem with spin := none, state := .op c.1, mutex := some i, idleflag := true }) := by
  have h : Reach (ChipStep pm pinFail nests) s _ := .start hidle (.operate c)
  have h := h.again (.move (.getLock hspin))
  have h := h.again (.move (.getReady hready))
  have h := h.again (.move .getUnlock)
  have h := h.again (.move (.takeMutex hmutex))
  exact (h.again (.move .setIdle)).again (.move .pins)

/-- A thread that finds the chip busy goes to sleep. -/
lemma wait_alone (hidle : s.pc i = .idle) (hspin : s.mem.spin = none)
    (hbusy : s.mem.state ≠ .op .ready) (c : BusyState) :
    Reach (ChipStep pm pinFail nests) s (s.move i (.sleep c)
      { s.mem with
        spin := none
        asleep := Function.update s.mem.asleep i true
        waiting := Function.update s.mem.waiting i true }) := by
  have h : Reach (ChipStep pm pinFail nests) s _ := .start hidle (.operate c)
  have h := h.again (.move (.getLock hspin))
  have h := h.again (.move (.getBusy hbusy))
  exact (h.again (.move .addWait)).again (.move .waitUnlock)

/-- A thread that makes the chip ready and wakes the sleepers. -/
lemma release_alone {u : Taker} (hin : s.pc i = .inside u) (hspin : s.mem.spin = none) :
    Reach (ChipStep pm pinFail nests) s (s.move i (.relTest u)
      { s.mem with
        spin := none
        state := .op .ready
        asleep := fun j => s.mem.asleep j && !s.mem.waiting j }) := by
  have h : Reach (ChipStep pm pinFail nests) s _ := .start hin (.move .finish)
  have h := h.again (.move (.relLock hspin))
  have h := h.again (.move .relState)
  exact (h.again (.move .relWake)).again (.move .relUnlock)

/-- The state a read enters. -/
def readState : BusyState := ⟨.reading, by decide⟩

/-- One thread reads while the other waits for the chip. -/
def oneWaits : Threads Bool ChipPc (ChipMem Bool) where
  pc j := if j then .sleep readState else .inside (.op readState)
  mem := ⟨none, .op .reading, some false, true, id, id⟩

/-- Two operations reach that state. -/
lemma reach_oneWaits {pm pinFail nests : Prop} :
    Reach (ChipStep pm pinFail nests) chipStart oneWaits := by
  have h0 : Reach (ChipStep pm pinFail nests) chipStart _ :=
    get_alone (i := false) rfl rfl rfl rfl readState
  have h1 : Reach (ChipStep pm pinFail nests) chipStart
      ⟨Function.update (Function.update (fun _ => .idle) false (.inside (.op readState)))
          true (.sleep readState),
        ⟨none, .op .reading, some false, true, Function.update (fun _ => false) true true,
          Function.update (fun _ => false) true true⟩⟩ :=
    h0.trans (wait_alone (i := true) rfl rfl (by simp [readState]) readState)
  have hpc : Function.update (Function.update (fun _ => .idle) false (.inside (.op readState)))
      true (.sleep readState) = oneWaits.pc := by
    funext j
    cases j <;> rfl
  have hflag : Function.update (fun _ => false) true true = (id : Bool → Bool) := by
    funext j
    cases j <;> rfl
  rw [hpc, hflag] at h1
  exact h1

/-! ## Exclusion and wake-ups -/

/-- **One thread at most uses the chip.** For every interleaving of operations, suspends and
resumes, whether or not the pins can be selected and whether or not an operation calls
`nand_get_chip` itself: a thread that has locked the mutex and not
unlocked it is its owner, no other thread is in that part of the code, and `nand_idleflag` is set
from behind its assignment to before the one that clears it. So a release always finds the flag set
and unlocks the mutex of its own thread. -/
theorem chip_exclusive (h : Reach (ChipStep pm pinFail nests) chipStart s)
    (hi : (s.pc i).holdsMutex = true) :
    s.mem.mutex = some i ∧ s.mem.idleflag = (s.pc i).flagged ∧
      ∀ j, (s.pc j).holdsMutex = true → j = i := by
  have hinv := chipInv_of_reach h
  exact ⟨(hinv.mutex i).2 hi, hinv.idleflag.2 i hi, fun j hj => hinv.mutex.unique hj hi⟩

/-- The one that reads has locked the mutex. -/
theorem chip_exclusive_oneWaits :
    oneWaits.mem.mutex = some false ∧ oneWaits.mem.idleflag = true ∧
      ∀ j, (oneWaits.pc j).holdsMutex = true → j = false := by
  have h : Reach (ChipStep True True True) chipStart oneWaits := reach_oneWaits
  exact chip_exclusive h (i := false) rfl

/-- **No wake-up is lost.** For every interleaving: when the chip is ready and nobody is changing
its state, every thread that sleeps on the queue has been woken. -/
theorem no_lost_wakeup (h : Reach (ChipStep pm pinFail nests) chipStart s) {c : BusyState}
    (hready : s.mem.state = .op .ready) (hspin : s.mem.spin = none) (hi : s.pc i = .sleep c) :
    s.mem.asleep i = false := by
  have hinv := chipInv_of_reach h
  by_contra hsleep
  obtain ⟨j, hj⟩ := hinv.awake hready i (by rw [hi]; rfl) (by simpa using hsleep)
  have hfree := hinv.spin.not_holds hspin j
  generalize s.pc j = p at hj hfree
  cases p with
  | relWake u => cases hfree
  | _ => cases hj

/-- The one that read has made the chip ready, and the other has been woken. -/
theorem no_lost_wakeup_oneWaits :
    ∃ s : Threads Bool ChipPc (ChipMem Bool), s.mem.state = .op .ready ∧
      s.pc true = .sleep readState ∧ s.mem.asleep true = false := by
  have h : Reach (ChipStep True True True) chipStart _ :=
    reach_oneWaits.trans (release_alone (i := false) rfl rfl)
  exact ⟨_, rfl, rfl, no_lost_wakeup h rfl rfl rfl⟩

/-! ## Operations among themselves -/

/-- What holds while nobody suspends or resumes: the chip is in the state the one operation has set
that has entered and not left, and is ready otherwise. -/
structure Owners (s : Threads τ ChipPc (ChipMem τ)) : Prop where
  operates : ∀ i, (s.pc i).operates = true
  state : ∀ i c, (s.pc i).owns = some c → s.mem.state = .op c.1
  unique : ∀ i j, (s.pc i).owns ≠ none → (s.pc j).owns ≠ none → i = j
  owner : s.mem.state ≠ .op .ready → ∃ i, (s.pc i).owns ≠ none

/-- What a step of an operation does to the state of the chip: nothing, or it enters a state from
`CHIP_READY`, or it leaves the state it has entered. -/
inductive OwnMove : LockState → Option BusyState → LockState → Option BusyState → Prop
  | keep (l : LockState) (o : Option BusyState) : OwnMove l o l o
  | enter (c : BusyState) : OwnMove (.op .ready) none (.op c.1) (some c)
  | leave (l : LockState) (c : BusyState) : OwnMove l (some c) (.op .ready) none

lemma ChipMove.owns (h : ChipMove pinFail nests i k m k' m') (hop : k.operates = true) :
    k'.operates = true ∧ OwnMove m.state k.owns m'.state k'.owns := by
  cases h with
  | getReady h =>
    rw [h]
    exact ⟨rfl, .enter _⟩
  | @relState u =>
    cases u with
    | op c => exact ⟨rfl, .leave ..⟩
    | resume => cases hop
  | @takeMutex u | @retakeMutex u | @setIdle u | @pins u | @pinsFail u | @finish u | @relLock u =>
    cases u with
    | op c => exact ⟨rfl, .keep ..⟩
    | resume => cases hop
  | @relWake u | @relUnlock u | @relTest u | @relPins u | @clearIdle u =>
    cases u with
    | op c => exact ⟨rfl, .keep ..⟩
    | resume => cases hop
  | nest | relSkip | dropMutex => exact ⟨rfl, .keep ..⟩
  | getLock | getUnlock | getBusy | addWait | waitUnlock => exact ⟨rfl, .keep ..⟩
  | schedule | leaveWait => exact ⟨rfl, .keep ..⟩
  | susLock | susState | susUnlock => cases hop

/-- A step of an operation keeps the owner of the state. -/
lemma Owners.move (ho : Owners s) (hop : k.operates = true)
    (hm : OwnMove s.mem.state (s.pc i).owns m.state k.owns) : Owners (s.move i k m) := by
  have hpc : ∀ j, (s.move i k m).pc j = if j = i then k else s.pc j := by
    intro j
    by_cases hji : j = i
    · rw [if_pos hji, hji, move_pc_self]
    · rw [if_neg hji, move_pc_of_ne s i k m hji]
  have hops : ∀ j, ((s.move i k m).pc j).operates = true := by
    intro j
    rw [hpc]
    split
    · exact hop
    · exact ho.operates j
  generalize hl : s.mem.state = l, hko : (s.pc i).owns = o, hl' : m.state = l', hko' : k.owns = o'
    at hm
  cases hm with
  | keep =>
    have howns : ∀ j, ((s.move i k m).pc j).owns = (s.pc j).owns := by
      intro j
      rw [hpc]
      split
      · next hji => rw [hji, hko, hko']
      · rfl
    refine ⟨hops, fun j c hj => ?_, fun j j' hj hj' => ?_, fun hne => ?_⟩
    · rw [move_mem, hl', ← hl]
      exact ho.state j c (by rwa [howns] at hj)
    · rw [howns] at hj hj'
      exact ho.unique j j' hj hj'
    · rw [move_mem, hl', ← hl] at hne
      obtain ⟨j, hj⟩ := ho.owner hne
      exact ⟨j, by rwa [howns]⟩
  | enter c =>
    have hnone : ∀ j, (s.pc j).owns = none := by
      intro j
      by_contra hj
      obtain ⟨d, hd⟩ := Option.ne_none_iff_exists'.1 hj
      have := ho.state j d hd
      rw [hl] at this
      exact d.2 (LockState.op.inj this).symm
    have howns : ∀ j, ((s.move i k m).pc j).owns ≠ none → j = i := by
      intro j hj
      by_contra hji
      rw [hpc, if_neg hji] at hj
      exact hj (hnone j)
    refine ⟨hops, fun j d hj => ?_, fun j j' hj hj' => (howns j hj).trans (howns j' hj').symm,
      fun _ => ⟨i, ?_⟩⟩
    · obtain rfl := howns j (by rw [hj]; exact Option.some_ne_none d)
      rw [move_pc_self, hko'] at hj
      rw [move_mem, hl', Option.some.inj hj]
    · rw [move_pc_self, hko']
      exact Option.some_ne_none c
  | leave c =>
    have hnone : ∀ j, ((s.move i k m).pc j).owns = none := by
      intro j
      rw [hpc]
      split
      · exact hko'
      · next hji =>
        by_contra hj
        exact hji (ho.unique j i hj (by rw [hko]; exact Option.some_ne_none _))
    refine ⟨hops, fun j d hj => ?_, fun j j' hj => absurd (hnone j) hj, fun hne => absurd hl' hne⟩
    rw [hnone] at hj
    cases hj

omit [DecidableEq τ] in
lemma owners_start : Owners (chipStart : Threads τ ChipPc (ChipMem τ)) :=
  ⟨fun _ => rfl, fun _ c h => absurd h.symm (Option.some_ne_none c), fun _ _ h => absurd rfl h,
    fun h => absurd rfl h⟩

/-- Without suspend and resume the state has its owner after any interleaving. -/
lemma owners_of_reach (h : Reach (ChipStep False pinFail nests) chipStart s) : Owners s := by
  refine h.invariant (fun s i k m hstep ho => ?_) owners_start
  generalize hp : s.pc i = p, hM : s.mem = n at hstep
  cases hstep with
  | operate c =>
    refine ho.move rfl ?_
    rw [hp, hM]
    exact .keep ..
  | suspend h | resume h => exact h.elim
  | move hmove =>
    subst hp hM
    obtain ⟨hop, hown⟩ := hmove.owns (ho.operates i)
    exact ho.move hop hown

/-- **The state of the chip is that of the operation that holds it.** Without suspend and resume,
for every interleaving of operations: from the moment an operation has taken the chip until it
releases it the chip is in the state the operation has set, so that what it calls finds the chip
busy, and no other operation has taken it; and a chip that is not ready has been taken. -/
theorem state_held (h : Reach (ChipStep False pinFail nests) chipStart s) :
    (∀ i c, (s.pc i).owns = some c → s.mem.state = .op c.1 ∧
      ∀ j, (s.pc j).owns ≠ none → j = i) ∧
    (s.mem.state ≠ .op .ready → ∃ i, (s.pc i).owns ≠ none) := by
  have ho := owners_of_reach h
  refine ⟨fun i c hc => ⟨ho.state i c hc, fun j hj => ?_⟩, ho.owner⟩
  exact ho.unique j i hj (by rw [hc]; exact Option.some_ne_none c)

/-- The chip is in the state the reader has set. -/
theorem state_held_oneWaits :
    oneWaits.mem.state = .op .reading ∧ ∀ j, (oneWaits.pc j).owns ≠ none → j = false := by
  have h : Reach (ChipStep False True True) chipStart oneWaits := reach_oneWaits
  exact (state_held h).1 false readState rfl

/-! ## Progress -/

/-- Places a thread cannot leave by itself. -/
def ChipPc.blocked : ChipPc → Bool
  | .idle | .sleep _ | .takeMutex _ | .retakeMutex _ => true
  | _ => false

/-- With the spin lock free, or in its own hands, a thread can go on unless it is blocked. -/
lemma exists_move (hspin : s.mem.spin = none ∨ (s.pc i).holdsSpin = true)
    (hb : (s.pc i).blocked = false) : ∃ k m, ChipMove pinFail nests i (s.pc i) s.mem k m := by
  generalize s.pc i = p, s.mem = n at hspin hb
  have hlock : p.holdsSpin = false → n.spin = none := fun hp =>
    hspin.resolve_right (by simp [hp])
  cases p with
  | idle | sleep | takeMutex | retakeMutex => cases hb
  | getTest c =>
    by_cases hr : n.state = .op .ready
    · exact ⟨_, _, .getReady hr⟩
    · exact ⟨_, _, .getBusy hr⟩
  | relTest u =>
    cases hf : n.idleflag with
    | true => exact ⟨_, _, .relTest hf⟩
    | false => exact ⟨_, _, .relSkip hf⟩
  | getLock => exact ⟨_, _, .getLock (hlock rfl)⟩
  | relLock => exact ⟨_, _, .relLock (hlock rfl)⟩
  | susLock => exact ⟨_, _, .susLock (hlock rfl)⟩
  | getUnlock => exact ⟨_, _, .getUnlock⟩
  | addWait => exact ⟨_, _, .addWait⟩
  | waitUnlock => exact ⟨_, _, .waitUnlock⟩
  | leaveWait => exact ⟨_, _, .leaveWait⟩
  | setIdle => exact ⟨_, _, .setIdle⟩
  | pins => exact ⟨_, _, .pins⟩
  | inside => exact ⟨_, _, .finish⟩
  | relState => exact ⟨_, _, .relState⟩
  | relWake => exact ⟨_, _, .relWake⟩
  | relUnlock => exact ⟨_, _, .relUnlock⟩
  | relPins => exact ⟨_, _, .relPins⟩
  | clearIdle => exact ⟨_, _, .clearIdle⟩
  | dropMutex => exact ⟨_, _, .dropMutex⟩
  | susState => exact ⟨_, _, .susState⟩
  | susUnlock => exact ⟨_, _, .susUnlock⟩

/-- With the spin lock free and the pins selected, a thread that waits for the mutex can take it, or
the one that holds it can go on. -/
lemma exists_move_of_mutex (hi : ChipInv s) (hpin : ∀ j, (s.pc j).pinned = true)
    (hspin : s.mem.spin = none) {u : Taker} (hk : s.pc i = .takeMutex u) :
    ∃ j k m, ChipMove pinFail nests j (s.pc j) s.mem k m := by
  by_cases hm : s.mem.mutex = none
  · refine ⟨i, ?_⟩
    rw [hk]
    exact ⟨_, _, .takeMutex hm⟩
  obtain ⟨j, hj⟩ := hi.mutex.exists_holds hm
  refine ⟨j, exists_move (.inl hspin) ?_⟩
  have hp := hpin j
  generalize s.pc j = p at hj hp
  cases p with
  | idle | sleep | takeMutex => cases hj
  | retakeMutex => cases hp
  | _ => rfl

/-- As long as some thread is in the driver, some thread can go on. -/
lemma exists_step (hi : ChipInv s) (ho : Owners s) (hpin : ∀ j, (s.pc j).pinned = true)
    (hbusy : s.pc i ≠ .idle) : ∃ j k m, ChipMove pinFail nests j (s.pc j) s.mem k m := by
  by_cases hspin : s.mem.spin = none
  swap
  · obtain ⟨j, hj⟩ := hi.spin.exists_holds hspin
    refine ⟨j, exists_move (.inr hj) ?_⟩
    generalize s.pc j = p at hj
    cases p with
    | idle | sleep | takeMutex | retakeMutex => cases hj
    | _ => rfl
  cases hk : s.pc i with
  | idle => exact absurd hk hbusy
  | takeMutex u => exact exists_move_of_mutex hi hpin hspin hk
  | retakeMutex u =>
    have hp := hpin i
    rw [hk] at hp
    cases hp
  | sleep c =>
    cases hsleep : s.mem.asleep i with
    | false =>
      refine ⟨i, ?_⟩
      rw [hk]
      exact ⟨_, _, .schedule hsleep⟩
    | true =>
      -- a sleeper that was not woken: the chip is not ready, and its owner can go on
      have hstate : s.mem.state ≠ .op .ready := by
        intro hr
        obtain ⟨j, hj⟩ := hi.awake hr i (by rw [hk]; rfl) hsleep
        have hfree := hi.spin.not_holds hspin j
        generalize s.pc j = p at hj hfree
        cases p with
        | relWake u => cases hfree
        | _ => cases hj
      obtain ⟨j, hj⟩ := ho.owner hstate
      cases hkj : s.pc j with
      | takeMutex u => exact exists_move_of_mutex hi hpin hspin hkj
      | retakeMutex u =>
        have hp := hpin j
        rw [hkj] at hp
        cases hp
      | idle | sleep => simp [hkj, ChipPc.owns] at hj
      | _ => exact ⟨j, exists_move (.inl hspin) (by rw [hkj]; rfl)⟩
  | _ => exact ⟨i, exists_move (.inl hspin) (by rw [hk]; rfl)⟩

/-- Steps left to a thread at most, among `n` threads: a release may send every sleeper round the
queue once more, and a sleeper that was woken goes round once more. -/
def ChipPc.weight (n : ℕ) (asleep : Bool) : ChipPc → ℕ
  | .idle => 0
  | .dropMutex _ => 1
  | .clearIdle _ => 2
  | .relPins _ => 3
  | .relTest _ => 4
  | .relUnlock _ => 5
  | .relWake _ => 6 * n + 6
  | .relState _ => 6 * n + 7
  | .relLock _ => 6 * n + 8
  | .inside _ => 6 * n + 9
  | .pins _ => 6 * n + 10
  | .setIdle _ => 6 * n + 11
  | .takeMutex _ | .retakeMutex _ => 6 * n + 12
  | .getUnlock _ => 6 * n + 13
  | .sleep _ => 6 * n + 14 + if asleep then 0 else 6
  | .waitUnlock _ => 6 * n + 15 + if asleep then 0 else 6
  | .addWait _ => 6 * n + 16 + if asleep then 0 else 6
  | .getTest _ => 6 * n + 17
  | .getLock _ => 6 * n + 18
  | .leaveWait _ => 6 * n + 19
  | .susUnlock => 1
  | .susState => 2
  | .susLock => 3

/-- Waking a thread costs six steps at most. -/
lemma weight_le (n : ℕ) (k : ChipPc) (b b' : Bool) : k.weight n b ≤ k.weight n b' + 6 := by
  cases k with
  | sleep | waitUnlock | addWait => cases b <;> cases b' <;> simp [ChipPc.weight]
  | _ => simp [ChipPc.weight]

/-- What a step of a thread costs: the thread gets on, and unless it wakes the sleepers nobody else
is woken. -/
lemma ChipMove.weight_lt (h : ChipMove False False i k m k' m') (n : ℕ) :
    (k'.weight n (m'.asleep i) < k.weight n (m.asleep i) ∧ ∀ j ≠ i, m'.asleep j = m.asleep j) ∨
      k'.weight n (m'.asleep i) + 6 * n < k.weight n (m.asleep i) := by
  cases h with
  | getBusy =>
    refine .inl ⟨by simp [ChipPc.weight], fun j hj => Function.update_of_ne hj ..⟩
  | addWait => exact .inl ⟨by simp [ChipPc.weight], fun _ _ => rfl⟩
  | schedule h => exact .inl ⟨by simp [ChipPc.weight, h], fun _ _ => rfl⟩
  | relWake =>
    right
    simp only [ChipPc.weight]
    omega
  | relUnlock | relTest | relSkip | relPins | clearIdle | dropMutex =>
    exact .inl ⟨by simp [ChipPc.weight], fun _ _ => rfl⟩
  | getLock | getReady | getUnlock | waitUnlock | leaveWait | takeMutex | retakeMutex =>
    exact .inl ⟨by simp [ChipPc.weight], fun _ _ => rfl⟩
  | setIdle | pins | finish | relLock | relState =>
    exact .inl ⟨by simp [ChipPc.weight], fun _ _ => rfl⟩
  | susLock | susState | susUnlock => exact .inl ⟨by simp [ChipPc.weight], fun _ _ => rfl⟩
  | pinsFail h | nest h => exact h.elim

/-- A bound on the steps that can follow without new calls. -/
def chipMeasure [Fintype τ] (s : Threads τ ChipPc (ChipMem τ)) : ℕ :=
  ∑ j, (s.pc j).weight (Fintype.card τ) (s.mem.asleep j)

/-- Every step brings the end nearer. -/
lemma chipMeasure_lt [Fintype τ] (h : ChipMove False False i (s.pc i) s.mem k m) :
    chipMeasure (s.move i k m) < chipMeasure s := by
  rcases h.weight_lt (Fintype.card τ) with ⟨hself, hother⟩ | hself
  · refine sum_lt_of_le_add (i := i) 0 ?_ fun j hj => ?_
    · simpa using hself
    · rw [move_pc_of_ne s i k m hj, move_mem, hother j hj]
      exact le_rfl
  · refine sum_lt_of_le_add (i := i) 6 ?_ fun j hj => ?_
    · simpa using hself
    · rw [move_pc_of_ne s i k m hj]
      exact weight_le ..

/-- Where selecting the pins does not fail and no operation takes the chip again nobody locks the
mutex twice. -/
lemma pinned_of_reach (h : Reach (ChipStep pm False False) chipStart s) : ∀ j, (s.pc j).pinned = true := by
  refine h.invariant (I := fun s => ∀ j, (s.pc j).pinned = true) (fun s i k m hstep hp j => ?_)
    fun _ => rfl
  by_cases hji : j = i
  · subst hji
    rw [move_pc_self]
    generalize s.pc j = p at hstep
    cases hstep with
    | operate | suspend | resume => rfl
    | move hmove =>
      cases hmove with
      | pinsFail h | nest h => exact h.elim
      | _ => rfl
  · rw [move_pc_of_ne s i k m hji]
    exact hp j

/-- **Every call returns.** Without suspend and resume, while the pins can be selected and as long as
no operation calls `nand_get_chip` itself, for any number of threads and after any interleaving:
without new calls the steps come to an end, and where no thread can go on every operation has taken
the chip, been performed and released it. -/
theorem calls_return [Fintype τ] (h : Reach (ChipStep False False False) chipStart s) :
    Acc (fun t u => Threads.Step (ChipMove False False) u t) s ∧
    ∀ t, Reach (ChipMove False False) s t → (∀ u, ¬Threads.Step (ChipMove False False) t u) →
      ∀ i, t.pc i = .idle := by
  refine ⟨?_, fun t ht hstuck i => ?_⟩
  · have hwf : WellFounded fun t u : Threads τ ChipPc (ChipMem τ) => chipMeasure t < chipMeasure u :=
      InvImage.wf chipMeasure Nat.lt_wfRel.wf
    refine Subrelation.accessible (fun hstep => ?_) (hwf.apply s)
    obtain ⟨hmove⟩ := hstep
    exact chipMeasure_lt hmove
  · have hreach : Reach (ChipStep False False False) chipStart t :=
      h.trans (ht.mono fun _ _ _ _ _ hmove => .move hmove)
    by_contra hbusy
    have hstep : ∃ j k m, ChipMove False False j (t.pc j) t.mem k m :=
      exists_step (chipInv_of_reach hreach) (owners_of_reach hreach) (pinned_of_reach hreach) hbusy
    obtain ⟨j, k, m, hmove⟩ := hstep
    exact hstuck _ (.of hmove)

/-- From there the steps come to an end. -/
theorem calls_return_oneWaits :
    Acc (fun t u => Threads.Step (ChipMove False False) u t) oneWaits :=
  (calls_return reach_oneWaits).1

/-! ## The driver with one thread -/

/-- The lock of a driver state, with thread `i` for the only one. -/
def St.chipMem (s : St) (i : τ) : ChipMem τ :=
  ⟨none, .op s.state, if s.mutex then some i else none, s.idleflag, fun _ => false, fun _ => false⟩

/-- `amlnand_get_device` of the driver with one thread is a run of that thread. -/
lemma getDevice_alone (c : BusyState) {a b : St} (h : amlnandGetDevice c.1 a = (some (), b)) (i : τ) :
    Reach (ChipStep pm pinFail nests) ⟨fun _ => .idle, a.chipMem i⟩
      (Threads.move ⟨fun _ => .idle, a.chipMem i⟩ i (.inside (.op c)) (b.chipMem i)) := by
  obtain ⟨hready, hfree, -, rfl⟩ := amlnandGetDevice_returned h
  exact get_alone rfl rfl (by rw [St.chipMem, hready]) (by simp [St.chipMem, hfree]) c

/-- `amlnand_release_device` of the driver with one thread that has taken the chip is a run of that
thread. -/
lemma releaseDevice_alone {u : Taker} {a b : St} (h : amlnandReleaseDevice a = (some (), b))
    (hflag : a.idleflag = true) (hmutex : a.mutex = true) (i : τ) :
    Reach (ChipStep pm pinFail nests)
      (Threads.move ⟨fun _ => .idle, a.chipMem i⟩ i (.inside u) (a.chipMem i))
      ⟨fun _ => .idle, b.chipMem i⟩ := by
  rw [amlnandReleaseDevice_held hmutex hflag] at h
  cases h
  set s : Threads τ ChipPc (ChipMem τ) := ⟨fun _ => .idle, a.chipMem i⟩ with hs
  have h : Reach (ChipStep pm pinFail nests) (s.move i (.inside u) (a.chipMem i)) _ :=
    (release_alone (move_pc_self ..) rfl).again (.move (.relTest hflag))
  have h := h.again (.move .relPins)
  have h := (h.again (.move .clearIdle)).again (.move .dropMutex)
  have hback : ∀ m, s.move i .idle m = ⟨fun _ => .idle, m⟩ := fun m =>
    congrArg (Threads.mk · m) (Function.update_eq_self i s.pc)
  rw [move_move, hback] at h
  exact h

end Inv

end Amlnf
