import Amlnf.Lib.Poll
import Amlnf.Phy.HwController

set_option relaxedAutoImplicit false
set_option autoImplicit false

/-!
# Waiting for the hardware

The poll loops of the driver: `controller_quene_rb` waits for a chip, `check_cmdfifo_size` and the
transfers wait for the command FIFO to drain. Each takes readings of a register until one shows
completion or the time is up, and then looks at its counter.

## Main definitions

* `Wait.controllerQueneRb`, `Wait.checkCmdfifoSize`, `Wait.dmaReadWait`, `Wait.dmaWriteWait` — the
  value returned and the number of readings taken.
* `Wait.Loop` — any of these loops, with what it depends on.

## Main results

* `Wait.reports_iff` — when a loop reports what it saw.

## Design

A reading is a status byte or the info register of the controller. The operations on pages take
what these loops report as an input, so that nothing there depends on how a wait is made.
-/

namespace Amlnf.Wait

/-! ## Readings -/

/-- `NAND_STATUS_READY`. -/
def nandStatusReady : UInt32 := 0x40

/-- `NFC_CMDFIFO_SIZE`, from a reading of the info register. -/
def nfcCmdfifoSize (info : UInt32) : UInt32 := (info >>> 22) &&& 0x1f

/-- `NFC_GET_RB_STATUS`. -/
def nfcGetRbStatus (ce info : UInt32) : UInt32 := ((info >>> 28) &&& ~~~(ce >>> 10)) &&& 0xf

/-- The test of the loops that wait for the command FIFO. -/
def drained (info : UInt32) : Bool := nfcCmdfifoSize info ≤ 0

/-- The test of `controller_quene_rb`: without a ready/busy pin (`NAND_CTRL_NONE_RB`) the status
byte is looked at, else the pin `rb_received`. -/
def ready : Option UInt32 → UInt32 → Bool
  | none, status => status &&& nandStatusReady != 0
  | some rbReceived, info => nfcGetRbStatus rbReceived info != 0

/-! ## The loops -/

/-- `aml_chip->state`, as far as `controller_quene_rb` looks at it. -/
inductive QueneState
  | reseting
  | writing
  | other
  deriving DecidableEq, Repr

/-- `time_out_limit` of `controller_quene_rb`. -/
def QueneState.timeOutLimit : QueneState → ℕ
  | .reseting => 0xa000
  | .writing => 0x5000
  | .other => 0x2000

/-- `AML_DMA_BUSY_TIMEOUT`. -/
def amlDmaBusyTimeout : ℕ := 0x100000

/-- Poll, and return zero or a code; `retries` is how often the loop is entered again. -/
def poll (done : UInt32 → Bool) (limit retries : ℕ) (code : ℤ) (reading : ℕ → UInt32) : ℤ × ℕ :=
  let r := Poll.retry (fun i => done (reading i)) limit retries 0 0
  (if r.1 then 0 else -code, r.2)

/-- `controller_quene_rb`. -/
def controllerQueneRb (state : QueneState) (rb : Option UInt32) : (ℕ → UInt32) → ℤ × ℕ :=
  poll (ready rb) state.timeOutLimit 0 Bus.nandBusyFailure

/-- `check_cmdfifo_size`: the test `retry_cnt++ > 3` lets four retries pass. -/
def checkCmdfifoSize : (ℕ → UInt32) → ℤ × ℕ := poll drained amlDmaBusyTimeout 4 nandFailed

/-- The wait of `controller_dma_read`. -/
def dmaReadWait : (ℕ → UInt32) → ℤ × ℕ := poll drained amlDmaBusyTimeout 0 Bus.nandDmaFailure

/-- The wait of `controller_dma_write`. -/
def dmaWriteWait : (ℕ → UInt32) → ℤ × ℕ := poll drained amlDmaBusyTimeout 0 Bus.nandDmaFailure

/-- A poll loop of the driver. -/
inductive Loop
  | queneRb (state : QueneState) (rb : Option UInt32)
  | cmdfifoSize
  | dmaRead
  | dmaWrite
  deriving DecidableEq

namespace Loop

/-- The test a reading is put to. -/
def done : Loop → UInt32 → Bool
  | queneRb _ rb => ready rb
  | cmdfifoSize => drained
  | dmaRead => drained
  | dmaWrite => drained

/-- The limit the counter is compared with. -/
def limit : Loop → ℕ
  | queneRb state _ => state.timeOutLimit
  | cmdfifoSize => amlDmaBusyTimeout
  | dmaRead => amlDmaBusyTimeout
  | dmaWrite => amlDmaBusyTimeout

/-- How often the loop is entered again. -/
def retries : Loop → ℕ
  | cmdfifoSize => 4
  | _ => 0

/-- What the loop returns, and how many readings it took. -/
def run : Loop → (ℕ → UInt32) → ℤ × ℕ
  | queneRb state rb => controllerQueneRb state rb
  | cmdfifoSize => checkCmdfifoSize
  | dmaRead => dmaReadWait
  | dmaWrite => dmaWriteWait

/-- Success is reported exactly when one of the readings taken showed completion. -/
def Reports (w : Loop) (reading : ℕ → UInt32) : Prop :=
  (w.run reading).1 = 0 ↔ ∃ i < (w.run reading).2, w.done (reading i) = true

end Loop

/-! ## Reports -/

/-- A loop with a code that is not zero reports what its counter says. -/
lemma poll_reports_iff (done : UInt32 → Bool) (limit retries : ℕ) {code : ℤ} (hcode : code ≠ 0)
    (reading : ℕ → UInt32) :
    ((poll done limit retries code reading).1 = 0 ↔
        ∃ i < (poll done limit retries code reading).2, done (reading i) = true) ↔
      (∃ i < limit, done (reading i) = true) ∨
        ∀ i < limit + 2 + retries, done (reading i) = false := by
  rw [← Poll.honest_retry_iff, Poll.Honest]
  have hret : (poll done limit retries code reading).1 = 0 ↔
      (Poll.retry (fun i => done (reading i)) limit retries 0 0).1 = true := by
    unfold poll
    dsimp only
    split
    · next h => exact iff_of_true rfl h
    · next h => exact iff_of_false (by simpa using hcode) h
  rw [hret]
  rfl

/-- **When does a poll loop report what it saw?** When one of the first `limit` readings shows
completion, or when none of all readings up to the last retry does. -/
theorem reports_iff (w : Loop) (reading : ℕ → UInt32) :
    w.Reports reading ↔ (∃ i < w.limit, w.done (reading i) = true) ∨
      ∀ i < w.limit + 2 + w.retries, w.done (reading i) = false := by
  cases w with
  | queneRb state rb => exact poll_reports_iff (ready rb) state.timeOutLimit 0 (by decide) reading
  | cmdfifoSize => exact poll_reports_iff drained amlDmaBusyTimeout 4 (by decide) reading
  | dmaRead => exact poll_reports_iff drained amlDmaBusyTimeout 0 (by decide) reading
  | dmaWrite => exact poll_reports_iff drained amlDmaBusyTimeout 0 (by decide) reading

/-- The command FIFO is seen to be empty at the reading after the first `AML_DMA_BUSY_TIMEOUT`
and at every later one: the loop sees it, all retries see it, and a failure is reported. -/
theorem not_reports_lateDrain :
    ¬Loop.cmdfifoSize.Reports fun i => if i < amlDmaBusyTimeout then 0x400000 else 0 := by
  intro h
  rcases (poll_reports_iff drained amlDmaBusyTimeout 4 (by decide) _).mp h with
    ⟨i, hi, hdone⟩ | hnone
  · rw [if_pos hi] at hdone
    exact absurd hdone (by decide)
  · have hlast := hnone amlDmaBusyTimeout (by decide)
    rw [if_neg (Nat.lt_irrefl _)] at hlast
    exact absurd hlast (by decide)

end Amlnf.Wait
