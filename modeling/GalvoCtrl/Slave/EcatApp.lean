import GalvoCtrl.Slave.Observable
import GalvoCtrl.Slave.WireFrames

/-!
# Slave — EcatApp

The EtherCAT layer around the application (`ecatappl.c`, `ecatslv.c`), as far
as it decides when outputs are taken over: the interrupt hands process data to
`APPL_OutputMapping` only while `bEcatOutputUpdateRunning` is set, between the
transition into OP and the one out of it. The subject is what the driver does
after OP is left.
-/

namespace GalvoCtrl.Slave

open GalvoCtrl.Lib

/-! ## The layer -/

/-- The application with the two flags of the layer. -/
structure SlaveState where
  device : Device
  bEcatOutputUpdateRunning : Bool
  bEcatFirstOutputsReceived : Bool
deriving DecidableEq, Repr

/-- `NOERROR_INWORK` -/
def noerrorInwork : BitVec 16 := 0xFF

/-- `StopOutputHandler` -/
def stopOutputHandler (s : SlaveState) : SlaveState :=
  { s with bEcatFirstOutputsReceived := false, bEcatOutputUpdateRunning := false }

/-- The transition out of OP: `APPL_StopOutputHandler`, then
`StopOutputHandler`. The application cannot refuse it. -/
def leaveOp (s : SlaveState) : SlaveState :=
  stopOutputHandler { s with device := (applStopOutputHandler s.device).2 }

/-- The transition `SAFEOP_2_OP` once `StartOutputHandler` has found no error. -/
def enterOp (s : SlaveState) : SlaveState :=
  let (result, device) := applStartOutputHandler s.device
  let s := { s with device := device }
  if result = 0 then { s with bEcatOutputUpdateRunning := true }
  else if result ≠ noerrorInwork then leaveOp s
  else s

/-- The process output event of `PDI_Isr`: outside OP it is only acknowledged. -/
def processOutputEvent (pdo : RxPdo) (s : SlaveState) : SlaveState × List SlaveOut :=
  let s := { s with bEcatFirstOutputsReceived := true }
  if s.bEcatOutputUpdateRunning then
    let (device, out) := applOutputMapping (pdOutputWords pdo) s.device
    ({ s with device := device }, out)
  else (s, [])

/-- What can happen to the slave. -/
inductive EcatEvent where
  | processOutput (pdo : RxPdo)
  | timerTick
  | application
  | inputMapping
  | startOutput
  | stopOutput

/-- The slave, started outside OP. -/
def slave : Machine SlaveState EcatEvent SlaveOut where
  init := ⟨device.init, false, false⟩
  boot := device.boot
  step s
    | .processOutput pdo => (processOutputEvent pdo s).1
    | .timerTick => { s with device := device.step s.device .timerTick }
    | .application => { s with device := device.step s.device .application }
    | .inputMapping => { s with device := device.step s.device .inputMapping }
    | .startOutput => enterOp s
    | .stopOutput => leaveOp s
  emit s
    | .processOutput pdo => (processOutputEvent pdo s).2
    | .timerTick => device.emit s.device .timerTick
    | .application => device.emit s.device .application
    | .inputMapping => device.emit s.device .inputMapping
    | .startOutput => []
    | .stopOutput => []

/-! ## What gets through to the application -/

/-- The application's share of an event, with the flag `running`. -/
def EcatEvent.deviceEvents (running : Bool) : EcatEvent → List SlaveEvent
  | .processOutput pdo => if running then [.outputMapping pdo] else []
  | .timerTick => [.timerTick]
  | .application => [.application]
  | .inputMapping => [.inputMapping]
  | .startOutput => []
  | .stopOutput => []

/-- Process data do not move the flag that guards them. -/
@[simp] theorem processOutputEvent_running (pdo : RxPdo) (s : SlaveState) :
    (processOutputEvent pdo s).1.bEcatOutputUpdateRunning = s.bEcatOutputUpdateRunning := by
  unfold processOutputEvent
  dsimp only
  split <;> rfl

/-- **The layer only filters**: the application sees the process data that
arrive in OP and everything else unchanged. -/
theorem slave_feeds_device :
    slave.Feeds device SlaveState.device (fun s e => e.deviceEvents s.bEcatOutputUpdateRunning)
      some where
  init := rfl
  boot := List.filterMap_some
  step s e := by
    cases e with
    | processOutput pdo =>
        -- the one event the layer holds back
        show (processOutputEvent pdo s).1.device = _
        unfold processOutputEvent EcatEvent.deviceEvents
        dsimp only
        cases s.bEcatOutputUpdateRunning <;> rfl
    | timerTick => rfl
    | application => rfl
    | inputMapping => rfl
    | startOutput => rfl
    | stopOutput => rfl
  emit s e := by
    rw [List.filterMap_some]
    cases e with
    | processOutput pdo =>
        show (processOutputEvent pdo s).2 = _
        unfold processOutputEvent EcatEvent.deviceEvents
        dsimp only
        cases s.bEcatOutputUpdateRunning with
        | true => exact (List.append_nil _).symm
        | false => rfl
    | timerTick => exact (List.append_nil _).symm
    | application => exact (List.append_nil _).symm
    | inputMapping => exact (List.append_nil _).symm
    | startOutput => rfl
    | stopOutput => rfl

/-! ## Delivered process data -/

/-- The commands of the process data that arrive in OP, along a list of events
that starts in OP or not. -/
def deliveredFrom (inOp : Bool) : List EcatEvent → List Command
  | [] => []
  | .processOutput pdo :: evs =>
      if inOp then RxPdo.command pdo :: deliveredFrom inOp evs else deliveredFrom inOp evs
  | .startOutput :: evs => deliveredFrom true evs
  | .stopOutput :: evs => deliveredFrom false evs
  | .timerTick :: evs => deliveredFrom inOp evs
  | .application :: evs => deliveredFrom inOp evs
  | .inputMapping :: evs => deliveredFrom inOp evs

/-- The latest delivered command of a run, `Command.zero` if there was none. -/
def latestDelivered (evs : List EcatEvent) : Command :=
  (deliveredFrom false evs).getLastD Command.zero

/-- Bit 0 of the control flags. -/
def Command.enables (c : Command) : Bool := c.controlFlags.getLsbD 0

/-- What a stop leaves behind does not depend on what came before it. -/
theorem deliveredFrom_stop (inOp : Bool) (before mid : List EcatEvent) :
    deliveredFrom inOp (before ++ .stopOutput :: mid)
      = deliveredFrom inOp before ++ deliveredFrom false mid := by
  induction before generalizing inOp with
  | nil => rfl
  | cons e before ih =>
      cases e with
      | processOutput pdo => cases inOp <;> simp [deliveredFrom, ih]
      | startOutput => exact ih true
      | stopOutput => exact ih false
      | timerTick => exact ih inOp
      | application => exact ih inOp
      | inputMapping => exact ih inOp

/-- The delivered commands are those the application gets. -/
theorem fedFrom_delivered (s : SlaveState) (evs : List EcatEvent) :
    (slave.fedFrom (fun s e => e.deviceEvents s.bEcatOutputUpdateRunning) s evs).filterMap
        SlaveEvent.command?
      = deliveredFrom s.bEcatOutputUpdateRunning evs := by
  induction evs generalizing s with
  | nil => rfl
  | cons e evs ih =>
      rw [Machine.fedFrom, List.filterMap_append, ih]
      cases e with
      | processOutput pdo =>
          show _ ++ deliveredFrom (processOutputEvent pdo s).1.bEcatOutputUpdateRunning evs = _
          rw [processOutputEvent_running]
          cases s.bEcatOutputUpdateRunning <;> rfl
      | startOutput => rfl
      | stopOutput => rfl
      | timerTick => rfl
      | application => rfl
      | inputMapping => rfl

/-- The driver stores the latest delivered command. -/
theorem slave_stores (evs : List EcatEvent) :
    (slave.run evs).device.galvo.Stores (latestDelivered evs) := by
  rw [slave_feeds_device.run]
  have hstores := (device_refines_spec (slave.fed (fun s e =>
    e.deviceEvents s.bEcatOutputUpdateRunning) evs)).stores
  rw [(spec_recounts _).latest, latestRx, Machine.fed, fedFrom_delivered] at hstores
  exact hstores

/-! ## Ticks after a stop -/

/-- A tick coming after `evs` sends no frame and does not report `ENABLED`. -/
def QuietTick (evs : List EcatEvent) : Prop :=
  gpioSet .sync ∉ (slave.emit (slave.run evs) .timerTick).filterMap SlaveOut.pin?
    ∧ (slave.run (evs ++ [.timerTick])).device.galvo.status &&& galvoStatusEnabled = 0

/-- After every stop, ticks are quiet until process data with the enable flag
are delivered again. -/
def SafeAfterStop (evs : List EcatEvent) : Prop :=
  ∀ before mid after, evs = before ++ .stopOutput :: (mid ++ .timerTick :: after) →
    (∀ c ∈ deliveredFrom false mid, c.enables = false) →
    QuietTick (before ++ .stopOutput :: mid)

/-- No tick lies between a stop that finds the latest delivered command enabling
and the next delivered command. -/
def NoTickAfterEnabledStop (evs : List EcatEvent) : Prop :=
  ∀ before mid after, evs = before ++ .stopOutput :: (mid ++ .timerTick :: after) →
    deliveredFrom false mid = [] → (latestDelivered before).enables = false

/-- The pins of a driver tick rise on sync exactly when it is enabled. -/
private theorem sync_rises_iff (s : GalvoState) :
    gpioSet .sync ∈ (galvoXY2TimerTick s).2 ↔ s.enabled = true := by
  rw [galvoXY2TimerTick_snd]
  by_cases hen : s.enabled = true
  · rw [if_pos hen]
    exact ⟨fun _ => hen, fun _ => List.mem_cons_self⟩
  · rw [if_neg hen]
    exact ⟨fun h => absurd h (by decide), fun h => absurd h hen⟩

/-- The status a driver tick leaves has `ENABLED` exactly when it is enabled. -/
private theorem status_enabled_iff (s : GalvoState) :
    (galvoXY2TimerTick s).1.status &&& galvoStatusEnabled = 0 ↔ s.enabled = false := by
  rw [galvoXY2TimerTick_fst]
  show ((if s.enabled then galvoStatusEnabled else 0)
    ||| (if s.framesSinceUpdate < xy2StaleFrames then 0 else galvoStatusStale))
      &&& galvoStatusEnabled = 0 ↔ _
  cases s.enabled <;> by_cases hf : s.framesSinceUpdate < xy2StaleFrames <;>
    simp only [hf, if_true, if_false] <;> decide

/-- **A tick is quiet exactly when the latest delivered command does not
enable**, in OP or not. -/
theorem quietTick_iff (evs : List EcatEvent) :
    QuietTick evs ↔ (latestDelivered evs).enables = false := by
  have hen : (slave.run evs).device.galvo.enabled = (latestDelivered evs).enables := by
    rw [GalvoState.enabled_eq, (slave_stores evs).controlFlags]
    rfl
  have hpins : (slave.emit (slave.run evs) .timerTick).filterMap SlaveOut.pin?
      = (galvoXY2TimerTick (slave.run evs).device.galvo).2 :=
    (device_feeds_galvo.emit (slave.run evs).device .timerTick).trans (List.append_nil _)
  have hstatus : (slave.run (evs ++ [.timerTick])).device.galvo
      = (galvoXY2TimerTick (slave.run evs).device.galvo).1 := by
    rw [Machine.run_snoc]
    rfl
  rw [QuietTick, hpins, hstatus, sync_rises_iff, status_enabled_iff, hen, Bool.not_eq_true,
    and_self]

theorem latestDelivered_stop (before mid : List EcatEvent) :
    latestDelivered (before ++ .stopOutput :: mid)
      = (deliveredFrom false mid).getLastD (latestDelivered before) := by
  rw [latestDelivered, deliveredFrom_stop, latestDelivered]
  cases deliveredFrom false mid using List.reverseRecOn with
  | nil => simp
  | append_singleton cs c => simp [← List.append_assoc]

/-- **When the outputs are safe after OP**: in a run all ticks after stops are
quiet, until a later enabling command, exactly when no tick falls between a stop
that finds the latest command enabling and the next delivered command. The stop
itself resets nothing. -/
theorem safeAfterStop_iff (evs : List EcatEvent) :
    SafeAfterStop evs ↔ NoTickAfterEnabledStop evs := by
  constructor
  · intro hsafe before mid after heq hnone
    have hquiet := hsafe before mid after heq (by simp [hnone])
    rw [quietTick_iff, latestDelivered_stop, hnone] at hquiet
    exact hquiet
  · intro hclean before mid after heq hdis
    rw [quietTick_iff, latestDelivered_stop]
    -- with nothing delivered since, the command before the stop still rules
    cases hmid : deliveredFrom false mid using List.reverseRecOn with
    | nil => exact hclean before mid after heq hmid
    | append_singleton cs c =>
        rw [List.getLastD_concat]
        exact hdis c (by simp [hmid])

/-- Process data with the enable flag and everything else zero. -/
def enablingPdo : RxPdo := fun i => if i.val = 6 then 1 else 0

/-- OP entered, one enabling command, OP left: the next tick sends a frame. -/
theorem not_safeAfterStop :
    ¬ SafeAfterStop [.startOutput, .processOutput enablingPdo, .stopOutput, .timerTick] := by
  intro h
  have hquiet := h [.startOutput, .processOutput enablingPdo] [] [] rfl (by simp [deliveredFrom])
  exact absurd hquiet.2 (by decide)

end GalvoCtrl.Slave
