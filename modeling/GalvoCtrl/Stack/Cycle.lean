import GalvoCtrl.Coe.Defaults
import GalvoCtrl.Stack.AlState

/-!
# Stack — Cycle

The slave stack from cycle to cycle (`ecat_slv.c`): the state machine and the mailboxes
are polled, then the process data are exchanged under a watchdog. The application passes
the outputs on and samples its inputs; the inputs it samples come in with the cycle.
-/

namespace GalvoCtrl.Stack

open GalvoCtrl.Lib GalvoCtrl.Coe

variable {V : Type}

/-- What one cycle is shown: the registers at `ESC_state` and at `ESC_sm_act_event`, the
mailboxes, the events at `DIG_process`, the output sync manager, and the application's
inputs. -/
structure CycleInput (V : Type) where
  state : Registers
  smAct : Registers
  mailbox : Mailbox.Input
  alevent : BitVec 32
  sm2Data : Nat → BitVec 8
  getInputs : Memory V → Memory V

/-- `config.watchdog_cnt` of `app_init`. -/
def appWatchdogCnt : Int := 1000

namespace EscVar

/-- The CoE server of the stack. -/
def server (s : EscVar V) : Server V := ⟨s.box, s.mem⟩

def withServer (s : EscVar V) (server : Server V) : EscVar V :=
  { s with box := server.box, mem := server.mem }

section Process

variable [DecidableEq V] (i : CycleInput V)

/-- `ESC_read` of the output sync manager into `rxpdo`. -/
def readRxpdo (s : EscVar V) : Except AccessFault (EscVar V) := do
  let rxpdo ← copyInto s.rxpdo 0 ((List.range s.sm2Sml.toNat).map i.sm2Data)
  return { s with rxpdo }

/-- `RXPDO_update` -/
def rxpdoUpdate (s : EscVar V) : Except AccessFault (EscVar V) := do
  let s ← s.readRxpdo i
  let mem ← coePdoUnpack s.rxpdo s.mem (s.sm2Mappings.getD [])
  return { s with mem }

/-- `TXPDO_update` -/
def txpdoUpdate (s : EscVar V) : Except AccessFault (EscVar V) := do
  let txpdo ← coePdoPack s.mem s.txpdo (s.sm3Mappings.getD [])
  let bytes ← copyFrom txpdo 0 s.sm3Sml.toNat
  return ({ s with txpdo } : EscVar V).emit (.writeInputs bytes)

/-- Handle watchdog -/
def digWatchdog (s : EscVar V) : EscVar V :=
  let s := if 0 < s.watchdog then { s with watchdog := s.watchdog - 1 } else s
  if s.watchdog ≤ 0 ∧ s.app.output = true ∧ 0 < s.sm2Sml.toNat then
    s.escAlStatusgotoerror (escSafeop ||| escError) alerrWatchdog
  else if s.app.output = false then { s with watchdog := s.watchdogcnt }
  else s

/-- Handle outputs -/
def digOutputs (s : EscVar V) : Except AccessFault (EscVar V) :=
  if i.alevent &&& escregAleventSm2 = 0 then .ok s
  else if s.app.output then do
    let s ← s.rxpdoUpdate i
    return ({ s with watchdog := s.watchdogcnt } : EscVar V).emit (.setOutputs s.mem)
  else s.readRxpdo i

/-- Handle inputs -/
def digInputs (s : EscVar V) : Except AccessFault (EscVar V) :=
  if s.app ≠ appstateIdle then
    ({ s with mem := i.getInputs s.mem } : EscVar V).emit .getInputs |>.txpdoUpdate
  else .ok s

/-- `DIG_process`, with all its flags. -/
def digProcess (s : EscVar V) : Except AccessFault (EscVar V) := do
  let s ← s.digWatchdog.digOutputs i
  s.digInputs i

variable (table : List (ObjectItem V))

/-- `ecat_slv_poll` -/
def ecatSlvPoll (s : EscVar V) : Except AccessFault (EscVar V) := do
  let s ← s.escState table i.state
  let s := s.smActEvent i.smAct
  let server ← s.server.pollMailbox table s.alStatus i.mailbox
  return s.withServer server

/-- `ecat_slv` -/
def ecatSlv (s : EscVar V) : Except AccessFault (EscVar V) := do
  let s ← s.ecatSlvPoll i table
  s.digProcess i

/-- `ecat_slv_init`, once the ESC has started. -/
def ecatSlvInit (s : EscVar V) (watchdogCnt : Int) : Except AccessFault (EscVar V) := do
  let s := { s with watchdog := watchdogCnt, watchdogcnt := watchdogCnt }
  let s := (s.escAlStatus escInit).escAlError alerrNone
  let s := s.stopmbx.stopinput.stopoutput
  let mem ← coeInitDefaultValues table s.mem
  return { s with mem }

end Process

end EscVar

/-! ## Runs -/

section Runs

variable [DecidableEq V] (table : List (ObjectItem V))

/-- The cycles of a run, from a state on. -/
def runFrom (s : EscVar V) (is : List (CycleInput V)) : Except AccessFault (EscVar V) :=
  is.foldlM (fun s i => s.ecatSlv i table) s

/-- The variables before `app_init`, at their static values. -/
def staticEscVar (mem : Memory V) : EscVar V where
  alStatus := 0
  alControl := 0
  alError := 0
  app := appstateIdle
  smTestResult := 0
  sm2Sml := 0
  sm3Sml := 0
  sm2Mappings := some []
  sm3Mappings := some []
  watchdog := 0
  watchdogcnt := 0
  box := staticMailbox
  mem := mem
  rxpdo := List.replicate maxRxpdoSize 0
  txpdo := List.replicate maxTxpdoSize 0
  log := []

/-- The states that a controller can come to from `app_init` on. -/
inductive Reachable (mem : Memory V) : EscVar V → Prop where
  | init {s : EscVar V} : (staticEscVar mem).ecatSlvInit table appWatchdogCnt = .ok s →
      Reachable mem s
  | cycle {s s' : EscVar V} (i : CycleInput V) : Reachable mem s → s.ecatSlv i table = .ok s' →
      Reachable mem s'

end Runs

/-! ## The controller -/

/-- A sync manager as the master configures it. -/
def configuredSm (psa length : BitVec 16) (command : BitVec 8) : EscSm :=
  ⟨psa, length, command, 0, 1⟩

/-- The registers of a controller with all its sync managers configured. -/
def configured (alevent : BitVec 32) (alcontrol : BitVec 16) : Registers where
  alevent := alevent
  alcontrol := alcontrol
  alerror := 0
  stationAlias := 0
  sm0 := configuredSm 0x1000 128 mbx0Smc
  sm1 := configuredSm 0x1080 128 mbx1Smc
  sm2 := configuredSm 0x1100 24 sm2Smc
  sm3 := configuredSm 0x1180 38 sm3Smc

/-- A cycle in which a state is asked for, and nothing else happens. -/
def stateCycle (alcontrol : BitVec 16) : CycleInput V where
  state := configured escregAleventControl alcontrol
  smAct := configured 0 0
  mailbox := ⟨0, false, false, 0, false, zeroBuf⟩
  alevent := 0
  sm2Data := fun _ => 0
  getInputs := fun mem => mem

/-- A cycle with a message of the master, and nothing else. -/
def messageCycle (sm0 : MbxBuf) : CycleInput V :=
  { stateCycle 0 with state := configured 0 0, mailbox := messageInput sm0 }

/-- A cycle in which the master reads the response that was posted. -/
def readCycle : CycleInput V :=
  { stateCycle 0 with
    state := configured 0 0
    mailbox := ⟨escregAleventSm1, false, false, escregAleventSm1, false, zeroBuf⟩ }

/-- A cycle with output data of the master, in which the application samples another status. -/
def exchangeCycle : CycleInput GalvoVar :=
  { (stateCycle 0 : CycleInput GalvoVar) with
    state := configured 0 0
    alevent := escregAleventSm2
    sm2Data := fun k => BitVec.ofNat 8 (k + 1)
    getInputs := fun mem =>
      Function.update mem (.tx .status) ((mem (.tx .status)).map fun _ => 0x5A) }

/-- A request to upload an entry. -/
def uploadRequest (index : BitVec 16) (subindex : BitVec 8) : MbxBuf :=
  initCoesdo zeroBuf coeSdorequest coeCommandUploadrequest index subindex

/-- A request to download `value` to an entry of four bytes. -/
def downloadRequest (index : BitVec 16) (subindex : BitVec 8) (value : BitVec 32) : MbxBuf :=
  (initCoesdo zeroBuf coeSdorequest
    (coeCommandDownloadrequest ||| coeExpeditedIndicator ||| coeSizeIndicator) index subindex).put 6
    (toBytes 4 value)

/-- The controller once it has been asked for states, one a cycle. -/
def controllerAt (states : List (BitVec 16)) : Except AccessFault (EscVar GalvoVar) := do
  let s ← (staticEscVar OdVariables.initial.memory).ecatSlvInit galvoObjects appWatchdogCnt
  runFrom galvoObjects s (states.map stateCycle)

example : (controllerAt [2, 4, 8]).toOption.map (fun s => (s.alStatus, s.sm2Sml, s.sm3Sml))
    = some (escOp, 24, 38) := rfl

theorem runFrom_cons [DecidableEq V] (table : List (ObjectItem V)) (s : EscVar V)
    (i : CycleInput V) (is : List (CycleInput V)) :
    runFrom table s (i :: is) = s.ecatSlv i table >>= fun s' => runFrom table s' is := rfl

theorem Reachable.runFrom [DecidableEq V] {table : List (ObjectItem V)} {mem : Memory V}
    {s s' : EscVar V} {is : List (CycleInput V)} (h : Reachable table mem s)
    (hrun : Stack.runFrom table s is = .ok s') : Reachable table mem s' := by
  induction is generalizing s with
  | nil =>
      cases hrun
      exact h
  | cons i is ih =>
      obtain ⟨s₁, hcycle, hrest⟩ := bind_eq_ok hrun
      exact ih (.cycle i h hcycle) hrest

theorem reachable_controllerAt (states : List (BitVec 16)) {s : EscVar GalvoVar}
    (h : controllerAt states = .ok s) :
    Reachable galvoObjects OdVariables.initial.memory s := by
  obtain ⟨s₀, hinit, hrun⟩ := bind_eq_ok h
  exact Reachable.runFrom (.init hinit) hrun

end GalvoCtrl.Stack
