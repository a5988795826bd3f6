import GalvoCtrl.Coe.CoeProcess

/-!
# Stack — AlState

The state machine of the slave stack (`esc.c`), as it is configured by `app_init`: it is
polled, and of the hooks only the one for the safe outputs is set. Registers of the ESC
come in where they are read; what is written to it and what the application is called for
is kept, the latest event first.
-/

namespace GalvoCtrl.Stack

open GalvoCtrl.Lib GalvoCtrl.Coe

variable {V : Type}

/-! ## Constants -/

def initToInit : BitVec 8 := 0x11
def initToPreop : BitVec 8 := 0x21
def initToBoot : BitVec 8 := 0x31
def initToSafeop : BitVec 8 := 0x41
def initToOp : BitVec 8 := 0x81
def preopToInit : BitVec 8 := 0x12
def preopToPreop : BitVec 8 := 0x22
def preopToBoot : BitVec 8 := 0x32
def preopToSafeop : BitVec 8 := 0x42
def preopToOp : BitVec 8 := 0x82
def bootToInit : BitVec 8 := 0x13
def bootToPreop : BitVec 8 := 0x23
def bootToBoot : BitVec 8 := 0x33
def bootToSafeop : BitVec 8 := 0x43
def bootToOp : BitVec 8 := 0x83
def safeopToInit : BitVec 8 := 0x14
def safeopToPreop : BitVec 8 := 0x24
def safeopToBoot : BitVec 8 := 0x34
def safeopToSafeop : BitVec 8 := 0x44
def safeopToOp : BitVec 8 := 0x84
def opToInit : BitVec 8 := 0x18
def opToPreop : BitVec 8 := 0x28
def opToBoot : BitVec 8 := 0x38
def opToSafeop : BitVec 8 := 0x48
def opToOp : BitVec 8 := 0x88

def escregAlStatemask : BitVec 8 := 0x1F
def escregAlAllbutinitmask : BitVec 8 := 0x0E
def escregAlErrackmask : BitVec 8 := 0x0F
def escregAlIdRequest : BitVec 8 := 0x20

def alerrNone : BitVec 16 := 0x0000
def alerrInvalidstatechange : BitVec 16 := 0x0011
def alerrUnknownstate : BitVec 16 := 0x0012
def alerrInvalidbootmbxconfig : BitVec 16 := 0x0015
def alerrInvalidmbxconfig : BitVec 16 := 0x0016
def alerrWatchdog : BitVec 16 := 0x001B
def alerrInvalidoutputsm : BitVec 16 := 0x001D
def alerrInvalidinputsm : BitVec 16 := 0x001E

def smresultErrsm0 : BitVec 8 := 0x01
def smresultErrsm1 : BitVec 8 := 0x02
def smresultErrsm2 : BitVec 8 := 0x04
def smresultErrsm3 : BitVec 8 := 0x08

/-- The settings of the mailboxes; those of `BOOT` are the same. -/
def mbx0Sma : Nat := 0x1000
def mbx0Smc : BitVec 8 := 0x26
def mbx1Sma : Nat := mbx0Sma + mbxsize
def mbx1Smc : BitVec 8 := 0x22

def sm2Sma : Nat := 0x1100
def sm2Smc : BitVec 8 := 0x24
def sm3Sma : Nat := 0x1180
def sm3Smc : BitVec 8 := 0x20

/-! ## Variables -/

/-- `App.state`, a bit for the inputs and one for the outputs. -/
structure AppState where
  input : Bool
  output : Bool
deriving DecidableEq, Repr

def appstateIdle : AppState := ⟨false, false⟩
def appstateInput : AppState := ⟨true, false⟩

/-- What the stack does to the ESC and to the application. -/
inductive EscEvent (V : Type) where
  | alError (errornumber : BitVec 16)
  | alStatus (status : BitVec 8)
  | smEnable (n : Nat)
  | smDisable (n : Nat)
  | safeOutput
  | setOutputs (mem : Memory V)
  | getInputs
  | writeInputs (txpdo : List (BitVec 8))

/-- `ESCvar`, the mappings, the process data and the variables of the dictionary. -/
structure EscVar (V : Type) where
  alStatus : BitVec 8
  alControl : BitVec 16
  alError : BitVec 16
  app : AppState
  smTestResult : BitVec 8
  sm2Sml : BitVec 16
  sm3Sml : BitVec 16
  sm2Mappings : Option (List (SmMap V))
  sm3Mappings : Option (List (SmMap V))
  watchdog : Int
  watchdogcnt : Int
  box : Mailbox V
  mem : Memory V
  rxpdo : List (BitVec 8)
  txpdo : List (BitVec 8)
  log : List (EscEvent V)

/-- `_ESCsm2`, the registers of a sync manager. -/
structure EscSm where
  psa : BitVec 16
  length : BitVec 16
  command : BitVec 8
  status : BitVec 8
  actEsc : BitVec 8
deriving DecidableEq, Repr

def EscSm.mbxStat (sm : EscSm) : Bool := sm.status.getLsbD 3
def EscSm.ecSm (sm : EscSm) : Bool := sm.actEsc.getLsbD 0
def EscSm.ecRep (sm : EscSm) : Bool := sm.actEsc.getLsbD 1

/-- What the ESC shows to one call: the events, and the registers that may be read. -/
structure Registers where
  alevent : BitVec 32
  alcontrol : BitVec 16
  alerror : BitVec 16
  stationAlias : BitVec 16
  sm0 : EscSm
  sm1 : EscSm
  sm2 : EscSm
  sm3 : EscSm

namespace EscVar

def emit (s : EscVar V) (e : EscEvent V) : EscVar V := { s with log := e :: s.log }

/-- `ESC_ALerror` -/
def escAlError (s : EscVar V) (errornumber : BitVec 16) : EscVar V :=
  ({ s with alError := errornumber } : EscVar V).emit (.alError errornumber)

/-- `ESC_ALstatus` -/
def escAlStatus (s : EscVar V) (status : BitVec 8) : EscVar V :=
  ({ s with alStatus := status } : EscVar V).emit (.alStatus status)

/-- `ESC_SMenable` -/
def smEnable (s : EscVar V) (n : Nat) : EscVar V := s.emit (.smEnable n)

/-- `ESC_SMdisable` -/
def smDisable (s : EscVar V) (n : Nat) : EscVar V := s.emit (.smDisable n)

/-! ## Mailboxes -/

/-- `ESC_checkmbx` -/
def checkmbx (s : EscVar V) (r : Registers) (state : BitVec 8) : BitVec 8 × EscVar V :=
  let s : EscVar V :=
    { s with box := { s.box with
        sm0Full := r.sm0.mbxStat, sm1Full := r.sm1.mbxStat, sm1Rep := r.sm1.ecRep } }
  if r.sm0.psa.toNat ≠ mbx0Sma ∨ r.sm0.length.toNat ≠ mbxsize ∨ r.sm0.command ≠ mbx0Smc
      ∨ r.sm0.ecSm = false then
    (escInit ||| escError,
      (({ s with smTestResult := smresultErrsm0 } : EscVar V).smDisable 0).smDisable 1)
  else if r.sm1.psa.toNat ≠ mbx1Sma ∨ r.sm1.length.toNat ≠ mbxsize ∨ r.sm1.command ≠ mbx1Smc
      ∨ r.sm1.ecSm = false then
    (escInit ||| escError,
      (({ s with smTestResult := smresultErrsm1 } : EscVar V).smDisable 0).smDisable 1)
  else (state, s)

/-- `ESC_startmbx`, and `ESC_startmbxboot` with another error. -/
def startmbx (s : EscVar V) (r : Registers) (state : BitVec 8) (errornumber : BitVec 16) :
    BitVec 8 × EscVar V :=
  let (state, s) := ((s.smEnable 0).smEnable 1).checkmbx r state
  if state &&& escError ≠ 0 then
    let s := s.escAlError errornumber
    (state, { s with box := { s.box with mbxRun := false } })
  else (state, { s with box := { s.box with toggle := s.box.sm1Rep, mbxRun := true } })

/-- `ESC_stopmbx` -/
def stopmbx (s : EscVar V) : EscVar V :=
  (({ s with box := s.box.stopmbx } : EscVar V).smDisable 0).smDisable 1

/-! ## Process data -/

/-- `ESC_checkSM23`. Both sync managers are to be active (`SM2_act` and `SM3_act` are 1),
so the branches for inactive ones fall away. -/
def checkSm23 (s : EscVar V) (r : Registers) (state : BitVec 8) : BitVec 8 × EscVar V :=
  let errsm2 := (escPreop ||| escError, { s with smTestResult := smresultErrsm2 })
  let errsm3 := (escPreop ||| escError, { s with smTestResult := smresultErrsm3 })
  if r.sm2.psa.toNat ≠ sm2Sma ∨ r.sm2.command ≠ sm2Smc then errsm2
  else if r.sm2.length ≠ s.sm2Sml then errsm2
  else if r.sm2.actEsc &&& 0x01 = 0 ∧ 0 < s.sm2Sml.toNat then errsm2
  else if sm3Sma < sm2Sma + r.sm2.length.toNat * 3 then errsm2
  else if r.sm3.psa.toNat ≠ sm3Sma ∨ r.sm3.command ≠ sm3Smc then errsm3
  else if r.sm3.length ≠ s.sm3Sml then errsm3
  else if r.sm3.actEsc &&& 0x01 = 0 ∧ 0 < s.sm3Sml.toNat then errsm3
  else (state, s)

/-- Which of the two sync managers the error is about. -/
def smError (s : EscVar V) : EscVar V :=
  if s.smTestResult &&& smresultErrsm3 ≠ 0 then s.escAlError alerrInvalidinputsm
  else s.escAlError alerrInvalidoutputsm

/-- `ESC_startinput`, polling. -/
def startinput (s : EscVar V) (r : Registers) (state : BitVec 8) : BitVec 8 × EscVar V :=
  let (state, s) := s.checkSm23 r state
  if state ≠ escPreop ||| escError then
    let s := if 0 < s.sm3Sml.toNat then s.smEnable 3 else s
    (state, { s with app := appstateInput })
  else (state, ((s.smDisable 2).smDisable 3).smError)

/-- `ESC_stopinput`, polling. -/
def stopinput (s : EscVar V) : EscVar V :=
  (({ s with app := appstateIdle } : EscVar V).smDisable 3).smDisable 2

/-- `ESC_startoutput`; the state comes back as it is. -/
def startoutput (s : EscVar V) : EscVar V :=
  let s := if 0 < s.sm2Sml.toNat then s.smEnable 2 else s
  { s with app := { s.app with output := true } }

/-- `ESC_stopoutput` -/
def stopoutput (s : EscVar V) : EscVar V :=
  (({ s with app := { s.app with output := false } } : EscVar V).smDisable 2).emit .safeOutput

/-- If no outputs are present, the error is flagged with SM3. -/
def flagSm3 (s : EscVar V) : EscVar V :=
  if s.sm2Sml = 0 ∧ 0 < s.sm3Sml.toNat then s.smDisable 3 else s

/-- `ESC_ALstatusgotoerror`, without hooks. -/
def escAlStatusgotoerror (s : EscVar V) (status : BitVec 8) (errornumber : BitVec 16) :
    EscVar V :=
  if status &&& escOp ≠ 0 then s
  else
    let s := if s.app.output then s.stopoutput else s
    (s.escAlError errornumber).escAlStatus status

/-! ## Sync manager events -/

/-- The state that is asked for and the one there is, an error that is confirmed reset. -/
def requested (alControl : BitVec 16) (alStatus : BitVec 8) : BitVec 8 × BitVec 8 :=
  let ac := alControl.setWidth 8 &&& escregAlStatemask
  let an := alStatus &&& escregAlStatemask
  if ac &&& escError ≠ 0 ∨ ac = escInit then (ac &&& escregAlErrackmask, an &&& escregAlErrackmask)
  else (ac, an)

/-- `ESC_sm_act_event` -/
def smActEvent (s : EscVar V) (r : Registers) : EscVar V :=
  if r.alevent &&& escregAleventSmchange = 0 then s
  else
    let (ac, an) := requested s.alControl s.alStatus
    let as := s.alStatus &&& escregAlStatemask
    if as &&& escregAlAllbutinitmask ≠ 0 ∧ as ≠ escBoot ∧ s.box.mbxRun = true then
      let (ax, s) := s.checkmbx r as
      let (ax23, s) := s.checkSm23 r as
      if an &&& escError ≠ 0 ∧ ac &&& escError = 0 then s
      else if ax = escInit ||| escError then
        let s := if s.app ≠ appstateIdle then s.stopoutput.stopinput else s
        let s := s.stopmbx.escAlError alerrInvalidmbxconfig
        ({ s with box := { s.box with mbxRun := false } } : EscVar V).escAlStatus ax
      else if s.app ≠ appstateIdle ∧ ax23 = escPreop ||| escError then
        s.stopoutput.stopinput.smError.escAlStatus ax23
      else s
    else s

/-! ## State changes -/

/-- `ESC_check_id_request` -/
def checkIdRequest (alControl : BitVec 16) (an : BitVec 8) (r : Registers) : Bool :=
  let state := alControl.setWidth 8 &&& escregAlErrackmask
  decide (alControl.setWidth 8 &&& escregAlIdRequest ≠ 0 ∧ state ≠ escBoot
    ∧ (state < escSafeop ∨ an = escSafeop ∨ an = escOp) ∧ r.alerror = alerrNone)

/-- `ESC_load_device_id`, without a function of the application. -/
def loadDeviceId (s : EscVar V) (r : Registers) : BitVec 8 × EscVar V :=
  if r.stationAlias ≠ 0 then (escregAlIdRequest, s.escAlError r.stationAlias) else (0, s)

section State

variable (table : List (ObjectItem V)) (r : Registers)

/-- `PREOP_TO_SAFEOP` and `SAFEOP_TO_SAFEOP` -/
def toSafeop (s : EscVar V) (ac : BitVec 8) : Except AccessFault (BitVec 8 × EscVar V) := do
  let (sm2Sml, sm2Mappings) ← sizeOfPdo s.mem table maxMappingsSm rxPdoObjidx s.sm2Mappings
  let s := { s with sm2Sml, sm2Mappings }
  if sm2Mappings = none then return (escPreop ||| escError, s.escAlError alerrInvalidoutputsm)
  else
    let (sm3Sml, sm3Mappings) ← sizeOfPdo s.mem table maxMappingsSm txPdoObjidx s.sm3Mappings
    let s := { s with sm3Sml, sm3Mappings }
    if sm3Mappings = none then return (escPreop ||| escError, s.escAlError alerrInvalidinputsm)
    else
      let (an, s) := s.startinput r ac
      return (an, if an = ac then s.smEnable 2 else s)

/-- The change `as` from `an` to `ac`. -/
def changeState (s : EscVar V) (as an ac : BitVec 8) :
    Except AccessFault (BitVec 8 × EscVar V) :=
  if as = initToInit ∨ as = preopToPreop ∨ as = opToOp then .ok (an, s)
  else if as = initToPreop then .ok (s.startmbx r ac alerrInvalidmbxconfig)
  else if as = initToBoot ∨ as = bootToBoot then .ok (s.startmbx r ac alerrInvalidbootmbxconfig)
  else if as = initToSafeop ∨ as = initToOp then
    .ok (escInit ||| escError, s.escAlError alerrInvalidstatechange)
  else if as = opToInit then .ok (escInit, s.stopoutput.stopinput.stopmbx)
  else if as = safeopToInit then .ok (escInit, s.stopinput.stopmbx)
  else if as = preopToInit ∨ as = bootToInit then .ok (escInit, s.stopmbx)
  else if as = preopToBoot ∨ as = bootToPreop ∨ as = bootToSafeop ∨ as = bootToOp
      ∨ as = preopToOp then
    .ok (escPreop ||| escError, s.escAlError alerrInvalidstatechange)
  else if as = preopToSafeop ∨ as = safeopToSafeop then s.toSafeop table r ac
  else if as = opToPreop then .ok (escPreop, s.stopoutput.stopinput)
  else if as = safeopToPreop then .ok (escPreop, s.stopinput)
  else if as = safeopToBoot then
    .ok (escSafeop ||| escError, s.escAlError alerrInvalidstatechange)
  else if as = safeopToOp then .ok (ac, s.startoutput)
  else if as = opToBoot then
    .ok (escSafeop ||| escError, (s.escAlError alerrInvalidstatechange).stopoutput.flagSm3)
  else if as = opToSafeop then .ok (escSafeop, s.stopoutput)
  else
    -- an unknown state; the second test is about the change and not about the state
    let (an, s) := if an = escOp then (escSafeop, s.stopoutput.flagSm3) else (an, s)
    let s := if as = escSafeop then s.stopinput else s
    .ok (an ||| escError, s.escAlError alerrUnknownstate)

/-- `ESC_state` -/
def escState (s : EscVar V) : Except AccessFault (EscVar V) :=
  if r.alevent &&& escregAleventControl = 0 then .ok s
  else
    let s := { s with alControl := r.alcontrol }
    let (ac, an) := requested s.alControl s.alStatus
    -- an error that is not confirmed stays
    if an &&& escError ≠ 0 ∧ ac &&& escError = 0 then .ok s
    else do
      let as := (ac <<< 4) ||| (s.alStatus &&& escregAlErrackmask)
      let (an, s) ← s.changeState table r as an ac
      let s := if an &&& escError = 0 ∧ s.alError ≠ 0 then s.escAlError alerrNone else s
      if checkIdRequest s.alControl an r then
        let (id, s) := s.loadDeviceId r
        return s.escAlStatus (an ||| id)
      else return s.escAlStatus an

end State

end EscVar

end GalvoCtrl.Stack
