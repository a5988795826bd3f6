import GalvoCtrl.Slave.Reach

/-!
# Slave — SscDevice

The application half of the EtherCAT slave (`SSC-Device.c`) around the galvo
driver: the RxPDO is decoded into object `0x7010` and handed to the driver, the
driver's status is copied into object `0x6000` and from there into the TxPDO.

The process data are bytes on the bus and `UINT16` words in the buffers; the
controller is little-endian and `SWAPWORD` is the identity
(`BIG_ENDIAN_FORMAT` is 0).
-/

namespace GalvoCtrl.Slave

open GalvoCtrl.Lib

/-! ## Process data -/

/-- The eight bytes of an RxPDO, as read from the output sync manager. -/
abbrev RxPdo := Fin 8 → BitVec 8

/-- The words an `UINT16 *` into the output buffer sees. -/
def pdOutputWords (pdo : RxPdo) (i : Nat) : BitVec 16 :=
  if h : 2 * i + 1 < 8 then pdo ⟨2 * i + 1, h⟩ ++ pdo ⟨2 * i, by omega⟩ else 0

/-- `SWAPWORD` -/
def swapWord (w : BitVec 16) : BitVec 16 := w

/-- A sync manager assignment, objects `0x1C12` and `0x1C13`. -/
structure PdoAssign where
  u16SubIndex0 : BitVec 16
  aEntries : List (BitVec 16)
deriving DecidableEq, Repr

/-- `sRxPDOassign` -/
def sRxPDOassign : PdoAssign := ⟨1, [0x1601]⟩

/-- `sTxPDOassign` -/
def sTxPDOassign : PdoAssign := ⟨1, [0x1A00]⟩

/-- The entries a mapping loop `for (j = 0; j < u16SubIndex0; j++)` visits. -/
def PdoAssign.assigned (a : PdoAssign) : List (BitVec 16) :=
  (List.range a.u16SubIndex0.toNat).map fun j => a.aEntries.getD j 0

/-- Object `0x7010`, the galvo command. -/
structure Obj0x7010 where
  galvoXCode : BitVec 16
  galvoYCode : BitVec 16
  sequence : BitVec 16
  controlFlags : BitVec 16
deriving DecidableEq, Repr

/-- Object `0x6000`, the galvo status. -/
structure Obj0x6000 where
  status : BitVec 16
  lastSequence : BitVec 16
  frameCounter : BitVec 16
deriving DecidableEq, Repr

/-- What the OLED task will show next: the record `sStatus` of `oled_status.c`. -/
structure OledStatusData where
  status : BitVec 16
  lastSequence : BitVec 16
  frameCounter : BitVec 16
  sequence : BitVec 16
  flags : BitVec 16
  xCode : BitVec 16
  yCode : BitVec 16
deriving DecidableEq, Repr

/-- The application's variables. -/
structure Device where
  galvo : GalvoState
  obj0x7010 : Obj0x7010
  obj0x6000 : Obj0x6000
  sLastSequence : BitVec 16
  oled : OledStatusData
deriving DecidableEq, Repr

/-- What the application puts out. -/
inductive SlaveOut where
  /-- A write to one of the XY2-100 pins. -/
  | pin (w : PinWrite)
  /-- `HAL_GPIO_WritePin(GPIOE, GPIO_PIN_n, …)` -/
  | led (n : Nat) (level : Bool)
  /-- The line `PDO OUT x=%d y=%d seq=%u flags=0x%04X` on the console. -/
  | printf (x y : Int) (seq flags : BitVec 16)
  /-- The words written to the input process data. -/
  | txPdo (words : List (BitVec 16))
deriving DecidableEq, Repr

/-- The writes to the XY2-100 pins. -/
def SlaveOut.pin? : SlaveOut → Option PinWrite
  | .pin w => some w
  | _ => none

/-- The published TxPDOs. -/
def SlaveOut.txPdo? : SlaveOut → Option (List (BitVec 16))
  | .txPdo words => some words
  | _ => none

/-! ## The application functions -/

/-- One round of the loop of `APPL_OutputMapping`: entry, read position, object. -/
def outputMappingEntry (pData : Nat → BitVec 16) (acc : Nat × Obj0x7010)
    (entry : BitVec 16) : Nat × Obj0x7010 :=
  if entry = 0x1601 then
    let p := acc.1
    (p + 4,
      { galvoXCode := swapWord (pData p)
        galvoYCode := swapWord (pData (p + 1))
        sequence := swapWord (pData (p + 2))
        controlFlags := swapWord (pData (p + 3)) })
  else acc

/-- `OledStatus_SetCommand` -/
def oledStatusSetCommand (o : Obj0x7010) (s : OledStatusData) : OledStatusData :=
  { s with xCode := o.galvoXCode, yCode := o.galvoYCode, sequence := o.sequence,
           flags := o.controlFlags }

/-- `OledStatus_SetEthercat` -/
def oledStatusSetEthercat (o : Obj0x6000) (s : OledStatusData) : OledStatusData :=
  { s with status := o.status, lastSequence := o.lastSequence,
           frameCounter := o.frameCounter }

/-- `APPL_OutputMapping` -/
def applOutputMapping (pData : Nat → BitVec 16) (d : Device) : Device × List SlaveOut :=
  let obj := (sRxPDOassign.assigned.foldl (outputMappingEntry pData) (0, d.obj0x7010)).2
  let d :=
    { d with
      obj0x7010 := obj
      galvo := galvoXY2SetTarget obj.galvoXCode obj.galvoYCode obj.sequence
        obj.controlFlags d.galvo
      oled := oledStatusSetCommand obj d.oled }
  if obj.sequence ≠ d.sLastSequence then
    ({ d with sLastSequence := obj.sequence },
      [.printf obj.galvoXCode.toInt obj.galvoYCode.toInt obj.sequence obj.controlFlags])
  else (d, [])

/-- `APPL_Application` -/
def applApplication (d : Device) : Device × List SlaveOut :=
  let obj : Obj0x6000 :=
    { status := galvoXY2GetStatus d.galvo
      lastSequence := galvoXY2GetLastSequence d.galvo
      frameCounter := galvoXY2GetFrameCounter d.galvo }
  ({ d with obj0x6000 := obj, oled := oledStatusSetEthercat obj d.oled },
    [.led 0 (obj.status &&& galvoStatusEnabled ≠ 0),
     .led 1 (obj.status &&& galvoStatusStale ≠ 0)])

/-- One round of the loop of `APPL_InputMapping`: the words it writes. -/
def inputMappingEntry (obj : Obj0x6000) (entry : BitVec 16) : List (BitVec 16) :=
  if entry = 0x1A00 then
    [swapWord obj.status, swapWord obj.lastSequence, swapWord obj.frameCounter]
  else []

/-- `APPL_InputMapping`: the words written from `pData` on. -/
def applInputMapping (d : Device) : List (BitVec 16) :=
  sTxPDOassign.assigned.flatMap (inputMappingEntry d.obj0x6000)

/-- `APPL_StartOutputHandler`; the result is `ALSTATUSCODE_NOERROR`. -/
def applStartOutputHandler (d : Device) : BitVec 16 × Device := (0, d)

/-- `APPL_StopOutputHandler`; the result is `ALSTATUSCODE_NOERROR`. -/
def applStopOutputHandler (d : Device) : BitVec 16 × Device := (0, d)

/-! ## The application as a machine -/

/-- What can happen to the application: process data arriving, the 100 kHz
timer, the cyclic application and the publication of the inputs. -/
inductive SlaveEvent where
  | outputMapping (pdo : RxPdo)
  | timerTick
  | application
  | inputMapping

/-- The variables after `GalvoXY2_Init`, all others at their initialisers. -/
def Device.start : Device where
  galvo := galvoXY2Init
  obj0x7010 := ⟨0, 0, 0, 0⟩
  obj0x6000 := ⟨0, 0, 0⟩
  sLastSequence := 0xFFFF
  oled := ⟨0, 0, 0, 0, 0, 0, 0⟩

/-- The slave application. -/
def device : Machine Device SlaveEvent SlaveOut where
  init := Device.start
  boot := galvoXY2InitWrites.map .pin
  step d
    | .outputMapping pdo => (applOutputMapping (pdOutputWords pdo) d).1
    | .timerTick => { d with galvo := (galvoXY2TimerTick d.galvo).1 }
    | .application => (applApplication d).1
    | .inputMapping => d
  emit d
    | .outputMapping pdo => (applOutputMapping (pdOutputWords pdo) d).2
    | .timerTick => (galvoXY2TimerTick d.galvo).2.map .pin
    | .application => (applApplication d).2
    | .inputMapping => [.txPdo (applInputMapping d)]

/-! ## What the application hands to the driver -/

/-- The command in an RxPDO: four little-endian 16-bit fields. -/
def RxPdo.command (pdo : RxPdo) : Command where
  xCode := pdo 1 ++ pdo 0
  yCode := pdo 3 ++ pdo 2
  sequence := pdo 5 ++ pdo 4
  controlFlags := pdo 7 ++ pdo 6

/-- The driver call of `APPL_OutputMapping`. -/
def Command.setTarget (c : Command) : GalvoCmd :=
  .setTarget c.xCode c.yCode c.sequence c.controlFlags

/-- The driver calls an event amounts to. -/
def SlaveEvent.galvoCmds : SlaveEvent → List GalvoCmd
  | .outputMapping pdo => [(RxPdo.command pdo).setTarget]
  | .timerTick => [.timerTick]
  | .application => []
  | .inputMapping => []

/-- The mapping loop decodes exactly the four fields of the RxPDO. -/
theorem outputMapping_obj (pdo : RxPdo) (o : Obj0x7010) :
    (sRxPDOassign.assigned.foldl (outputMappingEntry (pdOutputWords pdo)) (0, o)).2 =
      { galvoXCode := (RxPdo.command pdo).xCode
        galvoYCode := (RxPdo.command pdo).yCode
        sequence := (RxPdo.command pdo).sequence
        controlFlags := (RxPdo.command pdo).controlFlags } := rfl

@[simp] theorem applOutputMapping_galvo (pdo : RxPdo) (d : Device) :
    (applOutputMapping (pdOutputWords pdo) d).1.galvo =
      galvo.step d.galvo (RxPdo.command pdo).setTarget := by
  unfold applOutputMapping
  dsimp only
  split <;> simp only [outputMapping_obj] <;> rfl

theorem applOutputMapping_pins (pdo : RxPdo) (d : Device) :
    (applOutputMapping (pdOutputWords pdo) d).2.filterMap SlaveOut.pin? = [] := by
  unfold applOutputMapping
  dsimp only
  split <;> rfl

private theorem filterMap_pin (ws : List PinWrite) :
    (ws.map SlaveOut.pin).filterMap SlaveOut.pin? = ws := by
  induction ws with
  | nil => rfl
  | cons w ws ih => simp [SlaveOut.pin?, ih]

/-- **The application drives the driver by its commands and ticks only**, and
everything on the XY2-100 pins comes from the driver. -/
theorem device_feeds_galvo :
    device.Feeds galvo Device.galvo (fun _ e => e.galvoCmds) SlaveOut.pin? where
  init := rfl
  boot := filterMap_pin _
  step d e := by
    cases e with
    | outputMapping pdo => exact applOutputMapping_galvo pdo d
    | timerTick => rfl
    | application => rfl
    | inputMapping => rfl
  emit d e := by
    cases e with
    | outputMapping pdo => exact applOutputMapping_pins pdo d
    | timerTick => exact (filterMap_pin _).trans (List.append_nil _).symm
    | application => rfl
    | inputMapping => rfl

/-- The driver calls along a list of events. -/
def galvoCmds (evs : List SlaveEvent) : List GalvoCmd := evs.flatMap SlaveEvent.galvoCmds

theorem fedFrom_galvoCmds (d : Device) (evs : List SlaveEvent) :
    device.fedFrom (fun _ e => e.galvoCmds) d evs = galvoCmds evs := by
  induction evs generalizing d with
  | nil => rfl
  | cons e evs ih => rw [Machine.fedFrom, ih, galvoCmds, galvoCmds, List.flatMap_cons]

/-- The driver inside a run of the application is a run of the driver. -/
theorem device_run_galvo (evs : List SlaveEvent) :
    (device.run evs).galvo = galvo.run (galvoCmds evs) := by
  rw [device_feeds_galvo.run, Machine.fed, fedFrom_galvoCmds]

/-- The pin writes of a run of the application are those of the driver. -/
theorem device_trace_pins (evs : List SlaveEvent) :
    (device.trace evs).filterMap SlaveOut.pin? = galvo.trace (galvoCmds evs) := by
  rw [device_feeds_galvo.trace, Machine.fed, fedFrom_galvoCmds]

end GalvoCtrl.Slave
