import GalvoCtrl.Lib.EventRun
import GalvoCtrl.Lib.TruncSteps

/-!
# Slave — GalvoXy2

The galvo output driver of the slave (`galvo_xy2_100.c`): the state record
`sGalvo`, the command entry `GalvoXY2_SetTarget`, the 100 kHz timer tick with
its ten-step interpolation, and the bit-banged XY2-100 frame.

`int32_t` fields are integers: every value they take stays within 16 bits
(`GalvoState.InRange`), so no 32-bit operation of the source can wrap. The
`uint16_t` and `uint8_t` fields, the codes and the packed words are bit vectors
of their width. The `__NOP` delays have no effect on the modelled state.
-/

namespace GalvoCtrl.Slave

open GalvoCtrl.Lib

/-! ## Constants -/

/-- `GALVO_CONTROL_ENABLE` -/
def galvoControlEnable : BitVec 16 := 0x0001

/-- `GALVO_STATUS_ENABLED` -/
def galvoStatusEnabled : BitVec 16 := 0x0001

/-- `GALVO_STATUS_STALE` -/
def galvoStatusStale : BitVec 16 := 0x0002

/-- `XY2_FRAME_BITS` -/
def xy2FrameBits : Nat := 20

/-- `XY2_INTERP_FRAMES` -/
def xy2InterpFrames : Nat := 10

/-- `XY2_STALE_FRAMES` -/
def xy2StaleFrames : BitVec 16 := 500

/-! ## Pins -/

/-- The four output pins: PA8, PC6, PC7 and PC9. -/
inductive Pin where
  | clk
  | sync
  | x
  | y
deriving DecidableEq, Repr

/-- One `BSRR` write: a pin and the level it gets. -/
structure PinWrite where
  pin : Pin
  level : Bool
deriving DecidableEq, Repr

def gpioSet (pin : Pin) : PinWrite := ⟨pin, true⟩

def gpioReset (pin : Pin) : PinWrite := ⟨pin, false⟩

/-! ## The XY2-100 frame -/

/-- `xy2_pack_word`: the payload in bits 16..1, its parity in bit 0. -/
def xy2PackWord (code : BitVec 16) : BitVec 32 :=
  let payload : BitVec 32 := code.setWidth 32 &&& 0xFFFF#32
  let word := payload <<< 1
  let parity := (List.range 16).foldl (fun p i => p ^^^ ((payload >>> i) &&& 0x1#32)) 0#32
  word ||| parity

/-- `xy2_write_bit`: both data pins, then one clock pulse. -/
def xy2WriteBit (xBit yBit : BitVec 8) : List PinWrite :=
  [if xBit ≠ 0 then gpioSet .x else gpioReset .x,
   if yBit ≠ 0 then gpioSet .y else gpioReset .y,
   gpioSet .clk,
   gpioReset .clk]

/-- The loop of `xy2_send_frame` over the bits `bits - 1, …, 0`. -/
def xy2SendBits (xWord yWord : BitVec 32) : (bits : Nat) → List PinWrite
  | 0 => []
  | bit + 1 =>
      xy2WriteBit (((xWord >>> bit) &&& 0x1#32).setWidth 8)
        (((yWord >>> bit) &&& 0x1#32).setWidth 8) ++ xy2SendBits xWord yWord bit

/-- `xy2_send_frame` -/
def xy2SendFrame (xCode yCode : BitVec 16) : List PinWrite :=
  gpioSet .sync ::
    (xy2SendBits (xy2PackWord xCode) (xy2PackWord yCode) xy2FrameBits ++ [gpioReset .sync])

/-! ## The driver state -/

/-- `GalvoState` -/
structure GalvoState where
  currentX : Int
  currentY : Int
  startX : Int
  startY : Int
  targetX : Int
  targetY : Int
  sequence : BitVec 16
  controlFlags : BitVec 16
  status : BitVec 16
  frameCounter : BitVec 16
  framesSinceUpdate : BitVec 16
  interpIndex : BitVec 8
deriving DecidableEq, Repr

/-- The record `GalvoXY2_Init` leaves in `sGalvo`. -/
def galvoXY2Init : GalvoState where
  currentX := 0
  currentY := 0
  startX := 0
  startY := 0
  targetX := 0
  targetY := 0
  sequence := 0
  controlFlags := 0
  status := galvoStatusStale
  frameCounter := 0
  framesSinceUpdate := xy2StaleFrames
  interpIndex := BitVec.ofNat 8 xy2InterpFrames

/-- The pin writes of `GalvoXY2_Init`. -/
def galvoXY2InitWrites : List PinWrite :=
  [gpioReset .clk, gpioReset .sync, gpioReset .x, gpioReset .y]

/-- `GalvoXY2_SetTarget`: a command that differs from the stored one in some
field starts a new interpolation from the current position. -/
def galvoXY2SetTarget (xCode yCode sequence controlFlags : BitVec 16) (s : GalvoState) :
    GalvoState :=
  if sequence ≠ s.sequence ∨ xCode ≠ BitVec.ofInt 16 s.targetX
      ∨ yCode ≠ BitVec.ofInt 16 s.targetY ∨ controlFlags ≠ s.controlFlags then
    { s with
      startX := s.currentX
      startY := s.currentY
      targetX := xCode.toInt
      targetY := yCode.toInt
      sequence := sequence
      controlFlags := controlFlags
      framesSinceUpdate := 0
      interpIndex := 0 }
  else s

/-- The interpolated position at step `step` of `XY2_INTERP_FRAMES`; the
division truncates towards zero as in C. -/
def interpolate (start target step : Int) : Int :=
  start + ((target - start) * step).tdiv xy2InterpFrames

namespace GalvoState

/-- Whether the tick sends a frame: `control_flags & GALVO_CONTROL_ENABLE`. -/
def enabled (s : GalvoState) : Bool := s.controlFlags &&& galvoControlEnable ≠ 0

/-- The position part of `GalvoXY2_TimerTick`. -/
def advance (s : GalvoState) : GalvoState :=
  if s.interpIndex.toNat < xy2InterpFrames then
    let step : Int := s.interpIndex.toNat + 1
    { s with
      currentX := interpolate s.startX s.targetX step
      currentY := interpolate s.startY s.targetY step
      interpIndex := s.interpIndex + 1 }
  else
    { s with currentX := s.targetX, currentY := s.targetY }

/-- The output part of `GalvoXY2_TimerTick`: a frame, or both strobes held low. -/
def output (s : GalvoState) : GalvoState × List PinWrite :=
  if s.enabled then
    ({ s with status := galvoStatusEnabled },
      xy2SendFrame (BitVec.ofInt 16 s.currentX) (BitVec.ofInt 16 s.currentY))
  else
    ({ s with status := 0 }, [gpioReset .sync, gpioReset .clk])

/-- The bookkeeping part of `GalvoXY2_TimerTick`: staleness and frame count. -/
def age (s : GalvoState) : GalvoState :=
  let s :=
    if s.framesSinceUpdate < xy2StaleFrames then
      { s with framesSinceUpdate := s.framesSinceUpdate + 1 }
    else
      { s with status := s.status ||| galvoStatusStale }
  { s with frameCounter := s.frameCounter + 1 }

end GalvoState

/-- `GalvoXY2_TimerTick` -/
def galvoXY2TimerTick (s : GalvoState) : GalvoState × List PinWrite :=
  let (s, writes) := s.advance.output
  (s.age, writes)

def galvoXY2GetStatus (s : GalvoState) : BitVec 16 := s.status

def galvoXY2GetLastSequence (s : GalvoState) : BitVec 16 := s.sequence

def galvoXY2GetFrameCounter (s : GalvoState) : BitVec 16 := s.frameCounter

/-! ## The driver as a machine -/

/-- What can happen to the driver after initialisation. -/
inductive GalvoCmd where
  | setTarget (xCode yCode sequence controlFlags : BitVec 16)
  | timerTick
deriving DecidableEq, Repr

/-- The driver: started by `GalvoXY2_Init`, driven by commands and ticks. -/
def galvo : Machine GalvoState GalvoCmd PinWrite where
  init := galvoXY2Init
  boot := galvoXY2InitWrites
  step s
    | .setTarget xCode yCode sequence controlFlags =>
        galvoXY2SetTarget xCode yCode sequence controlFlags s
    | .timerTick => (galvoXY2TimerTick s).1
  emit s
    | .setTarget .. => []
    | .timerTick => (galvoXY2TimerTick s).2

/-! ## What one tick does, field by field -/

namespace GalvoState

variable (s : GalvoState)

@[simp] theorem advance_targetX : s.advance.targetX = s.targetX := by
  unfold advance; split <;> rfl

@[simp] theorem advance_targetY : s.advance.targetY = s.targetY := by
  unfold advance; split <;> rfl

@[simp] theorem advance_startX : s.advance.startX = s.startX := by
  unfold advance; split <;> rfl

@[simp] theorem advance_startY : s.advance.startY = s.startY := by
  unfold advance; split <;> rfl

@[simp] theorem advance_sequence : s.advance.sequence = s.sequence := by
  unfold advance; split <;> rfl

@[simp] theorem advance_controlFlags : s.advance.controlFlags = s.controlFlags := by
  unfold advance; split <;> rfl

@[simp] theorem advance_frameCounter : s.advance.frameCounter = s.frameCounter := by
  unfold advance; split <;> rfl

@[simp] theorem advance_framesSinceUpdate :
    s.advance.framesSinceUpdate = s.framesSinceUpdate := by
  unfold advance; split <;> rfl

@[simp] theorem advance_enabled : s.advance.enabled = s.enabled := by
  rw [enabled, advance_controlFlags, enabled]

end GalvoState

/-- **The tick, as one record**: the advanced position, the rebuilt status, the
two counters; nothing else moves. -/
theorem galvoXY2TimerTick_fst (s : GalvoState) :
    (galvoXY2TimerTick s).1 =
      { s.advance with
        status := (if s.enabled then galvoStatusEnabled else 0)
          ||| (if s.framesSinceUpdate < xy2StaleFrames then 0 else galvoStatusStale)
        framesSinceUpdate :=
          if s.framesSinceUpdate < xy2StaleFrames then s.framesSinceUpdate + 1
          else s.framesSinceUpdate
        frameCounter := s.frameCounter + 1 } := by
  simp only [galvoXY2TimerTick, GalvoState.output, GalvoState.age, GalvoState.advance_enabled]
  by_cases he : s.enabled <;> by_cases hf : s.framesSinceUpdate < xy2StaleFrames <;>
    simp [he, hf]

/-- The tick writes a frame of the advanced position, or holds the strobes low. -/
theorem galvoXY2TimerTick_snd (s : GalvoState) :
    (galvoXY2TimerTick s).2 =
      if s.enabled then
        xy2SendFrame (BitVec.ofInt 16 s.advance.currentX) (BitVec.ofInt 16 s.advance.currentY)
      else [gpioReset .sync, gpioReset .clk] := by
  simp only [galvoXY2TimerTick, GalvoState.output, GalvoState.advance_enabled]
  split <;> rfl

end GalvoCtrl.Slave
