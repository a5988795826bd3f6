import GalvoCtrl.Lib.Bits
import GalvoCtrl.Lib.SyncSerial
import GalvoCtrl.Slave.Reach

/-!
# Slave — WireFrames

What a receiver on the four pins gets. The pin writes of a run are turned into
levels, a receiver on either clock edge collects frames from them, and
`decodeFrame` reads a frame by the rules of the link alone: 20 bits, even
parity on both channels, the payload in bits 16..1 as two's complement.
-/

namespace GalvoCtrl.Slave

open GalvoCtrl.Lib GalvoCtrl.Lib.SyncSerial

/-! ## From pin writes to levels -/

/-- The levels on the connector, with the two data lines as a pair. -/
abbrev WireLevels := Levels (Bool × Bool)

/-- All pins low, as `MX_GPIO_Init` leaves them. -/
def wireLow : WireLevels := ⟨false, false, (false, false)⟩

/-- The levels after one write. -/
def PinWrite.apply (w : PinWrite) (l : WireLevels) : WireLevels :=
  match w.pin with
  | .clk => { l with clk := w.level }
  | .sync => { l with sync := w.level }
  | .x => { l with data := (w.level, l.data.2) }
  | .y => { l with data := (l.data.1, w.level) }

/-! ## The packed word -/

/-- Masking with 1 keeps the low bit. -/
private theorem shifted_bit {w : Nat} (v : BitVec w) (i : Nat) :
    (v >>> i) &&& 1#w = BitVec.setWidth w (BitVec.ofBool (v.getLsbD i)) := by
  rw [BitVec.and_one_eq_setWidth_ofBool_getLsbD, BitVec.getLsbD_ushiftRight, Nat.add_zero]

/-- The parity loop folds the low `n` bits into bit 0. -/
private theorem parity_fold (v : BitVec 32) (n : Nat) :
    (List.range n).foldl (fun p i => p ^^^ ((v >>> i) &&& 1#32)) 0#32
      = BitVec.setWidth 32 (BitVec.ofBool (xorBits v.getLsbD n)) := by
  induction n with
  | zero => rfl
  | succ n ih =>
      rw [List.range_succ, List.foldl_append, ih, List.foldl_cons, List.foldl_nil, shifted_bit,
        xorBits]
      cases xorBits v.getLsbD n <;> cases v.getLsbD n <;> rfl

/-- The mask `0xFFFF` does not touch a 16-bit code. -/
private theorem payload_getLsbD (code : BitVec 16) (i : Nat) :
    (code.setWidth 32 &&& 0xFFFF#32).getLsbD i = code.getLsbD i := by
  have hmask : code.setWidth 32 &&& 0xFFFF#32 = code.setWidth 32 := by
    apply BitVec.eq_of_toNat_eq
    rw [BitVec.toNat_and, BitVec.toNat_setWidth]
    show code.toNat % 2 ^ 32 &&& 2 ^ 16 - 1 = code.toNat % 2 ^ 32
    rw [Nat.and_two_pow_sub_one_eq_mod]
    have := code.isLt
    omega
  rw [hmask, BitVec.getLsbD_setWidth]
  by_cases hi : i < 16
  · rw [decide_eq_true (by omega), Bool.true_and]
  · rw [BitVec.getLsbD_of_ge code i (by omega), Bool.and_false]

/-- Bit by bit: the parity of the code below, the code above it. -/
theorem xy2PackWord_getLsbD (code : BitVec 16) (i : Nat) :
    (xy2PackWord code).getLsbD i =
      match i with
      | 0 => xorBits code.getLsbD 16
      | i + 1 => code.getLsbD i := by
  have hpar : xorBits (code.setWidth 32 &&& 0xFFFF#32).getLsbD 16
      = xorBits code.getLsbD 16 := xorBits_congr fun i _ => payload_getLsbD code i
  have hword : xy2PackWord code = (code.setWidth 32 &&& 0xFFFF#32) <<< 1
      ||| BitVec.setWidth 32 (BitVec.ofBool (xorBits code.getLsbD 16)) := by
    rw [← hpar, ← parity_fold]
    rfl
  rw [hword, BitVec.getLsbD_or, BitVec.getLsbD_shiftLeft, BitVec.getLsbD_setWidth]
  cases i with
  | zero => cases xorBits code.getLsbD 16 <;> rfl
  | succ i =>
      rw [Nat.add_sub_cancel, payload_getLsbD, BitVec.getLsbD_ofBool]
      by_cases hi : i < 16
      · simp [show i + 1 < 32 from by omega]
      · simp [BitVec.getLsbD_of_ge code i (by omega)]

/-- The 20 bits on the wire: three zeros, the code, its parity. -/
theorem msbFirst_xy2PackWord (code : BitVec 16) :
    msbFirst (xy2PackWord code).getLsbD 20 =
      [false, false, false] ++ msbFirst code.getLsbD 16 ++ [xorBits code.getLsbD 16] := by
  have htop : ∀ i, 16 ≤ i → code.getLsbD i = false := fun i hi => BitVec.getLsbD_of_ge code i hi
  have hbits : (xy2PackWord code).getLsbD = fun
      | 0 => xorBits code.getLsbD 16
      | i + 1 => code.getLsbD i := funext (xy2PackWord_getLsbD code)
  rw [hbits, show 20 = 3 + 16 + 1 from rfl, msbFirst_add, msbFirst_add]
  simp only [msbFirst, htop 16 (by omega), htop 17 (by omega), htop 18 (by omega)]

theorem xy2PackWord_evenOnes (code : BitVec 16) :
    EvenOnes (msbFirst (xy2PackWord code).getLsbD 20) := by
  have htop : ∀ i, 16 ≤ i → code.getLsbD i = false := fun i hi => BitVec.getLsbD_of_ge code i hi
  have hcode : xorBits (fun i => (xy2PackWord code).getLsbD (i + 1)) 19
      = xorBits code.getLsbD 16 := by
    rw [xorBits_congr fun i _ => xy2PackWord_getLsbD code (i + 1)]
    show (((xorBits code.getLsbD 16 ^^ code.getLsbD 16) ^^ code.getLsbD 17)
      ^^ code.getLsbD 18) = xorBits code.getLsbD 16
    rw [htop 16 (by omega), htop 17 (by omega), htop 18 (by omega)]
    simp only [Bool.xor_false]
  rw [evenOnes_msbFirst, xorBits_succ', hcode, xy2PackWord_getLsbD, Bool.xor_self]

/-! ## Decoding -/

/-- One channel of a frame: 20 bits, even parity, payload in bits 16..1. -/
def decodeChannel (bits : List Bool) : Option Int :=
  if bits.length = 20 ∧ EvenOnes bits then
    some (BitVec.ofNat 16 (ofMsbFirst ((bits.drop 3).take 16))).toInt
  else none

/-- A frame: both channels. -/
def decodeFrame (frame : List (Bool × Bool)) : Option (Int × Int) :=
  (decodeChannel (frame.map Prod.fst)).bind fun x =>
    (decodeChannel (frame.map Prod.snd)).map fun y => (x, y)

theorem decodeChannel_xy2PackWord (code : BitVec 16) :
    decodeChannel (msbFirst (xy2PackWord code).getLsbD 20) = some code.toInt := by
  rw [decodeChannel, if_pos ⟨length_msbFirst _ _, xy2PackWord_evenOnes code⟩,
    msbFirst_xy2PackWord]
  have hpayload : (([false, false, false] ++ msbFirst code.getLsbD 16
      ++ [xorBits code.getLsbD 16]).drop 3).take 16 = msbFirst code.getLsbD 16 := by
    rw [List.append_assoc]
    show (msbFirst code.getLsbD 16 ++ [xorBits code.getLsbD 16]).take 16 = _
    rw [List.take_append_of_le_length (by simp), List.take_of_length_le (by simp)]
  rw [hpayload, ofNat_ofMsbFirst_getLsbD]

/-- The bit pairs of a frame with these codes. -/
def frameBits (xCode yCode : BitVec 16) : List (Bool × Bool) :=
  msbFirst (fun i => ((xy2PackWord xCode).getLsbD i, (xy2PackWord yCode).getLsbD i)) xy2FrameBits

/-- **Decoding inverts packing**, negative codes included. -/
theorem decodeFrame_frameBits (xCode yCode : BitVec 16) :
    decodeFrame (frameBits xCode yCode) = some (xCode.toInt, yCode.toInt) := by
  have hx : (frameBits xCode yCode).map Prod.fst = msbFirst (xy2PackWord xCode).getLsbD 20 :=
    map_msbFirst _ _ _
  have hy : (frameBits xCode yCode).map Prod.snd = msbFirst (xy2PackWord yCode).getLsbD 20 :=
    map_msbFirst _ _ _
  rw [decodeFrame, hx, hy, decodeChannel_xy2PackWord, decodeChannel_xy2PackWord]
  rfl

/-! ## One frame on the pins -/

/-- `xy2_write_bit` on one bit of each word: the data first, then the pulse. -/
private theorem xy2WriteBit_eq (xWord yWord : BitVec 32) (bit : Nat) :
    xy2WriteBit (((xWord >>> bit) &&& 1#32).setWidth 8) (((yWord >>> bit) &&& 1#32).setWidth 8)
      = [⟨.x, xWord.getLsbD bit⟩, ⟨.y, yWord.getLsbD bit⟩, gpioSet .clk, gpioReset .clk] := by
  rw [shifted_bit, shifted_bit]
  cases xWord.getLsbD bit <;> cases yWord.getLsbD bit <;> rfl

/-- The bit loop is one cell per bit, for either edge, and ends with the clock
low and sync untouched. -/
theorem xy2SendBits_cells (e : Edge) (xWord yWord : BitVec 32) (n : Nat) {l : WireLevels}
    (hclk : l.clk = false) (hsync : l.sync = true) :
    Cells e (msbFirst (fun i => (xWord.getLsbD i, yWord.getLsbD i)) n)
        (drive PinWrite.apply l (xy2SendBits xWord yWord n))
      ∧ (driveEnd PinWrite.apply l (xy2SendBits xWord yWord n)).clk = false
      ∧ (driveEnd PinWrite.apply l (xy2SendBits xWord yWord n)).sync = true := by
  induction n generalizing l with
  | zero => exact ⟨.nil, hclk, hsync⟩
  | succ n ih =>
      obtain ⟨c, s, x, y⟩ := l
      obtain rfl : c = false := hclk
      obtain rfl : s = true := hsync
      rw [xy2SendBits, xy2WriteBit_eq, drive_append, driveEnd_append, msbFirst]
      generalize xWord.getLsbD n = bx
      generalize yWord.getLsbD n = byy
      -- the pulse leaves the clock low and the data of this bit on the lines
      obtain ⟨hcells, hend⟩ := ih (l := ⟨false, true, (bx, byy)⟩) rfl rfl
      refine ⟨.cons ⟨?_⟩ hcells, hend⟩
      exact ⟨[⟨false, true, (bx, y)⟩, ⟨false, true, (bx, byy)⟩], ⟨true, true, (bx, byy)⟩,
        [], [⟨false, true, (bx, byy)⟩], rfl, by simp, by simp, by simp, by simp,
        by cases e <;> rfl⟩

/-- **`xy2_send_frame` is one frame** with the packed bits, and leaves the
strobes low. -/
theorem xy2SendFrame_isFrame (e : Edge) (xCode yCode : BitVec 16) {l : WireLevels}
    (hclk : l.clk = false) :
    IsFrame e (frameBits xCode yCode) (drive PinWrite.apply l (xy2SendFrame xCode yCode))
      ∧ (driveEnd PinWrite.apply l (xy2SendFrame xCode yCode)).clk = false
      ∧ (driveEnd PinWrite.apply l (xy2SendFrame xCode yCode)).sync = false := by
  obtain ⟨hcells, hc, hs⟩ := xy2SendBits_cells e (xy2PackWord xCode) (xy2PackWord yCode)
    xy2FrameBits (l := (gpioSet .sync).apply l) hclk rfl
  refine ⟨⟨(gpioSet .sync).apply l, _, (gpioReset .sync).apply (driveEnd PinWrite.apply
    ((gpioSet .sync).apply l) (xy2SendBits (xy2PackWord xCode) (xy2PackWord yCode)
    xy2FrameBits)), ?_, hclk, rfl, hcells, hc, rfl⟩, ?_, ?_⟩
  · rw [xy2SendFrame, drive, drive_append]
    rfl
  · rw [xy2SendFrame, driveEnd_cons, driveEnd_append]
    exact hc
  · rw [xy2SendFrame, driveEnd_cons, driveEnd_append]
    rfl

/-! ## Runs -/

/-- The driver states that the ticks of a run leave, in order. -/
def tickStatesFrom (s : GalvoState) : List GalvoCmd → List GalvoState
  | [] => []
  | .setTarget x y q f :: cmds => tickStatesFrom (galvo.step s (.setTarget x y q f)) cmds
  | .timerTick :: cmds =>
      galvo.step s .timerTick :: tickStatesFrom (galvo.step s .timerTick) cmds

def tickStates (cmds : List GalvoCmd) : List GalvoState := tickStatesFrom galvo.init cmds

/-- The frames sent for these states: one for each enabled one. -/
def sentFrames (states : List GalvoState) : List (List (Bool × Bool)) :=
  (states.filter GalvoState.enabled).map fun s =>
    frameBits (BitVec.ofInt 16 s.currentX) (BitVec.ofInt 16 s.currentY)

/-- The flags a tick tests are those it leaves. -/
@[simp] theorem timerTick_enabled (s : GalvoState) :
    (galvoXY2TimerTick s).1.enabled = s.enabled := by
  rw [galvoXY2TimerTick_fst]
  show s.advance.enabled = s.enabled
  exact GalvoState.advance_enabled s

/-- One tick transmits a frame with the positions it leaves, or nothing. -/
theorem timerTick_transmits (e : Edge) (s : GalvoState) {l : WireLevels}
    (hclk : l.clk = false) :
    Transmits e (sentFrames [(galvoXY2TimerTick s).1])
        (drive PinWrite.apply l (galvoXY2TimerTick s).2)
      ∧ (driveEnd PinWrite.apply l (galvoXY2TimerTick s).2).clk = false
      ∧ (driveEnd PinWrite.apply l (galvoXY2TimerTick s).2).sync = false := by
  rw [sentFrames, galvoXY2TimerTick_snd]
  by_cases hen : s.enabled = true
  · rw [if_pos hen, List.filter_cons_of_pos (by rwa [timerTick_enabled])]
    have hpos : (galvoXY2TimerTick s).1.currentX = s.advance.currentX
        ∧ (galvoXY2TimerTick s).1.currentY = s.advance.currentY := by
      rw [galvoXY2TimerTick_fst]
      exact ⟨rfl, rfl⟩
    rw [← hpos.1, ← hpos.2]
    obtain ⟨hframe, hend⟩ := xy2SendFrame_isFrame e
      (BitVec.ofInt 16 (galvoXY2TimerTick s).1.currentX)
      (BitVec.ofInt 16 (galvoXY2TimerTick s).1.currentY) hclk
    refine ⟨?_, hend⟩
    rw [← List.append_nil (drive PinWrite.apply l _)]
    exact .frame hframe .nil
  · rw [if_neg hen, List.filter_cons_of_neg (by rwa [timerTick_enabled])]
    exact ⟨.idle hclk rfl (.idle rfl rfl .nil), rfl, rfl⟩

/-- **A run transmits one frame per enabled tick**, and rests between ticks. -/
theorem galvo_transmitsFrom (e : Edge) (s : GalvoState) (cmds : List GalvoCmd)
    {l : WireLevels} (hclk : l.clk = false) (hsync : l.sync = false) :
    Transmits e (sentFrames (tickStatesFrom s cmds))
      (drive PinWrite.apply l (galvo.traceFrom s cmds)) := by
  induction cmds generalizing s l with
  | nil => exact .nil
  | cons c cmds ih =>
      cases c with
      | setTarget x y q f => exact ih _ hclk hsync
      | timerTick =>
          obtain ⟨htick, hc, hs⟩ := timerTick_transmits e s hclk
          have hsent : sentFrames (tickStatesFrom s (.timerTick :: cmds))
              = sentFrames [(galvoXY2TimerTick s).1]
                ++ sentFrames (tickStatesFrom (galvoXY2TimerTick s).1 cmds) := by
            rw [sentFrames, sentFrames, sentFrames, ← List.map_append, ← List.filter_append]
            rfl
          rw [hsent, Machine.traceFrom, drive_append]
          exact htick.append (ih _ hc hs)

theorem galvo_transmits (e : Edge) (cmds : List GalvoCmd) :
    Transmits e (sentFrames (tickStates cmds))
      (drive PinWrite.apply wireLow (galvo.trace cmds)) := by
  rw [Machine.trace, drive_append]
  -- the four writes of the initialisation change no level
  have hboot : Transmits e [] (drive PinWrite.apply wireLow galvoXY2InitWrites) :=
    .idle rfl rfl (.idle rfl rfl (.idle rfl rfl (.idle rfl rfl .nil)))
  exact hboot.append (galvo_transmitsFrom e galvo.init cmds rfl rfl)

/-- The receiver on edge `e` after the pin writes `ws`. -/
def receiveWire (e : Edge) (ws : List PinWrite) : Receiver (Bool × Bool) :=
  (Receiver.fresh wireLow).receive e (drive PinWrite.apply wireLow ws)

/-- The receiver after a run: idle, with one frame per enabled tick. -/
theorem receiveWire_galvo (e : Edge) (cmds : List GalvoCmd) :
    (receiveWire e (galvo.trace cmds)).Idle
      ∧ (receiveWire e (galvo.trace cmds)).frames = sentFrames (tickStates cmds) := by
  obtain ⟨hidle, hframes⟩ := (galvo_transmits e cmds).receive
    (Receiver.fresh_idle (l := wireLow) rfl rfl)
  exact ⟨hidle, hframes.trans (List.nil_append _)⟩

/-- Every tick leaves positions that fit 16 bits. -/
theorem tickStatesFrom_inRange {s : GalvoState} (hs : s.InRange) (cmds : List GalvoCmd) :
    ∀ t ∈ tickStatesFrom s cmds, t.InRange := by
  induction cmds generalizing s with
  | nil => simp [tickStatesFrom]
  | cons c cmds ih =>
      cases c with
      | setTarget x y q f => exact ih (hs.step _)
      | timerTick =>
          intro t ht
          rcases List.mem_cons.mp ht with rfl | ht
          · exact hs.timerTick
          · exact ih (hs.step _) t ht

/-- Frames of in-range states decode to the positions. -/
theorem sentFrames_decode {states : List GalvoState} (h : ∀ s ∈ states, s.InRange) :
    (sentFrames states).map decodeFrame =
      (states.filter GalvoState.enabled).map fun s => some (s.currentX, s.currentY) := by
  rw [sentFrames, List.map_map]
  refine List.map_congr_left ?_
  intro s hs
  have hr := h s (List.mem_of_mem_filter hs)
  rw [Function.comp_apply, decodeFrame_frameBits, toInt_ofInt_of_range hr.currentX,
    toInt_ofInt_of_range hr.currentY]

/-- **Encoder and decoder agree over whole runs.** On either clock edge, after
any run no frame is left open, every frame has 20 bits and even parity on both
channels, and the frames are, one for one and in order, the ticks whose control
flags have the enable bit, decoding to the position each tick left. -/
theorem wire_frames (e : Edge) (cmds : List GalvoCmd) :
    let r := receiveWire e (galvo.trace cmds)
    r.bits = [] ∧ r.seen.sync = false
      ∧ (∀ frame ∈ r.frames, frame.length = 20 ∧ EvenOnes (frame.map Prod.fst)
          ∧ EvenOnes (frame.map Prod.snd))
      ∧ r.frames.map decodeFrame =
          ((tickStates cmds).filter GalvoState.enabled).map
            fun s => some (s.currentX, s.currentY) := by
  obtain ⟨hidle, hframes⟩ := receiveWire_galvo e cmds
  refine ⟨hidle.bits, hidle.sync, ?_, ?_⟩
  · intro frame hmem
    rw [hframes, sentFrames, List.mem_map] at hmem
    obtain ⟨s, _, rfl⟩ := hmem
    refine ⟨length_msbFirst _ _, ?_, ?_⟩
    · rw [frameBits, map_msbFirst]
      exact xy2PackWord_evenOnes _
    · rw [frameBits, map_msbFirst]
      exact xy2PackWord_evenOnes _
  · rw [hframes]
    exact sentFrames_decode (tickStatesFrom_inRange inRange_init cmds)

end GalvoCtrl.Slave
