import GalvoCtrl.Slave.WireFrames

/-!
# Core — Xy2100

The second XY2-100 sender of the repository, `src/Core/Src/xy2_100.c`, and how
its bit stream compares with the deployed slave's `xy2_send_frame`. This sender
writes the four pins of one port through the set and reset halves of `BSRR`,
so several lines change in one write.

`Inc/xy2_100.h` lacks two of the constants: `XY2_100_CONTROL_BITS` is taken to
be the position header 001 and `XY2_100_BITS_PER_FRAME` to be 20. Clock enabling,
pin modes and the half-period delays do not move the lines.
-/

namespace GalvoCtrl.Core

open GalvoCtrl.Lib GalvoCtrl.Lib.SyncSerial GalvoCtrl.Slave

/-! ## The port -/

def xy2ClkPin : Nat := 0

def xy2SyncPin : Nat := 1

def xy2XPin : Nat := 2

def xy2YPin : Nat := 3

def xy2ClkMask : BitVec 32 := 1#32 <<< xy2ClkPin

def xy2SyncMask : BitVec 32 := 1#32 <<< xy2SyncPin

def xy2XMask : BitVec 32 := 1#32 <<< xy2XPin

def xy2YMask : BitVec 32 := 1#32 <<< xy2YPin

def xy2DataMask : BitVec 32 := xy2XMask ||| xy2YMask

def xy2AllMask : BitVec 32 := xy2ClkMask ||| xy2SyncMask ||| xy2DataMask

/-- A write to the port: `BSRRL` sets the pins of the mask, `BSRRH` resets them. -/
inductive PortWrite where
  | bsrrl (mask : BitVec 32)
  | bsrrh (mask : BitVec 32)
deriving DecidableEq, Repr

/-- The levels of the four pins after a write. -/
def PortWrite.apply (w : PortWrite) (l : WireLevels) : WireLevels :=
  match w with
  | .bsrrl m =>
      ⟨l.clk || m.getLsbD xy2ClkPin, l.sync || m.getLsbD xy2SyncPin,
        (l.data.1 || m.getLsbD xy2XPin, l.data.2 || m.getLsbD xy2YPin)⟩
  | .bsrrh m =>
      ⟨l.clk && !m.getLsbD xy2ClkPin, l.sync && !m.getLsbD xy2SyncPin,
        (l.data.1 && !m.getLsbD xy2XPin, l.data.2 && !m.getLsbD xy2YPin)⟩

/-! ## The sender -/

/-- `XY2_100_CONTROL_BITS`, the position header. -/
def xy2100ControlBits : BitVec 32 := 0b001

/-- `XY2_100_BITS_PER_FRAME` -/
def xy2100BitsPerFrame : Nat := 20

/-- `XY2_100_EvenParity`: the word folded onto a nibble, then a table. -/
def xy2100EvenParity (value : BitVec 32) : BitVec 8 :=
  let value := value ^^^ (value >>> 16)
  let value := value ^^^ (value >>> 8)
  let value := value ^^^ (value >>> 4)
  let value := value &&& 0x0F#32
  ((0x6996#32 >>> value.toNat) &&& 1#32).setWidth 8

/-- `XY2_100_BuildWord` -/
def xy2100BuildWord (value : BitVec 16) : BitVec 32 :=
  let word := ((xy2100ControlBits &&& 0x07#32) <<< 17) ||| (value.setWidth 32 <<< 1)
  let word := word ||| (xy2100EvenParity (word >>> 1)).setWidth 32
  word &&& 0x000FFFFF#32

/-- The `setMask` of one bit. -/
def xy2100SetMask (xWord yWord : BitVec 32) (bit : Nat) : BitVec 32 :=
  (if xWord &&& (1#32 <<< bit) ≠ 0 then xy2XMask else 0)
    ||| (if yWord &&& (1#32 <<< bit) ≠ 0 then xy2YMask else 0)

/-- The loop of `XY2_100_SendPoint` over the bits `bits - 1, …, 0`. -/
def xy2100SendBits (xWord yWord : BitVec 32) : (bits : Nat) → List PortWrite
  | 0 => []
  | bit + 1 =>
      [.bsrrh (xy2ClkMask ||| xy2DataMask), .bsrrl (xy2100SetMask xWord yWord bit),
        .bsrrl xy2ClkMask] ++ xy2100SendBits xWord yWord bit

/-- `XY2_100_Init`: the pins go low, once. -/
def xy2100Init (xy2Initialized : Bool) : Bool × List PortWrite :=
  if xy2Initialized then (true, []) else (true, [.bsrrh xy2AllMask])

/-- `XY2_100_SendPoint` -/
def xy2100SendPoint (x y : BitVec 16) (xy2Initialized : Bool) : Bool × List PortWrite :=
  let (initialized, writes) := xy2100Init xy2Initialized
  (initialized, writes ++ (.bsrrl xy2SyncMask ::
    (xy2100SendBits (xy2100BuildWord x) (xy2100BuildWord y) xy2100BitsPerFrame
      ++ [.bsrrh (xy2ClkMask ||| xy2SyncMask ||| xy2DataMask)])))

/-- A point: the signed 16-bit codes of both channels. -/
abbrev Point := BitVec 16 × BitVec 16

/-- The sender as a machine that takes points; its state is `xy2Initialized`. -/
def core : Machine Bool Point PortWrite where
  init := false
  boot := []
  step init p := (xy2100SendPoint p.1 p.2 init).1
  emit init p := (xy2100SendPoint p.1 p.2 init).2

/-! ## The word it builds -/

/-- The table `0x6996` holds the parity of every nibble. -/
private theorem nibble_table : ∀ n : Fin 16,
    (0x6996#32 >>> n.val) &&& 1#32
      = BitVec.setWidth 32 (BitVec.ofBool (xorBits (n.val).testBit 4)) := by decide

/-- **The folded parity is the exclusive or of all 32 bits.** -/
theorem xy2100EvenParity_eq (v : BitVec 32) :
    xy2100EvenParity v = BitVec.setWidth 8 (BitVec.ofBool (xorBits v.getLsbD 32)) := by
  have hfold : ∀ a b c : BitVec 32, a = v ^^^ (v >>> 16) → b = a ^^^ (a >>> 8) →
      c = b ^^^ (b >>> 4) → xorBits c.getLsbD 4 = xorBits v.getLsbD 32 := by
    rintro a b c rfl rfl rfl
    -- folding the upper half onto the lower one keeps the exclusive or
    rw [xorBits_fold, xorBits_fold, xorBits_fold]
  unfold xy2100EvenParity
  dsimp only
  rw [← hfold _ _ _ rfl rfl rfl]
  generalize (v ^^^ v >>> 16) ^^^ (v ^^^ v >>> 16) >>> 8 = b
  generalize b ^^^ b >>> 4 = c
  have hlt : (c &&& 0x0F#32).toNat < 16 := by
    rw [BitVec.toNat_and]
    exact Nat.lt_of_le_of_lt Nat.and_le_right (by decide)
  have hbits : xorBits (c &&& 0x0F#32).toNat.testBit 4 = xorBits c.getLsbD 4 :=
    xorBits_congr fun i hi => by
      have hmask : ∀ j : Fin 4, (0x0F#32).getLsbD j.val = true := by decide
      rw [BitVec.testBit_toNat, BitVec.getLsbD_and, hmask ⟨i, hi⟩, Bool.and_true]
  rw [nibble_table ⟨_, hlt⟩, hbits]
  cases xorBits c.getLsbD 4 <;> rfl

/-- Header and code, shifted to where the parity is computed. -/
private theorem headerWord_getLsbD (v : BitVec 16) (i : Nat) :
    (((xy2100ControlBits &&& 0x07#32) <<< 17) ||| (v.setWidth 32 <<< 1)).getLsbD (i + 1)
      = (decide (i = 16) || v.getLsbD i) := by
  have hheader : (xy2100ControlBits &&& 0x07#32) <<< 17 = BitVec.twoPow 32 17 := by decide
  rw [hheader, BitVec.getLsbD_or, BitVec.getLsbD_twoPow, BitVec.getLsbD_shiftLeft,
    BitVec.getLsbD_setWidth, Nat.add_sub_cancel]
  by_cases hi : i < 16
  · simp [show i + 1 < 32 from by omega, show i ≠ 16 from by omega,
      show 17 ≠ i + 1 from by omega, show i < 32 from by omega]
  · rw [BitVec.getLsbD_of_ge v i (by omega)]
    by_cases h16 : i = 16
    · simp [h16]
    · simp [h16, show 17 ≠ i + 1 from by omega]

/-- The parity of header and code: the header is one more bit. -/
private theorem headerWord_parity (v : BitVec 16) :
    xorBits (((((xy2100ControlBits &&& 0x07#32) <<< 17) ||| (v.setWidth 32 <<< 1)) >>> 1)).getLsbD
      32 = !xorBits v.getLsbD 16 := by
  have htop : ∀ i, 16 ≤ i → v.getLsbD i = false := fun i hi => BitVec.getLsbD_of_ge v i hi
  have hbits : xorBits (fun i => decide (i + 16 = 16) || v.getLsbD (i + 16)) 16 = true := by
    rw [xorBits_congr (g := fun i => decide (i = 0)) fun i _ => by
      rw [htop (i + 16) (by omega), Bool.or_false]
      exact decide_eq_decide.mpr (by omega)]
    rfl
  have hlow : xorBits (fun i => decide (i = 16) || v.getLsbD i) 16 = xorBits v.getLsbD 16 :=
    xorBits_congr fun i hi => by rw [decide_eq_false (by omega), Bool.false_or]
  rw [xorBits_congr fun i _ => by
    rw [BitVec.getLsbD_ushiftRight, Nat.add_comm, headerWord_getLsbD], show 32 = 16 + 16 from rfl,
    xorBits_add, hbits, hlow, Bool.xor_true]

/-- A position frame bit by bit: the parity of header and code, the code, the
header. -/
def positionBit (v : BitVec 16) : Nat → Bool
  | 0 => !xorBits v.getLsbD 16
  | i + 1 => decide (i = 16) || v.getLsbD i

theorem xy2100BuildWord_getLsbD (v : BitVec 16) {i : Nat} (hi : i < 20) :
    (xy2100BuildWord v).getLsbD i = positionBit v i := by
  have hmask : ∀ j : Fin 20, (0x000FFFFF#32).getLsbD j.val = true := by decide
  unfold xy2100BuildWord
  dsimp only
  rw [BitVec.getLsbD_and, hmask ⟨i, hi⟩, Bool.and_true, BitVec.getLsbD_or, xy2100EvenParity_eq,
    headerWord_parity]
  cases i with
  | zero =>
      rw [BitVec.getLsbD_or, BitVec.getLsbD_shiftLeft, BitVec.getLsbD_shiftLeft, positionBit]
      cases xorBits v.getLsbD 16 <;> rfl
  | succ i =>
      rw [headerWord_getLsbD]
      have hhigh : (BitVec.setWidth 32 (BitVec.setWidth 8
          (BitVec.ofBool (!xorBits v.getLsbD 16)))).getLsbD (i + 1) = false := by
        simp
      rw [hhigh, Bool.or_false, positionBit]

theorem xy2100BuildWord_evenOnes (v : BitVec 16) :
    EvenOnes (msbFirst (xy2100BuildWord v).getLsbD 20) := by
  have htop : ∀ i, 16 ≤ i → v.getLsbD i = false := fun i hi => BitVec.getLsbD_of_ge v i hi
  have hlow : xorBits (fun i => positionBit v (i + 1)) 16 = xorBits v.getLsbD 16 :=
    xorBits_congr fun i hi => by
      rw [positionBit, decide_eq_false (by omega), Bool.false_or]
  rw [msbFirst_congr fun i hi => xy2100BuildWord_getLsbD v hi, evenOnes_msbFirst,
    xorBits_succ', show 19 = 16 + 1 + 1 + 1 from rfl, xorBits, xorBits, xorBits, hlow]
  simp only [positionBit, htop 16 (by omega), htop 17 (by omega), htop 18 (by omega)]
  cases xorBits v.getLsbD 16 <;> rfl

/-- One channel of an XY2-100 position frame: header 001, the 16 data bits, the
bit that makes the ones even. -/
def positionWord (v : BitVec 16) : List Bool :=
  withParity ([false, false, true] ++ msbFirst v.getLsbD 16)

/-- **The word it builds is the word of the format.** -/
theorem msbFirst_xy2100BuildWord (v : BitVec 16) :
    msbFirst (xy2100BuildWord v).getLsbD 20 = positionWord v := by
  have htop : ∀ i, 16 ≤ i → v.getLsbD i = false := fun i hi => BitVec.getLsbD_of_ge v i hi
  have hcode : msbFirst (fun i => positionBit v (i + 1)) 16 = msbFirst v.getLsbD 16 :=
    msbFirst_congr fun i hi => by
      rw [positionBit, decide_eq_false (by omega), Bool.false_or]
  have hbits : msbFirst (xy2100BuildWord v).getLsbD 20 =
      ([false, false, true] ++ msbFirst v.getLsbD 16) ++ [!xorBits v.getLsbD 16] := by
    rw [msbFirst_congr fun i hi => xy2100BuildWord_getLsbD v hi, show 20 = 3 + 16 + 1 from rfl,
      msbFirst_add, msbFirst_add, hcode]
    simp only [msbFirst, positionBit, htop 16 (by omega), htop 17 (by omega),
      htop 18 (by omega)]
    rfl
  have heven := xy2100BuildWord_evenOnes v
  rw [hbits] at heven ⊢
  exact evenOnes_concat.mp heven

/-! ## Its frames on the pins -/

/-- The bit pairs of a point, by the format. -/
def positionFrame (p : Point) : List (Bool × Bool) := (positionWord p.1).zip (positionWord p.2)

theorem positionFrame_eq (p : Point) :
    positionFrame p = msbFirst (fun i =>
      ((xy2100BuildWord p.1).getLsbD i, (xy2100BuildWord p.2).getLsbD i)) xy2100BitsPerFrame := by
  rw [positionFrame, ← msbFirst_xy2100BuildWord, ← msbFirst_xy2100BuildWord, zip_msbFirst]
  rfl

/-- A bit test of a word. -/
private theorem and_bit_ne_zero (w : BitVec 32) {i : Nat} (hi : i < 32) :
    w &&& (1#32 <<< i) ≠ 0 ↔ w.getLsbD i = true := by
  have hpow : 1#32 <<< i = BitVec.twoPow 32 i := (BitVec.twoPow_eq 32 i).symm
  have hne : BitVec.twoPow 32 i ≠ 0 := fun h => by
    have hbit := congrArg (BitVec.getLsbD · i) h
    simp [hi] at hbit
  rw [hpow, BitVec.and_twoPow]
  cases w.getLsbD i with
  | true => simpa using hne
  | false => simp

/-- The bit loop is one cell per bit for a receiver on rising edges, and leaves
sync high. -/
theorem xy2100SendBits_cells (xWord yWord : BitVec 32) {n : Nat} (hn : n ≤ 32)
    {l : WireLevels} (hsync : l.sync = true) :
    Cells .rising (msbFirst (fun i => (xWord.getLsbD i, yWord.getLsbD i)) n)
      (drive PortWrite.apply l (xy2100SendBits xWord yWord n)) := by
  induction n generalizing l with
  | zero => exact .nil
  | succ n ih =>
      obtain ⟨c, s, x, y⟩ := l
      obtain rfl : s = true := hsync
      have hmask : xy2100SetMask xWord yWord n
          = (if xWord.getLsbD n then xy2XMask else 0)
            ||| (if yWord.getLsbD n then xy2YMask else 0) := by
        simp only [xy2100SetMask, and_bit_ne_zero xWord (by omega : n < 32),
          and_bit_ne_zero yWord (by omega : n < 32)]
      rw [xy2100SendBits, hmask, drive_append, msbFirst]
      generalize xWord.getLsbD n = bx
      generalize yWord.getLsbD n = byy
      have hcell : drive PortWrite.apply ⟨c, true, (x, y)⟩
            [.bsrrh (xy2ClkMask ||| xy2DataMask),
              .bsrrl ((if bx then xy2XMask else 0) ||| (if byy then xy2YMask else 0)),
              .bsrrl xy2ClkMask]
          = [⟨false, true, (false, false)⟩, ⟨false, true, (bx, byy)⟩,
              ⟨true, true, (bx, byy)⟩] := by
        cases c <;> cases x <;> cases y <;> cases bx <;> cases byy <;> decide
      have hend : (driveEnd PortWrite.apply ⟨c, true, (x, y)⟩
            [.bsrrh (xy2ClkMask ||| xy2DataMask),
              .bsrrl ((if bx then xy2XMask else 0) ||| (if byy then xy2YMask else 0)),
              .bsrrl xy2ClkMask]).sync = true := rfl
      rw [hcell]
      -- the data is on the lines one write before the clock rises
      refine .cons ⟨?_⟩ (ih (by omega) hend)
      exact ⟨[⟨false, true, (false, false)⟩, ⟨false, true, (bx, byy)⟩],
        ⟨true, true, (bx, byy)⟩, [], [], rfl, by simp, by simp, by simp, by simp, rfl⟩

/-- A write that resets every line. -/
private theorem reset_all (l : WireLevels) :
    (PortWrite.bsrrh (xy2ClkMask ||| xy2SyncMask ||| xy2DataMask)).apply l = wireLow := by
  obtain ⟨c, s, x, y⟩ := l
  cases c <;> cases s <;> cases x <;> cases y <;> decide

/-- **`XY2_100_SendPoint` transmits one frame** of the point, initialised before
or not, and leaves every line low. -/
theorem xy2100SendPoint_transmits (p : Point) (init : Bool) :
    Transmits .rising [positionFrame p]
        (drive PortWrite.apply wireLow (xy2100SendPoint p.1 p.2 init).2)
      ∧ driveEnd PortWrite.apply wireLow (xy2100SendPoint p.1 p.2 init).2 = wireLow := by
  have hboot : Transmits (δ := Bool × Bool) .rising []
        (drive PortWrite.apply wireLow (xy2100Init init).2)
      ∧ driveEnd PortWrite.apply wireLow (xy2100Init init).2 = wireLow := by
    cases init with
    | true => exact ⟨.nil, rfl⟩
    | false => exact ⟨.idle rfl rfl .nil, rfl⟩
  have hwrites : (xy2100SendPoint p.1 p.2 init).2 = (xy2100Init init).2
      ++ (.bsrrl xy2SyncMask :: (xy2100SendBits (xy2100BuildWord p.1) (xy2100BuildWord p.2)
        xy2100BitsPerFrame ++ [.bsrrh (xy2ClkMask ||| xy2SyncMask ||| xy2DataMask)])) := rfl
  -- whether it initialises or not, the point starts from low lines
  rw [hwrites, drive_append, driveEnd_append, hboot.2]
  refine ⟨hboot.1.append ?_, ?_⟩
  · have hcells := xy2100SendBits_cells (xy2100BuildWord p.1) (xy2100BuildWord p.2)
      (n := xy2100BitsPerFrame) (l := ⟨false, true, (false, false)⟩) (by decide) rfl
    rw [← positionFrame_eq] at hcells
    rw [← List.append_nil (drive _ _ _)]
    refine .frame ⟨⟨false, true, (false, false)⟩, _, wireLow, ?_, rfl, rfl, hcells, rfl, rfl⟩
      .nil
    rw [drive, drive_append, drive, drive, reset_all]
    rfl
  · rw [driveEnd_cons, driveEnd_append, driveEnd_cons, driveEnd_nil, reset_all]

/-- Every run transmits one frame per point. -/
theorem core_transmitsFrom (init : Bool) (points : List Point) :
    Transmits .rising (points.map positionFrame)
      (drive PortWrite.apply wireLow (core.traceFrom init points)) := by
  induction points generalizing init with
  | nil => exact .nil
  | cons p points ih =>
      obtain ⟨hsent, hend⟩ := xy2100SendPoint_transmits p init
      rw [Machine.traceFrom, drive_append]
      show Transmits .rising _ (_ ++ drive PortWrite.apply (driveEnd PortWrite.apply wireLow
        (xy2100SendPoint p.1 p.2 init).2) _)
      rw [hend]
      exact hsent.append (ih _)

/-! ## The two senders -/

/-- What a receiver on rising edges samples from this sender. -/
def coreStream (points : List Point) : List (Bool × Bool) :=
  ((Receiver.fresh wireLow).receive .rising
    (drive PortWrite.apply wireLow (core.trace points))).stream

/-- What a receiver on rising edges samples from the slave's `xy2_send_frame`. -/
def slaveStream (points : List Point) : List (Bool × Bool) :=
  (receiveWire .rising (points.flatMap fun p => xy2SendFrame p.1 p.2)).stream

theorem coreStream_eq (points : List Point) :
    coreStream points = points.flatMap positionFrame := by
  obtain ⟨hidle, hframes⟩ := (core_transmitsFrom core.init points).receive
    (Receiver.fresh_idle (l := wireLow) rfl rfl)
  show ((Receiver.fresh wireLow).receive .rising
    (drive PortWrite.apply wireLow (core.traceFrom core.init points))).stream = _
  rw [hidle.stream, hframes]
  rfl

/-- The slave's sender, point by point. -/
theorem sendFrames_transmits (points : List Point) {l : WireLevels} (hclk : l.clk = false) :
    Transmits .rising (points.map fun p => frameBits p.1 p.2)
      (drive PinWrite.apply l (points.flatMap fun p => xy2SendFrame p.1 p.2)) := by
  induction points generalizing l with
  | nil => exact .nil
  | cons p points ih =>
      obtain ⟨hframe, hc, _⟩ := xy2SendFrame_isFrame .rising p.1 p.2 hclk
      rw [List.flatMap_cons, drive_append]
      exact .frame hframe (ih hc)

theorem slaveStream_eq (points : List Point) :
    slaveStream points = points.flatMap fun p => frameBits p.1 p.2 := by
  obtain ⟨hidle, hframes⟩ := (sendFrames_transmits points (l := wireLow) rfl).receive
    (Receiver.fresh_idle (l := wireLow) rfl rfl)
  rw [slaveStream, receiveWire, hidle.stream, hframes]
  rfl

/-- The two senders agree on `points`, and on the format. -/
def SendersAgree (points : List Point) : Prop :=
  slaveStream points = coreStream points ∧ coreStream points = points.flatMap positionFrame

/-- In the third pair of a frame, the low header bit, the senders differ. -/
private theorem header_differs (p : Point) (rest : List (Bool × Bool)) :
    (frameBits p.1 p.2 ++ rest)[2]? = some (false, false)
      ∧ (positionFrame p ++ rest)[2]? = some (true, true) := by
  have hbit : ∀ c : BitVec 16, (xy2PackWord c).getLsbD 17 = false := fun c => by
    rw [xy2PackWord_getLsbD]
    exact BitVec.getLsbD_of_ge c 16 (by omega)
  refine ⟨?_, rfl⟩
  show some ((xy2PackWord p.1).getLsbD 17, (xy2PackWord p.2).getLsbD 17) = _
  rw [hbit, hbit]

/-- **The two senders agree on no point at all**: the slave's frames lack the
header 001, so the streams coincide exactly when nothing is sent. -/
theorem sendersAgree_iff (points : List Point) : SendersAgree points ↔ points = [] := by
  constructor
  · rintro ⟨heq, -⟩
    rw [slaveStream_eq, coreStream_eq] at heq
    cases points with
    | nil => rfl
    | cons p points =>
        rw [List.flatMap_cons, List.flatMap_cons] at heq
        -- equal streams agree on the third pair of the first frame
        have hthird := congrArg (·[2]?) heq
        simp only [(header_differs p _).1, (header_differs p _).2] at hthird
        cases hthird
  · rintro rfl
    exact ⟨rfl, rfl⟩

/-- The origin, sent once. -/
theorem not_sendersAgree_origin : ¬ SendersAgree [(0, 0)] := by
  rintro ⟨heq, -⟩
  rw [slaveStream_eq, coreStream_eq] at heq
  exact absurd heq (by decide)

end GalvoCtrl.Core
