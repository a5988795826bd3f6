import Mathlib.Data.Fin.VecNotation
import Mathlib.Data.Rat.Floor
import GalvoCtrl.Lib.Rounding

/-!
# Master — SendLoop

The cyclic part of the master (`galvo_pdo_control_vs/main.cpp`): scaling a
trajectory sample to XY2-100 codes, packing the RxPDO, and the send loop of
`run_trajectory` with its counters of lost frames. Lengths are exact rationals.
The network is the stream of working counters the exchanges return; console
output and the pacing of the cycle are left out.
-/

namespace GalvoCtrl.Master

open GalvoCtrl.Lib

/-! ## Data -/

/-- `kControlEnable` -/
def kControlEnable : BitVec 16 := 0x0001

/-- `GalvoRxPdo`; the codes are `int16_t`. -/
structure GalvoRxPdo where
  xCode : BitVec 16
  yCode : BitVec 16
  sequence : BitVec 16
  controlFlags : BitVec 16
deriving DecidableEq, Repr

/-- The structure in memory: packed, little-endian. -/
def GalvoRxPdo.bytes (rx : GalvoRxPdo) : Fin 8 → BitVec 8 :=
  ![rx.xCode.extractLsb' 0 8, rx.xCode.extractLsb' 8 8,
    rx.yCode.extractLsb' 0 8, rx.yCode.extractLsb' 8 8,
    rx.sequence.extractLsb' 0 8, rx.sequence.extractLsb' 8 8,
    rx.controlFlags.extractLsb' 0 8, rx.controlFlags.extractLsb' 8 8]

/-- `Sample` -/
structure Sample (α : Type*) where
  t : α
  galvoX : α
  galvoY : α
  laserEnable : Bool
deriving DecidableEq, Repr

/-- The `Options` that `run_trajectory` reads; `repeatCsv` is `--repeat`. -/
structure Options where
  fieldMm : ℚ
  xOffsetMm : ℚ
  yOffsetMm : ℚ
  maxLostFrames : Int
  repeatCsv : Bool

/-! ## Scaling -/

/-- `mm_to_xy2_code` -/
def mmToXy2Code (mm fieldMm : ℚ) : BitVec 16 :=
  let clamped := stdClamp (mm / fieldMm) (-1) 1
  let scaled : ℚ := roundHalfAway (clamped * 32767)
  BitVec.ofInt 16 (truncZ (stdClamp scaled (-32768) 32767))

/-- **The second clamp and the cast lose nothing**: the code is the rounded
full-scale fraction. -/
theorem toInt_mmToXy2Code (mm fieldMm : ℚ) :
    (mmToXy2Code mm fieldMm).toInt = roundHalfAway (stdClamp (mm / fieldMm) (-1) 1 * 32767) := by
  have hclamp := stdClamp_mem (v := mm / fieldMm) (show (-1 : ℚ) ≤ 1 from by norm_num)
  obtain ⟨hlow, hhigh⟩ := roundHalfAway_mem (m := -32767) (n := 32767)
    (x := stdClamp (mm / fieldMm) (-1) 1 * 32767) (by push_cast; linarith [hclamp.1])
    (by push_cast; linarith [hclamp.2])
  unfold mmToXy2Code
  dsimp only
  generalize roundHalfAway (stdClamp (mm / fieldMm) (-1) 1 * 32767) = code at hlow hhigh ⊢
  have h1 : (-32768 : ℚ) ≤ code := by exact_mod_cast (by omega : (-32768 : ℤ) ≤ code)
  have h2 : (code : ℚ) ≤ 32767 := by exact_mod_cast hhigh
  rw [stdClamp_of_mem h1 h2, truncZ_intCast]
  exact BitVec.toInt_ofInt_eq_self (by decide) (by omega) (by omega)

/-- **Quantisation error**: half a code step at most. -/
theorem mmToXy2Code_error (mm fieldMm : ℚ) :
    |((mmToXy2Code mm fieldMm).toInt : ℚ) / 32767 - stdClamp (mm / fieldMm) (-1) 1|
      ≤ 1 / 65534 := by
  rw [toInt_mmToXy2Code]
  generalize stdClamp (mm / fieldMm) (-1) 1 = c
  have herr := abs_roundHalfAway_sub_le (c * 32767)
  have hscale : ((roundHalfAway (c * 32767) : ℤ) : ℚ) / 32767 - c
      = ((roundHalfAway (c * 32767) : ℤ) - c * 32767) / 32767 := by
    field_simp
  rw [hscale, abs_div, abs_of_pos (show (0 : ℚ) < 32767 from by norm_num)]
  calc _ ≤ (1 / 2) / (32767 : ℚ) := by gcongr
    _ = 1 / 65534 := by norm_num

/-! ## The send loop -/

/-- The RxPDO of a sample. -/
def rxPdo (opt : Options) (s : Sample ℚ) (sequence : BitVec 16) : GalvoRxPdo where
  xCode := mmToXy2Code (s.galvoX + opt.xOffsetMm) opt.fieldMm
  yCode := mmToXy2Code (s.galvoY + opt.yOffsetMm) opt.fieldMm
  sequence := sequence
  controlFlags := if s.laserEnable then kControlEnable else 0

/-- What an `int` keeps of `z`: thirty-two bits. -/
def toInt32 (z : Int) : Int := z.bmod (2 ^ 32)

/-- The variables of `run_trajectory`, with the log of what it put on the bus;
`stopped` is the early return. `lost_in_row` is compared with its limit, an `int`, after
every step, and so never leaves that range; `total_lost` is bounded by nothing. -/
structure LoopState where
  sequence : BitVec 16
  lostInRow : Int
  totalLost : Int
  sent : List GalvoRxPdo
  stopped : Bool

def LoopState.start : LoopState := ⟨0, 0, 0, [], false⟩

/-- The loop body: send the sample, look at the working counter. -/
def sendSample (opt : Options) (sample : Sample ℚ) (wkc : Int) (s : LoopState) : LoopState :=
  let s := { s with
    sent := s.sent ++ [rxPdo opt sample s.sequence]
    sequence := s.sequence + 1 }
  if wkc ≤ 0 then
    -- C++ leaves the overflow of an `int` undefined; the low bits are what is kept of it
    let s := { s with lostInRow := s.lostInRow + 1, totalLost := toInt32 (s.totalLost + 1) }
    if s.lostInRow ≥ opt.maxLostFrames then { s with stopped := true } else s
  else { s with lostInRow := 0 }

/-- The `for` loop over the samples; `wkc n` is the result of exchange `n`. -/
def sendPass (opt : Options) (wkc : Nat → Int) : List (Sample ℚ) → LoopState → LoopState
  | [], s => s
  | sample :: rest, s =>
      let s := sendSample opt sample (wkc s.sent.length) s
      if s.stopped then s else sendPass opt wkc rest s

/-- The `do … while (opt.repeat)` loop, for at most `fuel` passes. -/
def sendPasses (opt : Options) (wkc : Nat → Int) (samples : List (Sample ℚ)) :
    (fuel : Nat) → LoopState → LoopState
  | 0, s => s
  | fuel + 1, s =>
      let s := sendPass opt wkc samples s
      if s.stopped || !opt.repeatCsv then s else sendPasses opt wkc samples fuel s

/-- `run_trajectory`, watched for `fuel` passes over the samples. -/
def runTrajectory (samples : List (Sample ℚ)) (opt : Options) (wkc : Nat → Int) (fuel : Nat) :
    LoopState := sendPasses opt wkc samples fuel .start

/-! ## What it sends -/

/-- Everything sent so far is the samples in cyclic order, numbered modulo 2^16. -/
structure SendsInOrder (samples : List (Sample ℚ)) (opt : Options) (s : LoopState) : Prop where
  sequence : s.sequence = BitVec.ofNat 16 s.sent.length
  sent : ∀ n rx, s.sent[n]? = some rx → ∃ sample, samples[n % samples.length]? = some sample
    ∧ rx = rxPdo opt sample (BitVec.ofNat 16 n)

variable {samples : List (Sample ℚ)} {opt : Options} {wkc : Nat → Int}

/-- The counters do not matter for what is sent. -/
theorem sendSample_sent (opt : Options) (sample : Sample ℚ) (w : Int) (s : LoopState) :
    (sendSample opt sample w s).sent = s.sent ++ [rxPdo opt sample s.sequence]
      ∧ (sendSample opt sample w s).sequence = s.sequence + 1 := by
  unfold sendSample
  dsimp only
  split_ifs <;> exact ⟨rfl, rfl⟩

theorem SendsInOrder.sendSample {s : LoopState} (h : SendsInOrder samples opt s)
    {sample : Sample ℚ} (hnext : samples[s.sent.length % samples.length]? = some sample)
    (w : Int) : SendsInOrder samples opt (sendSample opt sample w s) := by
  obtain ⟨hsent, hseq⟩ := sendSample_sent opt sample w s
  constructor
  · rw [hsent, hseq, h.sequence, List.length_append, BitVec.ofNat_add]
    rfl
  · intro n rx hn
    rw [hsent] at hn
    -- an older exchange, this one, or none
    rcases Nat.lt_trichotomy n s.sent.length with hlt | heq | hgt
    · rw [List.getElem?_append_left hlt] at hn
      exact h.sent n rx hn
    · rw [heq, List.getElem?_concat_length] at hn
      refine ⟨sample, by rwa [heq], ?_⟩
      rw [heq, ← h.sequence]
      exact (Option.some.inj hn).symm
    · rw [List.getElem?_eq_none (by simp; omega)] at hn
      cases hn

/-- One pass over the rest of the samples, `k` passes and `done` behind it. -/
theorem SendsInOrder.sendPass {k : Nat} {rest : List (Sample ℚ)} :
    ∀ (done : List (Sample ℚ)) (s : LoopState), samples = done ++ rest →
      s.sent.length = k * samples.length + done.length → SendsInOrder samples opt s →
      SendsInOrder samples opt (sendPass opt wkc rest s)
        ∧ ((Master.sendPass opt wkc rest s).stopped = false →
          (Master.sendPass opt wkc rest s).sent.length = (k + 1) * samples.length) := by
  induction rest with
  | nil =>
      intro done s hsplit hlen h
      refine ⟨h, ?_⟩
      intro _
      rw [List.append_nil] at hsplit
      rw [Master.sendPass, hlen, hsplit, Nat.succ_mul]
  | cons sample rest ih =>
      intro done s hsplit hlen h
      have hlt : done.length < samples.length := by
        rw [hsplit, List.length_append, List.length_cons]
        omega
      -- the cyclic position is the one behind `done`
      have hnext : samples[s.sent.length % samples.length]? = some sample := by
        rw [hlen, Nat.mul_comm, Nat.mul_add_mod, Nat.mod_eq_of_lt hlt, hsplit,
          List.getElem?_append_right (Nat.le_refl _), Nat.sub_self]
        rfl
      have hstep := h.sendSample hnext (wkc s.sent.length)
      rw [Master.sendPass]
      by_cases hstop : (Master.sendSample opt sample (wkc s.sent.length) s).stopped = true
      · rw [if_pos hstop]
        exact ⟨hstep, fun hf => by rw [hstop] at hf; cases hf⟩
      · rw [if_neg hstop]
        refine ih (done ++ [sample]) _ (by rw [hsplit]; simp) ?_ hstep
        rw [(sendSample_sent ..).1, List.length_append, List.length_append, hlen]
        rfl

/-- **The send loop sends the samples in cyclic order**, numbered modulo 2^16,
whatever the network answers. -/
theorem runTrajectory_sends (samples : List (Sample ℚ)) (opt : Options) (wkc : Nat → Int)
    (fuel : Nat) : SendsInOrder samples opt (runTrajectory samples opt wkc fuel) := by
  have hpasses : ∀ k s, s.sent.length = k * samples.length → SendsInOrder samples opt s →
      SendsInOrder samples opt (sendPasses opt wkc samples fuel s) := by
    induction fuel with
    | zero => exact fun _ _ _ h => h
    | succ fuel ih =>
        intro k s hlen h
        obtain ⟨hpass, hfull⟩ : SendsInOrder samples opt (sendPass opt wkc samples s)
            ∧ ((sendPass opt wkc samples s).stopped = false →
              (sendPass opt wkc samples s).sent.length = (k + 1) * samples.length) :=
          SendsInOrder.sendPass [] s (List.nil_append samples).symm hlen h
        rw [sendPasses]
        by_cases hend : ((sendPass opt wkc samples s).stopped || !opt.repeatCsv) = true
        · rw [if_pos hend]
          exact hpass
        · -- another pass starts only after a full one
          rw [if_neg hend]
          rw [Bool.or_eq_true, not_or, Bool.not_eq_true] at hend
          exact ih (k + 1) _ (hfull hend.1) hpass
  exact hpasses 0 .start (Nat.zero_mul _).symm ⟨rfl, by simp [LoopState.start]⟩

end GalvoCtrl.Master
