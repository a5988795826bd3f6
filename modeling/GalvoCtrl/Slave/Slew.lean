import Mathlib.Data.List.Chain
import GalvoCtrl.Slave.Segment
import GalvoCtrl.Slave.WireFrames

/-!
# Slave — Slew

How far the codes of two frames can be apart. A tick moves the position by at
most one tenth of the full range. But the position moves on while the enable flag
is clear and no frames are sent, so what bounds two frames is the number of ticks
between them, and not that they are neighbours on the wire.
-/

namespace GalvoCtrl.Slave

open GalvoCtrl.Lib GalvoCtrl.Lib.SyncSerial

/-- On each axis at most `b` codes apart. -/
def Within (b : Nat) (p q : Int × Int) : Prop :=
  (q.1 - p.1).natAbs ≤ b ∧ (q.2 - p.2).natAbs ≤ b

instance (b : Nat) (p q : Int × Int) : Decidable (Within b p q) :=
  inferInstanceAs (Decidable (_ ∧ _))

def GalvoState.position (s : GalvoState) : Int × Int := (s.currentX, s.currentY)

/-- One tenth of the full range of 65535 codes, rounded up. -/
def slewPerTick : Nat := 6554

/-! ## One tick -/

private theorem span_step {a b : Int} (ha : Int16Range a) (hb : Int16Range b) :
    (b - a).natAbs ⌈/⌉ xy2InterpFrames ≤ slewPerTick := by
  obtain ⟨ha1, ha2⟩ := ha
  obtain ⟨hb1, hb2⟩ := hb
  rw [ceilDiv_le_iff_le_mul (by decide)]
  show (b - a).natAbs ≤ 10 * 6554
  omega

theorem timerTick_slew {s : GalvoState} (hr : s.InRange) (h : s.OnSegment) :
    Within slewPerTick s.position (galvoXY2TimerTick s).1.position := by
  obtain ⟨x₀, y₀, x₁, y₁, k, hs⟩ := h
  have ht := hs.timerTick
  have hx := span_step (hs.startX ▸ hr.startX) (hs.targetX ▸ hr.targetX)
  have hy := span_step (hs.startY ▸ hr.startY) (hs.targetY ▸ hr.targetY)
  rw [Within, GalvoState.position, GalvoState.position, hs.currentX, hs.currentY, ht.currentX,
    ht.currentY]
  exact ⟨(along_step x₀ x₁ (by decide) k).trans hx, (along_step y₀ y₁ (by decide) k).trans hy⟩

/-! ## Runs -/

/-- A command leaves the position where it is. -/
theorem setTarget_position (s : GalvoState) (x y q f : BitVec 16) :
    (galvo.step s (.setTarget x y q f)).position = s.position := by
  show (galvoXY2SetTarget x y q f s).position = s.position
  unfold galvoXY2SetTarget
  split <;> rfl

/-- The states of neighbouring ticks, from the position before the first one. -/
theorem tickStatesFrom_slew {s : GalvoState} (hr : s.InRange) (h : s.OnSegment)
    (cmds : List GalvoCmd) :
    (s.position :: (tickStatesFrom s cmds).map GalvoState.position).IsChain
      (Within slewPerTick) := by
  induction cmds generalizing s with
  | nil => exact .singleton _
  | cons c cmds ih =>
      have ih := ih (hr.step c) (h.step c)
      cases c with
      | setTarget x y q f =>
          rw [setTarget_position] at ih
          exact ih
      | timerTick => exact List.isChain_cons_cons.mpr ⟨timerTick_slew hr h, ih⟩

/-- **Any two ticks of a run**: the bound grows with their distance. -/
theorem tickStates_slew (cmds : List GalvoCmd) {m n : Nat} (hmn : m ≤ n) {s t : GalvoState}
    (hs : (tickStates cmds)[m]? = some s) (ht : (tickStates cmds)[n]? = some t) :
    Within (slewPerTick * (n - m)) s.position t.position := by
  have hchain := (tickStatesFrom_slew inRange_init ⟨_, _, _, _, _, segment_init⟩ cmds).tail
  have hlength : n < (tickStates cmds).length := (List.getElem?_eq_some_iff.mp ht).1
  -- the position of tick `k`, as a function of `k`
  let p : Nat → Int × Int := fun k => ((tickStates cmds)[k]?.map GalvoState.position).getD (0, 0)
  have hstep : ∀ k, m ≤ k → k < n → Within slewPerTick (p k) (p (k + 1)) := by
    intro k _ hk
    have hk1 : k + 1 < (tickStates cmds).length := by omega
    have hrel := hchain.getElem k (by rw [List.tail_cons, List.length_map]; exact hk1)
    simp only [p, List.getElem?_eq_getElem hk1, List.getElem?_eq_getElem (Nat.lt_of_succ_lt hk1)]
    simpa [tickStates, galvo] using hrel
  have hpm : p m = s.position := by simp [p, hs]
  have hpn : p n = t.position := by simp [p, ht]
  rw [← hpm, ← hpn]
  exact ⟨natAbs_sub_le_of_step (p := fun k => (p k).1) hmn fun k h1 h2 => (hstep k h1 h2).1,
    natAbs_sub_le_of_step (p := fun k => (p k).2) hmn fun k h1 h2 => (hstep k h1 h2).2⟩

/-! ## On the wire -/

/-- The decoded frames a receiver on edge `e` gets from a run. -/
def wireCodes (e : Edge) (cmds : List GalvoCmd) : List (Option (Int × Int)) :=
  (receiveWire e (galvo.trace cmds)).frames.map decodeFrame

/-- The ticks of a run that send a frame, each with its number. -/
def sendingTicks (cmds : List GalvoCmd) : List (GalvoState × Nat) :=
  (tickStates cmds).zipIdx.filter fun t => t.1.enabled

/-- The numbers of the ticks that send the frames. -/
def frameTicks (cmds : List GalvoCmd) : List Nat := (sendingTicks cmds).map Prod.snd

theorem wireCodes_eq (e : Edge) (cmds : List GalvoCmd) :
    wireCodes e cmds = (sendingTicks cmds).map fun t => some t.1.position := by
  have hfst : (sendingTicks cmds).map Prod.fst
      = (tickStates cmds).filter GalvoState.enabled := by
    conv_rhs => rw [← List.zipIdx_map_fst 0 (tickStates cmds), List.filter_map]
    rfl
  have hdecode := sentFrames_decode (tickStatesFrom_inRange inRange_init cmds)
  rw [wireCodes, (receiveWire_galvo e cmds).2]
  refine hdecode.trans ?_
  show ((tickStates cmds).filter GalvoState.enabled).map (fun s => some s.position) = _
  rw [← hfst, List.map_map]
  rfl

/-- The frames are sent one after the other. -/
theorem frameTicks_lt (cmds : List GalvoCmd) : (frameTicks cmds).Pairwise (· < ·) := by
  have hsub : (frameTicks cmds).Sublist ((tickStates cmds).zipIdx.map Prod.snd) :=
    List.filter_sublist.map _
  rw [List.zipIdx_map_snd] at hsub
  exact List.Pairwise.sublist hsub List.pairwise_lt_range'

/-- **Slew on the wire.** Two neighbouring frames, sent at the ticks `m` and `n`,
are at most `6554 * (n - m)` codes apart on each axis. -/
theorem wire_slew (e : Edge) (cmds : List GalvoCmd) (i : Nat) (p q : Int × Int)
    (hp : (wireCodes e cmds)[i]? = some (some p))
    (hq : (wireCodes e cmds)[i + 1]? = some (some q)) :
    ∃ m n, (frameTicks cmds)[i]? = some m ∧ (frameTicks cmds)[i + 1]? = some n ∧ m < n
      ∧ Within (slewPerTick * (n - m)) p q := by
  rw [wireCodes_eq, List.getElem?_map, Option.map_eq_some_iff] at hp hq
  obtain ⟨⟨s, m⟩, hs, hsp⟩ := hp
  obtain ⟨⟨t, n⟩, ht, htq⟩ := hq
  obtain rfl := Option.some.inj hsp
  obtain rfl := Option.some.inj htq
  have hm : (frameTicks cmds)[i]? = some m := by rw [frameTicks, List.getElem?_map, hs]; rfl
  have hn : (frameTicks cmds)[i + 1]? = some n := by rw [frameTicks, List.getElem?_map, ht]; rfl
  have hmn : m < n := by
    obtain ⟨hi, rfl⟩ := List.getElem?_eq_some_iff.mp hm
    obtain ⟨hi', rfl⟩ := List.getElem?_eq_some_iff.mp hn
    exact List.pairwise_iff_getElem.mp (frameTicks_lt cmds) i (i + 1) hi hi' (Nat.lt_succ_self i)
  -- a tick and its number stand in the list of all ticks
  have hstate : ∀ {j : Nat} {u : GalvoState} {k : Nat},
      (sendingTicks cmds)[j]? = some (u, k) → (tickStates cmds)[k]? = some u := by
    intro j u k hu
    have hmem := List.mem_of_mem_filter (List.mem_of_getElem? hu)
    exact List.mk_mem_zipIdx_iff_getElem?.mp hmem
  exact ⟨m, n, hm, hn, hmn, tickStates_slew cmds hmn.le (hstate hs) (hstate ht)⟩

/-- The master's stream at a jump: a point with the laser on, a far point with the
laser off for one cycle, and the laser on again. -/
def jump : List GalvoCmd :=
  [.setTarget 0 0 1 1, .timerTick, .setTarget 32767 0 2 0]
    ++ List.replicate 10 .timerTick ++ [.setTarget 32767 0 3 1, .timerTick]

theorem wireCodes_jump (e : Edge) : wireCodes e jump = [some (0, 0), some (32767, 0)] := by
  rw [wireCodes_eq]
  decide +kernel

/-- Eleven ticks lie between the two frames. -/
theorem wire_slew_jump : ∃ m n, (frameTicks jump)[0]? = some m ∧ (frameTicks jump)[1]? = some n
    ∧ m < n ∧ Within (slewPerTick * (n - m)) (0, 0) (32767, 0) :=
  wire_slew .rising jump 0 (0, 0) (32767, 0) (by rw [wireCodes_jump]; rfl)
    (by rw [wireCodes_jump]; rfl)

/-- Neighbouring frames carry codes that differ by at most 6554. -/
def SlewBounded (codes : List (Option (Int × Int))) : Prop :=
  ∀ i p q, codes[i]? = some (some p) → codes[i + 1]? = some (some q) → Within slewPerTick p q

/-- Neighbours on the wire can be half the range apart. -/
theorem not_slewBounded_jump : ¬SlewBounded (wireCodes .rising jump) := by
  rw [wireCodes_jump]
  intro h
  exact absurd (h 0 (0, 0) (32767, 0) rfl rfl) (by decide)

end GalvoCtrl.Slave
