import Mathlib.Data.List.Chain
import Mathlib.Data.List.Range
import GalvoCtrl.Slave.Slew
import GalvoCtrl.System.Delivery

/-!
# System — Cycle

The motion inside one EtherCAT cycle. The master sends an RxPDO every millisecond
and the slave ticks every ten microseconds, so a cycle has a hundred ticks; the
interpolation takes ten of them, and the position rests for the other ninety.
-/

namespace GalvoCtrl.System

open GalvoCtrl.Lib GalvoCtrl.Slave GalvoCtrl.Master

/-! ## The cycle in ticks -/

/-- `kDefaultCycleMs`, in microseconds. -/
def kDefaultCycleUs : Nat := 1000

/-- `htim7.Init.Prescaler` -/
def tim7Prescaler : Nat := 84 - 1

/-- `htim7.Init.Period` -/
def tim7Period : Nat := 10 - 1

/-- The clock of TIM7: twice APB1, which is a quarter of the 168 MHz core clock. -/
def tim7ClockMhz : Nat := 168 / 4 * 2

/-- The time between two ticks, in microseconds. -/
def tickUs : Nat := (tim7Prescaler + 1) * (tim7Period + 1) / tim7ClockMhz

/-- How often the slave ticks in a cycle of the master. -/
def ticksPerCycle : Nat := kDefaultCycleUs / tickUs

example : ticksPerCycle = 100 := by decide

/-! ## Streams of constant velocity -/

/-- A stream of `length` commands with the codes `(x, y)`, `(x + dx, y + dy)`, and so
on, under any sequence numbers. -/
structure Stream where
  x : Int
  y : Int
  dx : Int
  dy : Int
  sequence : Nat → BitVec 16
  length : Nat
  inRange : ∀ i < length, Int16Range (x + i * dx) ∧ Int16Range (y + i * dy)

namespace Stream

variable (s : Stream)

/-- The codes of command `i`. -/
def codes (i : Nat) : Int × Int := (s.x + i * s.dx, s.y + i * s.dy)

/-- The RxPDO of command `i`, with the laser enabled. -/
def rx (i : Nat) : GalvoRxPdo where
  xCode := BitVec.ofInt 16 (s.codes i).1
  yCode := BitVec.ofInt 16 (s.codes i).2
  sequence := s.sequence i
  controlFlags := kControlEnable

/-- Cycle `i`: the RxPDO comes in, and the timer ticks until the next one. -/
def cycle (i : Nat) : List SlaveEvent :=
  .outputMapping (s.rx i).bytes :: List.replicate ticksPerCycle .timerTick

/-- The cycles `i, …, i + n - 1`. -/
def cycles (i n : Nat) : List SlaveEvent := (List.range' i n).flatMap s.cycle

/-- The driver states that the ticks after the second command leave; `before` is
what the slave did before the stream. -/
def laterTicks (before : List SlaveEvent) : List GalvoState :=
  tickStatesFrom (device.run (before ++ s.cycle 0)).galvo
    (galvoCmds (s.cycles 1 (s.length - 1)))

/-- A step of at most the hundredth part of the way, rounded up, on each axis. -/
def EvenStep (p q : Int × Int) : Prop :=
  (q.1 - p.1).natAbs ≤ s.dx.natAbs ⌈/⌉ ticksPerCycle
    ∧ (q.2 - p.2).natAbs ≤ s.dy.natAbs ⌈/⌉ ticksPerCycle

/-- The motion is spread evenly over the cycles. -/
def EvenlySpread (before : List SlaveEvent) : Prop :=
  ((s.laterTicks before).map GalvoState.position).IsChain s.EvenStep

end Stream

/-! ## One cycle of the driver -/

/-- The driver has come to rest at `p`. -/
def Rests (g : GalvoState) (p : Int × Int) : Prop :=
  ∃ x₀ y₀ k, xy2InterpFrames ≤ k ∧ g.Segment x₀ y₀ p.1 p.2 k

/-- `k` ticks on the way from `p` to `q`. -/
def alongPair (p q : Int × Int) (k : Nat) : Int × Int :=
  (along p.1 q.1 xy2InterpFrames k, along p.2 q.2 xy2InterpFrames k)

/-- The positions of the ticks on a segment. -/
theorem tickPositions_segment {g : GalvoState} {p q : Int × Int} {k : Nat}
    (h : g.Segment p.1 p.2 q.1 q.2 k) (n : Nat) :
    (tickStatesFrom g (List.replicate n .timerTick)).map GalvoState.position
      = (List.range n).map fun j => alongPair p q (k + j + 1) := by
  induction n generalizing g k with
  | zero => rfl
  | succ n ih =>
      have hnext : (galvo.step g .timerTick).Segment p.1 p.2 q.1 q.2 (k + 1) := h.timerTick
      have hhead : (galvo.step g .timerTick).position = alongPair p q (k + 1) :=
        Prod.ext hnext.currentX hnext.currentY
      rw [List.replicate_succ, tickStatesFrom, List.map_cons, hhead, ih hnext,
        List.range_succ_eq_map, List.map_cons, List.map_map]
      simp [Function.comp_def, Nat.add_assoc, Nat.add_comm 1]

/-- A command and ten ticks bring any driver to rest at the codes. -/
theorem rests_command {g : GalvoState} (hr : g.InRange) (h : g.OnSegment) (c : Command) {n : Nat}
    (hn : xy2InterpFrames ≤ n) :
    Rests (galvo.runFrom g (c.setTarget :: List.replicate n .timerTick))
      (c.xCode.toInt, c.yCode.toInt) := by
  obtain ⟨x₀, y₀, k, hk, hsegment⟩ := h.command hr c n
  exact ⟨x₀, y₀, k, hn.trans hk, hsegment⟩

/-- **One cycle from rest**: the positions are the steps from `p` to the codes. -/
theorem tickPositions_cycle {g : GalvoState} {p : Int × Int} (hr : g.InRange) (h : Rests g p)
    (c : Command) (n : Nat) :
    (tickStatesFrom g (c.setTarget :: List.replicate n .timerTick)).map GalvoState.position
      = (List.range n).map fun j => alongPair p (c.xCode.toInt, c.yCode.toInt) (j + 1) := by
  obtain ⟨x₀, y₀, k, hk, hsegment⟩ := h
  show (tickStatesFrom (galvo.step g c.setTarget) (List.replicate n .timerTick)).map _ = _
  by_cases haccepts : g.Accepts c
  · have hstart := segment_setTarget haccepts
    rw [hsegment.currentX, hsegment.currentY, along_of_le (by decide) hk,
      along_of_le (by decide) hk] at hstart
    rw [tickPositions_segment (p := p) (q := (c.xCode.toInt, c.yCode.toInt)) hstart]
    simp only [Nat.zero_add]
  · -- the codes are those where the driver rests, and nothing moves
    have hsame : galvo.step g c.setTarget = g := setTarget_ignored haccepts
    obtain ⟨hx, hy⟩ := codes_of_ignored hr haccepts
    have hp : (c.xCode.toInt, c.yCode.toInt) = p :=
      Prod.ext (hx.trans hsegment.targetX) (hy.trans hsegment.targetY)
    rw [hsame, hp, tickPositions_segment (p := (x₀, y₀)) (q := p) hsegment]
    refine List.map_congr_left ?_
    intro j _
    have hrest : ∀ a b : Int, along a b xy2InterpFrames (k + j + 1) = b := by
      intro a b
      exact along_of_le (by decide) (by omega)
    have hself : ∀ a : Int, along a a xy2InterpFrames (j + 1) = a := by
      intro a
      simp [along, stepOf]
    rw [alongPair, alongPair, hrest, hrest, hself, hself]

/-! ## Streams -/

namespace Stream

variable (s : Stream)

theorem rx_command {i : Nat} (h : i < s.length) :
    ((RxPdo.command (s.rx i).bytes).xCode.toInt, (RxPdo.command (s.rx i).bytes).yCode.toInt)
      = s.codes i := by
  obtain ⟨hx, hy⟩ := s.inRange i h
  rw [command_bytes]
  exact Prod.ext (toInt_ofInt_of_range hx) (toInt_ofInt_of_range hy)

theorem galvoCmds_cycle (i : Nat) : galvoCmds (s.cycle i)
    = (RxPdo.command (s.rx i).bytes).setTarget :: List.replicate ticksPerCycle .timerTick := by
  rw [galvoCmds, cycle, List.flatMap_cons, ← galvoCmds, galvoCmds_gap]
  · have hcount : ticks (List.replicate ticksPerCycle SlaveEvent.timerTick) = ticksPerCycle := by
      simp [ticks, List.countP_replicate, SlaveEvent.isTick]
    rw [hcount]
    rfl
  · intro e he
    rw [List.eq_of_mem_replicate he]
    rfl

/-- The driver after the first cycle, from anywhere. -/
theorem rests_first (before : List SlaveEvent) (h : 0 < s.length) :
    (device.run (before ++ s.cycle 0)).galvo.InRange
      ∧ Rests (device.run (before ++ s.cycle 0)).galvo (s.codes 0) := by
  have hsplit : (device.run (before ++ s.cycle 0)).galvo
      = galvo.runFrom (galvo.run (galvoCmds before)) (galvoCmds (s.cycle 0)) := by
    rw [device_run_galvo, galvoCmds, List.flatMap_append, Machine.run_append]
    rfl
  constructor
  · rw [device_run_galvo]
    exact galvo_inRange _
  · rw [hsplit, galvoCmds_cycle, ← s.rx_command h]
    exact rests_command (galvo_inRange _) (galvo_onSegment _) _ (by decide)

/-- The positions of one cycle, and where it ends. -/
theorem cycle_positions {g : GalvoState} {i : Nat} (h : i + 1 < s.length) (hr : g.InRange)
    (hrests : Rests g (s.codes i)) :
    (tickStatesFrom g (galvoCmds (s.cycle (i + 1)))).map GalvoState.position
        = (List.range ticksPerCycle).map (fun j => alongPair (s.codes i) (s.codes (i + 1)) (j + 1))
      ∧ (galvo.runFrom g (galvoCmds (s.cycle (i + 1)))).InRange
      ∧ Rests (galvo.runFrom g (galvoCmds (s.cycle (i + 1)))) (s.codes (i + 1)) := by
  have hsegment : g.OnSegment := by
    obtain ⟨x₀, y₀, k, _, hs⟩ := hrests
    exact ⟨x₀, y₀, _, _, k, hs⟩
  rw [galvoCmds_cycle, ← s.rx_command h]
  exact ⟨tickPositions_cycle hr hrests _ _,
    galvo.runFrom_invariant (fun _ c hs => hs.step c) hr _, rests_command hr hsegment _ (by decide)⟩

/-- The tenth part of the way is no longer than the hundredth, both rounded up, if the
way has at most ten codes. -/
theorem evenStep_along (hx : s.dx.natAbs ≤ 10) (hy : s.dy.natAbs ≤ 10) (i k : Nat) :
    s.EvenStep (alongPair (s.codes i) (s.codes (i + 1)) k)
      (alongPair (s.codes i) (s.codes (i + 1)) (k + 1)) := by
  have hshort : ∀ d : Int, d.natAbs ≤ 10 →
      d.natAbs ⌈/⌉ xy2InterpFrames ≤ d.natAbs ⌈/⌉ ticksPerCycle := by
    intro d hd
    rw [Nat.ceilDiv_eq_add_pred_div, Nat.ceilDiv_eq_add_pred_div]
    show (d.natAbs + 10 - 1) / 10 ≤ (d.natAbs + 100 - 1) / 100
    omega
  have hdx : (s.codes (i + 1)).1 - (s.codes i).1 = s.dx := by
    simp only [codes]
    push_cast
    ring
  have hdy : (s.codes (i + 1)).2 - (s.codes i).2 = s.dy := by
    simp only [codes]
    push_cast
    ring
  constructor
  · refine (along_step _ _ (by decide) k).trans ?_
    rw [hdx]
    exact hshort s.dx hx
  · refine (along_step _ _ (by decide) k).trans ?_
    rw [hdy]
    exact hshort s.dy hy

/-- **A run of cycles**, from the position before it. -/
theorem cycles_isChain (hx : s.dx.natAbs ≤ 10) (hy : s.dy.natAbs ≤ 10) (n : Nat) :
    ∀ {i : Nat} {g : GalvoState}, i + n < s.length → g.InRange → Rests g (s.codes i) →
      (s.codes i :: (tickStatesFrom g (galvoCmds (s.cycles (i + 1) n))).map
        GalvoState.position).IsChain s.EvenStep := by
  induction n with
  | zero =>
      intro i g _ _ _
      exact .singleton _
  | succ n ih =>
      intro i g hlength hr hrests
      obtain ⟨hpositions, hr', hrests'⟩ := s.cycle_positions (by omega) hr hrests
      have hrest := ih (i := i + 1) (by omega) hr' hrests'
      have hsplit : s.cycles (i + 1) (n + 1) = s.cycle (i + 1) ++ s.cycles (i + 1 + 1) n := rfl
      have hstart : s.codes i = alongPair (s.codes i) (s.codes (i + 1)) 0 := by simp [alongPair]
      -- the positions of the first cycle together with the one before it
      have hfirst : s.codes i :: (List.range ticksPerCycle).map
            (fun j => alongPair (s.codes i) (s.codes (i + 1)) (j + 1))
          = (List.range (ticksPerCycle + 1)).map (alongPair (s.codes i) (s.codes (i + 1))) := by
        rw [List.range_succ_eq_map, List.map_cons, List.map_map, ← hstart]
        rfl
      rw [hsplit, galvoCmds, List.flatMap_append, ← galvoCmds, ← galvoCmds,
        tickStatesFrom_append, List.map_append, hpositions, ← List.cons_append, hfirst,
        List.isChain_append]
      refine ⟨?_, (List.isChain_cons.mp hrest).2, ?_⟩
      · rw [List.isChain_map, List.isChain_range_succ]
        exact fun k _ => s.evenStep_along hx hy i k
      · intro p hp q hq
        have hend : alongPair (s.codes i) (s.codes (i + 1)) ticksPerCycle = s.codes (i + 1) :=
          Prod.ext (along_of_le (by decide) (by decide)) (along_of_le (by decide) (by decide))
        rw [List.range_succ, List.map_append, List.map_singleton, List.getLast?_concat,
          hend] at hp
        obtain rfl := Option.some.inj hp
        exact (List.isChain_cons.mp hrest).1 q hq

/-- The nine steps after the first one cover the rest of the way. -/
private theorem span_of_even_steps {a b : Int}
    (h : ∀ k, 1 ≤ k → k < xy2InterpFrames →
      (along a b xy2InterpFrames (k + 1) - along a b xy2InterpFrames k).natAbs
        ≤ (b - a).natAbs ⌈/⌉ ticksPerCycle) : (b - a).natAbs ≤ 10 := by
  have hrest := natAbs_sub_le_of_step (show 1 ≤ xy2InterpFrames by decide) h
  rw [Nat.ceilDiv_eq_add_pred_div] at hrest
  have hrest' : (along a b 10 10 - along a b 10 1).natAbs
      ≤ ((b - a).natAbs + 100 - 1) / 100 * 9 := hrest
  obtain ⟨_, hpos⟩ | ⟨_, hpos⟩ := along_cases a b 10
  · rw [hpos, hpos, Nat.min_self, Nat.min_eq_left (show 1 ≤ 10 by decide)] at hrest'
    omega
  · rw [hpos, hpos, Nat.min_self, Nat.min_eq_left (show 1 ≤ 10 by decide)] at hrest'
    omega

/-- An even motion is a slow one. -/
theorem EvenlySpread.slow {s : Stream} {before : List SlaveEvent} (h : s.EvenlySpread before)
    (hlength : 2 ≤ s.length) : s.dx.natAbs ≤ 10 ∧ s.dy.natAbs ≤ 10 := by
  obtain ⟨hr, hrests⟩ := s.rests_first before (by omega)
  obtain ⟨m, hm⟩ : ∃ m, s.length - 1 = m + 1 := ⟨s.length - 2, by omega⟩
  have hsplit : s.cycles 1 (m + 1) = s.cycle 1 ++ s.cycles 2 m := rfl
  -- the first hundred ticks are those of the second cycle
  rw [EvenlySpread, laterTicks, hm, hsplit, galvoCmds, List.flatMap_append, ← galvoCmds,
    ← galvoCmds, tickStatesFrom_append, List.map_append,
    (s.cycle_positions (by omega) hr hrests).1] at h
  have hcycle := h.left_of_append
  rw [List.isChain_map, show ticksPerCycle = 99 + 1 from rfl, List.isChain_range_succ] at hcycle
  have hstep : ∀ k, 1 ≤ k → k < xy2InterpFrames →
      s.EvenStep (alongPair (s.codes 0) (s.codes 1) k)
        (alongPair (s.codes 0) (s.codes 1) (k + 1)) := by
    intro k hk hk10
    have hk10' : k < 10 := hk10
    have := hcycle (k - 1) (by omega)
    rwa [show (k - 1).succ = k from by omega, show k - 1 + 1 = k from by omega] at this
  have hdx : (s.codes 1).1 - (s.codes 0).1 = s.dx := by simp [codes]
  have hdy : (s.codes 1).2 - (s.codes 0).2 = s.dy := by simp [codes]
  rw [← hdx, ← hdy]
  constructor
  · refine span_of_even_steps ?_
    intro k hk hk10
    rw [hdx]
    exact (hstep k hk hk10).1
  · refine span_of_even_steps ?_
    intro k hk hk10
    rw [hdy]
    exact (hstep k hk hk10).2

/-- **Exactly when the motion is spread evenly over the cycle**: when a cycle covers at
most ten codes on each axis. Otherwise ten ticks do the work of a hundred. -/
theorem evenlySpread_iff (s : Stream) (before : List SlaveEvent) :
    s.EvenlySpread before ↔ s.length < 2 ∨ s.dx.natAbs ≤ 10 ∧ s.dy.natAbs ≤ 10 := by
  constructor
  · intro h
    by_cases hlength : s.length < 2
    · exact Or.inl hlength
    · exact Or.inr (h.slow (by omega))
  · intro h
    by_cases hlength : s.length < 2
    · have hnone : s.length - 1 = 0 := by omega
      rw [EvenlySpread, laterTicks, hnone]
      exact .nil
    · obtain ⟨hx, hy⟩ := h.resolve_left hlength
      obtain ⟨hr, hrests⟩ := s.rests_first before (by omega)
      exact (s.cycles_isChain hx hy (s.length - 1) (by omega) hr hrests).tail

end Stream

/-- A thousand codes per cycle along x, from the origin. -/
def fastStream : Stream where
  x := 0
  y := 0
  dx := 1000
  dy := 0
  sequence := BitVec.ofNat 16
  length := 2
  inRange := by decide

theorem not_evenlySpread_fast : ¬fastStream.EvenlySpread [] := by
  intro h
  exact absurd (h.slow le_rfl).1 (by decide)

end GalvoCtrl.System
