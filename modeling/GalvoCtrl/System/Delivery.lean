import GalvoCtrl.Master.SendLoop
import GalvoCtrl.Slave.SscDevice
import GalvoCtrl.Slave.Observable
import GalvoCtrl.Slave.WireFrames
import GalvoCtrl.Slave.Segment

/-!
# System — Delivery

Master, bus and slave together: a sample is scaled and packed by the master,
delivered or lost, unpacked and interpolated by the slave, and read off the
wire. The bus is free to drop, repeat and reorder what the master sends; only
the ten ticks an interpolation takes must pass before the next delivery.
-/

namespace GalvoCtrl.System

open GalvoCtrl.Lib GalvoCtrl.Lib.SyncSerial GalvoCtrl.Slave GalvoCtrl.Master

/-! ## Across the bus -/

/-- Two bytes are the word they were cut from. -/
private theorem bytes_append (w : BitVec 16) :
    w.extractLsb' 8 8 ++ w.extractLsb' 0 8 = w := by
  apply BitVec.eq_of_getLsbD_eq
  intro i hi
  rw [BitVec.getLsbD_append]
  by_cases h8 : i < 8
  · simp [h8]
  · simp [h8, show i - 8 < 8 from by omega, show 8 + (i - 8) = i from by omega]

/-- **What the master packs is what the slave unpacks.** -/
theorem command_bytes (rx : GalvoRxPdo) :
    RxPdo.command rx.bytes = ⟨rx.xCode, rx.yCode, rx.sequence, rx.controlFlags⟩ := by
  show Command.mk _ _ _ _ = _
  rw [Command.mk.injEq]
  exact ⟨bytes_append _, bytes_append _, bytes_append _, bytes_append _⟩

/-- One delivery: which RxPDO of the stream arrives, and what the slave does
before the next one. -/
structure Delivery where
  index : Nat
  gap : List SlaveEvent

/-- The slave events of a delivery. -/
def Delivery.events (sent : List GalvoRxPdo) (d : Delivery) : List SlaveEvent :=
  (sent[d.index]?.map fun rx => .outputMapping rx.bytes).toList ++ d.gap

/-- A delivery out of `sent`, with at least ten ticks and no other RxPDO in its
gap. -/
structure Delivery.From (sent : List GalvoRxPdo) (d : Delivery) : Prop where
  index : d.index < sent.length
  gap : ∀ e ∈ d.gap, e.command? = none
  ticks : 10 ≤ ticks d.gap

/-! ## Ten ticks settle the position -/

/-- The position of `s` is its target. -/
structure Settled (s : GalvoState) : Prop where
  x : s.currentX = s.targetX
  y : s.currentY = s.targetY

/-- **Ten ticks settle.** -/
theorem settled_of_segment {s : GalvoState} {x₀ y₀ x₁ y₁ : Int} {k : Nat}
    (h : s.Segment x₀ y₀ x₁ y₁ k) (hk : xy2InterpFrames ≤ k) : Settled s where
  x := by rw [h.currentX, h.targetX, along_of_le (by decide) hk]
  y := by rw [h.currentY, h.targetY, along_of_le (by decide) hk]

theorem ticks_store {s : GalvoState} {c : Command} (h : s.Stores c) (n : Nat) :
    (galvo.runFrom s (List.replicate n .timerTick)).Stores c := by
  induction n generalizing s with
  | zero => exact h
  | succ n ih => exact ih (timerTick_stores h)

/-- Ten ticks after a command the position is the commanded one. -/
theorem command_settles (cmds : List GalvoCmd) (c : Command) {n : Nat} (hn : 10 ≤ n) :
    let s := galvo.run (cmds ++ c.setTarget :: List.replicate n .timerTick)
    s.currentX = c.xCode.toInt ∧ s.currentY = c.yCode.toInt
      ∧ s.controlFlags = c.controlFlags := by
  obtain ⟨d, hd⟩ : ∃ d, (galvo.run cmds).Stores d := by
    have := galvo.run_invariant (I := fun s => ∃ d : Command, s.Stores d)
      ⟨⟨0, 0, 0, 0⟩, by decide, by decide, rfl, rfl⟩ ?_ cmds
    · exact this
    · rintro s cmd ⟨d, hd⟩
      cases cmd with
      | setTarget x y q f => exact ⟨_, setTarget_stores hd ⟨x, y, q, f⟩⟩
      | timerTick => exact ⟨d, timerTick_stores hd⟩
  -- the driver is on its way to the codes whether the command restarts it or not
  obtain ⟨x₀, y₀, k, hk, hsegment⟩ := (galvo_onSegment cmds).command (galvo_inRange cmds) c n
  have hsettled := settled_of_segment hsegment (hn.trans hk)
  have hstore := ticks_store (setTarget_stores hd c) n
  rw [Machine.run_append]
  exact ⟨hsettled.x.trans hsegment.targetX, hsettled.y.trans hsegment.targetY,
    hstore.controlFlags⟩

/-! ## The last frame -/

theorem tickStatesFrom_append (s : GalvoState) (a b : List GalvoCmd) :
    tickStatesFrom s (a ++ b) = tickStatesFrom s a ++ tickStatesFrom (galvo.runFrom s a) b := by
  induction a generalizing s with
  | nil => rfl
  | cons c a ih =>
      cases c with
      | setTarget x y q f => exact ih _
      | timerTick => exact congrArg (_ :: ·) (ih _)

/-- A run that ends in an enabled tick has the position it leaves as the last
frame on the wire. -/
theorem last_frame (e : Edge) (cmds : List GalvoCmd)
    (hen : (galvo.run (cmds ++ [.timerTick])).enabled = true) :
    (receiveWire e (galvo.trace (cmds ++ [.timerTick]))).frames.getLast?.bind decodeFrame =
      some ((galvo.run (cmds ++ [.timerTick])).currentX,
        (galvo.run (cmds ++ [.timerTick])).currentY) := by
  have hr := galvo_inRange (cmds ++ [.timerTick])
  have hlast : tickStates (cmds ++ [.timerTick])
      = tickStates cmds ++ [galvo.run (cmds ++ [.timerTick])] := by
    rw [tickStates, tickStatesFrom_append, Machine.run_snoc]
    rfl
  rw [(receiveWire_galvo e _).2, hlast, sentFrames, List.filter_append,
    List.filter_cons_of_pos hen, List.filter_nil, List.map_append, List.map_singleton,
    List.getLast?_concat, Option.bind_some, decodeFrame_frameBits,
    toInt_ofInt_of_range hr.currentX, toInt_ofInt_of_range hr.currentY]

/-- Events without an RxPDO are ticks to the driver. -/
theorem galvoCmds_gap {gap : List SlaveEvent} (h : ∀ e ∈ gap, e.command? = none) :
    galvoCmds gap = List.replicate (ticks gap) .timerTick := by
  induction gap with
  | nil => rfl
  | cons e gap ih =>
      have ih' := ih fun e' he' => h e' (by simp [he'])
      rw [galvoCmds, List.flatMap_cons, ← galvoCmds, ih']
      cases e with
      | outputMapping pdo => exact absurd (h _ List.mem_cons_self) (by simp [SlaveEvent.command?])
      | timerTick =>
          rw [show ticks (SlaveEvent.timerTick :: gap) = ticks gap + 1 from
            List.countP_cons_of_pos rfl, List.replicate_succ]
          rfl
      | application => simp [ticks, SlaveEvent.isTick, SlaveEvent.galvoCmds]
      | inputMapping => simp [ticks, SlaveEvent.isTick, SlaveEvent.galvoCmds]

/-- Whatever came before, an enabling RxPDO and ten ticks put its codes on the
wire. -/
theorem delivered_frame (e : Edge) (before gap : List SlaveEvent) (rx : GalvoRxPdo)
    (hflags : rx.controlFlags = kControlEnable) (hgap : ∀ e ∈ gap, e.command? = none)
    (hticks : 10 ≤ ticks gap) :
    (receiveWire e ((device.trace (before ++ .outputMapping rx.bytes :: gap)).filterMap
        SlaveOut.pin?)).frames.getLast?.bind decodeFrame
      = some (rx.xCode.toInt, rx.yCode.toInt) := by
  obtain ⟨n, hn⟩ : ∃ n, ticks gap = n + 1 := ⟨ticks gap - 1, by omega⟩
  have hcmds : galvoCmds (before ++ .outputMapping rx.bytes :: gap) =
      galvoCmds before ++ (RxPdo.command rx.bytes).setTarget
        :: List.replicate (ticks gap) .timerTick := by
    rw [galvoCmds, List.flatMap_append, List.flatMap_cons, ← galvoCmds, ← galvoCmds,
      galvoCmds_gap hgap]
    rfl
  obtain ⟨hx, hy, hf⟩ := command_settles (galvoCmds before) (RxPdo.command rx.bytes) hticks
  rw [device_trace_pins, hcmds]
  rw [command_bytes] at hx hy hf ⊢
  have hsnoc : galvoCmds before ++ (Command.mk rx.xCode rx.yCode rx.sequence
        rx.controlFlags).setTarget :: List.replicate (ticks gap) .timerTick
      = (galvoCmds before ++ (Command.mk rx.xCode rx.yCode rx.sequence
        rx.controlFlags).setTarget :: List.replicate n .timerTick) ++ [.timerTick] := by
    rw [hn, List.replicate_succ', List.append_assoc]
    rfl
  -- the run ends in a tick, and the flags it tests are those of the command
  rw [hsnoc] at hx hy hf ⊢
  rw [last_frame e _ ?_, hx, hy]
  rw [GalvoState.enabled, hf, hflags]
  show decide (kControlEnable &&& galvoControlEnable ≠ 0) = true
  decide

/-! ## End to end -/

/-- **From the sample to the wire.** Let the master send samples that all have
the laser enabled, under any answers of the network, and let any of the RxPDOs
arrive, any number of times, each followed by at least ten ticks. Then the last
frame on the wire, for a receiver on either clock edge, carries exactly the codes
of the latest delivered sample, and each code is within half a step of the
clamped position. `before` is what the slave did earlier. -/
theorem delivered_position (samples : List (Sample ℚ)) (opt : Options) (wkc : Nat → Int)
    (fuel : Nat) (e : Edge) (before : List SlaveEvent) (ds : List Delivery) (d : Delivery)
    (hlaser : ∀ s ∈ samples, s.laserEnable = true)
    (hds : ∀ d' ∈ ds ++ [d], d'.From (runTrajectory samples opt wkc fuel).sent) :
    let sent := (runTrajectory samples opt wkc fuel).sent
    let writes := (device.trace (before ++ (ds ++ [d]).flatMap (Delivery.events sent))).filterMap
      SlaveOut.pin?
    ∃ sample, samples[d.index % samples.length]? = some sample
      ∧ (let x := (mmToXy2Code (sample.galvoX + opt.xOffsetMm) opt.fieldMm).toInt
        let y := (mmToXy2Code (sample.galvoY + opt.yOffsetMm) opt.fieldMm).toInt
        (receiveWire e writes).frames.getLast?.bind decodeFrame = some (x, y)
          ∧ |(x : ℚ) / 32767 - stdClamp ((sample.galvoX + opt.xOffsetMm) / opt.fieldMm) (-1) 1|
              ≤ 1 / 65534
          ∧ |(y : ℚ) / 32767 - stdClamp ((sample.galvoY + opt.yOffsetMm) / opt.fieldMm) (-1) 1|
              ≤ 1 / 65534) := by
  have hd := hds d (by simp)
  obtain ⟨rx, hrx⟩ : ∃ rx, (runTrajectory samples opt wkc fuel).sent[d.index]? = some rx :=
    ⟨_, List.getElem?_eq_getElem hd.index⟩
  obtain ⟨sample, hsample, hpdo⟩ := (runTrajectory_sends samples opt wkc fuel).sent _ _ hrx
  refine ⟨sample, hsample, ?_, mmToXy2Code_error _ _, mmToXy2Code_error _ _⟩
  -- all but the last delivery belongs to the past
  have hevents : before ++ (ds ++ [d]).flatMap
        (Delivery.events (runTrajectory samples opt wkc fuel).sent)
      = (before ++ ds.flatMap (Delivery.events (runTrajectory samples opt wkc fuel).sent))
        ++ .outputMapping rx.bytes :: d.gap := by
    rw [List.flatMap_append, List.flatMap_singleton, Delivery.events, hrx, List.append_assoc]
    rfl
  have hen : rx.controlFlags = kControlEnable := by
    rw [hpdo, rxPdo, if_pos (hlaser sample (List.mem_of_getElem? hsample))]
  rw [hevents, delivered_frame e _ _ rx hen hd.gap hd.ticks, hpdo]
  rfl

/-- Three samples in a field of 11 mm. -/
def threeSamples : List (Sample ℚ) :=
  [⟨0, 1, -1, true⟩, ⟨1 / 1000, 2, 2, true⟩, ⟨2 / 1000, -5, 3, true⟩]

/-- The first of them arrives twice, the second is lost, and the third arrives. -/
def lossyDeliveries : List Delivery :=
  [⟨0, List.replicate 10 .timerTick⟩, ⟨0, List.replicate 12 .timerTick⟩,
    ⟨2, List.replicate 10 .timerTick⟩]

theorem delivered_position_lossy :
    let sent := (runTrajectory threeSamples ⟨11, 0, 0, 20, false⟩ (fun _ => 3) 3).sent
    let writes := (device.trace (.application :: lossyDeliveries.flatMap
      (Delivery.events sent))).filterMap SlaveOut.pin?
    sent.length = 3
      ∧ (receiveWire .falling writes).frames.getLast?.bind decodeFrame = some (-14894, 8936)
      ∧ |(-14894 : ℚ) / 32767 - stdClamp ((-5 + 0) / 11) (-1) 1| ≤ 1 / 65534
      ∧ |(8936 : ℚ) / 32767 - stdClamp ((3 + 0) / 11) (-1) 1| ≤ 1 / 65534 := by
  have hsent : (runTrajectory threeSamples ⟨11, 0, 0, 20, false⟩ (fun _ => 3) 3).sent.length
      = 3 := by decide +kernel
  have hfrom : ∀ d ∈ lossyDeliveries,
      d.From (runTrajectory threeSamples ⟨11, 0, 0, 20, false⟩ (fun _ => 3) 3).sent := by
    simp only [lossyDeliveries, List.forall_mem_cons, List.not_mem_nil, false_implies,
      implies_true, and_true]
    refine ⟨⟨?_, by decide, by decide⟩, ⟨?_, by decide, by decide⟩, ?_, by decide, by decide⟩
    all_goals rw [hsent]; decide
  obtain ⟨sample, hsample, hframe, hx, hy⟩ := delivered_position threeSamples ⟨11, 0, 0, 20, false⟩
    (fun _ => 3) 3 .falling [.application] (lossyDeliveries.take 2)
    ⟨2, List.replicate 10 .timerTick⟩ (by decide) hfrom
  obtain rfl : (⟨2 / 1000, -5, 3, true⟩ : Sample ℚ) = sample := Option.some.inj hsample
  have hcodeX : (mmToXy2Code (-5 + 0) 11).toInt = -14894 := by decide +kernel
  have hcodeY : (mmToXy2Code (3 + 0) 11).toInt = 8936 := by decide +kernel
  rw [hcodeX, hcodeY] at hframe
  rw [hcodeX] at hx
  rw [hcodeY] at hy
  exact ⟨hsent, hframe, hx, hy⟩

end GalvoCtrl.System
