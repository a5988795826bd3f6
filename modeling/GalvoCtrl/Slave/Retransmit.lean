import GalvoCtrl.Slave.SscDevice

/-!
# Slave — Retransmit

An RxPDO that comes again, byte for byte, changes nothing. After an RxPDO the
application holds its four fields in the driver, in object `0x7010`, in the OLED
record and as the sequence number last printed; it holds them until the next
one, and a copy of what it holds has no effect at all.
-/

namespace GalvoCtrl.Slave

open GalvoCtrl.Lib

/-- Object `0x7010` after an RxPDO. -/
def Command.obj (c : Command) : Obj0x7010 := ⟨c.xCode, c.yCode, c.sequence, c.controlFlags⟩

/-- **`APPL_OutputMapping` as one record**: what it writes does not depend on
whether it also prints. -/
theorem applOutputMapping_eq (pdo : RxPdo) (d : Device) :
    applOutputMapping (pdOutputWords pdo) d =
      ({ d with
          obj0x7010 := (RxPdo.command pdo).obj
          galvo := galvo.step d.galvo (RxPdo.command pdo).setTarget
          oled := oledStatusSetCommand (RxPdo.command pdo).obj d.oled
          sLastSequence := (RxPdo.command pdo).sequence },
        if (RxPdo.command pdo).sequence = d.sLastSequence then []
        else [.printf (RxPdo.command pdo).xCode.toInt (RxPdo.command pdo).yCode.toInt
          (RxPdo.command pdo).sequence (RxPdo.command pdo).controlFlags]) := by
  unfold applOutputMapping
  rw [outputMapping_obj]
  dsimp only
  by_cases hsame : (RxPdo.command pdo).sequence = d.sLastSequence
  · rw [if_neg (not_not.mpr hsame), if_pos hsame]
    exact congrArg (fun q => ({ d with
      obj0x7010 := (RxPdo.command pdo).obj
      galvo := galvo.step d.galvo (RxPdo.command pdo).setTarget
      oled := oledStatusSetCommand (RxPdo.command pdo).obj d.oled
      sLastSequence := q }, [])) hsame.symm
  · rw [if_pos hsame, if_neg hsame]
    rfl

/-- Every variable that `APPL_OutputMapping` writes has what this RxPDO left. -/
structure Device.Holds (d : Device) (pdo : RxPdo) : Prop where
  stores : d.galvo.Stores (RxPdo.command pdo)
  obj : d.obj0x7010 = (RxPdo.command pdo).obj
  oled : oledStatusSetCommand (RxPdo.command pdo).obj d.oled = d.oled
  sequence : d.sLastSequence = (RxPdo.command pdo).sequence

/-- An RxPDO is held afterwards. -/
theorem holds_outputMapping {d : Device} {c : Command} (h : d.galvo.Stores c) (pdo : RxPdo) :
    (device.step d (.outputMapping pdo)).Holds pdo := by
  have hstep : device.step d (.outputMapping pdo)
      = (applOutputMapping (pdOutputWords pdo) d).1 := rfl
  rw [hstep, applOutputMapping_eq]
  exact ⟨setTarget_stores h (RxPdo.command pdo), rfl, rfl, rfl⟩

/-- No other event touches what is held. -/
theorem Device.Holds.step {d : Device} {pdo : RxPdo} (h : d.Holds pdo) {e : SlaveEvent}
    (he : ∀ p, e ≠ .outputMapping p) : (device.step d e).Holds pdo := by
  obtain ⟨hstores, hobj, holed, hsequence⟩ := h
  cases e with
  | outputMapping p => exact absurd rfl (he p)
  | timerTick => exact ⟨timerTick_stores hstores, hobj, holed, hsequence⟩
  | application =>
      refine ⟨hstores, hobj, ?_, hsequence⟩
      -- the status goes into the other three fields of the record
      have hfields := congrArg (oledStatusSetEthercat ⟨d.galvo.status, d.galvo.sequence,
        d.galvo.frameCounter⟩) holed
      exact hfields
  | inputMapping => exact ⟨hstores, hobj, holed, hsequence⟩

/-- **A copy of what is held does nothing.** -/
theorem Device.Holds.copy {d : Device} {pdo : RxPdo} (h : d.Holds pdo) :
    device.step d (.outputMapping pdo) = d ∧ device.emit d (.outputMapping pdo) = [] := by
  obtain ⟨hstores, hobj, holed, hsequence⟩ := h
  have hgalvo : Slave.galvo.step d.galvo (RxPdo.command pdo).setTarget = d.galvo :=
    setTarget_same hstores
  have hrun : applOutputMapping (pdOutputWords pdo) d = (d, []) := by
    rw [applOutputMapping_eq, hgalvo, holed, ← hobj, ← hsequence, if_pos rfl]
  exact ⟨congrArg Prod.fst hrun, congrArg Prod.snd hrun⟩

/-! ## Runs -/

/-- `ext` is `evs` with RxPDOs put in, each a copy of the RxPDO that most recently
precedes it; `last` is the RxPDO before both. -/
inductive Retransmits : Option RxPdo → List SlaveEvent → List SlaveEvent → Prop where
  | nil {last : Option RxPdo} : Retransmits last [] []
  | receive {last : Option RxPdo} {pdo : RxPdo} {evs ext : List SlaveEvent} :
      Retransmits (some pdo) evs ext →
      Retransmits last (.outputMapping pdo :: evs) (.outputMapping pdo :: ext)
  | keep {last : Option RxPdo} {e : SlaveEvent} {evs ext : List SlaveEvent} :
      (∀ p, e ≠ .outputMapping p) → Retransmits last evs ext →
      Retransmits last (e :: evs) (e :: ext)
  | copy {pdo : RxPdo} {evs ext : List SlaveEvent} : Retransmits (some pdo) evs ext →
      Retransmits (some pdo) evs (.outputMapping pdo :: ext)

def SlaveEvent.isOutputMapping : SlaveEvent → Bool
  | .outputMapping _ => true
  | _ => false

theorem Retransmits.pads {last : Option RxPdo} {evs ext : List SlaveEvent}
    (h : Retransmits last evs ext) {d : Device} {c : Command} (hstores : d.galvo.Stores c)
    (hlast : ∀ pdo ∈ last, d.Holds pdo) :
    device.Pads SlaveEvent.isOutputMapping d evs ext := by
  induction h generalizing d c with
  | nil => exact .nil d
  | @receive last pdo evs ext _ ih =>
      have hholds := holds_outputMapping hstores pdo
      refine .keep (ih hholds.stores ?_)
      rintro p hp
      obtain rfl := Option.some.inj hp
      exact hholds
  | @keep last e evs ext he _ ih =>
      have hnext : (device.step d e).galvo.Stores c := by
        cases e with
        | outputMapping p => exact absurd rfl (he p)
        | timerTick => exact timerTick_stores hstores
        | application => exact hstores
        | inputMapping => exact hstores
      exact .keep (ih hnext fun p hp => (hlast p hp).step he)
  | @copy pdo evs ext _ ih =>
      obtain ⟨hstep, hemit⟩ := (hlast pdo rfl).copy
      exact .insert rfl hstep hemit (ih hstores hlast)

/-- **Retransmission is invisible.** The run with the copies ends in the same state
and puts out the same pin writes, TxPDOs, lamps and console lines; event by event,
everything but the RxPDOs puts out what it did without the copies. -/
theorem retransmission_invisible {evs ext : List SlaveEvent} (h : Retransmits none evs ext) :
    device.run ext = device.run evs ∧ device.trace ext = device.trace evs
      ∧ (device.log ext).filter (fun l => !l.1.isOutputMapping)
        = (device.log evs).filter fun l => !l.1.isOutputMapping := by
  have hstart : Device.start.galvo.Stores ⟨0, 0, 0, 0⟩ := ⟨by decide, by decide, rfl, rfl⟩
  have hpads : device.Pads SlaveEvent.isOutputMapping Device.start evs ext :=
    h.pads hstart (by simp)
  exact ⟨hpads.runFrom, congrArg (device.boot ++ ·) hpads.traceFrom, hpads.logFrom⟩

/-- The RxPDO `00 01 02 03 04 05 06 07` comes a second time in the middle of its
interpolation. -/
theorem retransmission_invisible_twice :
    let pdo : RxPdo := fun i => BitVec.ofNat 8 i
    device.run [.outputMapping pdo, .timerTick, .outputMapping pdo, .timerTick]
      = device.run [.outputMapping pdo, .timerTick, .timerTick] := by
  intro pdo
  have h : Retransmits none [.outputMapping pdo, .timerTick, .timerTick]
      [.outputMapping pdo, .timerTick, .outputMapping pdo, .timerTick] :=
    .receive (.keep (by simp) (.copy (.keep (by simp) .nil)))
  exact (retransmission_invisible h).1

end GalvoCtrl.Slave
