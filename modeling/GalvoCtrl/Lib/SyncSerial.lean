import Mathlib.Data.List.Basic

/-!
# SyncSerial — a clocked serial link with a frame line

A link has a clock, a frame-sync line and data lines of any type `δ`. A
receiver watches the levels after every change on the link: it samples the
data at each clock edge of its polarity while sync is high, and closes a frame
when sync falls.

A sender speaks in *cells* (the clock pulse that carries one datum), *frames*
(sync up, cells, sync down) and idle levels. `Transmits.receive` is what the
link guarantees: whoever transmits the frames `fs` is received as exactly `fs`,
with nothing left over.
-/

namespace GalvoCtrl.Lib.SyncSerial

variable {δ : Type*}

/-- The levels on the link. -/
structure Levels (δ : Type*) where
  clk : Bool
  sync : Bool
  data : δ
deriving DecidableEq, Repr

/-! ## Driving the lines -/

section Drive

variable {ω : Type*} (act : ω → Levels δ → Levels δ)

/-- The levels after each of the writes `ws`, starting at `l`. -/
def drive (l : Levels δ) : List ω → List (Levels δ)
  | [] => []
  | w :: ws => act w l :: drive (act w l) ws

/-- The levels after all of the writes. -/
def driveEnd (l : Levels δ) (ws : List ω) : Levels δ := ws.foldl (fun l w => act w l) l

@[simp] theorem driveEnd_nil (l : Levels δ) : driveEnd act l [] = l := rfl

@[simp] theorem driveEnd_cons (l : Levels δ) (w : ω) (ws : List ω) :
    driveEnd act l (w :: ws) = driveEnd act (act w l) ws := rfl

theorem driveEnd_append (l : Levels δ) (a b : List ω) :
    driveEnd act l (a ++ b) = driveEnd act (driveEnd act l a) b := List.foldl_append

theorem drive_append (l : Levels δ) (a b : List ω) :
    drive act l (a ++ b) = drive act l a ++ drive act (driveEnd act l a) b := by
  induction a generalizing l with
  | nil => rfl
  | cons w a ih => simp [drive, ih]

end Drive

/-! ## Receiving -/

/-- The clock edge a receiver samples at. -/
inductive Edge where
  | rising
  | falling
deriving DecidableEq, Repr

/-- Whether a change of levels is a clock edge of this polarity. -/
def Edge.fires : Edge → Levels δ → Levels δ → Bool
  | .rising, old, new => !old.clk && new.clk
  | .falling, old, new => old.clk && !new.clk

/-- The receiver: the levels last seen, the data of the open frame, the frames
closed so far. -/
structure Receiver (δ : Type*) where
  seen : Levels δ
  bits : List δ
  frames : List (List δ)
deriving DecidableEq, Repr

namespace Receiver

/-- A receiver that has seen nothing but the levels `l`. -/
def fresh (l : Levels δ) : Receiver δ := ⟨l, [], []⟩

/-- Watch one change of levels. -/
def observe (e : Edge) (r : Receiver δ) (new : Levels δ) : Receiver δ :=
  let bits := if e.fires r.seen new && new.sync then r.bits ++ [new.data] else r.bits
  if r.seen.sync && !new.sync then ⟨new, [], r.frames ++ [bits]⟩
  else ⟨new, bits, r.frames⟩

/-- Watch a sequence of levels. -/
def receive (e : Edge) (r : Receiver δ) (ls : List (Levels δ)) : Receiver δ :=
  ls.foldl (observe e) r

/-- All data sampled so far, frames run together. -/
def stream (r : Receiver δ) : List δ := r.frames.flatten ++ r.bits

/-- Between frames: clock and sync low, no datum pending. -/
structure Idle (r : Receiver δ) : Prop where
  clk : r.seen.clk = false
  sync : r.seen.sync = false
  bits : r.bits = []

/-- Inside a frame. A falling-edge receiver must find the clock low, or the
next low level would be an edge. -/
structure Open (e : Edge) (r : Receiver δ) : Prop where
  sync : r.seen.sync = true
  clk : e = .falling → r.seen.clk = false

theorem fresh_idle {l : Levels δ} (hclk : l.clk = false) (hsync : l.sync = false) :
    (fresh l).Idle := ⟨hclk, hsync, rfl⟩

@[simp] theorem receive_nil (e : Edge) (r : Receiver δ) : r.receive e [] = r := rfl

@[simp] theorem receive_cons (e : Edge) (r : Receiver δ) (l : Levels δ)
    (ls : List (Levels δ)) : r.receive e (l :: ls) = (r.observe e l).receive e ls := rfl

theorem receive_append (e : Edge) (r : Receiver δ) (a b : List (Levels δ)) :
    r.receive e (a ++ b) = (r.receive e a).receive e b := List.foldl_append

/-- Between frames the stream is the closed frames. -/
theorem Idle.stream {r : Receiver δ} (h : r.Idle) : r.stream = r.frames.flatten := by
  rw [Receiver.stream, h.bits, List.append_nil]

/-! ## Levels that carry nothing -/

/-- With sync high, levels whose clock does not move are only looked at. -/
theorem receive_steady (e : Edge) {r : Receiver δ} {c : Bool} {ls : List (Levels δ)}
    (hclk : r.seen.clk = c) (hsync : r.seen.sync = true)
    (hls : ∀ l ∈ ls, l.clk = c ∧ l.sync = true) :
    (r.receive e ls).bits = r.bits ∧ (r.receive e ls).frames = r.frames
      ∧ (r.receive e ls).seen.clk = c ∧ (r.receive e ls).seen.sync = true := by
  induction ls generalizing r with
  | nil => exact ⟨rfl, rfl, hclk, hsync⟩
  | cons l ls ih =>
      obtain ⟨hlc, hls1⟩ := hls l (by simp)
      have hstep : r.observe e l = ⟨l, r.bits, r.frames⟩ := by
        cases e <;> cases c <;> simp [observe, Edge.fires, hclk, hlc, hls1, hsync]
      rw [receive_cons, hstep]
      exact ih hlc hls1 (fun k hk => hls k (by simp [hk]))

/-- Idle levels keep the receiver idle. -/
theorem observe_idle (e : Edge) {r : Receiver δ} {l : Levels δ} (h : r.Idle)
    (hclk : l.clk = false) (hsync : l.sync = false) :
    (r.observe e l).Idle ∧ (r.observe e l).frames = r.frames := by
  have hstep : r.observe e l = ⟨l, r.bits, r.frames⟩ := by
    simp [observe, h.sync, hsync]
  rw [hstep]
  exact ⟨⟨hclk, hsync, h.bits⟩, rfl⟩

end Receiver

/-! ## Cells -/

/-- The datum at the sampled edge of a pulse: at its first high level, or at the
first level after it. -/
def Edge.datum : Edge → Levels δ → List (Levels δ) → Option δ
  | .rising, high, _ => some high.data
  | .falling, _, tail => tail.head?.map Levels.data

/-- A cell carrying `d` to a receiver on edge `e`: low levels, a clock pulse,
and low levels again, sync high throughout. The datum stands on the data lines
at the sampled edge; elsewhere they are free. -/
structure IsCell (e : Edge) (d : δ) (ls : List (Levels δ)) : Prop where
  split : ∃ lows high highs tail, ls = lows ++ (high :: highs ++ tail)
    ∧ lows ≠ [] ∧ (∀ l ∈ lows, l.clk = false ∧ l.sync = true)
    ∧ (∀ l ∈ high :: highs, l.clk = true ∧ l.sync = true)
    ∧ (∀ l ∈ tail, l.clk = false ∧ l.sync = true)
    ∧ e.datum high tail = some d

/-- Cells in a row. -/
inductive Cells (e : Edge) : List δ → List (Levels δ) → Prop where
  | nil : Cells e [] []
  | cons {d ds ls rest} : IsCell e d ls → Cells e ds rest → Cells e (d :: ds) (ls ++ rest)

open Receiver

/-- The low levels before the pulse are not sampled. -/
private theorem receive_lows (e : Edge) {r : Receiver δ} {lows : List (Levels δ)}
    (hopen : r.Open e) (hne : lows ≠ [])
    (hlows : ∀ l ∈ lows, l.clk = false ∧ l.sync = true) :
    (r.receive e lows).bits = r.bits ∧ (r.receive e lows).frames = r.frames
      ∧ (r.receive e lows).seen.clk = false ∧ (r.receive e lows).seen.sync = true := by
  match lows, hne with
  | l :: lows, _ =>
    obtain ⟨hlc, hls⟩ := hlows l (by simp)
    have hstep : r.observe e l = ⟨l, r.bits, r.frames⟩ := by
      cases e with
      | rising => simp [observe, Edge.fires, hlc, hls]
      | falling => simp [observe, Edge.fires, hopen.clk rfl, hls]
    rw [receive_cons, hstep]
    exact receive_steady e hlc hls (fun k hk => hlows k (by simp [hk]))

/-- **A cell adds exactly its datum** to the open frame. -/
theorem IsCell.receive {e : Edge} {d : δ} {ls : List (Levels δ)} {r : Receiver δ}
    (hcell : IsCell e d ls) (hopen : r.Open e) :
    (r.receive e ls).bits = r.bits ++ [d] ∧ (r.receive e ls).frames = r.frames
      ∧ (r.receive e ls).Open e := by
  obtain ⟨lows, high, highs, tail, rfl, hne, hlows, hhighs, htail, hd⟩ := hcell.split
  obtain ⟨hb1, hf1, hc1, hs1⟩ := receive_lows e hopen hne hlows
  obtain ⟨hhc, hhs⟩ := hhighs high (by simp)
  rw [receive_append, List.cons_append, receive_cons, receive_append]
  cases e with
  | rising =>
      -- the datum is taken on the way up, the rest of the pulse is silent
      have hup : (r.receive .rising lows).observe .rising high
          = ⟨high, r.bits ++ [d], r.frames⟩ := by
        have hd' : high.data = d := Option.some.inj hd
        simp [observe, Edge.fires, hc1, hhc, hhs, hb1, hf1, hd']
      rw [hup]
      obtain ⟨hb2, hf2, hc2, hs2⟩ :=
        receive_steady .rising (r := ⟨high, r.bits ++ [d], r.frames⟩) hhc hhs
          (fun k hk => hhighs k (List.mem_cons_of_mem high hk))
      cases tail with
      | nil => exact ⟨hb2, hf2, hs2, by simp⟩
      | cons t tail =>
          have hne : t :: tail ≠ [] := by simp
          obtain ⟨hb3, hf3, _, hs3⟩ := receive_lows .rising
            (r := (Receiver.mk high (r.bits ++ [d]) r.frames).receive .rising highs)
            ⟨hs2, by simp⟩ hne htail
          exact ⟨hb3.trans hb2, hf3.trans hf2, hs3, by simp⟩
  | falling =>
      have hup : (r.receive .falling lows).observe .falling high
          = ⟨high, r.bits, r.frames⟩ := by
        simp [observe, Edge.fires, hc1, hhs, hb1, hf1]
      rw [hup]
      obtain ⟨hb2, hf2, hc2, hs2⟩ :=
        receive_steady .falling (r := ⟨high, r.bits, r.frames⟩) hhc hhs
          (fun k hk => hhighs k (List.mem_cons_of_mem high hk))
      cases tail with
      | nil => simp [Edge.datum] at hd
      | cons t tail =>
          -- the datum is taken on the way down
          obtain ⟨htc, hts⟩ := htail t (by simp)
          have hdown : ((Receiver.mk high r.bits r.frames).receive .falling highs).observe
              .falling t = ⟨t, r.bits ++ [d], r.frames⟩ := by
            have hd' : t.data = d := Option.some.inj hd
            simp [observe, Edge.fires, hc2, htc, hts, hb2, hf2, hd']
          rw [receive_cons, hdown]
          obtain ⟨hb3, hf3, hc3, hs3⟩ :=
            receive_steady .falling (r := ⟨t, r.bits ++ [d], r.frames⟩) htc hts
              (fun k hk => htail k (List.mem_cons_of_mem t hk))
          exact ⟨hb3, hf3, hs3, fun _ => hc3⟩

theorem Cells.receive {e : Edge} {ds : List δ} {ls : List (Levels δ)}
    (hcells : Cells e ds ls) {r : Receiver δ} (hopen : r.Open e) :
    (r.receive e ls).bits = r.bits ++ ds ∧ (r.receive e ls).frames = r.frames
      ∧ (r.receive e ls).Open e := by
  induction hcells generalizing r with
  | nil => exact ⟨(List.append_nil _).symm, rfl, hopen⟩
  | cons hcell _ ih =>
      obtain ⟨hb1, hf1, ho1⟩ := hcell.receive hopen
      obtain ⟨hb2, hf2, ho2⟩ := ih ho1
      rw [receive_append]
      refine ⟨?_, hf2.trans hf1, ho2⟩
      rw [hb2, hb1, List.append_assoc]
      rfl

/-! ## Frames and transmissions -/

/-- A frame on the link: sync rises, the cells follow, sync falls. -/
structure IsFrame (e : Edge) (ds : List δ) (ls : List (Levels δ)) : Prop where
  split : ∃ opening cells closing, ls = opening :: (cells ++ [closing])
    ∧ opening.clk = false ∧ opening.sync = true ∧ Cells e ds cells
    ∧ closing.clk = false ∧ closing.sync = false

/-- **A frame is received as one frame**, and leaves the receiver idle. -/
theorem IsFrame.receive {e : Edge} {ds : List δ} {ls : List (Levels δ)} {r : Receiver δ}
    (hframe : IsFrame e ds ls) (h : r.Idle) :
    (r.receive e ls).Idle ∧ (r.receive e ls).frames = r.frames ++ [ds] := by
  obtain ⟨opening, cells, closing, rfl, hoc, hos, hcells, hcc, hcs⟩ := hframe.split
  have hstart : r.observe e opening = ⟨opening, [], r.frames⟩ := by
    cases e <;> simp [observe, Edge.fires, h.clk, h.sync, h.bits, hoc]
  rw [receive_cons, hstart, receive_append, receive_cons, receive_nil]
  obtain ⟨hb, hf, ho⟩ := hcells.receive (r := ⟨opening, [], r.frames⟩) ⟨hos, fun _ => hoc⟩
  have hend : ((Receiver.mk opening [] r.frames).receive e cells).observe e closing
      = ⟨closing, [], r.frames ++ [ds]⟩ := by
    simp [observe, ho.sync, hcs, hb, hf]
  rw [hend]
  exact ⟨⟨hcc, hcs, rfl⟩, rfl⟩

/-- `ls` transmits the frames `fs`: frames in order, idle levels anywhere
between them. -/
inductive Transmits (e : Edge) : List (List δ) → List (Levels δ) → Prop where
  | nil : Transmits e [] []
  | idle {fs l ls} : l.clk = false → l.sync = false → Transmits e fs ls →
      Transmits e fs (l :: ls)
  | frame {ds ls fs rest} : IsFrame e ds ls → Transmits e fs rest →
      Transmits e (ds :: fs) (ls ++ rest)

theorem Transmits.append {e : Edge} {fs gs : List (List δ)} {a b : List (Levels δ)}
    (ha : Transmits e fs a) (hb : Transmits e gs b) : Transmits e (fs ++ gs) (a ++ b) := by
  induction ha with
  | nil => exact hb
  | idle hc hs _ ih => exact .idle hc hs ih
  | frame hf _ ih =>
      rw [List.append_assoc]
      exact .frame hf ih

/-- **What is transmitted is received**: the same frames, in order, none
partial, none left open. -/
theorem Transmits.receive {e : Edge} {fs : List (List δ)} {ls : List (Levels δ)}
    (ht : Transmits e fs ls) {r : Receiver δ} (h : r.Idle) :
    (r.receive e ls).Idle ∧ (r.receive e ls).frames = r.frames ++ fs := by
  induction ht generalizing r with
  | nil => exact ⟨h, (List.append_nil _).symm⟩
  | idle hc hs _ ih =>
      obtain ⟨hi, hf⟩ := observe_idle e h hc hs
      rw [receive_cons, ← hf]
      exact ih hi
  | frame hframe _ ih =>
      obtain ⟨hi, hf⟩ := hframe.receive h
      rw [receive_append]
      obtain ⟨hi', hf'⟩ := ih hi
      refine ⟨hi', ?_⟩
      rw [hf', hf, List.append_assoc]
      rfl

end GalvoCtrl.Lib.SyncSerial
