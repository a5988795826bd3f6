import GalvoCtrl.Job.Lines

/-!
# Job — CutPath

A generated program cuts exactly the tool path. With the laser on it goes from point to
point, with the laser off only to the start, and nothing is switched during a move; the
file and the connection execute the same commands.
-/

namespace GalvoCtrl.Job

open GalvoCtrl.Lib

/-! ## The commands of a program -/

section Program

variable (P : JobParameters) (start next : Point) (rest : List Point)

theorem sentLines_program {program : List (List Char)}
    (h : buildBasicProgram (start :: next :: rest) P = .ok program) :
    sentLines program = jobLines P start (next :: rest) := by
  rw [buildBasicProgram_eq] at h
  cases h
  have hcomments (more : List (List Char)) : sentLines ("' ZMotion laser machining job".toList
      :: "' Units: mm, mm/s".toList :: more) = sentLines more := by
    rw [sentLines, if_pos (by decide), sentLines, if_pos (by decide)]
  have hend : sentLines ["END".toList, []] = [] := by decide
  rw [hcomments, sentLines_says (says_jobLines P start (next :: rest)), hend, List.append_nil]

theorem commandLines_program {program : List (List Char)}
    (h : buildBasicProgram (start :: next :: rest) P = .ok program) :
    commandLines (getlines '\n' (programText program)) = jobLines P start (next :: rest) := by
  rw [buildBasicProgram_eq] at h
  cases h
  have hsays := says_jobLines P start (next :: rest)
  generalize jobLines P start (next :: rest) = lines at hsays
  have hcomments (more : List (List Char)) : commandLines ("' ZMotion laser machining job".toList
      :: "' Units: mm, mm/s".toList :: more) = commandLines more := by
    rw [commandLines, if_pos (by decide), commandLines, if_pos (by decide)]
  have hend : commandLines ["END".toList] = [] := by decide
  -- the empty last line only terminates the one before it
  have hlast : ("' ZMotion laser machining job".toList :: "' Units: mm, mm/s".toList
      :: (lines ++ ["END".toList, []])) = ("' ZMotion laser machining job".toList
        :: "' Units: mm, mm/s".toList :: (lines ++ ["END".toList])) ++ [[]] := by
    rw [List.cons_append, List.cons_append, List.append_assoc]
    rfl
  have hbreaks : ∀ line ∈ "' ZMotion laser machining job".toList
      :: "' Units: mm, mm/s".toList :: (lines ++ ["END".toList]), '\n' ∉ line := by
    intro line hmem
    rcases List.mem_cons.mp hmem with rfl | hmem
    · decide
    rcases List.mem_cons.mp hmem with rfl | hmem
    · decide
    rcases List.mem_append.mp hmem with hmem | hmem
    · obtain ⟨_, hline⟩ := says_of_mem hsays line hmem
      exact hline.noBreak
    · rw [List.mem_singleton.mp hmem]
      decide
  rw [programText, hlast, intercalate_concat_nil, getlines_flatMap hbreaks, hcomments,
    commandLines_says hsays, hend, List.append_nil]

end Program

/-! ## Executing them -/

/-- The moves from point to point. -/
def legs (speed : PyFloat) (laserOn : Bool) (p : Point) : List Point → List Move
  | [] => []
  | q :: points => ⟨laserOn, speed, p, q⟩ :: legs speed laserOn q points

theorem laserOn_of_mem_legs {speed : PyFloat} {laserOn : Bool} {p : Point} {points : List Point}
    {m : Move} (h : m ∈ legs speed laserOn p points) : m.laserOn = laserOn := by
  induction points generalizing p with
  | nil => cases h
  | cons q points ih =>
      rcases List.mem_cons.mp h with rfl | h
      · rfl
      · exact ih h

/-- Only a completed move may find one pending. -/
def Settled (trace : List Executed) : Prop :=
  ∀ e ∈ trace, e.command ≠ .waitIdle → e.before.pending = none

theorem Settled.append {a b : List Executed} (ha : Settled a) (hb : Settled b) :
    Settled (a ++ b) := by
  intro e he
  rcases List.mem_append.mp he with he | he
  · exact ha e he
  · exact hb e he

section Run

variable (output : ℤ) (v : PyFloat) (o : Point)

/-! One point takes two commands, and leaves nothing pending. -/

theorem runFrom_cut (speed : PyFloat) (on : Bool) (p : Point) (points : List Point) :
    (interpreter output v o).runFrom (.idle speed on p) (cutCommands points)
      = .idle speed on ((points.map Point.round4).getLastD p) := by
  induction points generalizing p with
  | nil => rfl
  | cons q points ih => exact (ih q.round4).trans (by rw [List.map_cons, List.getLastD_cons])

theorem moves_cut (speed : PyFloat) (on : Bool) (p : Point) (points : List Point) :
    ((interpreter output v o).traceFrom (.idle speed on p) (cutCommands points)).filterMap
      Executed.move = legs speed on p (points.map Point.round4) := by
  induction points generalizing p with
  | nil => rfl
  | cons q points ih => exact congrArg (⟨on, speed, p, q.round4⟩ :: ·) (ih q.round4)

theorem settled_cut (speed : PyFloat) (on : Bool) (p : Point) (points : List Point) :
    Settled ((interpreter output v o).traceFrom (.idle speed on p) (cutCommands points)) := by
  induction points generalizing p with
  | nil => exact fun _ he => nomatch he
  | cons q points ih =>
      intro e he hwait
      rcases List.mem_cons.mp he with rfl | he
      · rfl
      rcases List.mem_cons.mp he with rfl | he
      · exact absurd rfl hwait
      · exact ih q.round4 e he hwait

end Run

section Ends

variable (P : JobParameters) (start : Point) (v : PyFloat) (o : Point)

theorem runFrom_approach :
    (interpreter P.laserOutput v o).run (approachCommands P start)
      = .idle (round4 P.workSpeed) true start.round4 := by
  simp [approachCommands, Machine.run, Machine.runFrom, interpreter, Motion.step, Motion.idle]

theorem trace_approach :
    ((interpreter P.laserOutput v o).trace (approachCommands P start)).filterMap Executed.move
        = [⟨false, round4 P.rapidSpeed, o, start.round4⟩]
      ∧ Settled ((interpreter P.laserOutput v o).trace (approachCommands P start)) := by
  constructor
  · rfl
  · simp [Settled, approachCommands, Machine.trace, Machine.traceFrom, interpreter, Motion.step,
      Motion.idle]

theorem runFrom_return (p : Point) :
    (interpreter P.laserOutput v o).runFrom (.idle (round4 P.workSpeed) true p)
        (returnCommands P start) = .idle (round4 P.rapidSpeed) false start.round4 := by
  simp [returnCommands, Machine.runFrom, interpreter, Motion.step, Motion.idle]

theorem trace_return (p : Point) :
    ((interpreter P.laserOutput v o).traceFrom (.idle (round4 P.workSpeed) true p)
        (returnCommands P start)).filterMap Executed.move
        = [⟨false, round4 P.rapidSpeed, p, start.round4⟩]
      ∧ Settled ((interpreter P.laserOutput v o).traceFrom (.idle (round4 P.workSpeed) true p)
          (returnCommands P start)) := by
  constructor
  · simp only [returnCommands, Machine.traceFrom, interpreter, Motion.step, Motion.idle, if_true]
    rfl
  · simp [Settled, returnCommands, Machine.traceFrom, interpreter, Motion.step, Motion.idle]

end Ends

/-- What a program for the path from `start` through `points` is to do: cut the path, come
back to the start with the laser off, and switch nothing on the way. -/
structure CutsPath (P : JobParameters) (start : Point) (points : List Point) (e : Execution) :
    Prop where
  cut : e.moves.filter (·.laserOn)
    = legs (round4 P.workSpeed) true start.round4 (points.map Point.round4)
  rapid : ∀ m ∈ e.moves, m.laserOn = false →
    m.target = start.round4 ∧ m.speed = round4 P.rapidSpeed
  settled : Settled e.trace
  ends : e.final = .idle (round4 P.rapidSpeed) false start.round4

/-- **The commands of a program**, executed from any speed and position. -/
theorem jobCommands_cutsPath (P : JobParameters) (start : Point) (points : List Point)
    (v : PyFloat) (o : Point) :
    CutsPath P start points
      ⟨(interpreter P.laserOutput v o).trace (jobCommands P start points),
        (interpreter P.laserOutput v o).run (jobCommands P start points)⟩ := by
  have hmid := runFrom_approach P start v o
  have hcut := runFrom_cut P.laserOutput v o (round4 P.workSpeed) true start.round4 points
  generalize (points.map Point.round4).getLastD start.round4 = p at hcut
  obtain ⟨hmoves, hsettled⟩ := trace_approach P start v o
  obtain ⟨hmoves', hsettled'⟩ := trace_return P start v o p
  have htrace : (interpreter P.laserOutput v o).trace (jobCommands P start points)
      = (interpreter P.laserOutput v o).trace (approachCommands P start)
        ++ (interpreter P.laserOutput v o).traceFrom
            (.idle (round4 P.workSpeed) true start.round4) (cutCommands points)
        ++ (interpreter P.laserOutput v o).traceFrom (.idle (round4 P.workSpeed) true p)
            (returnCommands P start) := by
    rw [jobCommands, Machine.trace_append, Machine.trace_append, Machine.run_append, hmid, hcut]
  have hall : (⟨(interpreter P.laserOutput v o).trace (jobCommands P start points),
        (interpreter P.laserOutput v o).run (jobCommands P start points)⟩ : Execution).moves
      = ⟨false, round4 P.rapidSpeed, o, start.round4⟩
        :: (legs (round4 P.workSpeed) true start.round4 (points.map Point.round4)
          ++ [⟨false, round4 P.rapidSpeed, p, start.round4⟩]) := by
    rw [Execution.moves]
    dsimp only
    rw [htrace, List.filterMap_append, List.filterMap_append, hmoves, moves_cut, hmoves']
    rfl
  refine ⟨?_, ?_, ?_, ?_⟩
  · have hlegs : (legs (round4 P.workSpeed) true start.round4
        (points.map Point.round4)).filter (·.laserOn)
        = legs (round4 P.workSpeed) true start.round4 (points.map Point.round4) :=
      List.filter_eq_self.mpr fun m hm => laserOn_of_mem_legs hm
    rw [hall, List.filter_cons_of_neg (by simp), List.filter_append, hlegs,
      List.filter_cons_of_neg (by simp), List.filter_nil, List.append_nil]
  · intro m hm hoff
    rw [hall] at hm
    rcases List.mem_cons.mp hm with rfl | hm
    · exact ⟨rfl, rfl⟩
    rcases List.mem_append.mp hm with hm | hm
    · rw [laserOn_of_mem_legs hm] at hoff
      cases hoff
    · rw [List.mem_singleton.mp hm]
      exact ⟨rfl, rfl⟩
  · show Settled ((interpreter P.laserOutput v o).trace _)
    rw [htrace]
    exact (hsettled.append (settled_cut _ _ _ _ _ _ _)).append hsettled'
  · show (interpreter P.laserOutput v o).run _ = _
    rw [jobCommands, Machine.run_append, Machine.run_append, hmid, hcut]
    exact runFrom_return P start v o p

/-- **The generated program cuts the tool path**, from the file and over the connection
alike, with every number as `fmt` rounds it. -/
theorem program_cutsPath (P : JobParameters) (start next : Point) (rest : List Point)
    (v : PyFloat) (o : Point) :
    (∀ value, readFloat (fmt value) = some (round4 value))
      ∧ ∃ program e, buildBasicProgram (start :: next :: rest) P = .ok program
        ∧ executeFile (interpreter P.laserOutput v o) (programText program) = some e
        ∧ execute (interpreter P.laserOutput v o) (runJob acceptAll program).2.accepted = some e
        ∧ CutsPath P start (next :: rest) e := by
  have hsays := says_jobLines P start (next :: rest)
  have hbuild := buildBasicProgram_eq P start next rest
  have hsent := sentLines_program P start next rest hbuild
  refine ⟨readFloat_fmt, _, _, hbuild, ?_, ?_, jobCommands_cutsPath P start (next :: rest) v o⟩
  · rw [executeFile, commandLines_program P start next rest hbuild, execute,
      mapM_readCommand hsays]
    rfl
  · have hascii : ∀ line ∈ jobLines P start (next :: rest), isAscii line = true := by
      intro line hmem
      obtain ⟨_, hline⟩ := says_of_mem hsays line hmem
      exact hline.ascii
    rw [← hsent] at hascii
    rw [runJob_acceptAll hascii, hsent, execute, mapM_readCommand hsays]
    rfl

end GalvoCtrl.Job
