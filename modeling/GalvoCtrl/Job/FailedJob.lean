import GalvoCtrl.Job.CutPath

/-!
# Job — FailedJob

What a failed job leaves behind. A rejected command ends `run_program`, and on the way
out the connection is closed, but nothing switches the laser off: it stays on after every
failure between the two `OP` commands.
-/

namespace GalvoCtrl.Job

/-! ## The laser output -/

/-- What a command does to an output. -/
def Command.laser (output : ℤ) : Command → Option Bool
  | .op n on => if n = output then some on else none
  | _ => none

/-- The `OP` commands for an output among the accepted lines. -/
def laserCommands (output : ℤ) (accepted : List (List Char)) : List Bool :=
  accepted.filterMap fun line => (readCommand line).bind (Command.laser output)

/-- The last `OP` command for the output was OFF, or there was no ON. -/
def LaserSafe (output : ℤ) (accepted : List (List Char)) : Prop :=
  (laserCommands output accepted).getLast? = some false ∨ true ∉ laserCommands output accepted

theorem laserCommands_says {lines : List (List Char)} {commands : List Command}
    (h : List.Forall₂ Says lines commands) (output : ℤ) :
    laserCommands output lines = commands.filterMap (Command.laser output) := by
  induction h with
  | nil => rfl
  | cons hline _ ih =>
      rw [laserCommands] at ih ⊢
      rw [List.filterMap_cons, List.filterMap_cons, hline.reads, Option.bind_some, ih]

/-! ## Cutting a program short -/

/-- A prefix of commands that do not touch the output, and then of one that does. -/
theorem filterMap_take_switch {f : Command → Option Bool} {quiet : List Command}
    (hquiet : ∀ c ∈ quiet, f c = none) {switch : Command} {on : Bool} (hswitch : f switch = some on)
    (more : List Command) (i : ℕ) :
    ((quiet ++ switch :: more).take i).filterMap f
      = if i ≤ quiet.length then []
        else on :: (more.take (i - (quiet.length + 1))).filterMap f := by
  have hfront : (quiet.take i).filterMap f = [] :=
    List.filterMap_eq_nil_iff.mpr fun c hc => hquiet c (List.mem_of_mem_take hc)
  rw [List.take_append, List.filterMap_append, hfront, List.nil_append]
  by_cases hi : i ≤ quiet.length
  · rw [if_pos hi, Nat.sub_eq_zero_of_le hi, List.take_zero, List.filterMap_nil]
  · rw [if_neg hi, show i - quiet.length = i - (quiet.length + 1) + 1 from by omega,
      List.take_succ_cons, List.filterMap_cons, hswitch]

theorem length_cutCommands (points : List Point) :
    (cutCommands points).length = 2 * points.length := by
  induction points with
  | nil => rfl
  | cons p points ih =>
      have hcons : cutCommands (p :: points)
          = .moveAbs p.round4 :: .waitIdle :: cutCommands points := rfl
      rw [hcons, List.length_cons, List.length_cons, ih, List.length_cons]
      omega

/-- The `OP` commands among the first `i`: the laser goes on with the ninth, and off with
the first one after the cut. -/
theorem laser_take_jobCommands (P : JobParameters) (start : Point) (points : List Point) (i : ℕ) :
    ((jobCommands P start points).take i).filterMap (Command.laser P.laserOutput)
      = if i ≤ 8 then [] else if i ≤ 2 * points.length + 9 then [true] else [true, false] := by
  have hsplit : jobCommands P start points = (approachCommands P start).take 8
      ++ .op P.laserOutput true :: (cutCommands points ++ .op P.laserOutput false
        :: (returnCommands P start).drop 1) := by
    rw [jobCommands, List.append_assoc]
    rfl
  have happroach : ∀ c ∈ (approachCommands P start).take 8, c.laser P.laserOutput = none := by
    intro c hc
    simp only [approachCommands, List.take_succ_cons, List.take_zero, List.mem_cons,
      List.not_mem_nil, or_false] at hc
    rcases hc with rfl | rfl | rfl | rfl | rfl | rfl | rfl | rfl <;> rfl
  have hcut : ∀ c ∈ cutCommands points, c.laser P.laserOutput = none := by
    intro c hc
    obtain ⟨p, _, hp⟩ := List.mem_flatMap.mp hc
    simp only [List.mem_cons, List.not_mem_nil, or_false] at hp
    rcases hp with rfl | rfl <;> rfl
  have hreturn (k : ℕ) : (((returnCommands P start).drop 1).take k).filterMap
      (Command.laser P.laserOutput) = [] := by
    refine List.filterMap_eq_nil_iff.mpr ?_
    intro c hc
    have hmem := List.mem_of_mem_take hc
    simp only [returnCommands, List.drop_succ_cons, List.drop_zero, List.mem_cons,
      List.not_mem_nil, or_false] at hmem
    rcases hmem with rfl | rfl | rfl <;> rfl
  have hswitch (on : Bool) : Command.laser P.laserOutput (.op P.laserOutput on) = some on :=
    if_pos rfl
  have hlength : ((approachCommands P start).take 8).length = 8 := rfl
  rw [hsplit, filterMap_take_switch happroach (hswitch true), hlength,
    filterMap_take_switch hcut (hswitch false), length_cutCommands, hreturn]
  split_ifs <;> first | rfl | omega

/-! ## Failed jobs -/

/-- The call `i` is rejected, and no other one. -/
def RejectsOnly (direct : DirectCommand) (i : ℕ) : Prop :=
  ∀ n line, (direct n line).1 ≠ 0 ↔ n = i

/-- The `OP` commands that are accepted when the call `i` is rejected. -/
theorem laserCommands_runJob (P : JobParameters) (start next : Point) (rest : List Point)
    {direct : DirectCommand} {i : ℕ} (hreject : RejectsOnly direct i)
    {program : List (List Char)}
    (hbuild : buildBasicProgram (start :: next :: rest) P = .ok program) :
    laserCommands P.laserOutput (runJob direct program).2.accepted
      = if i ≤ 8 then [] else if i ≤ 2 * (rest.length + 1) + 9 then [true] else [true, false] := by
  have hsays := says_jobLines P start (next :: rest)
  have hsent := sentLines_program P start next rest hbuild
  have hascii : ∀ line ∈ sentLines program, isAscii line = true := by
    rw [hsent]
    intro line hmem
    obtain ⟨_, hline⟩ := says_of_mem hsays line hmem
    exact hline.ascii
  have hbefore : ∀ n < i, ∀ line, (direct n line).1 = 0 := by
    intro n hn line
    by_contra hrc
    exact absurd ((hreject n line).mp hrc) (by omega)
  rw [runJob_accepted hbefore hascii (Or.inl fun line => (hreject i line).mpr rfl), hsent,
    laserCommands_says (List.forall₂_take i hsays), laser_take_jobCommands, List.length_cons]

/-- **Exactly when a failed job leaves the laser off**: when the rejected command comes no
later than the `OP` that switches it on, or after the one that switches it off. -/
theorem runJob_laserSafe_iff (P : JobParameters) (start next : Point) (rest : List Point)
    (direct : DirectCommand) (i : ℕ) (hreject : RejectsOnly direct i) :
    ∃ program, buildBasicProgram (start :: next :: rest) P = .ok program
      ∧ (LaserSafe P.laserOutput (runJob direct program).2.accepted
        ↔ i ≤ 8 ∨ 2 * (start :: next :: rest).length + 8 ≤ i) := by
  refine ⟨_, buildBasicProgram_eq P start next rest, ?_⟩
  rw [LaserSafe, laserCommands_runJob P start next rest hreject
    (buildBasicProgram_eq P start next rest)]
  simp only [List.length_cons]
  split_ifs with hbefore hduring
  · simp [hbefore]
  · simp
    omega
  · simp
    omega

/-- `ZAux_DirectCommand` with the call `i` rejected. -/
def rejectCall (i : ℕ) : DirectCommand := fun n _ => if n = i then (1, []) else (0, [])

theorem rejectCall_rejectsOnly (i : ℕ) : RejectsOnly (rejectCall i) i := by
  intro n line
  unfold rejectCall
  split_ifs with h <;> simp [h]

/-- A failure on the way back. -/
theorem runJob_laserSafe_return : ∃ program,
    buildBasicProgram defaultToolPath .defaults = .ok program
      ∧ LaserSafe 0 (runJob (rejectCall 19) program).2.accepted := by
  obtain ⟨program, hbuild, hsafe⟩ := runJob_laserSafe_iff .defaults
    ⟨.finite false 0, .finite false 0⟩ ⟨.finite false 40, .finite false 0⟩ _ (rejectCall 19) 19
    (rejectCall_rejectsOnly 19)
  exact ⟨program, hbuild, hsafe.mpr (by decide)⟩

/-- A failure of the first cut. -/
theorem not_laserSafe_cut : ∃ program,
    buildBasicProgram defaultToolPath .defaults = .ok program
      ∧ ¬LaserSafe 0 (runJob (rejectCall 9) program).2.accepted := by
  have hbuild : buildBasicProgram defaultToolPath .defaults = _ := buildBasicProgram_eq _ _ _ _
  have hcommands := laserCommands_runJob _ _ _ _ (rejectCall_rejectsOnly 9) hbuild
  rw [if_neg (by decide), if_pos (by decide)] at hcommands
  refine ⟨_, hbuild, ?_⟩
  rintro (hlast | hnone)
  · exact absurd (hcommands ▸ hlast) (by decide)
  · exact absurd (hcommands ▸ hnone) (by decide)

end GalvoCtrl.Job
