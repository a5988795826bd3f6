import GalvoCtrl.Job.Interpreter

/-!
# Job — Controller

`ZMotionController` and the part of `main` that runs a program: commands go out one at
a time, and the first one that is rejected ends the run. What `ZAux_DirectCommand`
returns is a parameter. Opening the connection is left out: a job that is not connected
sends nothing.
-/

namespace GalvoCtrl.Job

open GalvoCtrl.Nc GalvoCtrl.Split

/-- What the `n`-th call of `ZAux_DirectCommand` makes of a command: the return code, not
zero for a rejected command, and the decoded response. -/
abbrev DirectCommand := ℕ → List Char → ℤ × List Char

/-- A connection. A rejected command has no effect, so the controller is known by the
commands it accepted. -/
structure Session where
  handle : Bool
  calls : ℕ
  accepted : List (List Char)

/-- After `ZAux_OpenEth`. -/
def Session.opened : Session := ⟨true, 0, []⟩

/-- `close`; the controller keeps its outputs. -/
def Session.close (s : Session) : Session :=
  if s.handle then { s with handle := false } else s

inductive JobError where
  /-- `UnicodeEncodeError` -/
  | encode (line : List Char)
  /-- `RuntimeError` -/
  | runtime (message : List Char)

/-- `line.encode("ascii")` goes through. -/
def isAscii (line : List Char) : Bool := line.all fun c => c.toNat < 128

/-- `command` -/
def command (direct : DirectCommand) (line : List Char) (s : Session) :
    Except JobError (List Char) × Session :=
  if isAscii line then
    let (rc, decoded) := direct s.calls line
    if rc ≠ 0 then
      (.error (.runtime ("Command failed, rc=".toList ++ intText rc ++ ", command=".toList ++ line
        ++ ", response=".toList ++ decoded)), { s with calls := s.calls + 1 })
    else (.ok decoded, { s with calls := s.calls + 1, accepted := s.accepted ++ [line] })
  else (.error (.encode line), s)

/-- `run_program` -/
def runProgram (direct : DirectCommand) :
    List (List Char) → Session → Except JobError Unit × Session
  | [], s => (.ok (), s)
  | rawLine :: lines, s =>
      let line := strip rawLine
      if line = [] ∨ isComment line = true then runProgram direct lines s
      else if upper line = "END".toList then runProgram direct lines s
      else match command direct line s with
        | (.ok _, s) => runProgram direct lines s
        | (.error e, s) => (.error e, s)

/-- `with ZMotionController(args.ip) as controller: controller.run_program(program)`. The
context closes the connection on the way out, with an exception or without. -/
def runJob (direct : DirectCommand) (program : List (List Char)) :
    Except JobError Unit × Session :=
  let (result, s) := runProgram direct program .opened
  (result, s.close)

/-- `"\n".join(program)`, what `main` writes to the `.bas` file. -/
def programText (program : List (List Char)) : List Char := ['\n'].intercalate program

/-- A controller that accepts everything. -/
def acceptAll : DirectCommand := fun _ _ => (0, [])

/-! ## What is sent -/

/-- The lines that `run_program` sends, when none is rejected. -/
def sentLines : List (List Char) → List (List Char)
  | [] => []
  | rawLine :: lines =>
      let line := strip rawLine
      if line = [] ∨ isComment line = true then sentLines lines
      else if upper line = "END".toList then sentLines lines
      else line :: sentLines lines

theorem command_accepted {direct : DirectCommand} {line : List Char} {s : Session}
    (hascii : isAscii line = true) (hrc : (direct s.calls line).1 = 0) :
    command direct line s = (.ok (direct s.calls line).2,
      { s with calls := s.calls + 1, accepted := s.accepted ++ [line] }) := by
  rw [command, if_pos hascii]
  exact if_neg (not_not.mpr hrc)

theorem command_rejected {direct : DirectCommand} {line : List Char} {s : Session}
    (hascii : isAscii line = true) (hrc : (direct s.calls line).1 ≠ 0) :
    ∃ e, command direct line s = (.error e, { s with calls := s.calls + 1 }) := by
  rw [command, if_pos hascii]
  exact ⟨_, if_pos hrc⟩

/-- **The run of a program** whose call `i` is rejected, if it is made at all: the
commands before it are accepted, and no other. -/
theorem runProgram_accepted {direct : DirectCommand} {i : ℕ}
    (hbefore : ∀ n < i, ∀ line, (direct n line).1 = 0) {lines : List (List Char)}
    (hascii : ∀ line ∈ sentLines lines, isAscii line = true) {s : Session} (hs : s.calls ≤ i)
    (hreject : (∀ line, (direct i line).1 ≠ 0) ∨ s.calls + (sentLines lines).length ≤ i) :
    (runProgram direct lines s).2.accepted
      = s.accepted ++ (sentLines lines).take (i - s.calls) := by
  induction lines generalizing s with
  | nil => rw [runProgram, sentLines, List.take_nil, List.append_nil]
  | cons rawLine lines ih =>
      rw [sentLines] at hascii hreject ⊢
      rw [runProgram]
      by_cases hskip : strip rawLine = [] ∨ isComment (strip rawLine) = true
      · rw [if_pos hskip] at hascii hreject ⊢
        rw [if_pos hskip]
        exact ih hascii hs hreject
      · rw [if_neg hskip] at hascii hreject ⊢
        rw [if_neg hskip]
        by_cases hend : upper (strip rawLine) = "END".toList
        · rw [if_pos hend] at hascii hreject ⊢
          rw [if_pos hend]
          exact ih hascii hs hreject
        · rw [if_neg hend] at hascii hreject ⊢
          rw [if_neg hend]
          have hline := hascii (strip rawLine) (by simp)
          by_cases hi : s.calls = i
          · -- the rejected call ends the run
            have hrc : (direct s.calls (strip rawLine)).1 ≠ 0 := by
              rcases hreject with hreject | hlength
              · rw [hi]
                exact hreject _
              · rw [List.length_cons] at hlength
                omega
            obtain ⟨e, he⟩ := command_rejected hline hrc
            rw [he, hi, Nat.sub_self, List.take_zero, List.append_nil]
          · have hlt : s.calls < i := by omega
            rw [command_accepted hline (hbefore _ hlt _)]
            have hreject' : (∀ line, (direct i line).1 ≠ 0)
                ∨ s.calls + 1 + (sentLines lines).length ≤ i := by
              rcases hreject with hreject | hlength
              · exact Or.inl hreject
              · rw [List.length_cons] at hlength
                exact Or.inr (by omega)
            have htake : i - s.calls = i - (s.calls + 1) + 1 := by omega
            have hrun := ih (s := { s with
              calls := s.calls + 1, accepted := s.accepted ++ [strip rawLine] })
              (fun l hl => hascii l (by simp [hl])) hlt hreject'
            rw [htake, List.take_succ_cons]
            exact hrun.trans (List.append_assoc _ _ _)

theorem runJob_accepted {direct : DirectCommand} {i : ℕ}
    (hbefore : ∀ n < i, ∀ line, (direct n line).1 = 0) {program : List (List Char)}
    (hascii : ∀ line ∈ sentLines program, isAscii line = true)
    (hreject : (∀ line, (direct i line).1 ≠ 0) ∨ (sentLines program).length ≤ i) :
    (runJob direct program).2.accepted = (sentLines program).take i := by
  have hclose (s : Session) : s.close.accepted = s.accepted := by
    unfold Session.close
    split_ifs <;> rfl
  have h := runProgram_accepted hbefore hascii (s := .opened) (Nat.zero_le i)
    (by simpa [Session.opened] using hreject)
  rw [runJob]
  dsimp only
  rw [hclose, h]
  rfl

/-- A controller that accepts everything gets all of it. -/
theorem runJob_acceptAll {program : List (List Char)}
    (hascii : ∀ line ∈ sentLines program, isAscii line = true) :
    (runJob acceptAll program).2.accepted = sentLines program := by
  rw [runJob_accepted (i := (sentLines program).length) (fun _ _ _ => rfl) hascii (Or.inr le_rfl),
    List.take_length]

end GalvoCtrl.Job
