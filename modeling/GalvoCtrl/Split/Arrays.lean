import GalvoCtrl.Split.Interpolate

/-!
# Split — Arrays

`interpolate_moves` as it is written, on six lists that grow side by side, and that
these lists are the columns of the rows of `interpolateMoves`.
-/

namespace GalvoCtrl.Split

open GalvoCtrl.Nc

/-- `t_values`, `x_values`, `y_values`, `vx_values`, `vy_values` and `laser_values`. -/
structure Values where
  t : List ℝ
  x : List ℝ
  y : List ℝ
  vx : List ℝ
  vy : List ℝ
  laser : List ℤ

namespace Values

def empty : Values := ⟨[], [], [], [], [], []⟩

/-- One `append` to each list. -/
def append (v : Values) (row : TargetRow) : Values :=
  ⟨v.t ++ [row.t], v.x ++ [row.x], v.y ++ [row.y], v.vx ++ [row.vx], v.vy ++ [row.vy],
    v.laser ++ [row.laserCommand]⟩

/-- The columns of `rows`. -/
def ofRows (rows : List TargetRow) : Values :=
  ⟨rows.map (·.t), rows.map (·.x), rows.map (·.y), rows.map (·.vx), rows.map (·.vy),
    rows.map (·.laserCommand)⟩

/-- All six lists have `K` entries. -/
structure HaveLength (v : Values) (K : ℕ) : Prop where
  t : v.t.length = K
  x : v.x.length = K
  y : v.y.length = K
  vx : v.vx.length = K
  vy : v.vy.length = K
  laser : v.laser.length = K

theorem ofRows_append (rows : List TargetRow) (row : TargetRow) :
    (ofRows rows).append row = ofRows (rows ++ [row]) := by
  simp [append, ofRows]

theorem ofRows_haveLength (rows : List TargetRow) : (ofRows rows).HaveLength rows.length := by
  constructor <;> exact List.length_map _

/-- A loop that appends a row in each pass. -/
theorem foldl_append {β : Type*} (f : β → TargetRow) (xs : List β) (rows : List TargetRow) :
    xs.foldl (fun v i => v.append (f i)) (ofRows rows) = ofRows (rows ++ xs.map f) := by
  induction xs generalizing rows with
  | nil => rw [List.foldl_nil, List.map_nil, List.append_nil]
  | cons x xs ih =>
      rw [List.foldl_cons, ofRows_append, ih, List.map_cons, List.append_assoc,
        List.singleton_append]

end Values

noncomputable section

/-- The body of the outer loop of `interpolate_moves`. -/
def appendMove (cfg : Config ℝ) (s : Values × ℝ) (move : LinearMove ℝ) : Values × ℝ :=
  if move.length ≤ 0 then s
  else
    ((List.range (move.steps cfg)).foldl (fun v i => v.append (moveRow cfg s.2 move i)) s.1,
      s.2 + move.steps cfg * cfg.Ts)

/-- `interpolate_moves`, list by list. -/
def interpolateValues (moves : List (LinearMove ℝ)) (cfg : Config ℝ) : Except String Values :=
  let s := moves.foldl (appendMove cfg) (.empty, 0)
  match moves.getLast? with
  | none => .error "list index out of range"
  | some last => .ok (s.1.append ⟨s.2, last.endX, last.endY, 0, 0, 0⟩)

/-- The six arrays. -/
def Target.values (target : Target) : Values := .ofRows (List.ofFn target.row)

theorem Target.values_haveLength (target : Target) : target.values.HaveLength target.K := by
  have h := Values.ofRows_haveLength (List.ofFn target.row)
  rwa [List.length_ofFn] at h

theorem Target.ofFn_ofRows (rows : List TargetRow) (last : TargetRow) :
    List.ofFn (Target.ofRows rows last).row = rows ++ [last] := by
  refine List.ext_getElem ?_ ?_
  · rw [List.length_ofFn, List.length_append, List.length_singleton]
    rfl
  · intro k _ hk
    rw [List.getElem_ofFn]
    by_cases h : k < rows.length
    · rw [List.getElem_append_left h]
      exact dif_pos h
    · rw [List.getElem_append_right (by omega), List.getElem_singleton]
      exact dif_neg h

/-- One move: the lists stay the columns of the rows. -/
theorem appendMove_ofRows (cfg : Config ℝ) (s : List TargetRow × ℝ) (move : LinearMove ℝ) :
    appendMove cfg (.ofRows s.1, s.2) move
      = (.ofRows (interpolateMove cfg s move).1, (interpolateMove cfg s move).2) := by
  unfold appendMove interpolateMove
  by_cases hlength : move.length ≤ 0
  · rw [if_pos hlength, if_pos hlength]
  · rw [if_neg hlength, if_neg hlength, Values.foldl_append]

theorem foldl_appendMove (cfg : Config ℝ) (moves : List (LinearMove ℝ))
    (s : List TargetRow × ℝ) :
    moves.foldl (appendMove cfg) (.ofRows s.1, s.2)
      = (.ofRows (moves.foldl (interpolateMove cfg) s).1,
          (moves.foldl (interpolateMove cfg) s).2) := by
  induction moves generalizing s with
  | nil => rfl
  | cons move moves ih =>
      rw [List.foldl_cons, List.foldl_cons, appendMove_ofRows]
      exact ih _

/-- **The lists are the columns**, for all moves. -/
theorem interpolateValues_eq (moves : List (LinearMove ℝ)) (cfg : Config ℝ) :
    interpolateValues moves cfg = (interpolateMoves moves cfg).map Target.values := by
  have hfold := foldl_appendMove cfg moves ([], 0)
  rw [show Values.ofRows [] = Values.empty from rfl] at hfold
  unfold interpolateValues interpolateMoves
  rw [hfold]
  cases moves.getLast? with
  | none => rfl
  | some last =>
      show Except.ok _ = Except.ok _
      rw [Values.ofRows_append, Target.values, Target.ofFn_ofRows]

end

end GalvoCtrl.Split
