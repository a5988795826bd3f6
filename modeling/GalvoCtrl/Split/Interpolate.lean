import Mathlib.Algebra.Order.Floor.Ring
import GalvoCtrl.Lib.Blocks
import GalvoCtrl.Nc.Trace

/-!
# Split — Interpolate

`interpolate_moves` and `load_nc_target`, in exact arithmetic. Every pass of the
inner loop appends one value to each of the six lists, so the lists are kept as
one list of rows; `Target` is the row of the six arrays for every index.
-/

open GalvoCtrl.Lib GalvoCtrl.Split

namespace GalvoCtrl.Nc.LinearMove

/-! ## The locals of the outer loop -/

noncomputable section

def dx (move : LinearMove ℝ) : ℝ := move.endX - move.startX

def dy (move : LinearMove ℝ) : ℝ := move.endY - move.startY

def length (move : LinearMove ℝ) : ℝ := hypot move.dx move.dy

/-- `max(move.feed, 1e-9)` -/
def usedFeed (move : LinearMove ℝ) : ℝ := max move.feed 1e-9

def duration (move : LinearMove ℝ) : ℝ := move.length / move.usedFeed

/-- `max(1, int(math.ceil(duration / cfg.Ts)))`; the floor of `max` makes up for a
natural ceiling. -/
def steps (cfg : Config ℝ) (move : LinearMove ℝ) : ℕ := max 1 ⌈move.duration / cfg.Ts⌉₊

def vx (move : LinearMove ℝ) : ℝ := move.dx / move.duration

def vy (move : LinearMove ℝ) : ℝ := move.dy / move.duration

theorem length_pos {move : LinearMove ℝ}
    (h : ¬(move.endX, move.endY) = (move.startX, move.startY)) : 0 < move.length := by
  have hpos := (hypot_sub_pos _ _ _ _).mpr h
  rw [Rat.cast_sub, Rat.cast_sub] at hpos
  exact hpos

theorem usedFeed_pos (move : LinearMove ℝ) : 0 < move.usedFeed :=
  lt_max_of_lt_right (by norm_num)

/-- The number of samples, as one quotient. -/
theorem steps_eq (cfg : Config ℝ) (move : LinearMove ℝ) :
    move.steps cfg = max 1 ⌈move.length / (move.usedFeed * cfg.Ts)⌉₊ := by
  rw [steps, duration, div_div]

theorem one_le_steps (cfg : Config ℝ) (move : LinearMove ℝ) : 1 ≤ move.steps cfg :=
  le_max_left _ _

end

end GalvoCtrl.Nc.LinearMove

namespace GalvoCtrl.Split

open GalvoCtrl.Nc

/-! ## The target -/

/-- One entry of each of the six arrays. -/
structure TargetRow where
  t : ℝ
  x : ℝ
  y : ℝ
  vx : ℝ
  vy : ℝ
  laserCommand : ℤ

/-- The six arrays of `interpolate_moves`, of one length `K`. -/
structure Target where
  K : ℕ
  K_pos : 0 < K
  row : Fin K → TargetRow

/-- The arrays with these rows, `last` appended. -/
def Target.ofRows (rows : List TargetRow) (last : TargetRow) : Target :=
  ⟨rows.length + 1, Nat.succ_pos _,
    fun k => if h : k.val < rows.length then rows[k.val] else last⟩

noncomputable section

/-- The body of the inner loop. -/
def moveRow (cfg : Config ℝ) (currentT : ℝ) (move : LinearMove ℝ) (i : ℕ) : TargetRow :=
  let alpha : ℝ := i / move.steps cfg
  { t := currentT + i * cfg.Ts
    x := move.startX + alpha * move.dx
    y := move.startY + alpha * move.dy
    vx := move.vx
    vy := move.vy
    laserCommand := move.laserCommand }

/-- The body of the outer loop on the rows so far and `current_t`. -/
def interpolateMove (cfg : Config ℝ) (s : List TargetRow × ℝ) (move : LinearMove ℝ) :
    List TargetRow × ℝ :=
  if move.length ≤ 0 then s
  else
    (s.1 ++ (List.range (move.steps cfg)).map (moveRow cfg s.2 move),
      s.2 + move.steps cfg * cfg.Ts)

/-- `interpolate_moves`; `moves[-1]` fails on an empty list. -/
def interpolateMoves (moves : List (LinearMove ℝ)) (cfg : Config ℝ) : Except String Target :=
  let s := moves.foldl (interpolateMove cfg) ([], 0)
  match moves.getLast? with
  | none => .error "list index out of range"
  | some last => .ok (.ofRows s.1 ⟨s.2, last.endX, last.endY, 0, 0, 0⟩)

/-- `load_nc_target`, on the text of the file. -/
def loadNcTarget (cfg : Config ℝ) (path : String) (text : List Char) : Except String Target :=
  match parseNcFile path text cfg with
  | .error message => .error message
  | .ok moves => interpolateMoves moves cfg

/-! ## The rows of a list of moves -/

/-- The rows of `moves`, from time `currentT` on. -/
def rowsOf (cfg : Config ℝ) (currentT : ℝ) : List (LinearMove ℝ) → List TargetRow
  | [] => []
  | move :: moves =>
      (List.range (move.steps cfg)).map (moveRow cfg currentT move)
        ++ rowsOf cfg (currentT + move.steps cfg * cfg.Ts) moves

/-- How many rows each move has. -/
def rowCounts (cfg : Config ℝ) (moves : List (LinearMove ℝ)) : List ℕ :=
  moves.map (LinearMove.steps cfg)

theorem rowCounts_getElem? {cfg : Config ℝ} {moves : List (LinearMove ℝ)} {j : ℕ}
    {move : LinearMove ℝ} (hmove : moves[j]? = some move) :
    (rowCounts cfg moves)[j]? = some (move.steps cfg) := by
  rw [rowCounts, List.getElem?_map, hmove]
  rfl

theorem foldl_interpolateMove (cfg : Config ℝ) {moves : List (LinearMove ℝ)}
    (h : ∀ move ∈ moves, 0 < move.length) (s : List TargetRow × ℝ) :
    moves.foldl (interpolateMove cfg) s
      = (s.1 ++ rowsOf cfg s.2 moves, s.2 + (rowCounts cfg moves).sum * cfg.Ts) := by
  induction moves generalizing s with
  | nil => simp [rowsOf, rowCounts]
  | cons move moves ih =>
      have hlength := h move (by simp)
      rw [List.foldl_cons, ih (fun m hm => h m (by simp [hm])), interpolateMove,
        if_neg (not_le.mpr hlength), rowsOf, rowCounts, rowCounts, List.map_cons, List.sum_cons]
      dsimp only
      rw [List.append_assoc, Nat.cast_add]
      congr 1
      ring

theorem length_rowsOf (cfg : Config ℝ) (currentT : ℝ) (moves : List (LinearMove ℝ)) :
    (rowsOf cfg currentT moves).length = (rowCounts cfg moves).sum := by
  induction moves generalizing currentT with
  | nil => rfl
  | cons move moves ih =>
      rw [rowsOf, List.length_append, List.length_map, List.length_range, ih, rowCounts, rowCounts,
        List.map_cons, List.sum_cons]

/-- **The row at an index** is the row of the move whose block the index falls
into. -/
theorem getElem_rowsOf (cfg : Config ℝ) (currentT : ℝ) {moves : List (LinearMove ℝ)} {j k : ℕ}
    (h : InBlock (rowCounts cfg moves) j k) {move : LinearMove ℝ} (hmove : moves[j]? = some move) :
    (rowsOf cfg currentT moves)[k]? = some (moveRow cfg
      (currentT + ((rowCounts cfg moves).take j).sum * cfg.Ts) move
      (k - ((rowCounts cfg moves).take j).sum)) := by
  induction moves generalizing currentT j k with
  | nil => exact absurd h not_inBlock_nil
  | cons first moves ih =>
      rw [rowsOf, rowCounts, List.map_cons, ← rowCounts] at *
      cases j with
      | zero =>
          obtain rfl : first = move := by simpa using hmove
          have hk := inBlock_zero.mp h
          rw [List.getElem?_append_left (by simpa using hk)]
          simp [hk]
      | succ j =>
          obtain ⟨hle, hblock⟩ := inBlock_succ.mp h
          rw [List.getElem?_append_right (by simpa using hle), List.length_map, List.length_range,
            ih _ hblock (by simpa using hmove), List.take_succ_cons, List.sum_cons, Nat.cast_add,
            Nat.sub_sub]
          congr 2
          ring

/-- What `interpolate_moves` makes of moves that have a length. -/
structure Interpolates (cfg : Config ℝ) (moves : List (LinearMove ℝ)) (target : Target) : Prop where
  K : target.K = (rowCounts cfg moves).sum + 1
  row : ∀ (k : Fin target.K) (j : ℕ) (move : LinearMove ℝ),
    InBlock (rowCounts cfg moves) j k → moves[j]? = some move →
    target.row k = moveRow cfg (((rowCounts cfg moves).take j).sum * cfg.Ts) move
      (k - ((rowCounts cfg moves).take j).sum)
  last : ∀ k : Fin target.K, k + 1 = target.K → ∃ move, moves.getLast? = some move
    ∧ target.row k = ⟨(rowCounts cfg moves).sum * cfg.Ts, move.endX, move.endY, 0, 0, 0⟩

/-- How many samples there are. -/
theorem Interpolates.K_eq {cfg : Config ℝ} {moves : List (LinearMove ℝ)} {target : Target}
    (h : Interpolates cfg moves target) : target.K
      = 1 + (moves.map fun move => max 1 ⌈move.length / (move.usedFeed * cfg.Ts)⌉₊).sum := by
  have hcounts : rowCounts cfg moves
      = moves.map fun move => max 1 ⌈move.length / (move.usedFeed * cfg.Ts)⌉₊ :=
    List.map_congr_left fun move _ => move.steps_eq cfg
  rw [h.K, add_comm, hcounts]

theorem interpolateMoves_spec (cfg : Config ℝ) {moves : List (LinearMove ℝ)} (hne : moves ≠ [])
    (h : ∀ move ∈ moves, 0 < move.length) :
    ∃ target, interpolateMoves moves cfg = .ok target ∧ Interpolates cfg moves target := by
  obtain ⟨last, hlast⟩ : ∃ last, moves.getLast? = some last :=
    ⟨_, List.getLast?_eq_some_getLast hne⟩
  have hlength := length_rowsOf cfg 0 moves
  unfold interpolateMoves
  rw [foldl_interpolateMove cfg h, hlast]
  dsimp only
  rw [List.nil_append, zero_add]
  refine ⟨_, rfl, congrArg (· + 1) hlength, ?_, ?_⟩
  · intro k j move hblock hmove
    have hrow := getElem_rowsOf cfg 0 hblock hmove
    rw [zero_add] at hrow
    have hk : k.val < (rowsOf cfg 0 moves).length := by
      rw [hlength]
      exact hblock.lt_sum
    rw [List.getElem?_eq_getElem hk] at hrow
    exact (dif_pos hk).trans (Option.some.inj hrow)
  · intro k hk
    have hval : k.val = (rowsOf cfg 0 moves).length := Nat.succ_injective hk
    exact ⟨last, hlast, dif_neg (by omega)⟩

/-- With the default configuration, what is parsed can be computed over `ℚ`. -/
theorem parseNcFile_defaults {path : String} {text : List Char} {moves : List (LinearMove ℚ)}
    (h : parseNcFile path text (Config.defaults ℚ) = .ok moves) :
    parseNcFile path text (Config.defaults ℝ) = .ok (moves.map (LinearMove.mapFeed (↑))) :=
  parseNcFile_mapFeed (fun _ => by simp) (by simp [Config.defaults]) (by simp [Config.defaults]) h

theorem parseNcFile_length_pos {cfg : Config ℝ} {path : String} {text : List Char}
    {moves : List (LinearMove ℝ)} (h : parseNcFile path text cfg = .ok moves) :
    ∀ move ∈ moves, 0 < move.length := by
  intro move hmove
  rw [(parseNcFile_ok h).1] at hmove
  exact LinearMove.length_pos (runLines_leaves cfg _ move hmove)

/-- **Loading** a text that the parser accepts. -/
theorem loadNcTarget_spec {cfg : Config ℝ} {path : String} {text : List Char}
    {moves : List (LinearMove ℝ)} (h : parseNcFile path text cfg = .ok moves) :
    ∃ target, loadNcTarget cfg path text = .ok target ∧ Interpolates cfg moves target := by
  rw [loadNcTarget, h]
  exact interpolateMoves_spec cfg (parseNcFile_ok h).2 (parseNcFile_length_pos h)

end

end GalvoCtrl.Split
