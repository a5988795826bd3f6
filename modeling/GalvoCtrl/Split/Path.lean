import Mathlib.Analysis.Convex.Segment
import GalvoCtrl.Split.Arrays

/-!
# Split — Path

The samples of `interpolate_moves` as points of the plane. On a move the samples
are equally spaced, and the sample after the last one of a move is the start of the
next: so every step, within a move or into the next one, is the same fraction of
the move.
-/

open GalvoCtrl.Lib GalvoCtrl.Split

namespace GalvoCtrl.Nc.LinearMove

noncomputable section

def startPoint (move : LinearMove ℝ) : ℝ × ℝ := (move.startX, move.startY)

def endPoint (move : LinearMove ℝ) : ℝ × ℝ := (move.endX, move.endY)

/-- The point of a move at the fraction `alpha`. -/
def pointAt (move : LinearMove ℝ) (alpha : ℝ) : ℝ × ℝ :=
  (move.startX + alpha * move.dx, move.startY + alpha * move.dy)

theorem pointAt_zero (move : LinearMove ℝ) : move.pointAt 0 = move.startPoint := by
  simp [pointAt, startPoint]

theorem pointAt_one (move : LinearMove ℝ) : move.pointAt 1 = move.endPoint := by
  simp [pointAt, endPoint, dx, dy]

theorem pointAt_mem_segment (move : LinearMove ℝ) {alpha : ℝ} (h0 : 0 ≤ alpha) (h1 : alpha ≤ 1) :
    move.pointAt alpha ∈ segment ℝ move.startPoint move.endPoint := by
  refine ⟨1 - alpha, alpha, by linarith, h0, by ring, ?_⟩
  refine Prod.ext ?_ ?_
  · simp only [pointAt, startPoint, endPoint, dx, Prod.smul_mk, Prod.mk_add_mk, smul_eq_mul]
    ring
  · simp only [pointAt, startPoint, endPoint, dy, Prod.smul_mk, Prod.mk_add_mk, smul_eq_mul]
    ring

theorem steps_pos (cfg : Config ℝ) (move : LinearMove ℝ) : (0 : ℝ) < move.steps cfg := by
  exact_mod_cast move.one_le_steps cfg

end

end GalvoCtrl.Nc.LinearMove

namespace GalvoCtrl.Split

open GalvoCtrl.Nc

noncomputable section

def TargetRow.point (row : TargetRow) : ℝ × ℝ := (row.x, row.y)

/-! ## Neighbouring samples -/

section Samples

variable {cfg : Config ℝ} {moves : List (LinearMove ℝ)} {target : Target}

/-- The fraction of its move at which sample `k` lies. -/
def fractionAt (cfg : Config ℝ) (moves : List (LinearMove ℝ)) (j k : ℕ) (move : LinearMove ℝ) : ℝ :=
  ((k - ((rowCounts cfg moves).take j).sum : ℕ) : ℝ) / move.steps cfg

theorem Interpolates.point (h : Interpolates cfg moves target) {j : ℕ} {k : Fin target.K}
    {move : LinearMove ℝ} (hblock : InBlock (rowCounts cfg moves) j k)
    (hmove : moves[j]? = some move) :
    (target.row k).point = move.pointAt (fractionAt cfg moves j k move) := by
  rw [h.row k j move hblock hmove]
  rfl

/-- The sample behind a move is its end: the start of the next move, or the last sample. -/
theorem Interpolates.behind (h : Interpolates cfg moves target) {p : ℚ × ℚ}
    (hchain : Chained moves p) {j : ℕ} {k : Fin target.K} {move : LinearMove ℝ}
    (hmove : moves[j]? = some move) (hk : k.val = ((rowCounts cfg moves).take (j + 1)).sum) :
    (target.row k).point = move.endPoint := by
  obtain ⟨hj, rfl⟩ := List.getElem?_eq_some_iff.mp hmove
  cases hnext : moves[j + 1]? with
  | some next =>
      have hblock := inBlock_start (rowCounts_getElem? hnext) (next.one_le_steps cfg)
      rw [← hk] at hblock
      have hzero : fractionAt cfg moves (j + 1) k next = 0 := by
        rw [fractionAt, hk, Nat.sub_self]
        simp
      rw [h.point hblock hnext, hzero, next.pointAt_zero]
      obtain ⟨hj', rfl⟩ := List.getElem?_eq_some_iff.mp hnext
      obtain ⟨hx, hy⟩ := Prod.mk.inj (hchain.links.getElem j hj')
      rw [LinearMove.startPoint, LinearMove.endPoint, hx, hy]
  | none =>
      have hlength : moves.length ≤ j + 1 := List.getElem?_eq_none_iff.mp hnext
      have hsum : (rowCounts cfg moves).sum = k := by
        rw [hk, List.take_of_length_le]
        rw [rowCounts, List.length_map]
        exact hlength
      have hK := h.K
      obtain ⟨last, hlast, hrow⟩ := h.last k (by omega)
      have hlast' : moves[j] = last := by
        rw [List.getLast?_eq_getElem?, show moves.length - 1 = j from by omega,
          List.getElem?_eq_getElem hj] at hlast
        exact Option.some.inj hlast
      rw [hrow, hlast']
      rfl

/-- **The next sample** is one step further on the same move, its end included. -/
theorem Interpolates.next (h : Interpolates cfg moves target) {p : ℚ × ℚ}
    (hchain : Chained moves p) {j : ℕ} {k k' : Fin target.K} {move : LinearMove ℝ}
    (hblock : InBlock (rowCounts cfg moves) j k) (hmove : moves[j]? = some move)
    (hk' : k'.val = k.val + 1) :
    (target.row k').point
      = move.pointAt (fractionAt cfg moves j k move + 1 / move.steps cfg) := by
  have hfraction : fractionAt cfg moves j k move + 1 / move.steps cfg
      = fractionAt cfg moves j (k + 1) move := by
    rw [fractionAt, fractionAt, ← add_div, Nat.succ_sub hblock.1]
    push_cast
    rfl
  rw [hfraction]
  obtain ⟨_, hsame⟩ | ⟨hend, hstart⟩ := hblock.succ (rowCounts_getElem? hmove)
  · rw [← hk'] at hsame ⊢
    exact h.point hsame hmove
  · -- the move is done
    have hone : fractionAt cfg moves j (k + 1) move = 1 := by
      rw [fractionAt, hend]
      exact div_self (move.steps_pos cfg).ne'
    rw [hone, move.pointAt_one]
    exact h.behind hchain hmove (hk'.trans hstart)

/-- Every sample but the last lies on a move. -/
theorem Interpolates.onMove (h : Interpolates cfg moves target) {k : Fin target.K}
    (hk : k + 1 < target.K) :
    ∃ j move, InBlock (rowCounts cfg moves) j k ∧ moves[j]? = some move := by
  have hK := h.K
  obtain ⟨j, hblock⟩ := exists_inBlock (show k < (rowCounts cfg moves).sum by omega)
  have hj : j < moves.length := by simpa [rowCounts] using hblock.lt_length
  exact ⟨j, moves[j], hblock, List.getElem?_eq_getElem hj⟩

theorem fractionAt_mem {j k : ℕ} {move : LinearMove ℝ} (hmove : moves[j]? = some move)
    (hblock : InBlock (rowCounts cfg moves) j k) :
    0 ≤ fractionAt cfg moves j k move ∧ fractionAt cfg moves j k move ≤ 1 := by
  have hlt : k - ((rowCounts cfg moves).take j).sum ≤ move.steps cfg := by
    obtain ⟨h, _⟩ | ⟨h, _⟩ := hblock.succ (rowCounts_getElem? hmove) <;> omega
  constructor
  · exact div_nonneg (Nat.cast_nonneg _) (Nat.cast_nonneg _)
  · rw [fractionAt, div_le_one (move.steps_pos cfg)]
    exact_mod_cast hlt

end Samples

/-! ## Following the path -/

/-- The length of the way from `p` to `q`. -/
def distance (p q : ℝ × ℝ) : ℝ := hypot (q.1 - p.1) (q.2 - p.2)

/-- One step of a move is no longer than what its feed covers in a cycle. -/
theorem distance_step {cfg : Config ℝ} (hTs : 0 < cfg.Ts) (move : LinearMove ℝ) (alpha : ℝ) :
    distance (move.pointAt alpha) (move.pointAt (alpha + 1 / move.steps cfg))
      ≤ move.usedFeed * cfg.Ts := by
  have hsteps := move.steps_pos cfg
  have hfeed : 0 < move.usedFeed * cfg.Ts := mul_pos move.usedFeed_pos hTs
  have hdistance : distance (move.pointAt alpha) (move.pointAt (alpha + 1 / move.steps cfg))
      = 1 / move.steps cfg * move.length := by
    rw [LinearMove.length, ← hypot_mul (one_div_nonneg.mpr hsteps.le), distance]
    simp only [LinearMove.pointAt]
    congr 1 <;> ring
  have hceil : move.length / (move.usedFeed * cfg.Ts) ≤ move.steps cfg := by
    rw [LinearMove.steps_eq]
    exact (Nat.le_ceil _).trans (Nat.cast_le.mpr (le_max_right _ _))
  rw [hdistance, one_div_mul_eq_div, div_le_iff₀ hsteps]
  rwa [div_le_iff₀ hfeed, mul_comm] at hceil

/-- The samples of `target` follow the path of `moves`. Sample `k` lies on move `j`
when `InBlock (rowCounts cfg moves) j k`. -/
structure Follows (cfg : Config ℝ) (moves : List (LinearMove ℝ)) (target : Target) : Prop where
  K : target.K
    = 1 + (moves.map fun move => max 1 ⌈move.length / (move.usedFeed * cfg.Ts)⌉₊).sum
  time : ∀ k, (target.row k).t = k * cfg.Ts
  onMove : ∀ k : Fin target.K, k + 1 < target.K →
    ∃ j move, InBlock (rowCounts cfg moves) j k ∧ moves[j]? = some move
  inOrder : ∀ (k k' : Fin target.K) (j j' : ℕ), InBlock (rowCounts cfg moves) j k →
    InBlock (rowCounts cfg moves) j' k' → k ≤ k' → j ≤ j'
  onSegment : ∀ (k : Fin target.K) (j : ℕ) (move : LinearMove ℝ),
    InBlock (rowCounts cfg moves) j k → moves[j]? = some move →
    (target.row k).point ∈ segment ℝ move.startPoint move.endPoint
  starts : ∀ (j : ℕ) (move : LinearMove ℝ), moves[j]? = some move →
    ∃ k : Fin target.K, InBlock (rowCounts cfg moves) j k ∧ (target.row k).point = move.startPoint
  ends : ∀ k : Fin target.K, k + 1 = target.K →
    ∃ move, moves.getLast? = some move ∧ (target.row k).point = move.endPoint
  step : ∀ (k k' : Fin target.K) (j : ℕ) (move : LinearMove ℝ), k'.val = k.val + 1 →
    InBlock (rowCounts cfg moves) j k → moves[j]? = some move →
    distance (target.row k).point (target.row k').point ≤ move.usedFeed * cfg.Ts

theorem Interpolates.time {cfg : Config ℝ} {moves : List (LinearMove ℝ)} {target : Target}
    (h : Interpolates cfg moves target) (k : Fin target.K) : (target.row k).t = k * cfg.Ts := by
  by_cases hk : k + 1 < target.K
  · obtain ⟨j, move, hblock, hmove⟩ := h.onMove hk
    rw [h.row k j move hblock hmove, moveRow]
    dsimp only
    rw [Nat.cast_sub hblock.1]
    ring
  · have hlast : k + 1 = target.K := by omega
    obtain ⟨move, _, hrow⟩ := h.last k hlast
    have hval : (rowCounts cfg moves).sum = k.val := by
      have := h.K
      omega
    rw [hrow, hval]

theorem Interpolates.follows {cfg : Config ℝ} (hTs : 0 < cfg.Ts) {moves : List (LinearMove ℝ)}
    {target : Target} (h : Interpolates cfg moves target) {p : ℚ × ℚ}
    (hchain : Chained moves p) : Follows cfg moves target where
  K := h.K_eq
  time := h.time
  onMove _ := h.onMove
  inOrder _ _ _ _ hblock hblock' := hblock.mono hblock'
  onSegment k j move hblock hmove := by
    obtain ⟨h0, h1⟩ := fractionAt_mem hmove hblock
    rw [h.point hblock hmove]
    exact move.pointAt_mem_segment h0 h1
  starts j move hmove := by
    have hblock := inBlock_start (rowCounts_getElem? hmove) (move.one_le_steps cfg)
    have hk : ((rowCounts cfg moves).take j).sum < target.K := by
      have := hblock.lt_sum
      have := h.K
      omega
    refine ⟨⟨_, hk⟩, hblock, ?_⟩
    rw [h.point hblock hmove, fractionAt, Nat.sub_self, Nat.cast_zero, zero_div,
      move.pointAt_zero]
  ends k hk := by
    obtain ⟨move, hlast, hrow⟩ := h.last k hk
    exact ⟨move, hlast, by rw [hrow]; rfl⟩
  step k k' j move hk' hblock hmove := by
    rw [h.next hchain hblock hmove hk', h.point hblock hmove]
    exact distance_step hTs move _

/-- **Interpolation follows the path**: the moves of an accepted text are one path of
segments from the origin, and its samples, one for each cycle, run along it in order,
no faster than the feed. -/
theorem loadNcTarget_follows (cfg : Config ℝ) (path : String) (text : List Char)
    (moves : List (LinearMove ℝ)) (hTs : 0 < cfg.Ts)
    (hparse : parseNcFile path text cfg = .ok moves) :
    (∀ move ∈ moves.head?, move.startPoint = (0, 0))
      ∧ moves.IsChain (fun m n => n.startPoint = m.endPoint)
      ∧ (∀ move ∈ moves, 0 < move.length)
      ∧ ∃ target, loadNcTarget cfg path text = .ok target
        ∧ interpolateValues moves cfg = .ok target.values ∧ target.values.HaveLength target.K
        ∧ Follows cfg moves target := by
  obtain ⟨target, hload, hrows⟩ := loadNcTarget_spec hparse
  have hvalues : interpolateValues moves cfg = .ok target.values := by
    rw [loadNcTarget, hparse] at hload
    have hmoves : interpolateMoves moves cfg = .ok target := hload
    rw [interpolateValues_eq, hmoves]
    rfl
  have hlength := parseNcFile_length_pos hparse
  obtain ⟨rfl, _⟩ := parseNcFile_ok hparse
  have hchain := runLines_chained cfg (codeLines text)
  refine ⟨?_, ?_, hlength, target, hload, hvalues, target.values_haveLength,
    hrows.follows hTs hchain⟩
  · intro move hmove
    obtain ⟨hx, hy⟩ := Prod.mk.inj (hchain.first move hmove)
    rw [LinearMove.startPoint, hx, hy, Rat.cast_zero]
  · refine hchain.links.imp ?_
    intro m n hlink
    obtain ⟨hx, hy⟩ := Prod.mk.inj hlink
    rw [LinearMove.startPoint, LinearMove.endPoint, hx, hy]

/-- A corner of two moves. -/
theorem loadNcTarget_follows_corner :
    ∃ target, loadNcTarget (Config.defaults ℝ) "part.nc" "G1 X1\nY2".toList = .ok target
      ∧ Follows (Config.defaults ℝ) [⟨0, 0, 1, 0, 65, 0, false⟩, ⟨1, 0, 1, 2, 65, 0, false⟩]
        target := by
  have hparse := parseNcFile_defaults (by decide +kernel :
    parseNcFile "part.nc" "G1 X1\nY2".toList (Config.defaults ℚ)
      = .ok [⟨0, 0, 1, 0, 65, 0, false⟩, ⟨1, 0, 1, 2, 65, 0, false⟩])
  have hmoves : [(⟨0, 0, 1, 0, 65, 0, false⟩ : LinearMove ℚ), ⟨1, 0, 1, 2, 65, 0, false⟩].map
      (LinearMove.mapFeed (fun q : ℚ => (q : ℝ)))
        = [⟨0, 0, 1, 0, 65, 0, false⟩, ⟨1, 0, 1, 2, 65, 0, false⟩] := by
    simp [LinearMove.mapFeed]
  rw [hmoves] at hparse
  obtain ⟨_, _, _, target, hload, _, _, hfollows⟩ := loadNcTarget_follows (Config.defaults ℝ)
    "part.nc" "G1 X1\nY2".toList _ (by norm_num [Config.defaults]) hparse
  exact ⟨target, hload, hfollows⟩

end

end GalvoCtrl.Split
