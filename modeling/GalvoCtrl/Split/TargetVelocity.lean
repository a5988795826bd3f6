import GalvoCtrl.Split.Path

/-!
# Split — TargetVelocity

Whether the target velocity is the velocity of the target position. The positions of
a move are spread over its cycles, rounded up, but the velocity is taken over the
duration before rounding. So they agree on a move exactly when nothing is rounded.
-/

open GalvoCtrl.Lib GalvoCtrl.Split

namespace GalvoCtrl.Nc.LinearMove

noncomputable section

/-- What the move covers in one cycle, at its feed. -/
def cycleLength (cfg : Config ℝ) (move : LinearMove ℝ) : ℝ := max move.feed 1e-9 * cfg.Ts

/-- The way of the move is a whole number of cycles long. -/
def WholeCycles (cfg : Config ℝ) (move : LinearMove ℝ) : Prop :=
  ∃ n : ℕ, hypot (move.endX - move.startX) (move.endY - move.startY) = n * move.cycleLength cfg

theorem cycleLength_pos {cfg : Config ℝ} (hTs : 0 < cfg.Ts) (move : LinearMove ℝ) :
    0 < move.cycleLength cfg :=
  mul_pos move.usedFeed_pos hTs

/-- What the velocity of a move adds up to in one cycle. -/
theorem Ts_mul_velocity (cfg : Config ℝ) (move : LinearMove ℝ) (d : ℝ) :
    cfg.Ts * (d / move.duration) = d * move.cycleLength cfg / move.length := by
  rw [duration, cycleLength, ← usedFeed, div_div_eq_mul_div]
  ring

/-- A move of whole cycles has that many samples. -/
theorem wholeCycles_iff {cfg : Config ℝ} (hTs : 0 < cfg.Ts) {move : LinearMove ℝ}
    (hlength : 0 < move.length) :
    move.WholeCycles cfg ↔ move.length = move.steps cfg * move.cycleLength cfg := by
  have hcycle := move.cycleLength_pos hTs
  constructor
  · intro ⟨n, hn⟩
    have hlen : move.length = n * move.cycleLength cfg := hn
    have hn0 : n ≠ 0 := by
      intro h
      rw [hlen, h, Nat.cast_zero, zero_mul] at hlength
      exact hlength.false
    have hquot : move.length / move.cycleLength cfg = n := by
      rw [hlen, mul_div_assoc, div_self hcycle.ne', mul_one]
    have hsteps : move.steps cfg = n := by
      rw [steps_eq]
      show max 1 ⌈move.length / move.cycleLength cfg⌉₊ = n
      rw [hquot, Nat.ceil_natCast]
      omega
    rw [hsteps, hlen]
  · intro h
    exact ⟨_, h⟩

/-- **One sample step** along an axis, `d` of the whole way: it agrees with the velocity when
the axis moves at all only if the move is whole cycles long. -/
theorem step_eq_velocity_iff {cfg : Config ℝ} (hTs : 0 < cfg.Ts) {move : LinearMove ℝ}
    (hlength : 0 < move.length) (d : ℝ) :
    1 / move.steps cfg * d = cfg.Ts * (d / move.duration) ↔ d = 0 ∨ move.WholeCycles cfg := by
  have hsteps := move.steps_pos cfg
  rw [Ts_mul_velocity, wholeCycles_iff hTs hlength, one_div_mul_eq_div,
    div_eq_div_iff hsteps.ne' hlength.ne', mul_assoc, mul_comm (move.cycleLength cfg)]
  constructor
  · intro h
    by_cases hd : d = 0
    · exact Or.inl hd
    · exact Or.inr (mul_left_cancel₀ hd h)
  · rintro (rfl | h)
    · rw [zero_mul, zero_mul]
    · rw [h]

end

end GalvoCtrl.Nc.LinearMove

namespace GalvoCtrl.Split

open GalvoCtrl.Nc

noncomputable section

/-- The samples move as the velocities say, from each to the next. -/
def VelocityMatches (cfg : Config ℝ) (target : Target) : Prop :=
  ∀ k k' : Fin target.K, k'.val = k.val + 1 →
    (target.row k').x - (target.row k).x = cfg.Ts * (target.row k).vx
      ∧ (target.row k').y - (target.row k).y = cfg.Ts * (target.row k).vy

section Samples

variable {cfg : Config ℝ} {moves : List (LinearMove ℝ)} {target : Target}

/-- The two samples of a step, and the velocity of the first. -/
theorem Interpolates.matches_iff (h : Interpolates cfg moves target) {p : ℚ × ℚ}
    (hchain : Chained moves p) (hTs : 0 < cfg.Ts) {j : ℕ} {k k' : Fin target.K}
    {move : LinearMove ℝ} (hblock : InBlock (rowCounts cfg moves) j k)
    (hmove : moves[j]? = some move) (hlength : 0 < move.length) (hk' : k'.val = k.val + 1) :
    ((target.row k').x - (target.row k).x = cfg.Ts * (target.row k).vx
      ∧ (target.row k').y - (target.row k).y = cfg.Ts * (target.row k).vy)
      ↔ move.WholeCycles cfg := by
  obtain ⟨hx, hy⟩ := Prod.mk.inj (h.point hblock hmove)
  obtain ⟨hx', hy'⟩ := Prod.mk.inj (h.next hchain hblock hmove hk')
  have hvx : (target.row k).vx = move.dx / move.duration := by
    rw [h.row k j move hblock hmove]
    rfl
  have hvy : (target.row k).vy = move.dy / move.duration := by
    rw [h.row k j move hblock hmove]
    rfl
  have hstep (a alpha d : ℝ) : a + (alpha + 1 / move.steps cfg) * d - (a + alpha * d)
      = 1 / move.steps cfg * d := by ring
  rw [hx, hx', hy, hy', hvx, hvy, hstep, hstep, move.step_eq_velocity_iff hTs hlength,
    move.step_eq_velocity_iff hTs hlength]
  constructor
  · rintro ⟨hdx | hwhole, hdy | hwhole'⟩
    · -- a move goes somewhere
      rw [LinearMove.length, hdx, hdy, hypot_zero_right, abs_zero] at hlength
      exact absurd hlength (lt_irrefl 0)
    · exact hwhole'
    · exact hwhole
    · exact hwhole
  · intro hwhole
    exact ⟨Or.inr hwhole, Or.inr hwhole⟩

theorem Interpolates.velocityMatches_iff (h : Interpolates cfg moves target) {p : ℚ × ℚ}
    (hchain : Chained moves p) (hTs : 0 < cfg.Ts) (hlength : ∀ move ∈ moves, 0 < move.length) :
    VelocityMatches cfg target ↔ ∀ move ∈ moves, move.WholeCycles cfg := by
  constructor
  · intro hmatch move hmem
    obtain ⟨j, hj, rfl⟩ := List.getElem_of_mem hmem
    have hmove := List.getElem?_eq_getElem hj
    -- the start of the move is a sample, and not the last one
    have hblock := inBlock_start (rowCounts_getElem? hmove) (moves[j].one_le_steps cfg)
    have hK := h.K
    have hlt := hblock.lt_sum
    have hk : ((rowCounts cfg moves).take j).sum < target.K := by omega
    have hk' : ((rowCounts cfg moves).take j).sum + 1 < target.K := by omega
    refine (h.matches_iff hchain hTs (k := ⟨_, hk⟩) hblock hmove (hlength _ hmem) ?_).mp
      (hmatch _ ⟨_, hk'⟩ rfl)
    rfl
  · intro hwhole k k' hk'
    obtain ⟨j, move, hblock, hmove⟩ := h.onMove (k := k) (by omega)
    have hmem := List.mem_of_getElem? hmove
    exact (h.matches_iff hchain hTs hblock hmove (hlength _ hmem) hk').mpr (hwhole _ hmem)

end Samples

/-- **Exactly when the target velocity is the velocity of the target position**: when
every move of the text is a whole number of cycles long. -/
theorem loadNcTarget_velocityMatches_iff (cfg : Config ℝ) (path : String) (text : List Char)
    (moves : List (LinearMove ℝ)) (hTs : 0 < cfg.Ts)
    (hparse : parseNcFile path text cfg = .ok moves) :
    ∃ target, loadNcTarget cfg path text = .ok target
      ∧ (VelocityMatches cfg target ↔ ∀ move ∈ moves, move.WholeCycles cfg) := by
  obtain ⟨target, hload, hrows⟩ := loadNcTarget_spec hparse
  have hlength := parseNcFile_length_pos hparse
  obtain ⟨rfl, _⟩ := parseNcFile_ok hparse
  exact ⟨target, hload,
    hrows.velocityMatches_iff (runLines_chained cfg (codeLines text)) hTs hlength⟩

/-- Ten cycles at 65 mm/s. -/
theorem loadNcTarget_velocityMatches_tenCycles :
    ∃ target, loadNcTarget (Config.defaults ℝ) "part.nc" "G1 X0.65".toList = .ok target
      ∧ VelocityMatches (Config.defaults ℝ) target := by
  have hparse := parseNcFile_defaults (by decide +kernel :
    parseNcFile "part.nc" "G1 X0.65".toList (Config.defaults ℚ)
      = .ok [⟨0, 0, 13 / 20, 0, 65, 0, false⟩])
  obtain ⟨target, hload, hiff⟩ := loadNcTarget_velocityMatches_iff (Config.defaults ℝ) "part.nc"
    "G1 X0.65".toList _ (by norm_num [Config.defaults]) hparse
  refine ⟨target, hload, hiff.mpr ?_⟩
  intro move hmove
  obtain rfl := List.mem_singleton.mp hmove
  refine ⟨10, ?_⟩
  norm_num [LinearMove.mapFeed, LinearMove.cycleLength, hypot_zero_right, Config.defaults]

/-- A millimetre takes 15.4 of these cycles. -/
theorem not_velocityMatches_millimetre :
    ∃ target, loadNcTarget (Config.defaults ℝ) "part.nc" "G1 X1".toList = .ok target
      ∧ ¬VelocityMatches (Config.defaults ℝ) target := by
  have hparse := parseNcFile_defaults (by decide +kernel :
    parseNcFile "part.nc" "G1 X1".toList (Config.defaults ℚ) = .ok [⟨0, 0, 1, 0, 65, 0, false⟩])
  obtain ⟨target, hload, hrows⟩ := loadNcTarget_spec hparse
  have hchain := runLines_chained (Config.defaults ℝ) (codeLines "G1 X1".toList)
  rw [← (parseNcFile_ok hparse).1] at hchain
  refine ⟨target, hload, ?_⟩
  rw [hrows.velocityMatches_iff hchain (by norm_num [Config.defaults])
    (parseNcFile_length_pos hparse)]
  intro h
  obtain ⟨n, hn⟩ := h _ (List.mem_singleton.mpr rfl)
  norm_num [LinearMove.mapFeed, LinearMove.cycleLength, hypot_zero_right, Config.defaults] at hn
  have hcycles : (n * 65 : ℝ) = 1000 := by linarith
  have : n * 65 = 1000 := by exact_mod_cast hcycles
  omega

end

end GalvoCtrl.Split
