import GalvoCtrl.Split.Loop

/-!
# Split — Stream

The loop of `simulate` on samples that are sent one after the other. The planner holds
`Np` of them at most: when the next one arrives, the horizon of the oldest is complete,
and its cycle is run. The loop clips its indices where the target ends; for the planner
the last sample is sent `Np` times more.
-/

namespace GalvoCtrl.Split

open GalvoCtrl.Lib

noncomputable section

/-! ## The planner -/

/-- The samples that wait for their horizon, and `x_now` and `v_now`. -/
structure Planner (cfg : Config ℝ) where
  buffer : List TargetRow
  buffer_le : buffer.length ≤ cfg.Np
  axis : AxisState

section Planner

variable {cfg : Config ℝ} (P : Prediction cfg.Np)

/-- Before the first sample. -/
def Planner.idle : Planner cfg := ⟨[], Nat.zero_le _, ⟨0, 0⟩⟩

theorem buffer_room {oldest row : TargetRow} {held : List TargetRow}
    (hroom : held.length + 1 < cfg.Np) : (oldest :: (held ++ [row])).length ≤ cfg.Np := by
  rw [List.length_cons, List.length_append]
  exact hroom

theorem buffer_full {oldest row : TargetRow} {held : List TargetRow}
    (hle : (oldest :: held).length ≤ cfg.Np) (hroom : ¬held.length + 1 < cfg.Np) :
    cfg.Np = (held ++ [row]).length := by
  rw [List.length_append]
  exact le_antisymm (not_lt.mp hroom) hle

theorem buffer_le_of_full {row : TargetRow} {held : List TargetRow}
    (hfull : cfg.Np = (held ++ [row]).length) : (held ++ [row]).length ≤ cfg.Np := hfull.ge

/-- One more sample, and the pass it completes. -/
def Planner.receive : Planner cfg → TargetRow → Except String (Planner cfg × List Pass)
  | ⟨[], _, _⟩, row => .ok (⟨[row], cfg.Np_pos, ⟨row.x, row.vx⟩⟩, [])
  | ⟨oldest :: held, hle, axis⟩, row =>
      if hroom : held.length + 1 < cfg.Np then
        .ok (⟨oldest :: (held ++ [row]), buffer_room hroom, axis⟩, [])
      else
        have hfull : cfg.Np = (held ++ [row]).length := buffer_full hle hroom
        match loopPass cfg P (fun i => ((held ++ [row]).get (i.cast hfull)).x)
            (fun i => ((held ++ [row]).get (i.cast hfull)).vx) oldest axis with
        | .error message => .error message
        | .ok (pass, next) => .ok (⟨held ++ [row], buffer_le_of_full hfull, next⟩, [pass])

/-- The passes of the samples `rows`. -/
def Planner.feed : Planner cfg → List TargetRow → Except String (List Pass)
  | _, [] => .ok []
  | planner, row :: rows =>
      match planner.receive P row with
      | .error message => .error message
      | .ok (next, done) =>
          match Planner.feed next rows with
          | .error message => .error message
          | .ok passes => .ok (done ++ passes)

/-- There is room for the sample. -/
theorem Planner.receive_room (planner : Planner cfg) (row : TargetRow)
    (hne : planner.buffer ≠ []) (hroom : planner.buffer.length < cfg.Np) :
    ∃ next : Planner cfg, planner.receive P row = .ok (next, [])
      ∧ next.buffer = planner.buffer ++ [row] ∧ next.axis = planner.axis := by
  obtain ⟨buffer, hle, axis⟩ := planner
  cases buffer with
  | nil => exact absurd rfl hne
  | cons oldest held => exact ⟨_, dif_pos hroom, rfl, rfl⟩

/-- The sample completes the horizon of the oldest. -/
theorem Planner.receive_full (planner : Planner cfg) (oldest row : TargetRow)
    (held : List TargetRow) (hbuffer : planner.buffer = oldest :: held)
    (hfull : cfg.Np = (held ++ [row]).length) :
    planner.receive P row
      = match loopPass cfg P (fun i => ((held ++ [row]).get (i.cast hfull)).x)
            (fun i => ((held ++ [row]).get (i.cast hfull)).vx) oldest planner.axis with
        | .error message => .error message
        | .ok (pass, next) => .ok (⟨held ++ [row], hfull.ge, next⟩, [pass]) := by
  obtain ⟨buffer, hle, axis⟩ := planner
  obtain rfl : buffer = oldest :: held := hbuffer
  have hroom : ¬held.length + 1 < cfg.Np := by
    rw [hfull, List.length_append, List.length_singleton]
    omega
  exact dif_neg hroom

end Planner

/-! ## The samples of a target -/

/-- Sample `i`, or the last one. -/
def Target.clipped (target : Target) (i : ℕ) : TargetRow :=
  target.row ⟨min i (target.K - 1), by have := target.K_pos; omega⟩

/-- `n` samples from `i` on. -/
def Target.samples (target : Target) (i n : ℕ) : List TargetRow :=
  (List.range' i n).map target.clipped

section Samples

variable (target : Target)

theorem Target.clipped_of_lt {target : Target} {i : ℕ} (h : i < target.K) :
    target.clipped i = target.row ⟨i, h⟩ :=
  congrArg target.row (Fin.ext (min_eq_left (by omega)))

theorem Target.length_samples (i n : ℕ) : (target.samples i n).length = n := by
  rw [Target.samples, List.length_map, List.length_range']

theorem Target.samples_ne_nil (i : ℕ) {n : ℕ} (hn : 0 < n) : target.samples i n ≠ [] := by
  rw [← List.length_pos_iff, target.length_samples]
  exact hn

theorem Target.samples_succ (i n : ℕ) :
    target.samples i (n + 1) = target.clipped i :: target.samples (i + 1) n := rfl

theorem Target.samples_concat (i n : ℕ) :
    target.samples i n ++ [target.clipped (i + n)] = target.samples i (n + 1) := by
  rw [Target.samples, Target.samples, List.range'_1_concat, List.map_append, List.map_singleton]

theorem Target.getElem_samples {i n j : ℕ} (h : j < (target.samples i n).length) :
    (target.samples i n)[j] = target.clipped (i + j) := by
  simp only [Target.samples, List.getElem_map, List.getElem_range', one_mul]

/-- All of them, and the last `n` times more. -/
theorem Target.samples_eq (n : ℕ) :
    target.samples 0 (target.K + n)
      = List.ofFn target.row ++ List.replicate n (target.clipped target.K) := by
  have hlast {i : ℕ} (hi : target.K - 1 ≤ i) : target.clipped i = target.clipped target.K :=
    congrArg target.row (Fin.ext (by simp only [min_eq_right hi, min_eq_right (Nat.sub_le _ 1)]))
  apply List.ext_getElem
  · simp only [Target.length_samples, List.length_append, List.length_ofFn, List.length_replicate]
  · intro i h₁ h₂
    rw [Target.getElem_samples, Nat.zero_add]
    by_cases hi : i < target.K
    · rw [List.getElem_append_left (by rwa [List.length_ofFn]), List.getElem_ofFn,
        Target.clipped_of_lt hi]
    · rw [List.getElem_append_right (by rw [List.length_ofFn]; omega), List.getElem_replicate,
        hlast (by omega)]

end Samples

/-! ## The planner is the loop -/

section Stream

variable {cfg : Config ℝ} (target : Target) (P : Prediction cfg.Np)

/-- **From here on**: the planner holds `c` samples, the oldest that of cycle `j`. -/
theorem Planner.feed_eq (planner : Planner cfg) {j c : ℕ} (hj : j ≤ target.K) (hc : 0 < c)
    (hcNp : c ≤ cfg.Np) (hbuffer : planner.buffer = target.samples j c) :
    planner.feed P (target.samples (j + c) (target.K + cfg.Np - (j + c)))
      = simulateFrom cfg target P ((List.finRange target.K).drop j) planner.axis := by
  induction hd : target.K + cfg.Np - (j + c) generalizing planner j c with
  | zero =>
      rw [List.drop_eq_nil_of_le (by rw [List.length_finRange]; omega)]
      rfl
  | succ d ih =>
      rw [Target.samples_succ, Planner.feed]
      by_cases hroom : c < cfg.Np
      · -- one sample more, and no pass
        obtain ⟨next, hreceive, hnext, haxis⟩ := planner.receive_room P (target.clipped (j + c))
          (by rw [hbuffer]; exact target.samples_ne_nil j hc)
          (by rw [hbuffer, Target.length_samples]; exact hroom)
        rw [hbuffer, Target.samples_concat] at hnext
        have hrest : next.feed P (target.samples (j + c + 1) d)
            = simulateFrom cfg target P ((List.finRange target.K).drop j) next.axis :=
          ih next hj (Nat.succ_pos c) hroom hnext (by omega)
        rw [hreceive, ← haxis, ← hrest]
        dsimp only
        cases next.feed P (target.samples (j + c + 1) d) <;> rfl
      · -- the pass of cycle `j`
        obtain ⟨n, rfl⟩ : ∃ n, c = n + 1 := ⟨c - 1, by omega⟩
        have hjK : j < target.K := by omega
        have hheld : target.samples (j + 1) n ++ [target.clipped (j + (n + 1))]
            = target.samples (j + 1) (n + 1) := by
          rw [← Target.samples_concat, Nat.add_right_comm j 1 n, Nat.add_assoc j n 1]
        have hfull : cfg.Np
            = (target.samples (j + 1) n ++ [target.clipped (j + (n + 1))]).length := by
          rw [hheld, Target.length_samples]
          omega
        have hget (i : Fin cfg.Np) :
            (target.samples (j + 1) n ++ [target.clipped (j + (n + 1))]).get (i.cast hfull)
              = target.row (target.future j i) :=
          (List.getElem_of_eq hheld _).trans (target.getElem_samples _)
        rw [planner.receive_full P (target.clipped j) _ (target.samples (j + 1) n) hbuffer hfull]
        simp only [hget]
        rw [Target.clipped_of_lt hjK, finRange_drop hjK, simulateFrom]
        cases loopPass cfg P (fun i => (target.row (target.future j i)).x)
            (fun i => (target.row (target.future j i)).vx) (target.row ⟨j, hjK⟩) planner.axis with
        | error message => rfl
        | ok result =>
            have hrest := ih ⟨_, hfull.ge, result.2⟩ hjK hc hcNp hheld (by omega)
            dsimp only at hrest ⊢
            rw [← hrest, Nat.add_right_comm j 1]
            rfl

/-- **The loop, streamed**: the planner is sent the samples and the last one `Np` times
more. -/
theorem Planner.feed_idle :
    Planner.idle.feed P (List.ofFn target.row ++ List.replicate cfg.Np (target.clipped target.K))
      = simulateFrom cfg target P (List.finRange target.K)
          ⟨(target.row target.first).x, (target.row target.first).vx⟩ := by
  obtain ⟨d, hd⟩ : ∃ d, target.K + cfg.Np = d + 1 := ⟨target.K + cfg.Np - 1, by
    have := target.K_pos
    omega⟩
  have hfirst : target.clipped 0 = target.row target.first := Target.clipped_of_lt target.K_pos
  have hrest := Planner.feed_eq target P
    ⟨[target.clipped 0], cfg.Np_pos, ⟨(target.clipped 0).x, (target.clipped 0).vx⟩⟩
    (Nat.zero_le _) one_pos cfg.Np_pos rfl
  rw [List.drop_zero, hfirst, show target.K + cfg.Np - (0 + 1) = d by omega] at hrest
  rw [← Target.samples_eq, hd, Target.samples_succ, Planner.feed, ← hrest, hfirst]
  dsimp only [Planner.idle, Planner.receive]
  cases Planner.feed P _ (target.samples (0 + 1) d) <;> rfl

end Stream

end

end GalvoCtrl.Split
