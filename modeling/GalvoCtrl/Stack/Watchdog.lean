import GalvoCtrl.Lib.Streak
import GalvoCtrl.Stack.Frame

/-!
# Stack — Watchdog

The watchdog of `DIG_process` over whole runs. It counts the cycles in a row in which the
outputs were on and were not set, so the outputs are switched off in a cycle exactly if
that has been the case in the cycles before, one less than `config.watchdog_cnt`.
-/

namespace GalvoCtrl.Stack

open GalvoCtrl.Lib GalvoCtrl.Coe

variable {V : Type} [DecidableEq V]

/-- `N` cycles of the stack from `ecat_slv_init` on. -/
structure IsRun (table : List (ObjectItem V)) (mem : Memory V) (s : ℕ → EscVar V)
    (i : ℕ → CycleInput V) (N : ℕ) : Prop where
  init : (staticEscVar mem).ecatSlvInit table appWatchdogCnt = .ok (s 0)
  cycle : ∀ n < N, (s n).ecatSlv (i n) table = .ok (s (n + 1))

theorem IsRun.reachable {table : List (ObjectItem V)} {mem : Memory V} {s : ℕ → EscVar V}
    {i : ℕ → CycleInput V} {N : ℕ} (h : IsRun table mem s i N) :
    ∀ n ≤ N, Reachable table mem (s n) := by
  intro n hn
  induction n with
  | zero => exact .init h.init
  | succ n ih => exact .cycle (i n) (ih (by omega)) (h.cycle n hn)

/-! ## One cycle -/

section Cycle

variable (table : List (ObjectItem V))

/-- The outputs are on when the process data are handled. -/
def OutputsOn (s : EscVar V) (i : CycleInput V) : Prop :=
  ∃ u, s.ecatSlvPoll i table = .ok u ∧ u.app.output = true

/-- The outputs are set in the cycle from `s` to `s'`. -/
def OutputsSet (s' : EscVar V) (i : CycleInput V) : Prop :=
  i.alevent &&& escregAleventSm2 ≠ 0 ∧ s'.app.output = true

instance (s' : EscVar V) (i : CycleInput V) : Decidable (OutputsSet s' i) :=
  inferInstanceAs (Decidable (_ ∧ _))

/-- The outputs are on, and they are not set. -/
def Starved (s s' : EscVar V) (i : CycleInput V) : Prop := OutputsOn table s i ∧ ¬OutputsSet s' i

/-- The watchdog switches the outputs off. -/
def Expires (s s' : EscVar V) (i : CycleInput V) : Prop :=
  OutputsOn table s i ∧ s'.app.output = false

variable {table} {s s' u : EscVar V} {i : CycleInput V}

/-- Polling leaves the watchdog alone. -/
theorem poll_watchdog (h : s.ecatSlvPoll i table = .ok u) :
    u.watchdog = s.watchdog ∧ u.watchdogcnt = s.watchdogcnt := by
  obtain ⟨s₁, hstate, hpoll⟩ := bind_eq_ok h
  obtain ⟨server, _, hu⟩ := bind_eq_ok hpoll
  cases hu
  have hdata : s₁.data = s.data := by
    rcases EscVar.escState_framed hstate with ⟨hrest, _⟩ | ⟨an, _, hframed⟩
    · simp only [EscVar.rest, Prod.mk.injEq] at hrest
      exact hrest.1
    · exact hframed.data
  have hact := (EscVar.smActEvent_framed s₁ i.smAct).1.trans hdata
  simp only [EscVar.data, Prod.mk.injEq] at hact
  exact ⟨hact.1, hact.2.1⟩

/-- What the process data do to the watchdog. -/
theorem digProcess_watchdog (h : u.digProcess i = .ok s') :
    s'.watchdogcnt = u.watchdogcnt ∧ s'.sm2Sml = u.sm2Sml
      ∧ s'.app.output = u.digWatchdog.app.output
      ∧ s'.watchdog = if OutputsSet s' i then u.watchdogcnt
        else if u.app.output = true then EscVar.countdown u.watchdog else u.watchdogcnt := by
  obtain ⟨w, houtputs, hinputs⟩ := bind_eq_ok h
  obtain ⟨hin, happ⟩ := EscVar.digInputs_rest hinputs
  obtain ⟨happ', hmapping, _, _, hcnt, hwatchdog⟩ := EscVar.digOutputs_rest houtputs
  have hrest := u.digWatchdog_rest
  simp only [EscVar.rest, EscVar.data, EscVar.mapping, Prod.mk.injEq] at hin hrest hmapping
  refine ⟨?_, ?_, ?_, ?_⟩
  · rw [hin.1.2.1, hcnt, hrest.1.2.1]
  · rw [hin.2.1.1, hmapping.1, hrest.2.1.1]
  · rw [happ, happ']
  · rw [hin.1.1, hwatchdog, hrest.1.2.1, hrest.1.1, ← happ', ← happ]
    rfl

end Cycle

/-! ## Runs -/

section Runs

variable {table : List (ObjectItem V)} {mem : Memory V} {s : ℕ → EscVar V} {i : ℕ → CycleInput V}
  {N : ℕ}

/-- **The watchdog tells how long the outputs have not been set.** -/
theorem IsRun.watchdog_eq [DecidablePred fun n => Starved table (s n) (s (n + 1)) (i n)]
    (h : IsRun table mem s i N) : ∀ n ≤ N, (s n).watchdogcnt = appWatchdogCnt ∧
      (s n).watchdog
        = ((1000 - streak (fun n => Starved table (s n) (s (n + 1)) (i n)) n : ℕ) : ℤ) := by
  intro n hn
  induction n with
  | zero =>
      obtain ⟨mem', _, hs⟩ := bind_eq_ok h.init
      rw [← Except.ok.inj hs]
      exact ⟨rfl, rfl⟩
  | succ n ih =>
      obtain ⟨hcnt, hwatchdog⟩ := ih (by omega)
      obtain ⟨u, hpoll, hprocess⟩ := bind_eq_ok (h.cycle n (by omega))
      obtain ⟨hsame, hsamecnt⟩ := poll_watchdog hpoll
      obtain ⟨hcnt', _, _, hwatchdog'⟩ := digProcess_watchdog hprocess
      rw [hcnt', hsamecnt, hcnt]
      refine ⟨rfl, ?_⟩
      have hon : OutputsOn table (s n) (i n) ↔ u.app.output = true := by
        constructor
        · rintro ⟨u', hpoll', hon⟩
          obtain rfl := Except.ok.inj (hpoll.symm.trans hpoll')
          exact hon
        · exact fun hon => ⟨u, hpoll, hon⟩
      rw [hwatchdog', hsamecnt, hcnt]
      by_cases hset : OutputsSet (s (n + 1)) (i n)
      · rw [if_pos hset, streak_succ_of_not (fun hstarved => hstarved.2 hset)]
        rfl
      rw [if_neg hset]
      by_cases hout : u.app.output = true
      · rw [if_pos hout, streak_succ_of ⟨hon.mpr hout, hset⟩, hsame, hwatchdog, EscVar.countdown]
        split_ifs <;> omega
      · rw [if_neg hout, streak_succ_of_not (fun hstarved => hout (hon.mp hstarved.1))]
        rfl

theorem countdown_nonpos_iff (k : ℕ) : EscVar.countdown ((1000 - k : ℕ) : ℤ) ≤ 0 ↔ 999 ≤ k := by
  rw [EscVar.countdown]
  split_ifs <;> omega

/-- The outputs are switched off for the watchdog in a cycle exactly if there are outputs
and they were on, and not set, in each of the 999 cycles before. -/
theorem watchdog_expires_iff (h : IsRun table mem s i N) {n : ℕ} (hn : n < N) :
    Expires table (s n) (s (n + 1)) (i n)
      ↔ OutputsOn table (s n) (i n) ∧ 0 < (s (n + 1)).sm2Sml.toNat
        ∧ 999 ≤ n ∧ ∀ k < 999, Starved table (s (n - 1 - k)) (s (n - 1 - k + 1)) (i (n - 1 - k)) := by
  classical
  obtain ⟨_, hwatchdog⟩ := h.watchdog_eq n (by omega)
  obtain ⟨u, hpoll, hprocess⟩ := bind_eq_ok (h.cycle n hn)
  obtain ⟨hsame, _⟩ := poll_watchdog hpoll
  obtain ⟨_, hsml, hout, _⟩ := digProcess_watchdog hprocess
  refine and_congr_right fun ⟨u', hpoll', hon⟩ => ?_
  obtain rfl := Except.ok.inj (hpoll.symm.trans hpoll')
  have hdue := u.digWatchdog_output
  rw [hsame, hwatchdog, countdown_nonpos_iff, le_streak_iff] at hdue
  rw [hout, hsml, ← Bool.not_eq_true, hdue, and_iff_right hon, not_not, and_comm]

end Runs

/-! ## A controller that is left alone -/

section Quiet

variable {table : List (ObjectItem V)} {s : EscVar V}

/-- A cycle in which the master does nothing. -/
def quietCycle : CycleInput V := { stateCycle 0 with state := configured 0 0 }

/-- The outputs are on, the mailboxes have nothing to do, and the inputs are packed. -/
structure AtRest (s : EscVar V) : Prop where
  on : s.app.output = true
  mailbox : s.box.mbxprocess (quietCycle (V := V)).mailbox = (false, s.box)
  packed : coePdoPack s.mem s.txpdo (s.sm3Mappings.getD []) = .ok s.txpdo
  room : s.sm3Sml.toNat ≤ s.txpdo.length

omit [DecidableEq V] in
/-- With nothing to send, to repeat or to read, the mailboxes have nothing to do. -/
theorem mbxprocess_quiet {m : Mailbox V} (houtpost : m.mbxoutpost = .inbox)
    (htoggle : m.sm1Rep = m.toggle) (hcue : m.txcue = 0) (hempty : m.sm0Full = false) :
    m.mbxprocess (quietCycle (V := V)).mailbox = (false, m) := by
  have hrefresh : m.refresh (quietCycle (V := V)).mailbox = m :=
    if_neg (not_not.mpr BitVec.zero_and)
  have hpost : m.post (quietCycle (V := V)).mailbox = m := by
    rw [Mailbox.post, if_neg (by rw [hcue]; exact fun h => absurd h.1 (by decide))]
  rw [Mailbox.mbxprocess]
  split_ifs with hrun
  · rfl
  · rw [hrefresh, if_neg (fun h => h.1 houtpost), if_neg (not_not.mpr htoggle), hpost,
      Mailbox.receive, if_neg (by rw [hempty]; exact fun h => absurd h.1 (by decide))]

theorem AtRest.poll (h : AtRest s) : s.ecatSlvPoll quietCycle table = .ok s := by
  have hmailbox : s.server.pollMailbox table s.alStatus (quietCycle (V := V)).mailbox
      = .ok s.server := by
    rw [Server.pollMailbox, EscVar.server, h.mailbox]
    rfl
  have hstate : s.escState table (quietCycle (V := V)).state = .ok s := if_pos BitVec.zero_and
  have hact : s.smActEvent (quietCycle (V := V)).smAct = s := if_pos BitVec.zero_and
  rw [EscVar.ecatSlvPoll, hstate, ok_bind']
  dsimp only
  rw [hact, hmailbox]
  rfl

omit [DecidableEq V] in
theorem digInputs_packed (hpacked : coePdoPack s.mem s.txpdo (s.sm3Mappings.getD []) = .ok s.txpdo)
    (hroom : s.sm3Sml.toNat ≤ s.txpdo.length) :
    ∃ log, s.digInputs quietCycle = .ok { s with log } := by
  by_cases happ : s.app ≠ appstateIdle
  · refine ⟨.writeInputs (slice s.txpdo 0 s.sm3Sml.toNat) :: .getInputs :: s.log, ?_⟩
    have hcopy : copyFrom s.txpdo 0 s.sm3Sml.toNat = .ok (slice s.txpdo 0 s.sm3Sml.toNat) :=
      if_pos (by omega)
    rw [EscVar.digInputs, if_pos happ, EscVar.txpdoUpdate]
    show (coePdoPack s.mem s.txpdo (s.sm3Mappings.getD []) >>= _) = _
    rw [hpacked, ok_bind']
    show (copyFrom s.txpdo 0 s.sm3Sml.toNat >>= _) = _
    rw [hcopy]
    rfl
  · exact ⟨s.log, if_neg happ⟩

/-- A cycle only counts the watchdog down, or ends with it. -/
theorem AtRest.cycle (h : AtRest s) : ∃ s', s.ecatSlv quietCycle table = .ok s'
    ∧ s'.sm2Sml = s.sm2Sml ∧ (1 < s.watchdog → AtRest s' ∧ s'.watchdog = s.watchdog - 1) := by
  have hrest := s.digWatchdog_rest
  simp only [EscVar.rest, EscVar.data, EscVar.mapping, Prod.mk.injEq, if_pos h.on] at hrest
  obtain ⟨⟨hwatchdog, _, hmem, _, htxpdo⟩, ⟨hsm2, hsm3, _, hmaps⟩, hbox⟩ := hrest
  have hon := s.digWatchdog_output
  generalize hu : s.digWatchdog = u at *
  have hpacked : coePdoPack u.mem u.txpdo (u.sm3Mappings.getD []) = .ok u.txpdo := by
    rw [hmem, htxpdo, hmaps]
    exact h.packed
  have hroom : u.sm3Sml.toNat ≤ u.txpdo.length := by
    rw [hsm3, htxpdo]
    exact h.room
  obtain ⟨log, hinputs⟩ := digInputs_packed hpacked hroom
  refine ⟨{ u with log }, ?_, hsm2, fun hw => ⟨⟨?_, ?_, hpacked, hroom⟩, ?_⟩⟩
  · have houtputs : u.digOutputs quietCycle = .ok u := if_pos BitVec.zero_and
    rw [EscVar.ecatSlv, h.poll, ok_bind', EscVar.digProcess, hu, houtputs]
    exact hinputs
  · refine hon.mpr ⟨h.on, fun hdue => ?_⟩
    have := hdue.1
    rw [EscVar.countdown] at this
    split_ifs at this <;> omega
  · show u.box.mbxprocess _ = (false, u.box)
    rw [hbox]
    exact h.mailbox
  · show u.watchdog = _
    rw [hwatchdog, EscVar.countdown, if_pos (by omega)]

/-- The controller is brought to `OP`, and then left alone. -/
def leftAlone : ℕ → CycleInput GalvoVar
  | 0 => stateCycle 2
  | 1 => stateCycle 4
  | 2 => stateCycle 8
  | _ + 3 => quietCycle

/-- The states it goes through. -/
def quietStates : ℕ → EscVar GalvoVar
  | 0 => (controllerAt []).toOption.getD (staticEscVar OdVariables.initial.memory)
  | n + 1 => ((quietStates n).ecatSlv (leftAlone n) galvoObjects).toOption.getD (quietStates n)

theorem quietStates_succ {n : ℕ} {s' : EscVar GalvoVar}
    (h : (quietStates n).ecatSlv (leftAlone n) galvoObjects = .ok s') :
    quietStates (n + 1) = s' := by
  rw [quietStates, h]
  rfl

theorem quietStates_op : AtRest (quietStates 3) := by
  have hop : (quietStates 3).app.output = true
      ∧ ((quietStates 3).box.mbxoutpost = .inbox
        ∧ (quietStates 3).box.sm1Rep = (quietStates 3).box.toggle
        ∧ (quietStates 3).box.txcue = 0 ∧ (quietStates 3).box.sm0Full = false)
      ∧ coePdoPack (quietStates 3).mem (quietStates 3).txpdo
        ((quietStates 3).sm3Mappings.getD []) = .ok (quietStates 3).txpdo
      ∧ (quietStates 3).sm3Sml.toNat ≤ (quietStates 3).txpdo.length := by decide +kernel
  obtain ⟨hon, ⟨houtpost, htoggle, hcue, hempty⟩, hpacked, hroom⟩ := hop
  exact ⟨hon, mbxprocess_quiet houtpost htoggle hcue hempty, hpacked, hroom⟩

/-- In `OP` only the watchdog counts. -/
theorem quietStates_rest (k : ℕ) (hk : k ≤ 998) : AtRest (quietStates (k + 3))
    ∧ (quietStates (k + 3)).watchdog = 999 - k ∧ (quietStates (k + 3)).sm2Sml = 24 := by
  induction k with
  | zero => exact ⟨quietStates_op, rfl, rfl⟩
  | succ k ih =>
      obtain ⟨hrest, hwatchdog, hsml⟩ := ih (by omega)
      obtain ⟨s', hcycle, hsml', hnext⟩ := @AtRest.cycle _ _ galvoObjects _ hrest
      obtain ⟨hrest', hwatchdog'⟩ := hnext (by omega)
      have hstate : quietStates (k + 1 + 3) = s' := quietStates_succ (n := k + 3) hcycle
      rw [hstate]
      exact ⟨hrest', by omega, hsml'.trans hsml⟩

theorem quietStates_isRun :
    IsRun galvoObjects OdVariables.initial.memory quietStates leftAlone 1002 := by
  refine ⟨rfl, fun n hn => ?_⟩
  have hsucceeds : ∃ s', (quietStates n).ecatSlv (leftAlone n) galvoObjects = .ok s' := by
    by_cases hop : 3 ≤ n
    · obtain ⟨k, rfl⟩ := Nat.exists_eq_add_of_le' hop
      obtain ⟨s', hcycle, _⟩ := @AtRest.cycle _ _ galvoObjects _ (quietStates_rest k (by omega)).1
      exact ⟨s', hcycle⟩
    · obtain rfl | rfl | rfl : n = 0 ∨ n = 1 ∨ n = 2 := by omega
      all_goals exact ⟨_, rfl⟩
  obtain ⟨s', hcycle⟩ := hsucceeds
  rw [hcycle, quietStates_succ hcycle]

theorem quietStates_on {n : ℕ} (hop : 2 ≤ n) (hn : n ≤ 1001) :
    OutputsOn galvoObjects (quietStates n) (leftAlone n) := by
  by_cases htwo : n = 2
  · rw [htwo]
    exact ⟨_, rfl, rfl⟩
  · obtain ⟨k, rfl⟩ := Nat.exists_eq_add_of_le' (show 3 ≤ n by omega)
    have hrest := (quietStates_rest k (by omega)).1
    exact ⟨_, hrest.poll, hrest.on⟩

theorem leftAlone_alevent (n : ℕ) : (leftAlone n).alevent = 0 := by
  rcases n with _ | _ | _ | n <;> rfl

/-- The outputs are never set, so they are switched off after 999 cycles in which they were on. -/
theorem watchdog_expires_iff_quiet :
    IsRun galvoObjects OdVariables.initial.memory quietStates leftAlone 1002
      ∧ Expires galvoObjects (quietStates 1001) (quietStates 1002) (leftAlone 1001) := by
  have hrun := quietStates_isRun
  obtain ⟨hrest, _, hsml⟩ := quietStates_rest 998 (by decide)
  refine ⟨hrun, (watchdog_expires_iff hrun (by decide)).mpr
    ⟨quietStates_on (by decide) (by decide), ?_, by decide, fun k hk => ⟨?_, ?_⟩⟩⟩
  · obtain ⟨s', hcycle, hsml', _⟩ := @AtRest.cycle _ _ galvoObjects _ hrest
    have hstate : quietStates 1002 = s' := quietStates_succ (n := 1001) hcycle
    rw [hstate, hsml', hsml]
    decide
  · exact quietStates_on (by omega) (by omega)
  · exact fun hset => hset.1 (by rw [leftAlone_alevent]; rfl)

end Quiet

end GalvoCtrl.Stack
