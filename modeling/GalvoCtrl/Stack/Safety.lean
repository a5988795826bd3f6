import GalvoCtrl.Coe.MailboxRuns
import GalvoCtrl.Stack.AlMachine

/-!
# Stack — Safety

Every cycle of the stack is steps of the state machine (`AlMachine`), whatever the master
and the ESC do. So in every state that the controller comes to, the outputs are on exactly
in `OP`, and the trace of what it did is as it should be.
-/

namespace GalvoCtrl.Stack

open GalvoCtrl.Lib GalvoCtrl.Coe

variable {V : Type}

/-! ## Nibbles -/

private theorem ext_byte {a b : BitVec 8}
    (h : ∀ i ∈ List.range 8, a.getLsbD i = b.getLsbD i) : a = b :=
  BitVec.eq_of_getLsbD_eq fun i hi => h i (List.mem_range.mpr hi)

theorem low_nibble (ac st : BitVec 8) : ((ac <<< 4) ||| (st &&& 0x0F)) &&& 0x0F = st &&& 0x0F :=
  ext_byte (by simp [List.range_succ])

theorem high_nibble {ac : BitVec 8} (hac : ac &&& 0x0F = ac) (st : BitVec 8) :
    ((ac <<< 4) ||| (st &&& 0x0F)) >>> 4 = ac := by
  rw [← hac]
  exact ext_byte (by simp [List.range_succ])

/-- Both halves of a change. -/
theorem change_eq {ac st change : BitVec 8} (hac : ac &&& 0x0F = ac)
    (h : (ac <<< 4) ||| (st &&& 0x0F) = change) :
    ac = change >>> 4 ∧ st &&& 0x0F = change &&& 0x0F := by
  rw [← h, high_nibble hac, low_nibble]
  exact ⟨rfl, rfl⟩

theorem alState_alState (st : BitVec 8) : alState (alState st) = alState st := by
  rw [alState, alState, BitVec.and_assoc, BitVec.and_self]

theorem alState_or_id (an : BitVec 8) : alState (an ||| escregAlIdRequest) = alState an :=
  ext_byte (by simp [alState, escregAlErrackmask, escregAlIdRequest, List.range_succ])

theorem alState_or_error (an : BitVec 8) : alState (an ||| escError) = alState an :=
  ext_byte (by simp [alState, escregAlErrackmask, escError, List.range_succ])

theorem or_id_error (an : BitVec 8) :
    (an ||| escregAlIdRequest) &&& escError = an &&& escError :=
  ext_byte (by simp [escError, escregAlIdRequest, List.range_succ])

theorem Changed.or_id {c c' : Core V} {an : BitVec 8} (h : Changed c an c') :
    Changed c (an ||| escregAlIdRequest) c' := by
  obtain ⟨⟨hchange, hclean, hboot⟩, houtput, hrunning, htrace, hsafe⟩ := h
  rw [← alState_or_id an] at hchange hclean hboot houtput hrunning
  rw [← or_id_error an] at hclean hboot
  exact ⟨⟨hchange, hclean, hboot⟩, houtput, hrunning, htrace, hsafe⟩

namespace EscVar

/-! ## What the functions do to the machine -/

/-- The machine in the variables of the stack. -/
def core (s : EscVar V) : Core V :=
  ⟨s.alStatus, s.app.output, s.box.mbxRun, s.log.filter EscEvent.visible⟩

section Core

variable (s : EscVar V) (r : Registers)

@[simp] theorem core_escAlError (e : BitVec 16) : (s.escAlError e).core = s.core := rfl

@[simp] theorem core_smEnable (n : Nat) : (s.smEnable n).core = s.core := rfl

@[simp] theorem core_smDisable (n : Nat) : (s.smDisable n).core = s.core := rfl

@[simp] theorem core_escAlStatus (st : BitVec 8) :
    (s.escAlStatus st).core
      = { s.core with alStatus := st, trace := .alStatus st :: s.core.trace } := rfl

@[simp] theorem core_stopmbx : s.stopmbx.core = { s.core with mbxRun := false } := rfl

@[simp] theorem core_stopinput : s.stopinput.core = { s.core with output := false } := rfl

@[simp] theorem core_stopoutput :
    s.stopoutput.core = { s.core with output := false, trace := .safeOutput :: s.core.trace } := rfl

@[simp] theorem core_startoutput : s.startoutput.core = { s.core with output := true } := by
  rw [startoutput]
  split <;> rfl

@[simp] theorem core_flagSm3 : s.flagSm3.core = s.core := by
  rw [flagSm3]
  split <;> rfl

@[simp] theorem core_smError : s.smError.core = s.core := by
  rw [smError]
  split <;> rfl

/-- `ESC_checkmbx` gives the state back, or `INIT` with an error. -/
theorem checkmbx_cases (state : BitVec 8) :
    (s.checkmbx r state).2.core = s.core
      ∧ ((s.checkmbx r state).1 = state ∨ (s.checkmbx r state).1 = escInit ||| escError) := by
  rw [checkmbx]
  split_ifs
  · exact ⟨rfl, Or.inr rfl⟩
  · exact ⟨rfl, Or.inr rfl⟩
  · exact ⟨rfl, Or.inl rfl⟩

/-- `ESC_checkSM23` gives the state back, or `PREOP` with an error. -/
theorem checkSm23_cases (state : BitVec 8) :
    (s.checkSm23 r state).2.core = s.core
      ∧ ((s.checkSm23 r state).1 = state ∨ (s.checkSm23 r state).1 = escPreop ||| escError) := by
  rw [checkSm23]
  split_ifs <;> first | exact ⟨rfl, Or.inl rfl⟩ | exact ⟨rfl, Or.inr rfl⟩

/-- The mailboxes run if they could be started. -/
theorem startmbx_cases {state : BitVec 8} (hstate : state &&& escError = 0) (e : BitVec 16) :
    ((s.startmbx r state e).1 = state
        ∧ (s.startmbx r state e).2.core = { s.core with mbxRun := true })
      ∨ ((s.startmbx r state e).1 = escInit ||| escError
        ∧ (s.startmbx r state e).2.core = { s.core with mbxRun := false }) := by
  obtain ⟨hcore, hcheck⟩ := ((s.smEnable 0).smEnable 1).checkmbx_cases r state
  rw [core_smEnable, core_smEnable] at hcore
  rw [startmbx]
  rcases hcheck with h | h
  · left
    simp only [h, hstate, ne_eq, not_true_eq_false, if_false]
    exact ⟨trivial, congrArg (fun c : Core V => { c with mbxRun := true }) hcore⟩
  · right
    simp only [h]
    exact ⟨rfl, congrArg (fun c : Core V => { c with mbxRun := false }) hcore⟩

/-- The inputs are started, or the state falls back to `PREOP`. -/
theorem startinput_cases (state : BitVec 8) :
    ((s.startinput r state).1 = state ∨ (s.startinput r state).1 = escPreop ||| escError)
      ∧ ((s.startinput r state).2.core = s.core
        ∨ (s.startinput r state).2.core = { s.core with output := false }) := by
  obtain ⟨hcore, hcheck⟩ := s.checkSm23_cases r state
  rw [startinput]
  generalize s.checkSm23 r state = p at hcore hcheck ⊢
  obtain ⟨an, u⟩ := p
  dsimp only at hcore hcheck ⊢
  have houtput : { u.core with output := false } = { s.core with output := false } :=
    congrArg (fun c : Core V => { c with output := false }) hcore
  split_ifs with hok hsml
  · exact ⟨hcheck, Or.inr houtput⟩
  · exact ⟨hcheck, Or.inr houtput⟩
  · refine ⟨hcheck, Or.inl ?_⟩
    rw [core_smError, core_smDisable, core_smDisable, hcore]

end Core

/-! ## State changes -/

section State

variable {table : List (ObjectItem V)} {r : Registers} {s s' : EscVar V} {ac an : BitVec 8}

/-- The mappings are read, and the inputs are started if there are both. -/
theorem toSafeop_eq (h : s.toSafeop table r ac = .ok (an, s')) :
    (an = escPreop ||| escError ∧ ∃ sm2Sml sm2Mappings sm3Sml sm3Mappings e,
        s' = ({ s with sm2Sml, sm2Mappings, sm3Sml, sm3Mappings } : EscVar V).escAlError e)
      ∨ ∃ sm2Sml rxMaps sm3Sml txMaps u,
        sizeOfPdo s.mem table maxMappingsSm rxPdoObjidx s.sm2Mappings = .ok (sm2Sml, some rxMaps)
        ∧ sizeOfPdo s.mem table maxMappingsSm txPdoObjidx s.sm3Mappings = .ok (sm3Sml, some txMaps)
        ∧ u = ({ s with sm2Sml, sm2Mappings := some rxMaps, sm3Sml, sm3Mappings := some txMaps } :
          EscVar V)
        ∧ an = (u.startinput r ac).1
        ∧ (s' = (u.startinput r ac).2 ∨ s' = (u.startinput r ac).2.smEnable 2) := by
  obtain ⟨⟨sm2Sml, sm2Mappings⟩, hsm2, hrx⟩ := bind_eq_ok h
  dsimp only at hrx
  cases sm2Mappings with
  | none =>
      rw [if_pos rfl] at hrx
      cases hrx
      exact Or.inl ⟨rfl, _, _, s.sm3Sml, s.sm3Mappings, _, rfl⟩
  | some rxMaps =>
      rw [if_neg nofun] at hrx
      obtain ⟨⟨sm3Sml, sm3Mappings⟩, hsm3, htx⟩ := bind_eq_ok hrx
      dsimp only at htx
      cases sm3Mappings with
      | none =>
          rw [if_pos rfl] at htx
          cases htx
          exact Or.inl ⟨rfl, _, _, _, _, _, rfl⟩
      | some txMaps =>
          rw [if_neg nofun] at htx
          cases htx
          refine Or.inr ⟨sm2Sml, rxMaps, sm3Sml, txMaps, _, hsm2, hsm3, rfl, rfl, ?_⟩
          split_ifs
          · exact Or.inr rfl
          · exact Or.inl rfl

/-- The inputs are started if the process data fit, or the state falls back to `PREOP`. -/
theorem toSafeop_cases (h : s.toSafeop table r ac = .ok (an, s')) :
    (an = ac ∨ an = escPreop ||| escError)
      ∧ (s'.core = s.core ∨ s'.core = { s.core with output := false }) := by
  rcases toSafeop_eq h with ⟨rfl, _, _, _, _, _, rfl⟩ | ⟨_, _, _, _, u, _, _, rfl, rfl, hs'⟩
  · exact ⟨Or.inr rfl, Or.inl rfl⟩
  · obtain ⟨han, hcore⟩ := startinput_cases _ r ac
    refine ⟨han, ?_⟩
    rcases hs' with rfl | rfl
    · exact hcore
    · exact hcore

/-- A change that leaves the machine alone, -/
theorem changed_keep {x : BitVec 8} (hinv : AlInv s.core) (hst : alState s.core.alStatus = x)
    (hx : alState x = x) (hallowed : Allowed x an) (hcore : s'.core = s.core)
    (hop : alState an = escOp ↔ x = escOp) (hinit : alState an = escInit ↔ x = escInit) :
    Changed s.core an s'.core := by
  refine Changed.of_state hinv hst hx hallowed ?_ ?_ (Or.inr ⟨by rw [hcore], ?_⟩)
  · rw [hcore, hinv.output_eq hst, decide_eq_decide, hop]
  · rw [hcore, hinv.running_eq hst, decide_eq_decide]
    exact hinit.not.symm
  · rw [hop]
    exact (Decidable.em (x = escOp)).symm

/-- one that switches the outputs off, -/
theorem changed_stop {x : BitVec 8} (hinv : AlInv s.core) (hst : alState s.core.alStatus = x)
    (hx : alState x = x) (hallowed : Allowed x an)
    (hcore : s'.core = { s.core with output := false, trace := .safeOutput :: s.core.trace })
    (hop : alState an ≠ escOp) (hinit : alState an = escInit ↔ x = escInit) :
    Changed s.core an s'.core := by
  rw [hcore]
  refine Changed.of_state hinv hst hx hallowed ?_ ?_ (Or.inl rfl)
  · exact (decide_eq_false hop).symm
  · show s.core.mbxRun = _
    rw [hinv.running_eq hst, decide_eq_decide]
    exact hinit.not.symm

/-- and one to `INIT`. -/
theorem changed_init {x : BitVec 8} (hinv : AlInv s.core) (hst : alState s.core.alStatus = x)
    (hx : alState x = x) (hallowed : Allowed x an) (han : alState an = escInit)
    (houtput : s'.core.output = false) (hrunning : s'.core.mbxRun = false)
    (htrace : s'.core.trace = .safeOutput :: s.core.trace
      ∨ s'.core.trace = s.core.trace ∧ x ≠ escOp) : Changed s.core an s'.core := by
  refine Changed.of_state hinv hst hx hallowed ?_ ?_ (htrace.imp_right fun h => ⟨h.1, Or.inl h.2⟩)
  · rw [houtput, han]
    rfl
  · rw [hrunning, han]
    rfl

/-- Where the outputs are off, stopping the inputs changes nothing. -/
theorem core_output_false {x : BitVec 8} (hinv : AlInv s.core) (hst : alState s.core.alStatus = x)
    (hx : x ≠ escOp) : { s.core with output := false } = s.core := by
  have hoff : s.core.output = false := by rw [hinv.output_eq hst, decide_eq_false hx]
  rw [← hoff]

/-- A start of the mailboxes. -/
theorem startmbx_changed {x : BitVec 8} {e : BitVec 16} (hinv : AlInv s.core)
    (hst : alState s.core.alStatus = x) (hx : alState x = x) (hxop : x ≠ escOp)
    (hok : Allowed x ac) (herr : Allowed x (escInit ||| escError)) (hac : ac &&& escError = 0)
    (hacop : alState ac ≠ escOp) (hacinit : alState ac ≠ escInit)
    (h : s.startmbx r ac e = (an, s')) : Changed s.core an s'.core := by
  have hoff : s.core.output = false := by rw [hinv.output_eq hst, decide_eq_false hxop]
  have hcases := s.startmbx_cases r hac e
  rw [h] at hcases
  obtain ⟨han, hcore⟩ | ⟨han, hcore⟩ := hcases
  · obtain rfl : an = ac := han
    rw [show s'.core = _ from hcore]
    refine Changed.of_state hinv hst hx hok ?_ ?_ (Or.inr ⟨rfl, Or.inl hxop⟩)
    · rw [decide_eq_false hacop]
      exact hoff
    · exact (decide_eq_true hacinit).symm
  · obtain rfl : an = escInit ||| escError := han
    rw [show s'.core = _ from hcore]
    exact Changed.of_state hinv hst hx herr hoff rfl (Or.inr ⟨rfl, Or.inl hxop⟩)

/-- **A change of the state is one of the machine.** -/
theorem changeState_changed (hinv : AlInv s.core) (hac : ac &&& 0x0F = ac)
    (h : s.changeState table r ((ac <<< 4) ||| (s.alStatus &&& 0x0F)) (s.alStatus &&& 0x0F) ac
      = .ok (an, s')) : Changed s.core an s'.core := by
  have hfrom : ∀ {change : BitVec 8}, (ac <<< 4) ||| (s.alStatus &&& 0x0F) = change →
      ac = change >>> 4 ∧ alState s.core.alStatus = change &&& 0x0F := change_eq hac
  have hself : alState s.core.alStatus = s.alStatus &&& 0x0F := rfl
  generalize (ac <<< 4) ||| (s.alStatus &&& 0x0F) = as at h hfrom
  generalize s.alStatus &&& 0x0F = st at h hself
  rw [changeState] at h
  by_cases h1 : as = initToInit ∨ as = preopToPreop ∨ as = opToOp
  · rw [if_pos h1] at h
    cases h
    rcases h1 with h1 | h1 | h1
    all_goals
      obtain ⟨_, hst⟩ := hfrom h1
      obtain rfl := hself.symm.trans hst
      exact changed_keep hinv hst (by decide) (by decide) rfl (by decide) (by decide)
  rw [if_neg h1] at h
  by_cases h2 : as = initToPreop
  · rw [if_pos h2] at h
    obtain ⟨rfl, hst⟩ := hfrom h2
    exact startmbx_changed hinv hst (by decide) (by decide) (by decide) (by decide) (by decide)
      (by decide) (by decide) (Except.ok.inj h)
  rw [if_neg h2] at h
  by_cases h3 : as = initToBoot ∨ as = bootToBoot
  · rw [if_pos h3] at h
    rcases h3 with h3 | h3
    all_goals
      obtain ⟨rfl, hst⟩ := hfrom h3
      exact startmbx_changed hinv hst (by decide) (by decide) (by decide) (by decide) (by decide)
        (by decide) (by decide) (Except.ok.inj h)
  rw [if_neg h3] at h
  by_cases h4 : as = initToSafeop ∨ as = initToOp
  · rw [if_pos h4] at h
    cases h
    rcases h4 with h4 | h4
    all_goals
      obtain ⟨_, hst⟩ := hfrom h4
      exact changed_keep hinv hst (by decide) (by decide) rfl (by decide) (by decide)
  rw [if_neg h4] at h
  by_cases h5 : as = opToInit
  · rw [if_pos h5] at h
    cases h
    obtain ⟨_, hst⟩ := hfrom h5
    exact changed_init hinv hst (by decide) (by decide) rfl rfl rfl (Or.inl rfl)
  rw [if_neg h5] at h
  by_cases h6 : as = safeopToInit
  · rw [if_pos h6] at h
    cases h
    obtain ⟨_, hst⟩ := hfrom h6
    exact changed_init hinv hst (by decide) (by decide) rfl rfl rfl (Or.inr ⟨rfl, by decide⟩)
  rw [if_neg h6] at h
  by_cases h7 : as = preopToInit ∨ as = bootToInit
  · rw [if_pos h7] at h
    cases h
    rcases h7 with h7 | h7
    all_goals
      obtain ⟨_, hst⟩ := hfrom h7
      exact changed_init hinv hst (by decide) (by decide) rfl (hinv.output_eq hst) rfl
        (Or.inr ⟨rfl, by decide⟩)
  rw [if_neg h7] at h
  by_cases h8 : as = preopToBoot ∨ as = bootToPreop ∨ as = bootToSafeop ∨ as = bootToOp
      ∨ as = preopToOp
  · rw [if_pos h8] at h
    cases h
    rcases h8 with h8 | h8 | h8 | h8 | h8
    all_goals
      obtain ⟨_, hst⟩ := hfrom h8
      exact changed_keep hinv hst (by decide) (by decide) rfl (by decide) (by decide)
  rw [if_neg h8] at h
  by_cases h9 : as = preopToSafeop ∨ as = safeopToSafeop
  · rw [if_pos h9] at h
    obtain ⟨han, hcore⟩ := toSafeop_cases h
    rcases h9 with h9 | h9
    all_goals
      obtain ⟨rfl, hst⟩ := hfrom h9
      rw [core_output_false hinv hst (by decide), or_self] at hcore
      rcases han with rfl | rfl
      all_goals exact changed_keep hinv hst (by decide) (by decide) hcore (by decide) (by decide)
  rw [if_neg h9] at h
  by_cases h10 : as = opToPreop
  · rw [if_pos h10] at h
    cases h
    obtain ⟨_, hst⟩ := hfrom h10
    exact changed_stop hinv hst (by decide) (by decide) rfl (by decide) (by decide)
  rw [if_neg h10] at h
  by_cases h11 : as = safeopToPreop
  · rw [if_pos h11] at h
    cases h
    obtain ⟨_, hst⟩ := hfrom h11
    exact changed_keep hinv hst (by decide) (by decide) (core_output_false hinv hst (by decide))
      (by decide) (by decide)
  rw [if_neg h11] at h
  by_cases h12 : as = safeopToBoot
  · rw [if_pos h12] at h
    cases h
    obtain ⟨_, hst⟩ := hfrom h12
    exact changed_keep hinv hst (by decide) (by decide) rfl (by decide) (by decide)
  rw [if_neg h12] at h
  by_cases h13 : as = safeopToOp
  · rw [if_pos h13] at h
    cases h
    obtain ⟨rfl, hst⟩ := hfrom h13
    rw [core_startoutput]
    exact Changed.of_state hinv hst (by decide) (by decide) rfl
      ((hinv.running_eq hst).trans (by decide)) (Or.inr ⟨rfl, Or.inr (by decide)⟩)
  rw [if_neg h13] at h
  by_cases h14 : as = opToBoot
  · rw [if_pos h14] at h
    cases h
    obtain ⟨_, hst⟩ := hfrom h14
    exact changed_stop hinv hst (by decide) (by decide) (core_flagSm3 _) (by decide) (by decide)
  rw [if_neg h14] at h
  by_cases h15 : as = opToSafeop
  · rw [if_pos h15] at h
    cases h
    obtain ⟨_, hst⟩ := hfrom h15
    exact changed_stop hinv hst (by decide) (by decide) rfl (by decide) (by decide)
  rw [if_neg h15] at h
  -- an unknown state
  by_cases hop : st = escOp
  · subst hop
    rw [if_pos rfl] at h
    have hne : as ≠ escSafeop := by
      intro has
      have := (hfrom has).2
      rw [hself] at this
      exact absurd this (by decide)
    dsimp only at h
    rw [if_neg hne] at h
    cases h
    exact changed_stop hinv hself (by decide) (by decide) (core_flagSm3 _) (by decide) (by decide)
  · rw [if_neg hop] at h
    dsimp only at h
    cases h
    have hcore : (if as = escSafeop then s.stopinput else s).core = s.core := by
      split_ifs
      · exact core_output_false hinv hself hop
      · rfl
    have hstate := hinv.isState
    rw [hself] at hstate
    simp only [IsState, List.mem_cons, List.not_mem_nil, or_false] at hstate
    rcases hstate with rfl | rfl | rfl | rfl | rfl
    case inr.inr.inr.inr => exact absurd rfl hop
    all_goals exact changed_keep hinv hself (by decide) (by decide) hcore (by decide) (by decide)

/-! ## One cycle -/

/-- What is asked for is a state without an error, -/
theorem requested_ac (alControl : BitVec 16) (alStatus : BitVec 8) :
    (requested alControl alStatus).1 &&& 0x0F = (requested alControl alStatus).1 := by
  rw [requested]
  split_ifs with herr
  · rw [escregAlErrackmask, BitVec.and_assoc]
    rfl
  · -- without the error bit there are four bits left
    rw [not_or, ne_eq, not_not] at herr
    have h := herr.1
    generalize alControl.setWidth 8 = ac at h ⊢
    rw [escregAlStatemask, escError] at h
    rw [escregAlStatemask]
    have h4 : ac[4] = false := by
      have := congrArg (fun v : BitVec 8 => v.getLsbD 4) h
      simpa using this
    exact ext_byte (by simp [List.range_succ, h4])

/-- so an error that is there is not confirmed, unless the error is reset. -/
theorem requested_an {alControl : BitVec 16} {alStatus : BitVec 8}
    (h : (requested alControl alStatus).2 &&& escError = 0) :
    (requested alControl alStatus).2 = alStatus &&& 0x0F := by
  rw [requested] at h ⊢
  split_ifs at h ⊢ with herr
  · show alStatus &&& 0x1F &&& 0x0F = _
    rw [BitVec.and_assoc]
    rfl
  · rw [escregAlStatemask, escError] at h
    rw [escregAlStatemask]
    have h4 : alStatus[4] = false := by
      have := congrArg (fun v : BitVec 8 => v.getLsbD 4) h
      simpa using this
    exact ext_byte (by simp [List.range_succ, h4])

/-- The error bit is not asked for. -/
theorem and_escError {ac : BitVec 8} (h : ac &&& 0x0F = ac) : ac &&& escError = 0 := by
  rw [← h, BitVec.and_assoc]
  exact BitVec.and_zero

/-- The change that `ESC_state` makes, if one is asked for and no error is left to confirm. -/
def handledChange (s : EscVar V) (r : Registers) : Option (BitVec 8) :=
  let (ac, an) := requested r.alcontrol s.alStatus
  if r.alevent &&& escregAleventControl = 0 ∨ (an &&& escError ≠ 0 ∧ ac &&& escError = 0) then none
  else some ((ac <<< 4) ||| (s.alStatus &&& escregAlErrackmask))

/-- `ESC_state` does nothing, or it makes a change and reports the status it leads to. -/
theorem escState_cases (h : s.escState table r = .ok s') :
    (s.handledChange r = none ∧ ∃ alControl, s' = { s with alControl })
      ∨ ∃ ac an u status alError log, ac = (requested r.alcontrol s.alStatus).1
        ∧ s.handledChange r = some ((ac <<< 4) ||| (s.alStatus &&& 0x0F))
        ∧ ({ s with alControl := r.alcontrol } : EscVar V).changeState table r
          ((ac <<< 4) ||| (s.alStatus &&& 0x0F)) (s.alStatus &&& 0x0F) ac = .ok (an, u)
        ∧ (status = an ∨ status = an ||| escregAlIdRequest)
        ∧ s' = { u with alStatus := status, alError, log }
        ∧ log.filter EscEvent.visible = .alStatus status :: u.log.filter EscEvent.visible := by
  rw [escState] at h
  rw [handledChange]
  by_cases hevent : r.alevent &&& escregAleventControl = 0
  · rw [if_pos hevent] at h
    cases h
    exact Or.inl ⟨if_pos (Or.inl hevent), s.alControl, rfl⟩
  rw [if_neg hevent] at h
  dsimp only at h ⊢
  have hac := requested_ac r.alcontrol s.alStatus
  have han := @requested_an r.alcontrol s.alStatus
  generalize requested r.alcontrol s.alStatus = p at h hac han
  obtain ⟨ac, an⟩ := p
  dsimp only at h hac han ⊢
  by_cases herr : an &&& escError ≠ 0 ∧ ac &&& escError = 0
  · rw [if_pos herr] at h
    cases h
    exact Or.inl ⟨if_pos (Or.inr herr), r.alcontrol, rfl⟩
  rw [if_neg herr] at h
  have hclean : an &&& escError = 0 := by
    by_contra hne
    exact herr ⟨hne, and_escError hac⟩
  obtain ⟨⟨an', u⟩, hchange, hrest⟩ := bind_eq_ok h
  rw [han hclean] at hchange
  dsimp only at hrest
  -- the last error is cleared, or it stays
  obtain ⟨alError, log, hclear, hlog⟩ : ∃ alError log,
      (if an' &&& escError = 0 ∧ u.alError ≠ 0 then u.escAlError alerrNone else u)
        = { u with alError, log }
        ∧ log.filter EscEvent.visible = u.log.filter EscEvent.visible := by
    split_ifs
    · exact ⟨_, _, rfl, rfl⟩
    · exact ⟨u.alError, u.log, rfl, rfl⟩
  rw [hclear] at hrest
  have hnone : ¬(r.alevent &&& escregAleventControl = 0
      ∨ (an &&& escError ≠ 0 ∧ ac &&& escError = 0)) := not_or.mpr ⟨hevent, herr⟩
  refine Or.inr ⟨ac, an', u, ?_⟩
  split_ifs at hrest with hid
  · rw [loadDeviceId] at hrest
    by_cases halias : r.stationAlias ≠ 0
    · rw [if_pos halias] at hrest
      cases hrest
      exact ⟨_, _, _, rfl, if_neg hnone, hchange, Or.inr rfl, rfl, congrArg (_ :: ·) hlog⟩
    · rw [if_neg halias] at hrest
      cases hrest
      exact ⟨_, _, _, rfl, if_neg hnone, hchange, Or.inl BitVec.or_zero, rfl,
        congrArg (_ :: ·) hlog⟩
  · cases hrest
    exact ⟨_, _, _, rfl, if_neg hnone, hchange, Or.inl rfl, rfl, congrArg (_ :: ·) hlog⟩

/-- `ESC_state` is a step of the machine, or none. -/
theorem escState_step (hinv : AlInv s.core) (h : s.escState table r = .ok s') :
    StepOrNot s.core s'.core := by
  rcases escState_cases h with
    ⟨_, _, rfl⟩ | ⟨ac, an, u, status, alError, log, hac, _, hchange, hstatus, rfl, hlog⟩
  · exact .refl
  · have hchanged : Changed s.core an u.core :=
      changeState_changed (s := { s with alControl := r.alcontrol }) hinv
        (hac ▸ requested_ac r.alcontrol s.alStatus) hchange
    have hcore : ({ u with alStatus := status, alError, log } : EscVar V).core
        = { u.core with alStatus := status, trace := .alStatus status :: u.core.trace } :=
      congrArg (fun trace => (⟨status, u.app.output, u.box.mbxRun, trace⟩ : Core V)) hlog
    rw [hcore]
    rcases hstatus with rfl | rfl
    · exact .single (.status hchanged)
    · exact .single (.status hchanged.or_id)

/-- `ESC_sm_act_event`, too: the process data or the mailboxes are stopped. -/
theorem smActEvent_step (hinv : AlInv s.core) : StepOrNot s.core (s.smActEvent r).core := by
  rw [smActEvent]
  by_cases hevent : r.alevent &&& escregAleventSmchange = 0
  · rw [if_pos hevent]
  rw [if_neg hevent]
  generalize requested s.alControl s.alStatus = p
  obtain ⟨ac, an⟩ := p
  dsimp only
  generalize has : s.alStatus &&& escregAlStatemask = as
  by_cases hrun : as &&& escregAlAllbutinitmask ≠ 0 ∧ as ≠ escBoot ∧ s.box.mbxRun = true
  swap
  · rw [if_neg hrun]
  rw [if_pos hrun]
  obtain ⟨hcore, _⟩ := s.checkmbx_cases r as
  generalize s.checkmbx r as = q at hcore
  obtain ⟨ax, s₁⟩ := q
  obtain ⟨hcore', _⟩ := s₁.checkSm23_cases r as
  dsimp only at hcore hcore' ⊢
  generalize s₁.checkSm23 r as = q at hcore'
  obtain ⟨ax23, s₂⟩ := q
  dsimp only at hcore' ⊢
  rw [hcore] at hcore'
  rw [← hcore'] at hinv ⊢
  have hstate : alState s₂.core.alStatus = as &&& 0x0F := by
    rw [hcore', ← has]
    show s.alStatus &&& 0x0F = s.alStatus &&& 0x1F &&& 0x0F
    rw [BitVec.and_assoc]
    rfl
  by_cases herr : an &&& escError ≠ 0 ∧ ac &&& escError = 0
  · rw [if_pos herr]
  rw [if_neg herr]
  by_cases hmbx : ax = escInit ||| escError
  · rw [if_pos hmbx, hmbx]
    have hallowed : ∀ x ∈ [escInit, escPreop, escBoot, escSafeop, escOp],
        Allowed x (escInit ||| escError) := by decide
    have hstopped : (if s₂.app ≠ appstateIdle then s₂.stopoutput.stopinput else s₂).core.output
          = false
        ∧ ((if s₂.app ≠ appstateIdle then s₂.stopoutput.stopinput else s₂).core.trace
            = .safeOutput :: s₂.core.trace
          ∨ (if s₂.app ≠ appstateIdle then s₂.stopoutput.stopinput else s₂).core.trace
            = s₂.core.trace ∧ alState s₂.core.alStatus ≠ escOp) := by
      split_ifs with happ
      · exact ⟨rfl, Or.inl rfl⟩
      · have hoff : s₂.core.output = false := by
          rw [ne_eq, not_not] at happ
          exact congrArg AppState.output happ
        refine ⟨hoff, Or.inr ⟨rfl, fun hop => ?_⟩⟩
        exact nomatch hoff.symm.trans (hinv.output.mpr hop)
    generalize (if s₂.app ≠ appstateIdle then s₂.stopoutput.stopinput else s₂) = u at hstopped
    exact .single (.status (@changed_init _ s₂ u.stopmbx _ _ hinv rfl (alState_alState _)
      (hallowed _ hinv.isState) rfl hstopped.1 rfl hstopped.2))
  rw [if_neg hmbx]
  by_cases hsm : s₂.app ≠ appstateIdle ∧ ax23 = escPreop ||| escError
  · rw [if_pos hsm, hsm.2]
    have hinit : alState s₂.core.alStatus ≠ escInit := by
      intro hst
      rw [hstate] at hst
      refine hrun.1 ?_
      have hbut : as &&& escregAlAllbutinitmask = as &&& 0x0F &&& escregAlAllbutinitmask := by
        rw [BitVec.and_assoc]
        rfl
      rw [hbut, hst]
      decide
    have hallowed : ∀ x ∈ [escInit, escPreop, escBoot, escSafeop, escOp],
        x ≠ escInit → Allowed x (escPreop ||| escError) := by decide
    refine .single (.status (@changed_stop _ s₂ s₂.stopoutput.stopinput.smError _ _ hinv rfl
      (alState_alState _)
      (hallowed _ hinv.isState hinit) (core_smError _) (by decide) ?_))
    exact iff_of_false (by decide) hinit
  · rw [if_neg hsm]

/-- The watchdog is a step to `SAFEOP`, with an error. -/
theorem digWatchdog_step (hinv : AlInv s.core) : StepOrNot s.core s.digWatchdog.core := by
  rw [digWatchdog]
  have hcore : (if 0 < s.watchdog then { s with watchdog := s.watchdog - 1 } else s).core
      = s.core := by
    split_ifs <;> rfl
  generalize (if 0 < s.watchdog then { s with watchdog := s.watchdog - 1 } else s) = u at hcore
  rw [← hcore] at hinv ⊢
  by_cases hdue : u.watchdog ≤ 0 ∧ u.app.output = true ∧ 0 < u.sm2Sml.toNat
  · rw [if_pos hdue, escAlStatusgotoerror, if_neg (by decide), if_pos hdue.2.1]
    have hop : alState u.core.alStatus = escOp := hinv.output.mp hdue.2.1
    exact .single (.status (@changed_stop _ u u.stopoutput (escSafeop ||| escError) _ hinv hop
      (by decide) (by decide) rfl (by decide) (by decide)))
  · rw [if_neg hdue]
    split_ifs <;> exact .refl

section Process

variable [DecidableEq V] {i : CycleInput V}

omit [DecidableEq V] in
theorem readRxpdo_core (h : s.readRxpdo i = .ok s') : s'.core = s.core := by
  obtain ⟨rxpdo, _, hs'⟩ := bind_eq_ok h
  cases hs'
  rfl

/-- The outputs are only set while they are on. -/
theorem digOutputs_step (h : s.digOutputs i = .ok s') : StepOrNot s.core s'.core := by
  rw [digOutputs] at h
  by_cases hevent : i.alevent &&& escregAleventSm2 = 0
  · rw [if_pos hevent] at h
    cases h
    exact .refl
  rw [if_neg hevent] at h
  by_cases hon : s.app.output = true
  · rw [if_pos hon] at h
    obtain ⟨s₁, hupdate, hs'⟩ := bind_eq_ok h
    obtain ⟨s₂, hread, hunpack⟩ := bind_eq_ok hupdate
    obtain ⟨mem, _, hs₁⟩ := bind_eq_ok hunpack
    cases hs₁
    cases hs'
    have hcore := readRxpdo_core hread
    rw [← hcore]
    refine .single (.outputs (c := s₂.core) mem ?_)
    rw [hcore]
    exact hon
  · rw [if_neg hon] at h
    rw [readRxpdo_core h]

omit [DecidableEq V] in
theorem digInputs_core (h : s.digInputs i = .ok s') : s'.core = s.core := by
  rw [digInputs] at h
  by_cases happ : s.app ≠ appstateIdle
  · rw [if_pos happ] at h
    obtain ⟨txpdo, _, hbytes⟩ := bind_eq_ok h
    obtain ⟨bytes, _, hs'⟩ := bind_eq_ok hbytes
    cases hs'
    rfl
  · rw [if_neg happ] at h
    cases h
    rfl

theorem digProcess_steps (hinv : AlInv s.core) (h : s.digProcess i = .ok s') :
    Steps s.core s'.core := by
  obtain ⟨s₁, houtputs, hinputs⟩ := bind_eq_ok h
  rw [digInputs_core hinputs]
  exact (digWatchdog_step hinv).to_reflTransGen.trans (digOutputs_step houtputs).to_reflTransGen

theorem ecatSlvPoll_steps (hinv : AlInv s.core) (h : s.ecatSlvPoll i table = .ok s') :
    Steps s.core s'.core := by
  obtain ⟨s₁, hstate, hpoll⟩ := bind_eq_ok h
  obtain ⟨server, hmailbox, hs'⟩ := bind_eq_ok hpoll
  cases hs'
  have hstep := (escState_step hinv hstate).to_reflTransGen
  have hrun : ((s₁.smActEvent i.smAct).withServer server).core = (s₁.smActEvent i.smAct).core :=
    congrArg (fun run => { (s₁.smActEvent i.smAct).core with mbxRun := run })
      (Server.pollMailbox_mbxRun hmailbox).1
  rw [hrun]
  exact hstep.trans (smActEvent_step (Steps.inv hstep hinv)).to_reflTransGen

/-- **A cycle of the stack is steps of the machine.** -/
theorem ecatSlv_steps (hinv : AlInv s.core) (h : s.ecatSlv i table = .ok s') :
    Steps s.core s'.core := by
  obtain ⟨s₁, hpoll, hprocess⟩ := bind_eq_ok h
  have hsteps := ecatSlvPoll_steps hinv hpoll
  exact hsteps.trans (digProcess_steps (hsteps.inv hinv) hprocess)

theorem ecatSlvInit_core {mem : Memory V} {watchdogCnt : Int}
    (h : (staticEscVar mem).ecatSlvInit table watchdogCnt = .ok s) : s.core = Core.start := by
  obtain ⟨mem', _, hs⟩ := bind_eq_ok h
  cases hs
  rfl

end Process

end State

end EscVar

/-! ## Runs -/

section Runs

variable [DecidableEq V] {table : List (ObjectItem V)} {mem : Memory V} {s s' : EscVar V}

/-- **The invariant of the machine holds in every state.** -/
theorem Reachable.inv (h : Reachable table mem s) : AlInv s.core := by
  induction h with
  | init hinit =>
      rw [EscVar.ecatSlvInit_core hinit]
      exact alInv_start
  | cycle i _ hcycle ih => exact (EscVar.ecatSlv_steps ih hcycle).inv ih

/-- The last status that is reported is the one of the variables. -/
theorem Reachable.lastStatus (h : Reachable table mem s) :
    lastStatus s.log = some s.alStatus := by
  have hlast := h.inv.last
  rwa [show s.core.trace = s.log.filter EscEvent.visible from rfl, lastStatus_filter] at hlast

theorem Reachable.traced (h : Reachable table mem s) {later earlier : List (EscEvent V)}
    (hlog : s.log = later ++ earlier) : WellTraced (earlier.filter EscEvent.visible) := by
  have htraced := h.inv.traced
  rw [show s.core.trace = s.log.filter EscEvent.visible from rfl, hlog, List.filter_append]
    at htraced
  exact htraced.of_append

/-- The state machine in every run: the parts of the application and the mailboxes go with
the state, and every status that is reported may follow the one before. -/
theorem state_machine_conforms (h : Reachable table mem s) :
    IsState (alState s.alStatus)
      ∧ (s.app.output = true ↔ alState s.alStatus = escOp)
      ∧ (s.box.mbxRun = true ↔ alState s.alStatus ≠ escInit)
      ∧ ∀ later st earlier st₀, s.log = later ++ .alStatus st :: earlier →
          Stack.lastStatus earlier = some st₀ → Allowed st₀ st := by
  refine ⟨h.inv.isState, h.inv.output, h.inv.running, ?_⟩
  intro later st earlier st₀ hlog hst₀
  have htraced := h.traced hlog
  rw [List.filter_cons_of_pos rfl] at htraced
  exact htraced.2.1 st₀ ((lastStatus_filter earlier).trans hst₀)

theorem state_machine_conforms_op : ∃ s, controllerAt [2, 4, 8] = .ok s ∧ alState s.alStatus = escOp
    ∧ s.app.output = true := by
  refine ⟨_, rfl, rfl, ?_⟩
  exact (state_machine_conforms (reachable_controllerAt [2, 4, 8] rfl)).2.1.mpr rfl

/-- The outputs in every run: the application only sets them while the last status that was
reported is `OP`, and before any other status is reported they have been made safe. -/
theorem outputs_safe (h : Reachable table mem s) :
    (∀ later mem' earlier, s.log = later ++ .setOutputs mem' :: earlier →
        ∃ st, Stack.lastStatus earlier = some st ∧ alState st = escOp)
      ∧ ∀ later st earlier, s.log = later ++ .alStatus st :: earlier → alState st ≠ escOp →
          armed earlier = false := by
  constructor
  · intro later mem' earlier hlog
    have htraced := h.traced hlog
    rw [List.filter_cons_of_pos rfl] at htraced
    obtain ⟨st, hst, hop⟩ := htraced.1
    exact ⟨st, (lastStatus_filter earlier).symm.trans hst, hop⟩
  · intro later st earlier hlog hst
    have htraced := h.traced hlog
    rw [List.filter_cons_of_pos rfl] at htraced
    exact (armed_filter earlier).symm.trans (htraced.1 hst)

/-- The outputs are set in `OP`, and made safe before `INIT` is reported. -/
theorem outputs_safe_init : ∃ s s₁ s', controllerAt [2, 4, 8] = .ok s
    ∧ s.ecatSlv exchangeCycle galvoObjects = .ok s₁ ∧ armed s₁.log = true
    ∧ s₁.ecatSlv (stateCycle 1) galvoObjects = .ok s' ∧ alState s'.alStatus = escInit
    ∧ (∀ later mem' earlier, s'.log = later ++ .setOutputs mem' :: earlier →
        ∃ st, lastStatus earlier = some st ∧ alState st = escOp)
    ∧ ∀ later st earlier, s'.log = later ++ .alStatus st :: earlier → alState st ≠ escOp →
        armed earlier = false := by
  have hrun : ∃ s s₁ s', controllerAt [2, 4, 8] = .ok s
      ∧ s.ecatSlv exchangeCycle galvoObjects = .ok s₁ ∧ armed s₁.log = true
      ∧ s₁.ecatSlv (stateCycle 1) galvoObjects = .ok s' ∧ alState s'.alStatus = escInit :=
    ⟨_, _, _, rfl, rfl, rfl, rfl, rfl⟩
  obtain ⟨s, s₁, s', hs, hexchange, harmed, hinit, hstate⟩ := hrun
  refine ⟨s, s₁, s', hs, hexchange, harmed, hinit, hstate, ?_⟩
  have hreach := reachable_controllerAt [2, 4, 8] hs
  exact outputs_safe (.cycle (stateCycle 1) (.cycle exchangeCycle hreach hexchange) hinit)

end Runs

end GalvoCtrl.Stack
