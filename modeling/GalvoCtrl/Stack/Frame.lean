import GalvoCtrl.Stack.Safety

/-!
# Stack — Frame

What the state machine leaves alone: the variables of the process data and of the watchdog
always, the mappings but for the way to `SAFEOP`, and the mailboxes but for the changes
that start or stop them.
-/

namespace GalvoCtrl.Stack

open GalvoCtrl.Lib GalvoCtrl.Coe

variable {V : Type}

/-! ## Parts of the variables -/

/-- The buffers, what says where they are, and what is transferred in segments. -/
def buffers (m : Mailbox V) :
    (MbxIx → MbxState) × (MbxIx → MbxBuf) × MbxIx × MbxIx × Nat × List MbxMsg × DataPtr V
      × Segmented :=
  (m.control, m.mbx, m.mbxoutpost, m.mbxbackup, m.txcue, m.posted, m.data, m.segmented)

/-- The buffers stay as they are, or they are all reset. -/
def Handled (m m' : Mailbox V) : Prop := buffers m' = buffers m ∨ buffers m' = buffers m.stopmbx

/-- The changes that start or stop the mailboxes. -/
def mailboxChanges : List (BitVec 8) :=
  [initToPreop, initToBoot, bootToBoot, opToInit, safeopToInit, preopToInit, bootToInit]

namespace EscVar

def data (s : EscVar V) : Int × Int × Memory V × List (BitVec 8) × List (BitVec 8) :=
  (s.watchdog, s.watchdogcnt, s.mem, s.rxpdo, s.txpdo)

def mapping (s : EscVar V) :
    BitVec 16 × BitVec 16 × Option (List (SmMap V)) × Option (List (SmMap V)) :=
  (s.sm2Sml, s.sm3Sml, s.sm2Mappings, s.sm3Mappings)

/-- The mappings are those of the objects. -/
structure Mapped (table : List (ObjectItem V)) (mem : Memory V) (s : EscVar V) : Prop where
  rx : ∃ old maps, sizeOfPdo mem table maxMappingsSm rxPdoObjidx old = .ok (s.sm2Sml, some maps)
    ∧ s.sm2Mappings = some maps
  tx : ∃ old maps, sizeOfPdo mem table maxMappingsSm txPdoObjidx old = .ok (s.sm3Sml, some maps)
    ∧ s.sm3Mappings = some maps

def rest (s : EscVar V) := (s.data, s.mapping, s.box)

section State

variable {table : List (ObjectItem V)} {s s' : EscVar V} {r : Registers} {as an ac : BitVec 8}

/-! ## Sync managers -/

theorem checkmbx_frame (s : EscVar V) (r : Registers) (state : BitVec 8) :
    (s.checkmbx r state).2.data = s.data ∧ (s.checkmbx r state).2.mapping = s.mapping
      ∧ buffers (s.checkmbx r state).2.box = buffers s.box := by
  rw [checkmbx]
  split_ifs <;> exact ⟨rfl, rfl, rfl⟩

theorem startmbx_frame (s : EscVar V) (r : Registers) (state : BitVec 8) (e : BitVec 16) :
    (s.startmbx r state e).2.data = s.data ∧ (s.startmbx r state e).2.mapping = s.mapping
      ∧ buffers (s.startmbx r state e).2.box = buffers s.box := by
  rw [startmbx]
  have hcheck := ((s.smEnable 0).smEnable 1).checkmbx_frame r state
  generalize ((s.smEnable 0).smEnable 1).checkmbx r state = p at hcheck
  obtain ⟨state, u⟩ := p
  dsimp only
  split_ifs
  · exact hcheck
  · exact hcheck

theorem checkSm23_rest (s : EscVar V) (r : Registers) (state : BitVec 8) :
    (s.checkSm23 r state).2.rest = s.rest := by
  rw [checkSm23]
  split_ifs <;> rfl

theorem smError_rest (s : EscVar V) : s.smError.rest = s.rest := by
  rw [smError]
  split_ifs <;> rfl

theorem flagSm3_rest (s : EscVar V) : s.flagSm3.rest = s.rest := by
  rw [flagSm3]
  split_ifs <;> rfl

theorem startoutput_rest (s : EscVar V) : s.startoutput.rest = s.rest := by
  rw [startoutput]
  split_ifs <;> rfl

theorem startinput_rest (s : EscVar V) (r : Registers) (state : BitVec 8) :
    (s.startinput r state).2.rest = s.rest := by
  rw [startinput]
  have hcheck := s.checkSm23_rest r state
  generalize s.checkSm23 r state = p at hcheck
  obtain ⟨an, u⟩ := p
  dsimp only at hcheck ⊢
  split_ifs
  · exact hcheck
  · exact hcheck
  · exact (smError_rest _).trans hcheck

/-! ## State changes -/

/-- On the way to `SAFEOP` the mappings are read anew. -/
theorem toSafeop_frame (h : s.toSafeop table r ac = .ok (an, s')) :
    s'.data = s.data ∧ s'.box = s.box
      ∧ (an ≠ escPreop ||| escError → Mapped table s.mem s') := by
  rcases toSafeop_eq h with
    ⟨rfl, _, _, _, _, _, rfl⟩ | ⟨sm2Sml, rxMaps, sm3Sml, txMaps, u, hsm2, hsm3, rfl, rfl, hs'⟩
  · exact ⟨rfl, rfl, fun hne => absurd rfl hne⟩
  · have hrest : s'.rest = (s.data, (sm2Sml, sm3Sml, some rxMaps, some txMaps), s.box) := by
      rcases hs' with rfl | rfl
      · exact startinput_rest _ r ac
      · exact startinput_rest _ r ac
    simp only [rest, mapping, Prod.mk.injEq] at hrest
    obtain ⟨hdata, ⟨hrxSml, htxSml, hrxMaps, htxMaps⟩, hbox⟩ := hrest
    refine ⟨hdata, hbox, fun _ => ⟨⟨s.sm2Mappings, rxMaps, ?_, hrxMaps⟩,
      ⟨s.sm3Mappings, txMaps, ?_, htxMaps⟩⟩⟩
    · rw [hrxSml]
      exact hsm2
    · rw [htxSml]
      exact hsm3

private theorem of_ite {α : Type} {p q : Prop} [Decidable p] {a b x : α}
    (h : (if p then a else b) = x) (ha : p → a = x → q) (hb : ¬p → b = x → q) : q := by
  by_cases hp : p
  · rw [if_pos hp] at h
    exact ha hp h
  · rw [if_neg hp] at h
    exact hb hp h

/-- What a change from state `st` leaves alone. -/
structure Framed (table : List (ObjectItem V)) (s s' : EscVar V) (as st an : BitVec 8) : Prop where
  data : s'.data = s.data
  mapping : (s'.mapping = s.mapping ∧ (alState st = escPreop → alState an ≠ escSafeop))
    ∨ (an ≠ escPreop ||| escError → Mapped table s.mem s')
  box : s'.box = s.box ∨ (as ∈ mailboxChanges ∧ Handled s.box s'.box)

theorem Framed.of_rest {st : BitVec 8} (h : s'.rest = s.rest)
    (hstay : alState st = escPreop → alState an ≠ escSafeop) : Framed table s s' as st an := by
  simp only [rest, Prod.mk.injEq] at h
  exact ⟨h.1, Or.inl ⟨h.2.1, hstay⟩, Or.inl h.2.2⟩

theorem changeState_framed {st : BitVec 8} (hst : st = as &&& 0x0F)
    (h : s.changeState table r as st ac = .ok (an, s')) : Framed table s s' as st an := by
  -- from another state than `PREOP` there is nothing to show about the way to `SAFEOP`
  have hother : ∀ {change : BitVec 8}, as = change → alState (change &&& 0x0F) ≠ escPreop →
      alState st = escPreop → alState an ≠ escSafeop := by
    rintro _ rfl hne hpre
    rw [hst] at hpre
    exact absurd hpre hne
  have hstart : ∀ {e : BitVec 16}, (.ok (s.startmbx r ac e) : Except AccessFault _) = .ok (an, s') →
      as ∈ mailboxChanges → (alState st = escPreop → alState an ≠ escSafeop) →
      Framed table s s' as st an := by
    intro e he has hstay
    have hframe := s.startmbx_frame r ac e
    rw [Except.ok.inj he] at hframe
    exact ⟨hframe.1, Or.inl ⟨hframe.2.1, hstay⟩, Or.inr ⟨has, Or.inl hframe.2.2⟩⟩
  refine of_ite h ?_ fun _ h => of_ite h ?_ fun _ h => of_ite h ?_ fun _ h => of_ite h ?_ fun _ h =>
    of_ite h ?_ fun _ h => of_ite h ?_ fun _ h => of_ite h ?_ fun _ h => of_ite h ?_ fun _ h =>
    of_ite h ?_ fun _ h => of_ite h ?_ fun _ h => of_ite h ?_ fun _ h => of_ite h ?_ fun _ h =>
    of_ite h ?_ fun _ h => of_ite h ?_ fun _ h => of_ite h ?_ fun _ h => ?_
  · intro _ h
    cases h
    exact .of_rest rfl fun hpre => hpre ▸ by decide
  · intro has h
    exact hstart h (by rw [has]; decide) (hother has (by decide))
  · intro has h
    rcases has with has | has
    · exact hstart h (by rw [has]; decide) (hother has (by decide))
    · exact hstart h (by rw [has]; decide) (hother has (by decide))
  · intro _ h
    cases h
    exact .of_rest rfl fun _ => by decide
  · intro has h
    cases h
    exact ⟨rfl, Or.inl ⟨rfl, fun _ => by decide⟩, Or.inr ⟨by rw [has]; decide, Or.inr rfl⟩⟩
  · intro has h
    cases h
    exact ⟨rfl, Or.inl ⟨rfl, fun _ => by decide⟩, Or.inr ⟨by rw [has]; decide, Or.inr rfl⟩⟩
  · intro has h
    cases h
    refine ⟨rfl, Or.inl ⟨rfl, fun _ => by decide⟩, Or.inr ⟨?_, Or.inr rfl⟩⟩
    rcases has with has | has <;> rw [has] <;> decide
  · intro _ h
    cases h
    exact .of_rest rfl fun _ => by decide
  · intro _ h
    obtain ⟨hdata, hbox, hmapped⟩ := toSafeop_frame h
    exact ⟨hdata, Or.inr hmapped, Or.inl hbox⟩
  · intro _ h
    cases h
    exact .of_rest rfl fun _ => by decide
  · intro _ h
    cases h
    exact .of_rest rfl fun _ => by decide
  · intro has h
    cases h
    exact .of_rest rfl (hother has (by decide))
  · intro has h
    cases h
    exact .of_rest s.startoutput_rest (hother has (by decide))
  · intro has h
    cases h
    exact .of_rest (flagSm3_rest _) (hother has (by decide))
  · intro has h
    cases h
    exact .of_rest rfl (hother has (by decide))
  · by_cases hop : st = escOp
    · rw [if_pos hop] at h
      cases h
      refine .of_rest ?_ fun hpre => absurd (hop ▸ hpre) (by decide)
      split_ifs
      · exact flagSm3_rest _
      · exact flagSm3_rest _
    · rw [if_neg hop] at h
      cases h
      refine .of_rest ?_ fun hpre => ?_
      · split_ifs
        · rfl
        · rfl
      · rw [alState_or_error, hpre]
        decide

/-- `ESC_state` is a change like that, and the new state is reported. -/
theorem escState_framed (h : s.escState table r = .ok s') :
    (s'.rest = s.rest ∧ s'.alStatus = s.alStatus)
      ∨ ∃ an, alState s'.alStatus = alState an ∧ Framed table s s'
        (((requested r.alcontrol s.alStatus).1 <<< 4) ||| (s.alStatus &&& 0x0F))
        (s.alStatus &&& 0x0F) an := by
  rcases escState_cases h with
    ⟨_, _, rfl⟩ | ⟨ac, an, u, status, alError, log, rfl, _, hchange, hstatus, rfl, _⟩
  · exact Or.inl ⟨rfl, rfl⟩
  · have hframed := changeState_framed (s := { s with alControl := r.alcontrol })
      (low_nibble _ s.alStatus).symm hchange
    refine Or.inr ⟨an, ?_, hframed.data, hframed.mapping.imp_right fun hm hne => ?_, hframed.box⟩
    · rcases hstatus with rfl | rfl
      · rfl
      · exact alState_or_id an
    · exact ⟨(hm hne).rx, (hm hne).tx⟩

/-! ## The inputs -/

/-- The process data are exchanged in these states. -/
def exchangeStates : List (BitVec 8) := [escSafeop, escOp]

/-- Whether the inputs are stopped: they are when state 0 is asked for in `SAFEOP`, until
`SAFEOP` is entered from `PREOP` or asked for again in it. -/
def inputsStopped (stopped : Bool) (change : Option (BitVec 8)) : Bool :=
  if change = some escSafeop then true
  else if change = some preopToSafeop ∨ change = some safeopToSafeop then false
  else stopped

theorem checkmbx_app (s : EscVar V) (r : Registers) (state : BitVec 8) :
    (s.checkmbx r state).2.app = s.app := by
  rw [checkmbx]
  split_ifs <;> rfl

theorem checkSm23_app (s : EscVar V) (r : Registers) (state : BitVec 8) :
    (s.checkSm23 r state).2.app = s.app := by
  rw [checkSm23]
  split_ifs <;> rfl

theorem startmbx_app (s : EscVar V) (r : Registers) (state : BitVec 8) (e : BitVec 16) :
    (s.startmbx r state e).2.app = s.app := by
  have hcheck := ((s.smEnable 0).smEnable 1).checkmbx_app r state
  rw [startmbx]
  generalize ((s.smEnable 0).smEnable 1).checkmbx r state = p at hcheck
  obtain ⟨state, u⟩ := p
  dsimp only
  split_ifs
  · exact hcheck
  · exact hcheck

theorem startinput_app (s : EscVar V) (r : Registers) (state : BitVec 8)
    (h : (s.startinput r state).1 ≠ escPreop ||| escError) :
    (s.startinput r state).2.app = appstateInput := by
  rw [startinput] at h ⊢
  generalize s.checkSm23 r state = p at h ⊢
  obtain ⟨an, u⟩ := p
  dsimp only at h ⊢
  by_cases han : an ≠ escPreop ||| escError
  · rw [if_pos han]
  · rw [if_neg han] at h
    exact absurd (not_not.mp han) h

/-- Any other change leaves the inputs as they are. -/
theorem inputsStopped_other {input : Bool} (hsafeop : as ≠ escSafeop)
    (hother : ¬(as = preopToSafeop ∨ as = safeopToSafeop)) :
    (!inputsStopped (!input) (some as)) = input := by
  rw [inputsStopped, if_neg (by simpa using hsafeop), if_neg (by simpa using hother)]
  exact Bool.not_not _

/-- On the way to `SAFEOP` the inputs are started. -/
theorem toSafeop_input (h : s.toSafeop table r ac = .ok (an, s'))
    (han : alState an ∈ exchangeStates) : s'.app.input = true := by
  rcases toSafeop_eq h with ⟨rfl, _⟩ | ⟨_, _, _, _, u, _, _, rfl, rfl, hs'⟩
  · exact absurd han (by decide)
  · have happ := startinput_app _ r ac fun herror => by
      rw [herror] at han
      exact absurd han (by decide)
    rcases hs' with rfl | rfl
    · exact congrArg AppState.input happ
    · exact congrArg AppState.input happ

/-- In a change to a state with process data the inputs are started or stopped as that says. -/
theorem changeState_input {st : BitVec 8} (hst : st = as &&& 0x0F)
    (h : s.changeState table r as st ac = .ok (an, s')) (han : alState an ∈ exchangeStates) :
    s'.app.input = !inputsStopped (!s.app.input) (some as)
      ∧ (st = escPreop → as = preopToSafeop) := by
  -- the inputs are as they were, and the change is none of those that matter
  have hkeep : ∀ {change : BitVec 8}, as = change → s'.app.input = s.app.input →
      change ∉ [escSafeop, preopToSafeop, safeopToSafeop] → change &&& 0x0F ≠ escPreop →
      s'.app.input = !inputsStopped (!s.app.input) (some as)
        ∧ (st = escPreop → as = preopToSafeop) := by
    rintro change rfl hinput hother hfrom
    simp only [List.mem_cons, List.not_mem_nil, or_false, not_or] at hother
    exact ⟨hinput.trans (inputsStopped_other hother.1 (not_or.mpr hother.2)).symm,
      fun hpre => absurd (hst.symm.trans hpre) hfrom⟩
  -- the way to a state without process data
  have hleave : ∀ {state : BitVec 8}, an = state → alState state ∉ exchangeStates →
      s'.app.input = !inputsStopped (!s.app.input) (some as)
        ∧ (st = escPreop → as = preopToSafeop) := by
    rintro _ rfl hnone
    exact absurd han hnone
  refine of_ite h ?_ fun _ h => of_ite h ?_ fun _ h => of_ite h ?_ fun _ h => of_ite h ?_ fun _ h =>
    of_ite h ?_ fun _ h => of_ite h ?_ fun _ h => of_ite h ?_ fun _ h => of_ite h ?_ fun _ h =>
    of_ite h ?_ fun hsafeop h => of_ite h ?_ fun _ h => of_ite h ?_ fun _ h =>
    of_ite h ?_ fun _ h => of_ite h ?_ fun _ h => of_ite h ?_ fun _ h => of_ite h ?_ fun _ h => ?_
  · intro has h
    cases h
    rcases has with has | has | has
    · exact hleave (hst.trans (congrArg (· &&& 0x0F) has)) (by decide)
    · exact hleave (hst.trans (congrArg (· &&& 0x0F) has)) (by decide)
    · exact hkeep has rfl (by decide) (by decide)
  · intro has h
    have happ := s.startmbx_app r ac alerrInvalidmbxconfig
    rw [Except.ok.inj h] at happ
    exact hkeep has (congrArg AppState.input happ) (by decide) (by decide)
  · intro has h
    have happ := s.startmbx_app r ac alerrInvalidbootmbxconfig
    rw [Except.ok.inj h] at happ
    rcases has with has | has
    all_goals exact hkeep has (congrArg AppState.input happ) (by decide) (by decide)
  · intro _ h
    cases h
    exact hleave rfl (by decide)
  · intro _ h
    cases h
    exact hleave rfl (by decide)
  · intro _ h
    cases h
    exact hleave rfl (by decide)
  · intro _ h
    cases h
    exact hleave rfl (by decide)
  · intro _ h
    cases h
    exact hleave rfl (by decide)
  · intro has h
    have hstopped : inputsStopped (!s.app.input) (some as) = false := by
      rcases has with rfl | rfl <;> rfl
    rw [toSafeop_input h han, hstopped]
    refine ⟨rfl, fun hpre => has.resolve_right fun hfrom => ?_⟩
    rw [hst, hfrom] at hpre
    exact absurd hpre (by decide)
  · intro _ h
    cases h
    exact hleave rfl (by decide)
  · intro _ h
    cases h
    exact hleave rfl (by decide)
  · intro has h
    cases h
    exact hkeep has rfl (by decide) (by decide)
  · intro has h
    cases h
    exact hkeep has (by rw [startoutput]; split_ifs <;> rfl) (by decide) (by decide)
  · intro has h
    cases h
    exact hkeep has (by rw [flagSm3]; split_ifs <;> rfl) (by decide) (by decide)
  · intro has h
    cases h
    exact hkeep has rfl (by decide) (by decide)
  · -- an unknown state
    by_cases hop : st = escOp
    · rw [if_pos hop] at h
      have has : as ≠ escSafeop := by
        intro has
        rw [hst, has] at hop
        exact absurd hop (by decide)
      dsimp only at h
      rw [if_neg has] at h
      cases h
      refine ⟨?_, fun hpre => absurd (hop.symm.trans hpre) (by decide)⟩
      rw [inputsStopped_other has hsafeop, flagSm3]
      split_ifs <;> rfl
    · rw [if_neg hop] at h
      dsimp only at h
      by_cases has : as = escSafeop
      · rw [if_pos has] at h
        cases h
        rw [has] at hst ⊢
        exact ⟨rfl, fun hpre => absurd (hst.symm.trans hpre) (by decide)⟩
      · rw [if_neg has] at h
        cases h
        refine ⟨(inputsStopped_other has hsafeop).symm, fun hpre => ?_⟩
        rw [hpre] at han
        exact absurd han (by decide)

/-- So it is in `ESC_state`, from a state with process data or from `PREOP`. -/
theorem escState_input {stopped : Bool} (h : s.escState table r = .ok s')
    (hst : alState s'.alStatus ∈ exchangeStates)
    (hold : alState s.alStatus ∈ exchangeStates → s.app.input = !stopped)
    (hfrom : alState s.alStatus ∈ exchangeStates ∨ alState s.alStatus = escPreop) :
    s'.app.input = !inputsStopped stopped (s.handledChange r) := by
  rcases escState_cases h with
    ⟨hnone, _, rfl⟩ | ⟨ac, an, u, status, alError, log, _, hchange, hstate, hstatus, rfl, _⟩
  · rw [hnone]
    exact hold hst
  · have han : alState an ∈ exchangeStates := by
      rcases hstatus with rfl | rfl
      · exact hst
      · exact alState_or_id an ▸ hst
    obtain ⟨hinput, hpre⟩ := changeState_input (s := { s with alControl := r.alcontrol })
      (low_nibble ac s.alStatus).symm hstate han
    rw [hchange]
    refine hinput.trans ?_
    rcases hfrom with hex | hpreop
    · rw [show ({ s with alControl := r.alcontrol } : EscVar V).app.input = !stopped from hold hex,
        Bool.not_not]
    · rw [hpre hpreop]
      rfl

/-- Where the sync managers are checked, a state is kept or one without process data is
reported. -/
theorem smActEvent_framed (s : EscVar V) (r : Registers) :
    (s.smActEvent r).data = s.data ∧ (s.smActEvent r).mapping = s.mapping
      ∧ Handled s.box (s.smActEvent r).box
      ∧ (((s.smActEvent r).alStatus = s.alStatus ∧ (s.smActEvent r).app = s.app)
        ∨ alState (s.smActEvent r).alStatus ∈ [escInit, escPreop]) := by
  rw [smActEvent]
  by_cases hevent : r.alevent &&& escregAleventSmchange = 0
  · rw [if_pos hevent]
    exact ⟨rfl, rfl, Or.inl rfl, Or.inl ⟨rfl, rfl⟩⟩
  rw [if_neg hevent]
  generalize requested s.alControl s.alStatus = p
  obtain ⟨ac, an⟩ := p
  dsimp only
  generalize s.alStatus &&& escregAlStatemask = as
  by_cases hrun : as &&& escregAlAllbutinitmask ≠ 0 ∧ as ≠ escBoot ∧ s.box.mbxRun = true
  swap
  · rw [if_neg hrun]
    exact ⟨rfl, rfl, Or.inl rfl, Or.inl ⟨rfl, rfl⟩⟩
  rw [if_pos hrun]
  obtain ⟨hdata, hmapping, hbuffers⟩ := s.checkmbx_frame r as
  have hcore := (s.checkmbx_cases r as).1
  have happ := s.checkmbx_app r as
  generalize s.checkmbx r as = q at hdata hmapping hbuffers hcore happ
  obtain ⟨ax, s₁⟩ := q
  have hrest := s₁.checkSm23_rest r as
  have hcore' := (s₁.checkSm23_cases r as).1
  have happ' := s₁.checkSm23_app r as
  dsimp only at hdata hmapping hbuffers hcore happ hrest hcore' ⊢
  generalize s₁.checkSm23 r as = q at hrest hcore' happ'
  obtain ⟨ax23, s₂⟩ := q
  dsimp only at hrest hcore' happ' ⊢
  simp only [rest, Prod.mk.injEq] at hrest
  obtain ⟨hdata', hmapping', hbox'⟩ := hrest
  rw [← hdata'] at hdata
  rw [← hmapping'] at hmapping
  rw [← hbox'] at hbuffers
  have hstatus : s₂.alStatus = s.alStatus ∧ s₂.app = s.app :=
    ⟨congrArg Core.alStatus (hcore'.trans hcore), happ'.trans happ⟩
  by_cases herr : an &&& escError ≠ 0 ∧ ac &&& escError = 0
  · rw [if_pos herr]
    exact ⟨hdata, hmapping, Or.inl hbuffers, Or.inl hstatus⟩
  rw [if_neg herr]
  by_cases hmbx : ax = escInit ||| escError
  · rw [if_pos hmbx, hmbx]
    have hstopped : (if s₂.app ≠ appstateIdle then s₂.stopoutput.stopinput else s₂).rest
        = s₂.rest := by
      split_ifs <;> rfl
    simp only [rest, Prod.mk.injEq] at hstopped
    generalize (if s₂.app ≠ appstateIdle then s₂.stopoutput.stopinput else s₂) = u at hstopped
    obtain ⟨hdata₃, hmapping₃, hbox₃⟩ := hstopped
    refine ⟨hdata₃.trans hdata, hmapping₃.trans hmapping, Or.inr ?_,
      Or.inr (show alState (escInit ||| escError) ∈ [escInit, escPreop] by decide)⟩
    have hstop : buffers u.box.stopmbx = buffers s.box.stopmbx := by
      simp only [buffers, Prod.mk.injEq] at hbuffers ⊢
      rw [hbox₃]
      obtain ⟨_, hmbx, _, _, _, hposted, hdata, _⟩ := hbuffers
      exact ⟨rfl, hmbx, rfl, rfl, rfl, hposted, hdata, rfl⟩
    exact hstop
  rw [if_neg hmbx]
  by_cases hsm : s₂.app ≠ appstateIdle ∧ ax23 = escPreop ||| escError
  · rw [if_pos hsm, hsm.2]
    have herror := smError_rest s₂.stopoutput.stopinput
    simp only [rest, Prod.mk.injEq] at herror
    exact ⟨herror.1.trans hdata, herror.2.1.trans hmapping,
      Or.inl ((congrArg buffers herror.2.2).trans hbuffers),
      Or.inr (show alState (escPreop ||| escError) ∈ [escInit, escPreop] by decide)⟩
  · rw [if_neg hsm]
    exact ⟨hdata, hmapping, Or.inl hbuffers, Or.inl hstatus⟩

/-! ## Process data -/

theorem escAlStatusgotoerror_rest (s : EscVar V) (status : BitVec 8) (e : BitVec 16) :
    (s.escAlStatusgotoerror status e).rest = s.rest := by
  dsimp only [escAlStatusgotoerror]
  split_ifs <;> rfl

/-- `watchdog` a cycle later. -/
def countdown (watchdog : Int) : Int := if 0 < watchdog then watchdog - 1 else watchdog

/-- The watchdog counts while the outputs are on, -/
theorem digWatchdog_rest (s : EscVar V) :
    s.digWatchdog.rest = { s with watchdog :=
      if s.app.output = true then countdown s.watchdog else s.watchdogcnt }.rest := by
  have hcount : (if 0 < s.watchdog then { s with watchdog := s.watchdog - 1 } else s)
      = { s with watchdog := countdown s.watchdog } := by
    rw [countdown]
    split_ifs <;> rfl
  rw [digWatchdog, hcount]
  dsimp only
  by_cases hon : s.app.output = true
  · rw [if_pos hon]
    by_cases hdue : countdown s.watchdog ≤ 0 ∧ s.app.output = true ∧ 0 < s.sm2Sml.toNat
    · rw [if_pos hdue]
      exact escAlStatusgotoerror_rest ..
    · rw [if_neg hdue, if_neg (by rw [hon]; decide)]
  · rw [if_neg hon, if_neg (fun hdue => hon hdue.2.1), if_pos (Bool.eq_false_of_not_eq_true hon)]

/-- and switches them off once it has run down. -/
theorem digWatchdog_output (s : EscVar V) :
    s.digWatchdog.app.output = true
      ↔ s.app.output = true ∧ ¬(countdown s.watchdog ≤ 0 ∧ 0 < s.sm2Sml.toNat) := by
  have hcount : (if 0 < s.watchdog then { s with watchdog := s.watchdog - 1 } else s)
      = { s with watchdog := countdown s.watchdog } := by
    rw [countdown]
    split_ifs <;> rfl
  rw [digWatchdog, hcount]
  dsimp only
  by_cases hdue : countdown s.watchdog ≤ 0 ∧ s.app.output = true ∧ 0 < s.sm2Sml.toNat
  · rw [if_pos hdue, escAlStatusgotoerror, if_neg (by decide), if_pos hdue.2.1]
    exact iff_of_false Bool.false_ne_true fun h => h.2 ⟨hdue.1, hdue.2.2⟩
  · rw [if_neg hdue]
    have happ : (if s.app.output = false then ({ s with watchdog := s.watchdogcnt } : EscVar V)
        else { s with watchdog := countdown s.watchdog }).app = s.app := by
      split_ifs <;> rfl
    rw [happ]
    exact ⟨fun hon => ⟨hon, fun h => hdue ⟨h.1, hon, h.2⟩⟩, And.left⟩

/-- It only switches off the outputs. -/
theorem digWatchdog_input (s : EscVar V) : s.digWatchdog.app.input = s.app.input := by
  rw [digWatchdog]
  have hcount : (if 0 < s.watchdog then { s with watchdog := s.watchdog - 1 } else s).app
      = s.app := by
    split_ifs <;> rfl
  generalize (if 0 < s.watchdog then { s with watchdog := s.watchdog - 1 } else s) = u at hcount
  rw [← hcount]
  dsimp only [escAlStatusgotoerror]
  split_ifs <;> rfl

section Process

variable {i : CycleInput V}

theorem digInputs_rest (h : s.digInputs i = .ok s') :
    s'.rest = { s with
        mem := (if s.app ≠ appstateIdle then i.getInputs s.mem else s.mem)
        txpdo := s'.txpdo }.rest ∧ s'.app = s.app := by
  rw [digInputs] at h
  by_cases happ : s.app ≠ appstateIdle
  · rw [if_pos happ] at h ⊢
    obtain ⟨txpdo, _, hbytes⟩ := bind_eq_ok h
    obtain ⟨bytes, _, hs'⟩ := bind_eq_ok hbytes
    cases hs'
    exact ⟨rfl, rfl⟩
  · rw [if_neg happ] at h ⊢
    cases h
    exact ⟨rfl, rfl⟩

variable [DecidableEq V]

/-- While the outputs are on they are read, unpacked and set. -/
theorem digOutputs_rest (h : s.digOutputs i = .ok s') :
    s'.app = s.app ∧ s'.mapping = s.mapping ∧ s'.box = s.box ∧ s'.txpdo = s.txpdo
      ∧ s'.watchdogcnt = s.watchdogcnt
      ∧ s'.watchdog
        = if i.alevent &&& escregAleventSm2 ≠ 0 ∧ s.app.output = true then s.watchdogcnt
          else s.watchdog := by
  rw [digOutputs] at h
  by_cases hevent : i.alevent &&& escregAleventSm2 = 0
  · rw [if_pos hevent] at h
    rw [if_neg (fun hout => hout.1 hevent)]
    cases h
    exact ⟨rfl, rfl, rfl, rfl, rfl, rfl⟩
  rw [if_neg hevent] at h
  by_cases hon : s.app.output = true
  · rw [if_pos hon] at h
    rw [if_pos ⟨hevent, hon⟩]
    obtain ⟨s₁, hupdate, hs'⟩ := bind_eq_ok h
    obtain ⟨s₂, hread, hunpack⟩ := bind_eq_ok hupdate
    obtain ⟨mem, _, hs₁⟩ := bind_eq_ok hunpack
    obtain ⟨rxpdo, _, hs₂⟩ := bind_eq_ok hread
    cases hs₂
    cases hs₁
    cases hs'
    exact ⟨rfl, rfl, rfl, rfl, rfl, rfl⟩
  · rw [if_neg hon] at h
    rw [if_neg (fun hout => hon hout.2)]
    obtain ⟨rxpdo, _, hs'⟩ := bind_eq_ok h
    cases hs'
    exact ⟨rfl, rfl, rfl, rfl, rfl, rfl⟩

end Process

end State

end EscVar

end GalvoCtrl.Stack
