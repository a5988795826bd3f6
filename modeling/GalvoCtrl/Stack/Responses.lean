import GalvoCtrl.Stack.Frame

/-!
# Stack — Responses

The mailboxes under the state machine. It starts and stops them, and resets them when they
are stopped; between `PREOP`, `SAFEOP` and `OP` it leaves them alone. So the responses of
the stack come in order over whole runs of it.
-/

namespace GalvoCtrl.Stack

open GalvoCtrl.Lib GalvoCtrl.Coe

variable {V : Type}

theorem inv_of_buffers {m m' : Mailbox V} (hm : buffers m' = buffers m) (h : m.Inv) : m'.Inv := by
  simp only [buffers, Prod.mk.injEq] at hm
  obtain ⟨hcontrol, _, houtpost, hbackup, htxcue, _⟩ := hm
  refine ⟨?_, ?_, ?_, ?_, ?_⟩
  · rw [hcontrol]
    exact h.inbox
  · rw [hcontrol, hbackup]
    exact h.backup
  · rw [hcontrol, houtpost]
    exact h.outpost
  · rw [hcontrol]
    exact h.order
  · rw [hcontrol, htxcue]
    exact h.txcue

theorem inv_stopmbx (m : Mailbox V) : m.stopmbx.Inv :=
  ⟨Or.inl rfl, fun h => absurd rfl h, fun h => absurd rfl h, nofun, rfl⟩

theorem Handled.inv {m m' : Mailbox V} (hm : Handled m m') (h : m.Inv) : m'.Inv := by
  rcases hm with hm | hm
  · exact inv_of_buffers hm h
  · exact inv_of_buffers hm (inv_stopmbx m)

namespace EscVar

section Process

variable [DecidableEq V] {table : List (ObjectItem V)} {i : CycleInput V} {s s' : EscVar V}

omit [DecidableEq V] in
/-- `ESC_state` without a change of the mailboxes. -/
theorem escState_box {r : Registers} (h : s.escState table r = .ok s') :
    s'.box = s.box ∨ (((requested r.alcontrol s.alStatus).1 <<< 4) ||| (s.alStatus &&& 0x0F)
      ∈ mailboxChanges ∧ Handled s.box s'.box) := by
  rcases escState_framed h with ⟨hrest, _⟩ | ⟨an, _, hframed⟩
  · simp only [rest, Prod.mk.injEq] at hrest
    exact Or.inl hrest.2.2
  · exact hframed.box

omit [DecidableEq V] in
theorem digWatchdog_box (s : EscVar V) : s.digWatchdog.box = s.box := by
  have hrest := s.digWatchdog_rest
  simp only [rest, Prod.mk.injEq] at hrest
  exact hrest.2.2

omit [DecidableEq V] in
theorem digInputs_box (h : s.digInputs i = .ok s') : s'.box = s.box := by
  have hrest := (digInputs_rest h).1
  simp only [rest, Prod.mk.injEq] at hrest
  exact hrest.2.2

theorem digProcess_box (h : s.digProcess i = .ok s') : s'.box = s.box := by
  obtain ⟨s₁, houtputs, hinputs⟩ := bind_eq_ok h
  exact (digInputs_box hinputs).trans ((digOutputs_rest houtputs).2.2.1.trans (digWatchdog_box s))

/-- A cycle keeps the invariant of the mailboxes. -/
theorem ecatSlv_mailbox_inv (h : s.ecatSlv i table = .ok s') (hinv : s.box.Inv) : s'.box.Inv := by
  obtain ⟨s₁, hpoll, hprocess⟩ := bind_eq_ok h
  obtain ⟨s₂, hstate, hpoll⟩ := bind_eq_ok hpoll
  obtain ⟨server, hmailbox, hs₁⟩ := bind_eq_ok hpoll
  cases hs₁
  rw [digProcess_box hprocess]
  have hhandled : Handled s.box s₂.box := by
    rcases escState_box hstate with hbox | ⟨_, hhandled⟩
    · exact Or.inl (congrArg buffers hbox)
    · exact hhandled
  have hact := (smActEvent_framed s₂ i.smAct).2.2.1.inv (hhandled.inv hinv)
  exact (Server.pollMailbox_grows hmailbox hact).inv

theorem requested_fst (alControl : BitVec 16) (alStatus : BitVec 8) :
    (requested alControl alStatus).1 = alControl.setWidth 8 &&& 0x0F := by
  rw [← requested_ac, requested]
  split_ifs
  · show alControl.setWidth 8 &&& 0x1F &&& 0x0F &&& 0x0F = _
    rw [BitVec.and_assoc, BitVec.and_assoc]
    rfl
  · show alControl.setWidth 8 &&& 0x1F &&& 0x0F = _
    rw [BitVec.and_assoc]
    rfl

/-- The states in which the mailboxes run, but for `BOOT`. -/
def sessionStates : List (BitVec 8) := [escPreop, escSafeop, escOp]

/-- A sync manager that `ESC_checkmbx` accepts for a mailbox. -/
structure MailboxSm (sm : EscSm) (sma : Nat) (smc : BitVec 8) : Prop where
  psa : sm.psa.toNat = sma
  length : sm.length.toNat = mbxsize
  command : sm.command = smc
  enabled : sm.ecSm = true

/-- The master neither asks for `INIT` nor changes the mailboxes, and the bit that asks for a
repeat stays as it is. -/
structure InSession (rep : Bool) (i : CycleInput V) : Prop where
  state : i.state.alevent &&& escregAleventControl ≠ 0 →
    i.state.alcontrol.setWidth 8 &&& 0x0F ≠ escInit
  mailboxes : i.smAct.alevent &&& escregAleventSmchange ≠ 0 →
    MailboxSm i.smAct.sm0 mbx0Sma mbx0Smc ∧ MailboxSm i.smAct.sm1 mbx1Sma mbx1Smc
  repeats : i.smAct.alevent &&& escregAleventSmchange ≠ 0 → i.smAct.sm1.ecRep = rep

/-- No message of the master is in the mailbox when it is looked at. -/
structure Silent (i : CycleInput V) : Prop where
  mailbox : i.mailbox.Silent
  smAct : i.smAct.alevent &&& escregAleventSmchange ≠ 0 → i.smAct.sm0.mbxStat = false

omit [DecidableEq V] in
/-- While the mailboxes run, a step leads to one of these states again. -/
theorem step_session {c c' : Core V} (hstep : StepOrNot c c') (hinv : AlInv c)
    (hst : alState c.alStatus ∈ sessionStates) (hrun : c'.mbxRun = true) :
    AlInv c' ∧ alState c'.alStatus ∈ sessionStates := by
  cases hstep with
  | refl => exact ⟨hinv, hst⟩
  | single hstep =>
      have hinv' := hstep.inv hinv
      refine ⟨hinv', ?_⟩
      have hstay {st st' : BitVec 8} : (st, st') ∈ stateChanges →
          st ∈ sessionStates → st' ≠ escInit → st' ∈ sessionStates :=
        @forall_stateChanges
          (fun p => p.1 ∈ sessionStates → p.2 ≠ escInit → p.2 ∈ sessionStates) _ (by decide) _ _
      have hne := hinv'.running.mp hrun
      cases hstep with
      | status hchanged => exact hstay hchanged.allowed.change hst hne
      | outputs mem _ => exact hst

/-- From these states only a change to `INIT` stops the mailboxes, and none starts them. -/
theorem mailboxChanges_session {ac st : BitVec 8} (hac : ac &&& 0x0F = ac) (hinit : ac ≠ escInit)
    (hst : st &&& 0x0F ∈ sessionStates) : (ac <<< 4) ||| (st &&& 0x0F) ∉ mailboxChanges := by
  intro hchange
  obtain ⟨hto, hfrom⟩ := change_eq hac rfl
  have hall : ∀ change ∈ mailboxChanges, change &&& 0x0F ∈ sessionStates →
      change >>> 4 = escInit := by
    decide
  exact hinit (hto.trans (hall _ hchange (hfrom ▸ hst)))

/-- The mailboxes with what `ESC_checkmbx` reads of their sync managers. -/
def checked (m : Mailbox V) (r : Registers) : Mailbox V :=
  { m with sm0Full := r.sm0.mbxStat, sm1Full := r.sm1.mbxStat, sm1Rep := r.sm1.ecRep }

omit [DecidableEq V] in
theorem checkmbx_mailboxSm {r : Registers} (h0 : MailboxSm r.sm0 mbx0Sma mbx0Smc)
    (h1 : MailboxSm r.sm1 mbx1Sma mbx1Smc) (state : BitVec 8) :
    s.checkmbx r state = (state, { s with box := checked s.box r }) := by
  rw [checkmbx, if_neg, if_neg]
  · rfl
  · simp [h1.psa, h1.length, h1.command, h1.enabled]
  · simp [h0.psa, h0.length, h0.command, h0.enabled]

omit [DecidableEq V] in
/-- With the mailboxes as they should be, at most the process data are stopped. -/
theorem smActEvent_session {r : Registers} (hst : alState s.alStatus ∈ sessionStates)
    (h0 : MailboxSm r.sm0 mbx0Sma mbx0Smc) (h1 : MailboxSm r.sm1 mbx1Sma mbx1Smc) :
    (s.smActEvent r).box = s.box ∨ (s.smActEvent r).box = checked s.box r := by
  rw [smActEvent]
  by_cases hevent : r.alevent &&& escregAleventSmchange = 0
  · rw [if_pos hevent]
    exact Or.inl rfl
  rw [if_neg hevent]
  generalize requested s.alControl s.alStatus = p
  obtain ⟨ac, an⟩ := p
  dsimp only
  have hinit : s.alStatus &&& escregAlStatemask ≠ escInit ||| escError := by
    intro has
    have hstate : alState s.alStatus = alState (s.alStatus &&& escregAlStatemask) := by
      rw [alState, alState, BitVec.and_assoc]
      rfl
    rw [hstate, has] at hst
    exact absurd hst (by decide)
  generalize s.alStatus &&& escregAlStatemask = as at hinit
  by_cases hrun : as &&& escregAlAllbutinitmask ≠ 0 ∧ as ≠ escBoot ∧ s.box.mbxRun = true
  swap
  · rw [if_neg hrun]
    exact Or.inl rfl
  rw [if_pos hrun, checkmbx_mailboxSm h0 h1 as]
  right
  have hrest := ({ s with box := checked s.box r } : EscVar V).checkSm23_rest r as
  generalize ({ s with box := checked s.box r } : EscVar V).checkSm23 r as = q at hrest
  obtain ⟨ax23, u⟩ := q
  simp only [rest, Prod.mk.injEq] at hrest
  dsimp only
  rw [if_neg hinit, ← hrest.2.2]
  split_ifs
  · rfl
  · have herror := smError_rest u.stopoutput.stopinput
    simp only [rest, Prod.mk.injEq] at herror
    exact herror.2.2
  · rfl

/-- What lasts through a session. -/
structure Session (rep : Bool) (s : EscVar V) : Prop where
  inv : AlInv s.core
  state : alState s.alStatus ∈ sessionStates
  mailbox : s.box.Inv
  steady : s.box.Steady
  toggle : s.box.toggle = rep

/-- The session goes on, and so do the responses; they stay as they are where nothing comes
in. -/
theorem ecatSlv_session {rep : Bool} (hs : Session rep s) (hi : InSession rep i)
    (h : s.ecatSlv i table = .ok s') : Session rep s' ∧ s.box.sent <+: s'.box.sent
      ∧ (s.box.Resting → Silent i → s'.box.Resting ∧ s'.box.sent = s.box.sent) := by
  obtain ⟨s₁, hpoll, hprocess⟩ := bind_eq_ok h
  obtain ⟨s₂, hstate, hpoll⟩ := bind_eq_ok hpoll
  obtain ⟨server, hmailbox, hs₁⟩ := bind_eq_ok hpoll
  cases hs₁
  have hsame : s₂.box = s.box := by
    rcases escState_box hstate with hsame | ⟨hchange, _⟩
    · exact hsame
    · by_cases hevent : i.state.alevent &&& escregAleventControl = 0
      · rw [escState, if_pos hevent] at hstate
        cases hstate
        rfl
      · refine absurd hchange (mailboxChanges_session (requested_ac ..) ?_ hs.state)
        rw [requested_fst]
        exact hi.state hevent
  have hrunning : s.box.mbxRun = true := by
    refine hs.inv.running.mpr fun hinit => ?_
    have hne : escInit ∉ sessionStates := by decide
    exact hne (hinit ▸ hs.state)
  have hrun₂ : s₂.box.mbxRun = true := hsame ▸ hrunning
  obtain ⟨hinv₂, hst₂⟩ := step_session (escState_step hs.inv hstate) hs.inv hs.state hrun₂
  -- the mailboxes are looked at, and left as they are
  have hact : s.box.Keeps (s₂.smActEvent i.smAct).box ∧
      (s₂.smActEvent i.smAct).box.toggle = rep ∧ (s₂.smActEvent i.smAct).box.mbxRun = true ∧
      (s.box.Resting → Silent i → (s₂.smActEvent i.smAct).box.Resting) := by
    have hmailboxInv : s₂.box.Inv := hsame ▸ hs.mailbox
    have htoggle : s₂.box.toggle = rep := hsame ▸ hs.toggle
    rw [← hsame]
    by_cases hevent : i.smAct.alevent &&& escregAleventSmchange = 0
    · rw [smActEvent, if_pos hevent]
      exact ⟨.refl hmailboxInv, htoggle, hrun₂, fun hrest _ => hrest⟩
    · obtain ⟨h0, h1⟩ := hi.mailboxes hevent
      rcases smActEvent_session hst₂ h0 h1 with hbox | hbox
      · rw [hbox]
        exact ⟨.refl hmailboxInv, htoggle, hrun₂, fun hrest _ => hrest⟩
      · rw [hbox]
        refine ⟨?_, htoggle, hrun₂, fun hrest hsilent => ⟨hrest.xoe, hsilent.smAct hevent⟩⟩
        exact .of_eq hmailboxInv hmailboxInv.inbox (fun _ _ => rfl) (fun _ _ => rfl) rfl
          fun _ => (hi.repeats hevent).trans htoggle.symm
  have hstep₃ := smActEvent_step (r := i.smAct) hinv₂
  generalize s₂.smActEvent i.smAct = s₃ at hmailbox hact hstep₃ hprocess
  obtain ⟨hkeeps, htoggle₃, hrun₃, hrest₃⟩ := hact
  obtain ⟨hinv₃, hst₃⟩ := step_session hstep₃ hinv₂ hst₂ hrun₃
  obtain ⟨hsteady₃, hsent₃⟩ := hkeeps.steady hs.steady
  -- the mailboxes are polled
  obtain ⟨hrun₄, htoggle₄⟩ := Server.pollMailbox_mbxRun (s := s₃.server) hmailbox
  have hgrows₄ := Server.pollMailbox_grows (s := s₃.server) hmailbox hkeeps.inv
  obtain ⟨hsteady₄, hextends₄⟩ := hgrows₄.steady hsteady₃
  have hcore : (s₃.withServer server).core = s₃.core :=
    congrArg (fun run => { s₃.core with mbxRun := run }) hrun₄
  rw [← hcore] at hinv₃
  -- the process data leave them alone
  obtain ⟨s₄, houtputs, hinputs⟩ := bind_eq_ok hprocess
  have hwatchdog := digWatchdog_box (s₃.withServer server)
  have hrun₅ : (s₃.withServer server).digWatchdog.box.mbxRun = true := by
    rw [hwatchdog]
    exact hrun₄.trans hrun₃
  obtain ⟨hinv₅, hst₅⟩ := step_session (digWatchdog_step hinv₃) hinv₃ hst₃ hrun₅
  have hrun₆ : s₄.box.mbxRun = true := by rw [(digOutputs_rest houtputs).2.2.1, hrun₅]
  obtain ⟨hinv₆, hst₆⟩ := step_session (digOutputs_step houtputs) hinv₅ hst₅ hrun₆
  have hcore' := digInputs_core hinputs
  rw [← hcore'] at hinv₆ hst₆
  have hbox : s'.box = server.box := digProcess_box hprocess
  rw [hbox]
  refine ⟨⟨hinv₆, hst₆, ?_, ?_, ?_⟩, hsent₃ ▸ hextends₄, fun hrest hsilent => ?_⟩
  · exact hbox ▸ hgrows₄.inv
  · exact hbox ▸ hsteady₄
  · rw [hbox]
    exact (htoggle₄ hsteady₃.toggle).trans htoggle₃
  · obtain ⟨hrest₄, hsent₄⟩ := Server.pollMailbox_resting (s := s₃.server) hmailbox hkeeps.inv
      hsteady₃ (hrest₃ hrest hsilent) hsilent.mailbox
    exact ⟨hrest₄, hsent₄.trans hsent₃⟩

end Process

end EscVar

/-! ## Runs -/

section Runs

variable [DecidableEq V] {table : List (ObjectItem V)} {mem : Memory V} {s s' : EscVar V}

/-- **The buffers are where the variables say, in every state.** -/
theorem Reachable.mailbox_inv (h : Reachable table mem s) : s.box.Inv := by
  induction h with
  | init hinit =>
      obtain ⟨mem', _, hs⟩ := bind_eq_ok hinit
      cases hs
      exact inv_stopmbx _
  | cycle i _ hcycle ih => exact EscVar.ecatSlv_mailbox_inv hcycle ih

/-- A session, cycle by cycle. -/
theorem runFrom_session {is : List (CycleInput V)} {rep : Bool} (hs : EscVar.Session rep s)
    (his : ∀ i ∈ is, EscVar.InSession rep i) (h : runFrom table s is = .ok s') :
    EscVar.Session rep s' ∧ s.box.sent <+: s'.box.sent
      ∧ (s.box.Resting → (∀ i ∈ is, EscVar.Silent i) →
        s'.box.Resting ∧ s'.box.sent = s.box.sent) := by
  induction is generalizing s with
  | nil =>
      cases h
      exact ⟨hs, List.prefix_rfl, fun hrest _ => ⟨hrest, rfl⟩⟩
  | cons i is ih =>
      obtain ⟨s₁, hcycle, hrest⟩ := bind_eq_ok h
      obtain ⟨hs₁, hextends, hkept⟩ :=
        EscVar.ecatSlv_session hs (his i List.mem_cons_self) hcycle
      obtain ⟨hs', hextends', hkept'⟩ :=
        ih hs₁ (fun j hj => his j (List.mem_cons_of_mem i hj)) hrest
      refine ⟨hs', hextends.trans hextends', fun hresting hsilent => ?_⟩
      obtain ⟨hresting₁, hsent⟩ := hkept hresting (hsilent i List.mem_cons_self)
      obtain ⟨hresting', hsent'⟩ :=
        hkept' hresting₁ fun j hj => hsilent j (List.mem_cons_of_mem i hj)
      exact ⟨hresting', hsent'.trans hsent⟩

/-- No response is lost or overtaken, from any state in which none is repeated and as long as
none is asked for again. Without a message of the master none is added, so that what is posted
is what waited, once. -/
theorem responses_in_order (is : List (CycleInput V)) (hreach : Reachable table mem s)
    (hst : alState s.alStatus ∈ EscVar.sessionStates) (hsteady : s.box.Steady)
    (his : ∀ i ∈ is, EscVar.InSession s.box.toggle i) (h : runFrom table s is = .ok s') :
    s.box.sent <+: s'.box.sent ∧ s'.box.Steady
      ∧ (s.box.Resting → (∀ i ∈ is, EscVar.Silent i) → s'.box.sent = s.box.sent) := by
  obtain ⟨hs', hextends, hkept⟩ :=
    runFrom_session ⟨hreach.inv, hst, hreach.mailbox_inv, hsteady, rfl⟩ his h
  exact ⟨hextends, hs'.steady, fun hresting hsilent => (hkept hresting hsilent).2⟩

/-- A response is posted, while the sync managers are looked at, and read. -/
def deliverResponse : List (CycleInput GalvoVar) :=
  [{ stateCycle 2 with smAct := configured escregAleventSmchange 0 }, readCycle]

theorem deliverResponse_session :
    ∀ i ∈ deliverResponse, EscVar.InSession false i ∧ EscVar.Silent i := by
  have hmailboxes : EscVar.MailboxSm (configuredSm 0x1000 128 mbx0Smc) mbx0Sma mbx0Smc
      ∧ EscVar.MailboxSm (configuredSm 0x1080 128 mbx1Smc) mbx1Sma mbx1Smc :=
    ⟨⟨rfl, rfl, rfl, rfl⟩, ⟨rfl, rfl, rfl, rfl⟩⟩
  intro i hi
  simp only [deliverResponse, List.mem_cons, List.not_mem_nil, or_false] at hi
  rcases hi with rfl | rfl
  all_goals exact ⟨⟨by decide, fun _ => hmailboxes, fun _ => rfl⟩, fun _ => rfl, fun _ => rfl⟩

set_option maxRecDepth 8000 in
/-- The response to an upload waits, is posted once and read; then the next one is added. -/
theorem responses_in_order_preop : ∃ s₀ s s₁ s', controllerAt [2] = .ok s₀
    ∧ runFrom galvoObjects s₀ [messageCycle (uploadRequest 0x1000 0)] = .ok s
    ∧ runFrom galvoObjects s deliverResponse = .ok s₁
    ∧ runFrom galvoObjects s (deliverResponse ++ [messageCycle (uploadRequest 0x1C12 1)]) = .ok s'
    ∧ (s.box.posted.length, s.box.sent.length) = (0, 1)
    ∧ (s₁.box.posted.length, s₁.box.sent) = (1, s.box.sent)
    ∧ s'.box.sent.length = 2 ∧ s.box.sent <+: s'.box.sent ∧ s'.box.Steady := by
  have hrun : ∃ s₀ s s₁ s', controllerAt [2] = .ok s₀
      ∧ runFrom galvoObjects s₀ [messageCycle (uploadRequest 0x1000 0)] = .ok s
      ∧ runFrom galvoObjects s deliverResponse = .ok s₁
      ∧ runFrom galvoObjects s (deliverResponse ++ [messageCycle (uploadRequest 0x1C12 1)]) = .ok s'
      ∧ (s.box.posted.length, s.box.sent.length) = (0, 1) ∧ s₁.box.posted.length = 1
      ∧ s'.box.sent.length = 2 ∧ s.box.xoe = .idle ∧ s.box.sm0Full = false
      ∧ alState s.alStatus = escPreop ∧ s.box.sm1Rep = false ∧ s.box.toggle = false
      ∧ [s.box.control .inbox, s.box.control .out1, s.box.control .out2]
        = [.idle, .idle, .outreq] :=
    ⟨_, _, _, _, rfl, rfl, rfl, rfl, rfl, rfl, rfl, rfl, rfl, rfl, rfl, rfl, rfl⟩
  obtain ⟨s₀, s, s₁, s', hs₀, hs, hs₁, hs', hwaits, hposted, htwo, hxoe, hfull, hstate, hrep,
    htoggle, hcontrol⟩ := hrun
  simp only [List.cons.injEq, and_true] at hcontrol
  have hsteady : s.box.Steady := by
    refine ⟨hrep.trans htoggle.symm, fun n => ?_⟩
    cases n with
    | inbox => exact hcontrol.1 ▸ by decide
    | out1 => exact hcontrol.2.1 ▸ by decide
    | out2 => exact hcontrol.2.2 ▸ by decide
  have hreach := (reachable_controllerAt [2] hs₀).runFrom hs
  have hst : alState s.alStatus ∈ EscVar.sessionStates := by
    rw [hstate]
    decide
  have hsession : ∀ i ∈ deliverResponse, EscVar.InSession s.box.toggle i :=
    fun i hi => htoggle.symm ▸ (deliverResponse_session i hi).1
  have hsilent := responses_in_order deliverResponse hreach hst hsteady hsession hs₁
  have horder := responses_in_order _ hreach hst hsteady ?_ hs'
  · refine ⟨s₀, s, s₁, s', hs₀, hs, hs₁, hs', hwaits, ?_, htwo, horder.1, horder.2.1⟩
    rw [hposted, hsilent.2.2 ⟨hxoe, hfull⟩ fun i hi => (deliverResponse_session i hi).2]
  · intro i hi
    rcases List.mem_append.mp hi with hi | hi
    · exact hsession i hi
    · rw [List.mem_singleton.mp hi]
      exact ⟨by decide, fun hevent => absurd rfl hevent, fun hevent => absurd rfl hevent⟩

end Runs

end GalvoCtrl.Stack
