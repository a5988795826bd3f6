import GalvoCtrl.Coe.Access
import GalvoCtrl.Stack.Responses
import GalvoCtrl.Stack.Watchdog

/-!
# Stack — ProcessData

The controller over whole runs: the stack with its dictionary, and an application that
samples its inputs into `galvo_tx_pdo`. The master only reaches the variables that its
access rights leave to it, nothing is ever transferred in segments, and once `SAFEOP` has
been entered with the mapping that the controller comes with, the process data are the
variables of the application.
-/

namespace GalvoCtrl.Stack

open GalvoCtrl.Lib GalvoCtrl.Coe EscVar

/-! ## Access -/

section Access

variable {mem : Memory GalvoVar} {i : CycleInput GalvoVar} {s s' u : EscVar GalvoVar}

theorem Handled.unsegmented {V : Type} {m m' : Mailbox V} (hm : Handled m m')
    (h : m.Unsegmented) : m'.Unsegmented := by
  rcases hm with hm | hm
  · simp only [buffers, Prod.mk.injEq] at hm
    obtain ⟨_, _, _, _, _, _, hdata, hsegmented⟩ := hm
    exact ⟨hdata.trans h.data, hsegmented.trans h.segmented⟩
  · simp only [buffers, Prod.mk.injEq] at hm
    obtain ⟨_, _, _, _, _, _, hdata, hsegmented⟩ := hm
    exact ⟨hdata.trans h.data, hsegmented⟩

/-- Polling the stack writes what the master may write in the state it leads to. -/
theorem ecatSlvPoll_access (h : s.ecatSlvPoll i galvoObjects = .ok u) (hu : s.box.Unsegmented) :
    Writes (MasterWrites (alState u.alStatus)) s.mem u.mem ∧ u.box.Unsegmented := by
  obtain ⟨s₁, hstate, hpoll⟩ := bind_eq_ok h
  obtain ⟨server, hmailbox, hs'⟩ := bind_eq_ok hpoll
  cases hs'
  have hhandled : Handled s.box s₁.box := by
    rcases EscVar.escState_box hstate with hbox | ⟨_, hhandled⟩
    · exact Or.inl (congrArg buffers hbox)
    · exact hhandled
  have hmem : s₁.mem = s.mem := by
    rcases EscVar.escState_framed hstate with ⟨hrest, _⟩ | ⟨an, _, hframed⟩
    · simp only [EscVar.rest, EscVar.data, Prod.mk.injEq] at hrest
      exact hrest.1.2.2.1
    · have hdata := hframed.data
      simp only [EscVar.data, Prod.mk.injEq] at hdata
      exact hdata.2.2.1
  obtain ⟨hdata, _, hact, _⟩ := EscVar.smActEvent_framed s₁ i.smAct
  simp only [EscVar.data, Prod.mk.injEq] at hdata
  have hunsegmented := hact.unsegmented (hhandled.unsegmented hu)
  obtain ⟨hwrites, hnext⟩ :=
    Server.pollMailbox_access (not_segmentable_galvoObjects _) hmailbox hunsegmented
  have hserver : (s₁.smActEvent i.smAct).server.mem = s.mem := hdata.2.2.1.trans hmem
  rw [hserver] at hwrites
  exact ⟨hwrites.mono fun v hv => writable_galvoObjects hv, hnext⟩

/-- **Nothing is ever transferred in segments.** -/
theorem Reachable.unsegmented (h : Reachable galvoObjects mem s) : s.box.Unsegmented := by
  induction h with
  | init hinit =>
      obtain ⟨mem', _, hs⟩ := bind_eq_ok hinit
      cases hs
      exact ⟨rfl, rfl⟩
  | cycle i _ hcycle ih =>
      obtain ⟨u, hpoll, hprocess⟩ := bind_eq_ok hcycle
      rw [EscVar.digProcess_box hprocess]
      exact (ecatSlvPoll_access hpoll ih).2

/-- Whatever the master sends: unless it runs into a fault, a cycle's services only write what
the access rights of the state leave to the master, and they keep the sizes of all variables. -/
theorem master_access (i : CycleInput GalvoVar) (h : Reachable galvoObjects mem s)
    (hpoll : s.ecatSlvPoll i galvoObjects = .ok u) :
    (∀ v, (u.mem v).length = (s.mem v).length)
      ∧ (∀ v, ¬MasterWrites (alState u.alStatus) v → u.mem v = s.mem v)
      ∧ u.box.data = .null ∧ u.box.segmented = .no := by
  obtain ⟨hwrites, hunsegmented⟩ := ecatSlvPoll_access hpoll h.unsegmented
  exact ⟨hwrites.sizes, hwrites.frame, hunsegmented.data, hunsegmented.segmented⟩

set_option maxRecDepth 4000 in
/-- In `SAFEOP` the master sets an output, which leaves the assignments alone. -/
theorem master_access_safeop : ∃ s u, controllerAt [2, 4] = .ok s
    ∧ s.ecatSlvPoll (messageCycle (downloadRequest 0x7000 2 70000)) galvoObjects = .ok u
    ∧ u.mem (.rx .startX) = toBytes 4 (70000 : BitVec 32)
    ∧ u.mem .obj1c12Sub1 = s.mem .obj1c12Sub1 ∧ u.box.segmented = .no := by
  have hrun : ∃ s u, controllerAt [2, 4] = .ok s
      ∧ s.ecatSlvPoll (messageCycle (downloadRequest 0x7000 2 70000)) galvoObjects = .ok u
      ∧ u.mem (.rx .startX) = toBytes 4 (70000 : BitVec 32)
      ∧ alState u.alStatus = escSafeop := ⟨_, _, rfl, rfl, rfl, rfl⟩
  obtain ⟨s, u, hs, hpoll, hstart, hstate⟩ := hrun
  obtain ⟨_, hframe, _, hsegmented⟩ := master_access _ (reachable_controllerAt [2, 4] hs) hpoll
  refine ⟨s, u, hs, hpoll, hstart, hframe .obj1c12Sub1 ?_, hsegmented⟩
  rw [hstate]
  exact show ¬escSafeop = escPreop by decide

/-- A message that is a segment of a download is followed to a NULL pointer, unless the
segment is empty. -/
theorem download_segment_faults (i : CycleInput GalvoVar) {box : Mailbox GalvoVar}
    (h : Reachable galvoObjects mem s)
    (hcontrol : i.state.alevent &&& escregAleventControl = 0)
    (hsmchange : i.smAct.alevent &&& escregAleventSmchange = 0)
    (hread : s.box.mbxprocess i.mailbox = (true, box)) (hrunning : box.mbxRun = true)
    (hidle : box.xoe = .idle) (hclaim : box.control .inbox = .inclaim)
    (htype : (box.mbx .inbox).header.mbxtype = mbxcoe)
    (hlength : coeMinimumLength ≤ (box.mbx .inbox).header.length.toNat)
    (hservice : (box.mbx .inbox).service = coeSdorequest)
    (hcommand : (box.mbx .inbox).command &&& 0xE0 = coeCommandDownloadsegreq)
    (hbytes : ¬((box.mbx .inbox).header.length = 10 ∧ (box.mbx .inbox).command &&& 0x0E = 0x0E))
    (hfree : ∃ n, box.control n = .idle ∧ n ≠ .inbox) :
    s.ecatSlv i galvoObjects = .error .nullPointer := by
  have htransfer := s.box.transfer_mbxprocess i.mailbox
  rw [hread] at htransfer
  have hu : box.Unsegmented := h.unsegmented.of_transfer htransfer
  have haccept : Server.acceptCoe box = { box with xoe := .coe } := by
    rw [Server.acceptCoe, if_pos ⟨hidle, hclaim⟩, if_pos htype, if_neg (Nat.not_lt.mpr hlength)]
  obtain ⟨n, hn⟩ : ∃ n, ({ box with xoe := .coe } : Mailbox GalvoVar).Claims n := by
    obtain ⟨h1, h2, _⟩ | hclaims := ({ box with xoe := .coe } : Mailbox GalvoVar).claimbuffer_cases
    · obtain ⟨n, hn, hne⟩ := hfree
      cases n with
      | inbox => exact absurd rfl hne
      | out1 => exact absurd hn h1
      | out2 => exact absurd hn h2
    · exact hclaims
  have hunsegmented : ({ box with xoe := .coe } : Mailbox GalvoVar).Unsegmented :=
    ⟨hu.data, hu.segmented⟩
  have hroom := Mailbox.mbxprocess_length hread hidle hclaim
  have hfault := @Server.sdoDownloadsegment_fault _ _ galvoObjects s.alStatus
    ⟨{ box with xoe := .coe }, s.mem⟩ hunsegmented n hn hlength hroom hbytes
  have hnoUpload : Segmented.no ≠ .seu := by decide
  have hnoList : Xoe.coe ≠ .coeOdl := by decide
  have hrequest : (⟨{ box with xoe := .coe }, s.mem⟩ : Server GalvoVar).coeRequest galvoObjects
      s.alStatus = .error .nullPointer := by
    rw [Server.coeRequest, if_pos hservice, Server.sdoRequest]
    dsimp only
    rw [hcommand, if_neg (fun hup => absurd hup.1 (by decide)),
      if_neg (fun hseg => hnoUpload (hu.segmented.symm.trans hseg.2.2)),
      if_neg (by decide), if_pos rfl, hfault]
  have hpoll : s.server.pollMailbox galvoObjects s.alStatus i.mailbox = .error .nullPointer := by
    rw [Server.pollMailbox, EscVar.server, hread]
    dsimp only [Server.withBox]
    rw [Server.coeprocess, if_neg (by rw [hrunning]; decide)]
    dsimp only [Server.withBox]
    rw [haccept, if_neg (fun hodl => hnoList hodl.1), ok_bind', if_pos rfl, hrequest]
    rfl
  rw [EscVar.ecatSlv, EscVar.ecatSlvPoll, EscVar.escState, if_pos hcontrol, ok_bind',
    EscVar.smActEvent, if_pos hsmchange]
  dsimp only
  rw [hpoll]
  rfl

set_option maxRecDepth 4000 in
theorem download_segment_faults_preop : ∃ s, controllerAt [2] = .ok s
    ∧ s.ecatSlv (messageCycle (initCoesdo zeroBuf coeSdorequest 0x00 0 0)) galvoObjects
      = .error .nullPointer := by
  obtain ⟨s, box, hs, hread, hbox⟩ : ∃ s box, controllerAt [2] = .ok s
      ∧ s.box.mbxprocess (messageInput (initCoesdo zeroBuf coeSdorequest 0x00 0 0)) = (true, box)
      ∧ (box.mbxRun = true ∧ box.xoe = .idle ∧ box.control .inbox = .inclaim
        ∧ (box.mbx .inbox).header = ⟨10, 0, 0, 0, mbxcoe, 0⟩
        ∧ (box.mbx .inbox).service = coeSdorequest
        ∧ (box.mbx .inbox).command = 0x00 ∧ box.control .out2 = .idle) :=
    ⟨_, _, rfl, rfl, rfl, rfl, rfl, rfl, rfl, rfl, rfl⟩
  obtain ⟨hrunning, hidle, hclaim, hheader, hservice, hcommand, hfree⟩ := hbox
  have hfault := download_segment_faults
    (messageCycle (initCoesdo zeroBuf coeSdorequest 0x00 0 0)) (reachable_controllerAt [2] hs)
    (by decide) (by decide) hread hrunning hidle hclaim (by rw [hheader])
    (by rw [hheader]; decide) hservice (by rw [hcommand]; decide)
    (fun hempty => absurd (hcommand ▸ hempty.2) (by decide)) ⟨.out2, hfree, nofun⟩
  exact ⟨s, hs, hfault⟩

end Access

/-! ## Runs of the controller -/

/-- The application samples its inputs into `galvo_tx_pdo`, and writes nothing else. -/
def Samples (i : CycleInput GalvoVar) : Prop :=
  ∀ mem, Writes (fun v => ∃ field, v = .tx field) mem (i.getInputs mem)

/-- The states of a controller whose application samples its inputs, and which only enters
`SAFEOP` with the mapping objects assigned that it comes with; and whether its inputs are
stopped there. -/
inductive Operated : Bool → EscVar GalvoVar → Prop where
  | init {s : EscVar GalvoVar} :
      (staticEscVar OdVariables.initial.memory).ecatSlvInit galvoObjects appWatchdogCnt = .ok s →
      Operated false s
  | cycle {stopped : Bool} {s s' : EscVar GalvoVar} (i : CycleInput GalvoVar) :
      Operated stopped s → Samples i →
      (alState s.alStatus = escPreop → alState s'.alStatus = escSafeop →
        DefaultAssignment s.mem) →
      s.ecatSlv i galvoObjects = .ok s' →
      Operated (inputsStopped stopped (s.handledChange i.state)) s'

theorem Operated.reachable {stopped : Bool} {s : EscVar GalvoVar} (h : Operated stopped s) :
    Reachable galvoObjects OdVariables.initial.memory s := by
  induction h with
  | init hinit => exact .init hinit
  | cycle i _ _ _ hcycle ih => exact .cycle i ih hcycle

/-- The mapping that the controller comes with. -/
structure Exchanging (s : EscVar GalvoVar) : Prop where
  assignment : DefaultAssignment s.mem
  mapping : s.mapping = (24, 38, some rxMappings, some txMappings)

/-- The variables and the process data keep their sizes. -/
structure Sized (s : EscVar GalvoVar) : Prop where
  mem : GalvoSizes s.mem
  rxpdo : s.rxpdo.length = maxRxpdoSize
  txpdo : s.txpdo.length = maxTxpdoSize

section Cycle

variable {i : CycleInput GalvoVar} {s s' u : EscVar GalvoVar}

/-- What the way to `SAFEOP` maps. -/
theorem mapping_of_mapped {mem : Memory GalvoVar} (hassign : DefaultAssignment mem)
    (h : EscVar.Mapped galvoObjects mem s) :
    s.mapping = (24, 38, some rxMappings, some txMappings) := by
  obtain ⟨old, maps, hrx, hrxMaps⟩ := h.rx
  obtain ⟨old', maps', htx, htxMaps⟩ := h.tx
  rw [hassign.sizeOfPdo_rx] at hrx
  rw [hassign.sizeOfPdo_tx] at htx
  obtain ⟨hrxSml, hrxMaps'⟩ := Prod.mk.injEq .. ▸ Except.ok.inj hrx
  obtain ⟨htxSml, htxMaps'⟩ := Prod.mk.injEq .. ▸ Except.ok.inj htx
  rw [EscVar.mapping, ← hrxSml, ← htxSml, hrxMaps, htxMaps, hrxMaps', htxMaps']

/-- They are only entered from `PREOP` to `SAFEOP`. -/
theorem step_exchange {c c' : Core GalvoVar} (h : StepOrNot c c')
    (hst : alState c'.alStatus ∈ exchangeStates) : alState c.alStatus ∈ exchangeStates
      ∨ (alState c.alStatus = escPreop ∧ alState c'.alStatus = escSafeop) := by
  cases h with
  | refl => exact Or.inl hst
  | single hstep =>
      cases hstep with
      | outputs mem _ => exact Or.inl hst
      | status hchanged =>
          exact @forall_stateChanges (fun p => p.2 ∈ exchangeStates →
            p.1 ∈ exchangeStates ∨ (p.1 = escPreop ∧ p.2 = escSafeop)) _ (by decide) _ _
            hchanged.allowed.change hst

/-- In these states the sync managers were in order. -/
theorem smActEvent_exchange {r : Registers}
    (hst : alState (s.smActEvent r).alStatus ∈ exchangeStates) :
    (s.smActEvent r).alStatus = s.alStatus ∧ (s.smActEvent r).app = s.app := by
  rcases (EscVar.smActEvent_framed s r).2.2.2 with hsame | hleft
  · exact hsame
  · have hnone : ∀ state ∈ [escInit, escPreop], state ∉ exchangeStates := by decide
    exact absurd hst (hnone _ hleft)

/-- Polling keeps the mapping in these states, or reads it anew on the way to `SAFEOP`. -/
theorem ecatSlvPoll_exchanging (hinv : AlInv s.core) (hu : s.box.Unsegmented)
    (hex : alState s.alStatus ∈ exchangeStates → Exchanging s)
    (hpre : alState s.alStatus = escPreop → alState u.alStatus = escSafeop →
      DefaultAssignment s.mem)
    (h : s.ecatSlvPoll i galvoObjects = .ok u) (hst : alState u.alStatus ∈ exchangeStates) :
    Exchanging u := by
  have haccess := (ecatSlvPoll_access h hu).1
  obtain ⟨s₁, hstate, hpoll⟩ := bind_eq_ok h
  obtain ⟨server, _, hs'⟩ := bind_eq_ok hpoll
  cases hs'
  obtain ⟨_, hmapping, _⟩ := EscVar.smActEvent_framed s₁ i.smAct
  have hsame := (smActEvent_exchange hst).1
  have hst₁ : alState s₁.alStatus ∈ exchangeStates := hsame ▸ hst
  have hassign : DefaultAssignment s.mem := by
    rcases step_exchange (EscVar.escState_step hinv hstate) hst₁ with hold | ⟨hold, hnew⟩
    · exact (hex hold).assignment
    · exact hpre hold ((congrArg alState hsame).trans hnew)
  have hmapped : s₁.mapping = (24, 38, some rxMappings, some txMappings) := by
    rcases EscVar.escState_framed hstate with ⟨hrest, hkeep⟩ | ⟨an, han, hframed⟩
    · simp only [EscVar.rest, Prod.mk.injEq] at hrest
      exact hrest.2.1.trans (hex (hkeep ▸ hst₁)).mapping
    · rcases hframed.mapping with ⟨hkeep, hstay⟩ | hmapped
      · refine hkeep.trans (hex ?_).mapping
        rcases step_exchange (EscVar.escState_step hinv hstate) hst₁ with hold | ⟨hold, hnew⟩
        · exact hold
        · exact absurd (han.symm.trans hnew) (hstay ((alState_alState _).trans hold))
      · refine mapping_of_mapped hassign (hmapped ?_)
        rintro rfl
        rw [han] at hst₁
        exact absurd hst₁ (by decide)
  refine ⟨hassign.of_writes haccess fun v hv => ?_, hmapping.trans hmapped⟩
  have hne : ∀ state ∈ exchangeStates, state ≠ escPreop := by decide
  have hv' : MasterWrites (alState (s₁.smActEvent i.smAct).alStatus) v →
      alState (s₁.smActEvent i.smAct).alStatus = escPreop := by
    simp only [List.mem_cons, List.not_mem_nil, or_false] at hv
    rcases hv with rfl | rfl | rfl | rfl <;> exact id
  exact fun hwrite => hne _ hst (hv' hwrite)

/-- The inputs are started and stopped by the changes of the state alone. -/
theorem ecatSlvPoll_input {stopped : Bool} (hinv : AlInv s.core)
    (hinput : alState s.alStatus ∈ exchangeStates → s.app.input = !stopped)
    (h : s.ecatSlvPoll i galvoObjects = .ok u) (hst : alState u.alStatus ∈ exchangeStates) :
    u.app.input = !inputsStopped stopped (s.handledChange i.state) := by
  obtain ⟨s₁, hstate, hpoll⟩ := bind_eq_ok h
  obtain ⟨server, _, hs'⟩ := bind_eq_ok hpoll
  cases hs'
  obtain ⟨hsame, happ⟩ := smActEvent_exchange hst
  have hst₁ : alState s₁.alStatus ∈ exchangeStates := hsame ▸ hst
  refine (congrArg AppState.input happ).trans (EscVar.escState_input hstate hst₁ hinput ?_)
  exact (step_exchange (EscVar.escState_step hinv hstate) hst₁).imp_right And.left

theorem digProcess_input (h : u.digProcess i = .ok s') : s'.app.input = u.app.input := by
  obtain ⟨s₁, houtputs, hinputs⟩ := bind_eq_ok h
  rw [(EscVar.digInputs_rest hinputs).2, (EscVar.digOutputs_rest houtputs).1, u.digWatchdog_input]

theorem ecatSlvPoll_sized (h : s.ecatSlvPoll i galvoObjects = .ok u) (hu : s.box.Unsegmented)
    (hs : Sized s) : Sized u := by
  have hwrites := (ecatSlvPoll_access h hu).1
  obtain ⟨s₁, hstate, hpoll⟩ := bind_eq_ok h
  obtain ⟨server, _, hs'⟩ := bind_eq_ok hpoll
  cases hs'
  have hdata₁ : s₁.data = s.data := by
    rcases EscVar.escState_framed hstate with ⟨hrest, _⟩ | ⟨an, _, hframed⟩
    · simp only [EscVar.rest, Prod.mk.injEq] at hrest
      exact hrest.1
    · exact hframed.data
  have hdata := (EscVar.smActEvent_framed s₁ i.smAct).1.trans hdata₁
  simp only [EscVar.data, Prod.mk.injEq] at hdata
  refine ⟨hs.mem.trans hwrites.sizes, ?_, ?_⟩
  · exact (congrArg List.length hdata.2.2.2.1).trans hs.rxpdo
  · exact (congrArg List.length hdata.2.2.2.2).trans hs.txpdo

/-! ## Process data -/

/-- What the output sync manager holds. -/
def received (i : CycleInput GalvoVar) : List (BitVec 8) := (List.range 24).map i.sm2Data

theorem readRxpdo_spec (hex : Exchanging s) (hs : Sized s) :
    ∃ rxpdo, s.readRxpdo i = .ok { s with rxpdo } ∧ rxpdo.length = maxRxpdoSize
      ∧ slice rxpdo 0 24 = received i := by
  have hsml : s.sm2Sml = 24 := congrArg Prod.fst hex.mapping
  have hlength : (received i).length = 24 := by rw [received, List.length_map, List.length_range]
  have hroom : 0 + (received i).length ≤ s.rxpdo.length := by
    rw [hlength, hs.rxpdo]
    decide
  have hread : s.readRxpdo i = .ok { s with rxpdo := overwrite s.rxpdo 0 (received i) } := by
    rw [EscVar.readRxpdo, hsml]
    show (copyInto s.rxpdo 0 (received i) >>= _) = _
    rw [copyInto, if_pos hroom]
    rfl
  refine ⟨_, hread, (length_overwrite ..).trans hs.rxpdo, ?_⟩
  exact slice_overwrite hlength (hlength ▸ hroom)

/-- What the outputs of a cycle do. -/
structure Outputs (i : CycleInput GalvoVar) (s s' : EscVar GalvoVar) : Prop where
  app : s'.app = s.app
  others : ∀ v, v ∉ rxVars → s'.mem v = s.mem v
  set : i.alevent &&& escregAleventSm2 ≠ 0 ∧ s.app.output = true →
    image s'.mem rxVars = received i ∧ s'.log = .setOutputs s'.mem :: s.log
  kept : ¬(i.alevent &&& escregAleventSm2 ≠ 0 ∧ s.app.output = true) →
    s'.mem = s.mem ∧ s'.log = s.log

/-- **The outputs are taken over**, if there are any and they are on. -/
theorem digOutputs_spec (hex : Exchanging s) (hs : Sized s) :
    ∃ s', s.digOutputs i = .ok s' ∧ Sized s' ∧ Exchanging s' ∧ Outputs i s s' := by
  obtain ⟨rxpdo, hread, hlength, hslice⟩ := readRxpdo_spec (i := i) hex hs
  rw [EscVar.digOutputs]
  by_cases hevent : i.alevent &&& escregAleventSm2 = 0
  · rw [if_pos hevent]
    exact ⟨s, rfl, hs, hex, rfl, fun _ _ => rfl, fun hset => absurd hevent hset.1,
      fun _ => ⟨rfl, rfl⟩⟩
  rw [if_neg hevent]
  by_cases hon : s.app.output = true
  · have hmaps : s.sm2Mappings.getD [] = rxMappings := by
      have hmapping := hex.mapping
      simp only [EscVar.mapping, Prod.mk.injEq] at hmapping
      rw [hmapping.2.2.1]
      rfl
    have himage := length_image_rxVars hs.mem
    obtain ⟨mem', hunpack, hsizes, hvars, hframe⟩ :=
      (contiguous_rxMappings hs.mem).coePdoUnpack (by decide) (by decide)
        (by rw [himage]; decide) hlength
    have hupdate : s.rxpdoUpdate i = .ok { s with rxpdo, mem := mem' } := by
      rw [EscVar.rxpdoUpdate, hread, ok_bind', hmaps, hunpack]
      rfl
    rw [if_pos hon, hupdate]
    refine ⟨_, rfl, ⟨hs.mem.trans hsizes, hlength, hs.txpdo⟩, ⟨?_, hex.mapping⟩, rfl, hframe,
      fun _ => ⟨?_, rfl⟩, fun hkept => absurd ⟨hevent, hon⟩ hkept⟩
    · refine hex.assignment.of_writes (p := fun v => v ∈ rxVars) ⟨hsizes, hframe⟩ ?_
      decide
    · rw [← hslice, ← himage]
      exact hvars
  · rw [if_neg hon]
    exact ⟨_, hread, ⟨hs.mem, hlength, hs.txpdo⟩, ⟨hex.assignment, hex.mapping⟩, rfl,
      fun _ _ => rfl, fun hset => absurd hset.2 hon, fun _ => ⟨rfl, rfl⟩⟩

/-- What the inputs of a cycle do. -/
structure Inputs (i : CycleInput GalvoVar) (s s' : EscVar GalvoVar) : Prop where
  app : s'.app = s.app
  others : ∀ v, (∀ field, v ≠ .tx field) → s'.mem v = s.mem v
  sampled : s.app ≠ appstateIdle → s'.mem = i.getInputs s.mem
    ∧ s'.log = .writeInputs (image s'.mem txVars) :: .getInputs :: s.log
  kept : s.app = appstateIdle → s' = s

/-- **The inputs are sampled and sent**, unless the application is idle. -/
theorem digInputs_spec (hi : Samples i) (hex : Exchanging s) (hs : Sized s) :
    ∃ s', s.digInputs i = .ok s' ∧ Sized s' ∧ Exchanging s' ∧ Inputs i s s' := by
  rw [EscVar.digInputs]
  by_cases happ : s.app ≠ appstateIdle
  · rw [if_pos happ]
    have hwrites := hi s.mem
    have hmem := hs.mem.trans hwrites.sizes
    have hmapping := hex.mapping
    simp only [EscVar.mapping, Prod.mk.injEq] at hmapping
    have hmaps : s.sm3Mappings.getD [] = txMappings := by
      rw [hmapping.2.2.2]
      rfl
    have himage := length_image_txVars hmem
    obtain ⟨txpdo, hpack, hlength, hslice⟩ :=
      (contiguous_txMappings hmem).coePdoPack (by decide) (by rw [himage]; decide) hs.txpdo
    have hcopy : copyFrom txpdo 0 s.sm3Sml.toNat = .ok (image (i.getInputs s.mem) txVars) := by
      rw [hmapping.2.1, copyFrom, if_pos (by rw [hlength]; decide)]
      rw [himage] at hslice
      exact congrArg Except.ok hslice
    rw [EscVar.txpdoUpdate]
    dsimp only [EscVar.emit]
    rw [hmaps, hpack, ok_bind', hcopy]
    refine ⟨_, rfl, ⟨hmem, hs.rxpdo, hlength⟩, ⟨?_, hex.mapping⟩, rfl, fun v hv => ?_,
      fun _ => ⟨rfl, rfl⟩, fun hidle => absurd hidle happ⟩
    · refine hex.assignment.of_writes hwrites fun v hv => ?_
      rintro ⟨field, rfl⟩
      simp at hv
    · exact hwrites.frame v fun hfield => hfield.elim hv
  · rw [if_neg happ]
    exact ⟨s, rfl, hs, hex, rfl, fun _ _ => rfl, fun hne => absurd hne happ, fun _ => rfl⟩

/-- What a cycle does to the variables of the process data, and what the application and the
master see of it. -/
structure Exchanged (i : CycleInput GalvoVar) (u s' : EscVar GalvoVar) : Prop where
  set : OutputsSet s' i → image s'.mem rxVars = received i
  kept : ¬OutputsSet s' i → ∀ field, s'.mem (.rx field) = u.mem (.rx field)
  sampled : s'.app ≠ appstateIdle → ∃ mem, s'.mem = i.getInputs mem
    ∧ ∀ v, (∀ field, v ≠ .tx field) → s'.mem v = mem v
  fixed : ∀ v, v ∉ rxVars → (∀ field, v ≠ .tx field) → s'.mem v = u.mem v
  log : ∃ mem, image mem rxVars = image s'.mem rxVars
    ∧ s'.log = (if s'.app ≠ appstateIdle then [.writeInputs (image s'.mem txVars), .getInputs]
        else []) ++ ((if OutputsSet s' i then [.setOutputs mem] else []) ++ u.digWatchdog.log)

theorem image_congr {mem mem' : Memory GalvoVar} {vs : List GalvoVar}
    (h : ∀ v ∈ vs, mem' v = mem v) : image mem' vs = image mem vs :=
  congrArg List.flatten (List.map_congr_left h)

theorem digWatchdog_exchanging (hex : Exchanging u) (hs : Sized u) :
    Sized u.digWatchdog ∧ Exchanging u.digWatchdog ∧ u.digWatchdog.mem = u.mem := by
  have hrest := u.digWatchdog_rest
  simp only [EscVar.rest, EscVar.data, Prod.mk.injEq] at hrest
  obtain ⟨⟨_, _, hmem, hrxpdo, htxpdo⟩, hmapping, _⟩ := hrest
  exact ⟨⟨hmem ▸ hs.mem, hrxpdo ▸ hs.rxpdo, htxpdo ▸ hs.txpdo⟩,
    ⟨hmem ▸ hex.assignment, hmapping.trans hex.mapping⟩, hmem⟩

/-- **The process data are exchanged without a fault.** -/
theorem digProcess_exchanged (hi : Samples i) (hex : Exchanging u) (hs : Sized u) :
    ∃ s', u.digProcess i = .ok s' ∧ Sized s' ∧ Exchanging s' ∧ Exchanged i u s' := by
  obtain ⟨hs₀, hex₀, hmem₀⟩ := digWatchdog_exchanging hex hs
  obtain ⟨s₁, hrun₁, hs₁, hex₁, hout⟩ := digOutputs_spec (i := i) hex₀ hs₀
  obtain ⟨s', hrun', hs', hex', hin⟩ := digInputs_spec hi hex₁ hs₁
  refine ⟨s', ?_, hs', hex', ?_⟩
  · rw [EscVar.digProcess, hrun₁]
    exact hrun'
  have happ : s'.app = u.digWatchdog.app := hin.app.trans hout.app
  have hset : OutputsSet s' i
      ↔ i.alevent &&& escregAleventSm2 ≠ 0 ∧ u.digWatchdog.app.output = true := by
    rw [OutputsSet, happ]
  have hrx : ∀ v ∈ rxVars, s'.mem v = s₁.mem v := by
    intro v hv
    refine hin.others v fun field hfield => ?_
    rw [hfield] at hv
    simp [rxVars] at hv
  refine ⟨fun h => ?_, fun h field => ?_, fun h => ?_, fun v hv htx => ?_, s₁.mem, ?_, ?_⟩
  · exact (image_congr hrx).trans (hout.set (hset.mp h)).1
  · rw [hrx _ (by cases field <;> decide), (hout.kept (mt hset.mpr h)).1, hmem₀]
  · have hsampled := (hin.sampled (hin.app ▸ h)).1
    exact ⟨s₁.mem, hsampled, hin.others⟩
  · rw [hin.others v htx, hout.others v hv, hmem₀]
  · exact (image_congr hrx).symm
  · have houtputs : s₁.log
        = (if OutputsSet s' i then [.setOutputs s₁.mem] else []) ++ u.digWatchdog.log := by
      by_cases h : OutputsSet s' i
      · rw [if_pos h]
        exact (hout.set (hset.mp h)).2
      · rw [if_neg h]
        exact (hout.kept (mt hset.mpr h)).2
    rw [← houtputs]
    by_cases h : s'.app ≠ appstateIdle
    · rw [if_pos h]
      exact (hin.sampled (hin.app ▸ h)).2
    · rw [if_neg h]
      have hidle : s₁.app = appstateIdle := hin.app ▸ not_not.mp h
      exact congrArg EscVar.log (hin.kept hidle)

theorem digWatchdog_off (hoff : u.app.output = false) :
    u.digWatchdog = { u with watchdog := u.watchdogcnt } := by
  have hcount : (if 0 < u.watchdog then { u with watchdog := u.watchdog - 1 } else u)
      = { u with watchdog := EscVar.countdown u.watchdog } := by
    rw [EscVar.countdown]
    split_ifs <;> rfl
  rw [EscVar.digWatchdog, hcount]
  dsimp only
  rw [hoff, if_neg (fun hdue => absurd hdue.2.1 (by decide)), if_pos rfl]

/-- Without outputs the state stays, and nothing outgrows its buffer. -/
theorem digProcess_off (hi : Samples i) (hoff : u.app.output = false) (hs : Sized u)
    (h : u.digProcess i = .ok s') : s'.alStatus = u.alStatus ∧ Sized s' := by
  rw [EscVar.digProcess, digWatchdog_off hoff] at h
  obtain ⟨s₁, houtputs, hinputs⟩ := bind_eq_ok h
  have houtputs' : s₁.alStatus = u.alStatus ∧ Sized s₁ := by
    rw [EscVar.digOutputs] at houtputs
    by_cases hevent : i.alevent &&& escregAleventSm2 = 0
    · rw [if_pos hevent] at houtputs
      cases houtputs
      exact ⟨rfl, hs.mem, hs.rxpdo, hs.txpdo⟩
    · rw [if_neg hevent, if_neg (show ¬u.app.output = true by rw [hoff]; decide)] at houtputs
      obtain ⟨rxpdo, hcopy, hs'⟩ := bind_eq_ok houtputs
      cases hs'
      exact ⟨rfl, hs.mem, (copyInto_length hcopy).trans hs.rxpdo, hs.txpdo⟩
  obtain ⟨hstatus₁, hs₁⟩ := houtputs'
  rw [EscVar.digInputs] at hinputs
  by_cases happ : s₁.app ≠ appstateIdle
  · rw [if_pos happ] at hinputs
    obtain ⟨txpdo, hpack, hbytes⟩ := bind_eq_ok hinputs
    obtain ⟨bytes, _, hs'⟩ := bind_eq_ok hbytes
    cases hs'
    exact ⟨hstatus₁, hs₁.mem.trans (hi _).sizes, hs₁.rxpdo,
      (coePdoPack_length hpack).trans hs₁.txpdo⟩
  · rw [if_neg happ] at hinputs
    cases hinputs
    exact ⟨hstatus₁, hs₁⟩

/-- **The mapping of the controller and its inputs in every run.** -/
theorem Operated.exchanging {stopped : Bool} (h : Operated stopped s) :
    Sized s ∧ (alState s.alStatus ∈ exchangeStates → Exchanging s ∧ s.app.input = !stopped) := by
  induction h with
  | init hinit =>
      obtain ⟨mem', hmem', hs⟩ := bind_eq_ok hinit
      cases hs
      obtain ⟨mem, hmem, hname, hvars⟩ :=
        coeInitDefaultValues_galvoObjects (galvoSizes_memory OdVariables.initial)
      obtain rfl := Except.ok.inj (hmem'.symm.trans hmem)
      have hsizes : GalvoSizes mem' := by
        intro v
        by_cases hv : v = .deviceName
        · rw [hv, hname]
        · exact congrArg List.length (hvars v hv)
      exact ⟨⟨hsizes, rfl, rfl⟩,
        fun hst => absurd hst (show alState escInit ∉ exchangeStates by decide)⟩
  | @cycle stopped s s' i hrun hi hpre hcycle ih =>
      obtain ⟨hs, hex⟩ := ih
      have hinv := hrun.reachable.inv
      have hunsegmented := hrun.reachable.unsegmented
      obtain ⟨u, hpoll, hprocess⟩ := bind_eq_ok hcycle
      have hsu := ecatSlvPoll_sized hpoll hunsegmented hs
      have hinvu := (EscVar.ecatSlvPoll_steps hinv hpoll).inv hinv
      have hoff : alState u.alStatus ≠ escOp → u.app.output = false := by
        intro hne
        rw [← Bool.not_eq_true]
        exact fun hon => hne (hinvu.output.mp hon)
      by_cases hst : alState u.alStatus ∈ exchangeStates
      · have hexu : Exchanging u := by
          refine ecatSlvPoll_exchanging hinv hunsegmented (fun h => (hex h).1)
            (fun hold hnew => ?_) hpoll hst
          have hoff' := hoff (by rw [hnew]; decide)
          exact hpre hold ((congrArg alState (digProcess_off hi hoff' hsu hprocess).1).trans hnew)
        have hinput := ecatSlvPoll_input hinv (fun h => (hex h).2) hpoll hst
        rw [← digProcess_input hprocess] at hinput
        obtain ⟨s'', hrun', hs', hex', _⟩ := digProcess_exchanged hi hexu hsu
        obtain rfl := Except.ok.inj (hprocess.symm.trans hrun')
        exact ⟨hs', fun _ => ⟨hex', hinput⟩⟩
      · have hne : alState u.alStatus ≠ escOp := by
          rintro hop
          exact hst (hop ▸ by decide)
        obtain ⟨hstatus, hs'⟩ := digProcess_off hi (hoff hne) hsu hprocess
        exact ⟨hs', fun hst' => absurd (hstatus ▸ hst') hst⟩

/-- In every cycle that leads to `SAFEOP` or `OP` the process data are exchanged without a
fault: the application gets exactly what the master wrote, in `OP`, and the master exactly
what the application sampled, in `OP` and unless the inputs are stopped. -/
theorem process_data_exchanged {stopped : Bool} (h : Operated stopped s) (hi : Samples i)
    (hpre : alState s.alStatus = escPreop → DefaultAssignment s.mem)
    (hpoll : s.ecatSlvPoll i galvoObjects = .ok u) (hst : alState u.alStatus ∈ exchangeStates) :
    ∃ s', s.ecatSlv i galvoObjects = .ok s' ∧ Exchanged i u s'
      ∧ (s'.app.output = true ↔ alState s'.alStatus = escOp)
      ∧ (s'.app ≠ appstateIdle ↔ inputsStopped stopped (s.handledChange i.state) = false
        ∨ alState s'.alStatus = escOp) := by
  obtain ⟨hs, hex⟩ := h.exchanging
  have hunsegmented := h.reachable.unsegmented
  have hexu := ecatSlvPoll_exchanging h.reachable.inv hunsegmented (fun h => (hex h).1)
    (fun hold _ => hpre hold) hpoll hst
  obtain ⟨s', hprocess, _, _, hexchanged⟩ :=
    digProcess_exchanged hi hexu (ecatSlvPoll_sized hpoll hunsegmented hs)
  have hcycle : s.ecatSlv i galvoObjects = .ok s' := by
    rw [EscVar.ecatSlv, hpoll]
    exact hprocess
  have houtput : s'.app.output = true ↔ alState s'.alStatus = escOp :=
    (Reachable.cycle i h.reachable hcycle).inv.output
  have hinput := (digProcess_input hprocess).trans
    (ecatSlvPoll_input h.reachable.inv (fun h => (hex h).2) hpoll hst)
  refine ⟨s', hcycle, hexchanged, houtput, ?_⟩
  rw [← houtput, ← Bool.not_eq_true', ← hinput]
  have hidle (app : AppState) : app ≠ appstateIdle ↔ app.input = true ∨ app.output = true := by
    obtain ⟨input, output⟩ := app
    cases input <;> cases output <;> decide
  exact hidle s'.app

theorem samples_stateCycle (alcontrol : BitVec 16) : Samples (stateCycle alcontrol) :=
  Writes.refl _

theorem samples_exchangeCycle : Samples exchangeCycle := by
  intro mem
  refine ⟨SameSizes.update (List.length_map ..), fun v hv => ?_⟩
  exact Function.update_of_ne (fun h => hv ⟨_, h⟩) ..

set_option maxRecDepth 4000 in
/-- The controller comes to `OP` with its own mapping. -/
theorem operated_op : ∃ s, controllerAt [2, 4, 8] = .ok s ∧ Operated false s := by
  have hrun : ∃ s₀ s₁ s₂ s,
      (staticEscVar OdVariables.initial.memory).ecatSlvInit galvoObjects appWatchdogCnt = .ok s₀
      ∧ s₀.ecatSlv (stateCycle 2) galvoObjects = .ok s₁
      ∧ s₁.ecatSlv (stateCycle 4) galvoObjects = .ok s₂
      ∧ s₂.ecatSlv (stateCycle 8) galvoObjects = .ok s
      ∧ (alState s₀.alStatus = escInit ∧ alState s₂.alStatus = escSafeop)
      ∧ inputsStopped false (s₀.handledChange (configured escregAleventControl 2)) = false
      ∧ inputsStopped false (s₁.handledChange (configured escregAleventControl 4)) = false
      ∧ inputsStopped false (s₂.handledChange (configured escregAleventControl 8)) = false
      ∧ (s₁.mem .obj1c12Sub0 = toBytes 1 (1 : BitVec 8)
        ∧ s₁.mem .obj1c12Sub1 = toBytes 2 (0x1600 : BitVec 16)
        ∧ s₁.mem .obj1c13Sub0 = toBytes 1 (1 : BitVec 8)
        ∧ s₁.mem .obj1c13Sub1 = toBytes 2 (0x1A00 : BitVec 16)) :=
    ⟨_, _, _, _, rfl, rfl, rfl, rfl, ⟨rfl, rfl⟩, rfl, rfl, rfl, rfl, rfl, rfl, rfl⟩
  obtain ⟨s₀, s₁, s₂, s, h₀, h₁, h₂, h₃, ⟨hinit, hsafeop⟩, hc₀, hc₁, hc₂, hassign⟩ := hrun
  have hop₁ : Operated false s₁ := hc₀ ▸ .cycle (stateCycle 2) (.init h₀) (samples_stateCycle 2)
    (fun hpre => absurd (hinit.symm.trans hpre) (by decide)) h₁
  obtain ⟨hrxCount, hrxObject, htxCount, htxObject⟩ := hassign
  have hop₂ : Operated false s₂ := hc₁ ▸ .cycle (stateCycle 4) hop₁ (samples_stateCycle 4)
    (fun _ _ => ⟨hop₁.exchanging.1.mem, hrxCount, hrxObject, htxCount, htxObject⟩) h₂
  refine ⟨s, ?_, hc₂ ▸ .cycle (stateCycle 8) hop₂ (samples_stateCycle 8)
    (fun hpre => absurd (hsafeop.symm.trans hpre) (by decide)) h₃⟩
  rw [controllerAt, h₀, ok_bind', List.map_cons, runFrom_cons, h₁, ok_bind', List.map_cons,
    runFrom_cons, h₂, ok_bind', List.map_cons, runFrom_cons, h₃]
  rfl

set_option maxRecDepth 4000 in
/-- In `OP` the outputs become what the master wrote, and it gets the status sampled. -/
theorem process_data_exchanged_op : ∃ s s', controllerAt [2, 4, 8] = .ok s
    ∧ s.ecatSlv exchangeCycle galvoObjects = .ok s'
    ∧ image s'.mem rxVars = (List.range 24).map (fun k => BitVec.ofNat 8 (k + 1))
    ∧ s'.mem (.tx .status) = [0x5A, 0x5A]
    ∧ ∃ mem log, s'.log
      = .writeInputs (image s'.mem txVars) :: .getInputs :: .setOutputs mem :: log := by
  have hrun : ∃ s u s', controllerAt [2, 4, 8] = .ok s ∧ alState s.alStatus = escOp
      ∧ s.ecatSlvPoll exchangeCycle galvoObjects = .ok u ∧ alState u.alStatus = escOp
      ∧ s.ecatSlv exchangeCycle galvoObjects = .ok s' ∧ alState s'.alStatus = escOp
      ∧ s'.mem (.tx .status) = [0x5A, 0x5A] := ⟨_, _, _, rfl, rfl, rfl, rfl, rfl, rfl, rfl⟩
  obtain ⟨s, u, s', hs, hstate, hpoll, hstateu, hcycle, hstate', hstatus⟩ := hrun
  obtain ⟨s₀, hs₀, hoperated⟩ := operated_op
  obtain rfl := Except.ok.inj (hs.symm.trans hs₀)
  obtain ⟨s'', hcycle', hex, houtput, hinput⟩ :=
    process_data_exchanged hoperated samples_exchangeCycle
      (fun hpre => absurd (hstate.symm.trans hpre) (by decide)) hpoll (hstateu ▸ by decide)
  obtain rfl := Except.ok.inj (hcycle.symm.trans hcycle')
  have hset : OutputsSet s' exchangeCycle := ⟨by decide, houtput.mpr hstate'⟩
  refine ⟨s, s', hs, hcycle, hex.set hset, hstatus, ?_⟩
  obtain ⟨mem, _, hlog⟩ := hex.log
  rw [if_pos hset, if_pos (hinput.mpr (Or.inr hstate'))] at hlog
  exact ⟨mem, _, hlog⟩

/-- State 0 stops the inputs in `SAFEOP`. -/
example : (controllerAt [2, 4, 0]).toOption.map (fun s => (s.alStatus, s.app))
    = some (escSafeop ||| escError, appstateIdle) := rfl

end Cycle

end GalvoCtrl.Stack
