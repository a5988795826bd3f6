import GalvoCtrl.Coe.MailboxRuns

/-!
# Coe — Blocked

A request that no branch of `ESC_coeprocess` is for. It is neither answered nor dropped,
and as the mailbox is only read while no protocol is in progress, no later message is read
either: an SDO abort by the master is enough for that.
-/

namespace GalvoCtrl.Coe

open GalvoCtrl.Lib

variable {V : Type}

/-- An SDO request whose command no branch is for. -/
structure MbxBuf.Unhandled (coesdo : MbxBuf) (segmented : Segmented) : Prop where
  service : coesdo.service = coeSdorequest
  upload : coesdo.command &&& 0xE0 = coeCommandUploadrequest →
    coesdo.header.length ≠ BitVec.ofNat 16 coeHeadersize
  uploadsegment : coesdo.command &&& 0xEF = coeCommandUploadsegreq →
    coesdo.header.length = BitVec.ofNat 16 coeHeadersize → segmented ≠ .seu
  download : coesdo.command &&& 0xE0 ≠ coeCommandDownloadrequest
  downloadsegment : coesdo.command &&& 0xE0 ≠ coeCommandDownloadsegreq

namespace Mailbox

/-- The mailboxes with a request in progress that is not handled. -/
structure Blocked (m : Mailbox V) : Prop where
  running : m.mbxRun = true
  xoe : m.xoe = .coe
  unhandled : (m.mbx .inbox).Unhandled m.segmented

/-- What the mailboxes keep while a protocol is in progress. -/
def request (m : Mailbox V) : Bool × Xoe × Segmented × MbxState × (MbxIx → MbxBuf) :=
  (m.mbxRun, m.xoe, m.segmented, m.control .inbox, m.mbx)

theorem Blocked.congr {m m' : Mailbox V} (hm : m'.request = m.request) (h : m.Blocked) :
    m'.Blocked := by
  simp only [request, Prod.mk.injEq] at hm
  obtain ⟨hrun, hxoe, hsegmented, _, hmbx⟩ := hm
  refine ⟨hrun.trans h.running, hxoe.trans h.xoe, ?_⟩
  rw [hmbx, hsegmented]
  exact h.unhandled

theorem xoeprocess_blocked {m : Mailbox V} (h : m.Blocked) : m.xoeprocess = m := by
  rw [xoeprocess, if_neg (by rw [h.running]; decide), if_neg]
  rw [h.xoe]
  exact fun hidle => absurd hidle.1 (by decide)

theorem request_refresh (m : Mailbox V) (i : Input) : (m.refresh i).request = m.request := by
  rw [refresh]
  split_ifs <;> rfl

theorem request_outmbxRead {m : Mailbox V} (h : m.mbxoutpost ≠ .inbox) :
    m.outmbxRead.request = m.request := by
  rw [outmbxRead_eq, request, request]
  simp only [Prod.mk.injEq, true_and, and_true]
  rw [if_neg h.symm, if_neg (fun hb => hb.2 rfl)]

theorem request_repeatRequest (m : Mailbox V) : m.repeatRequest.request = m.request := by
  rw [repeatRequest]
  split_ifs with hany hout
  · rfl
  · have hinbox : (m.setState m.mbxoutpost .again).control .inbox = m.control .inbox :=
      Function.update_of_ne (Ne.symm hout) ..
    exact congrArg (fun state => (m.mbxRun, m.xoe, m.segmented, state, m.mbx)) hinbox
  · rfl

theorem request_post (m : Mailbox V) (i : Input) : (m.post i).request = m.request := by
  rw [post]
  by_cases hfree : 0 < m.txcue ∧ (m.mbxfree = true ∨ m.sm1Full = false)
  · rw [if_pos hfree]
    by_cases hnone : m.outreqbuffer = .inbox
    · exact congrArg request (if_pos hnone)
    · have hinbox : ((m.writembx m.outreqbuffer).setState m.outreqbuffer .outpost).control .inbox
          = m.control .inbox := Function.update_of_ne (Ne.symm hnone) ..
      exact (congrArg request (if_neg hnone)).trans
        (congrArg (fun state => (m.mbxRun, m.xoe, m.segmented, state, m.mbx)) hinbox)
  · rw [if_neg hfree]

/-- No message is read while a protocol is in progress. -/
theorem request_mbxprocess {m : Mailbox V} (h : m.xoe ≠ .idle) (i : Input) :
    (m.mbxprocess i).2.request = m.request := by
  rw [mbxprocess]
  by_cases hrun : m.mbxRun = false
  · rw [if_pos hrun]
  rw [if_neg hrun, ← request_refresh m i]
  have hxoe : (m.refresh i).xoe ≠ .idle := by
    have hkept := congrArg (fun r => r.2.1) (request_refresh m i)
    exact fun hidle => h (hkept.symm.trans hidle)
  generalize m.refresh i = m at hxoe
  dsimp only
  by_cases hread : m.mbxoutpost ≠ .inbox ∧ i.alevent' &&& escregAleventSm1 ≠ 0
  · rw [if_pos hread]
    exact request_outmbxRead hread.1
  rw [if_neg hread]
  by_cases hrepeat : m.sm1Rep ≠ m.toggle
  · rw [if_pos hrepeat]
    exact request_repeatRequest m
  · rw [if_neg hrepeat]
    have hpost := congrArg (fun r => r.2.1) (request_post m i)
    have hidle : (m.post i).xoe ≠ .idle := fun hidle => hxoe (hpost.symm.trans hidle)
    rw [receive, if_neg (fun hfull => hidle hfull.2.2.2)]
    exact request_post m i

end Mailbox

namespace Server

open Mailbox

section Process

variable [DecidableEq V] {table : List (ObjectItem V)} {alstatus : BitVec 8} {s s' : Server V}

/-- No branch is taken for a request that is not handled. -/
theorem coeRequest_unhandled (h : (s.box.mbx .inbox).Unhandled s.box.segmented) :
    s.coeRequest table alstatus = .ok s := by
  rw [coeRequest, if_pos h.service, sdoRequest, if_neg (fun hup => h.upload hup.1 hup.2),
    if_neg (fun hseg => h.uploadsegment hseg.1 hseg.2.1 hseg.2.2), if_neg h.download,
    if_neg h.downloadsegment]

theorem coeprocess_unhandled {box : Mailbox V} (hrunning : s.box.mbxRun = true)
    (haccept : acceptCoe s.box = box) (h : box.Blocked) :
    s.coeprocess table alstatus = .ok (s.withBox box) := by
  rw [coeprocess, if_neg (by rw [hrunning]; decide)]
  dsimp only
  rw [haccept, if_neg, ok_bind', if_pos]
  · exact coeRequest_unhandled h.unhandled
  · exact h.xoe
  · exact fun hodl => absurd (h.xoe.symm.trans hodl.1) (by decide)

theorem coeprocess_blocked (h : s.box.Blocked) : s.coeprocess table alstatus = .ok s := by
  refine coeprocess_unhandled h.running ?_ h
  rw [acceptCoe, if_neg]
  rw [h.xoe]
  exact fun hidle => absurd hidle.1 (by decide)

theorem pollMailbox_blocked {i : Mailbox.Input} (h : s.box.Blocked)
    (hpoll : s.pollMailbox table alstatus i = .ok s') :
    s'.box.request = s.box.request ∧ s'.mem = s.mem := by
  rw [pollMailbox] at hpoll
  have hbusy : s.box.xoe ≠ .idle := by
    rw [h.xoe]
    decide
  have hrequest := request_mbxprocess hbusy i
  generalize s.box.mbxprocess i = p at hpoll hrequest
  obtain ⟨b, box⟩ := p
  cases b with
  | false =>
      cases hpoll
      exact ⟨hrequest, rfl⟩
  | true =>
      have hblocked : box.Blocked := h.congr hrequest
      obtain ⟨s₁, hcoe, hs'⟩ := bind_eq_ok hpoll
      rw [coeprocess_blocked (s := s.withBox box) hblocked] at hcoe
      cases hcoe
      cases hs'
      refine ⟨?_, rfl⟩
      rw [← hrequest]
      exact congrArg request (xoeprocess_blocked hblocked)

/-- **Such a request stays, and with it every variable and every buffer.** -/
theorem pollsFrom_blocked {polls : List (BitVec 8 × Mailbox.Input)} (h : s.box.Blocked)
    (hrun : s.pollsFrom table polls = .ok s') :
    s'.box.request = s.box.request ∧ s'.mem = s.mem := by
  induction polls generalizing s with
  | nil =>
      cases hrun
      exact ⟨rfl, rfl⟩
  | cons poll polls ih =>
      obtain ⟨s₁, hpoll, hrest⟩ := bind_eq_ok hrun
      obtain ⟨hrequest, hmem⟩ := pollMailbox_blocked h hpoll
      obtain ⟨hrequest', hmem'⟩ := ih (h.congr hrequest) hrest
      exact ⟨hrequest'.trans hrequest, hmem'.trans hmem⟩

/-- A message that was read and that no branch is for ends the service of the mailboxes. -/
theorem unhandled_blocks {i : Mailbox.Input} {box : Mailbox V}
    (hread : s.box.mbxprocess i = (true, box)) (hrunning : box.mbxRun = true)
    (hidle : box.xoe = .idle) (hclaim : box.control .inbox = .inclaim)
    (htype : (box.mbx .inbox).header.mbxtype = mbxcoe)
    (hlength : coeMinimumLength ≤ (box.mbx .inbox).header.length.toNat)
    (hunhandled : (box.mbx .inbox).Unhandled box.segmented) :
    ∃ s₁, s.pollMailbox table alstatus i = .ok s₁ ∧
      ∀ polls s', s₁.pollsFrom table polls = .ok s' →
        s'.box.xoe = .coe ∧ s'.box.control .inbox = .inclaim ∧ s'.box.mbx = box.mbx
          ∧ s'.mem = s.mem := by
  have haccept : acceptCoe box = { box with xoe := .coe } := by
    rw [acceptCoe, if_pos ⟨hidle, hclaim⟩, if_pos htype, if_neg (Nat.not_lt.mpr hlength)]
  have hblocked : ({ box with xoe := .coe } : Mailbox V).Blocked := ⟨hrunning, rfl, hunhandled⟩
  refine ⟨s.withBox { box with xoe := .coe }, ?_, ?_⟩
  · rw [pollMailbox, hread]
    dsimp only
    rw [coeprocess_unhandled (s := s.withBox box) hrunning haccept hblocked, ok_bind']
    exact congrArg (fun box => Except.ok (s.withBox box)) (xoeprocess_blocked hblocked)
  · intro polls s' hrun
    obtain ⟨hrequest, hmem⟩ := pollsFrom_blocked hblocked hrun
    simp only [request, Prod.mk.injEq] at hrequest
    obtain ⟨_, hxoe, _, hcontrol, hmbx⟩ := hrequest
    exact ⟨hxoe, hcontrol.trans hclaim, hmbx, hmem⟩

set_option maxRecDepth 4000 in
/-- An SDO abort is such a message. -/
theorem unhandled_blocks_abort : ∃ s₁ : Server GalvoVar,
    (⟨{ staticMailbox with mbxRun := true }, OdVariables.initial.memory⟩ : Server GalvoVar).pollMailbox
        galvoObjects escPreop (messageInput (initCoesdo zeroBuf coeSdorequest coeCommandSdoabort 0 0))
      = .ok s₁ ∧ ∀ polls s', s₁.pollsFrom galvoObjects polls = .ok s' → s'.box.xoe = .coe := by
  obtain ⟨box, hread, hrunning, hidle, hclaim, hheader, hservice, hcommand⟩ :
      ∃ box, ({ staticMailbox with mbxRun := true } : Mailbox GalvoVar).mbxprocess
          (messageInput (initCoesdo zeroBuf coeSdorequest coeCommandSdoabort 0 0)) = (true, box)
        ∧ box.mbxRun = true ∧ box.xoe = .idle ∧ box.control .inbox = .inclaim
        ∧ (box.mbx .inbox).header = ⟨10, 0, 0, 0, mbxcoe, 0⟩
        ∧ (box.mbx .inbox).service = coeSdorequest
        ∧ (box.mbx .inbox).command = coeCommandSdoabort :=
    ⟨_, rfl, rfl, rfl, rfl, rfl, rfl, rfl⟩
  have hunhandled : (box.mbx .inbox).Unhandled box.segmented := by
    refine ⟨hservice, fun h => ?_, fun h => ?_, ?_, ?_⟩
    all_goals rw [hcommand] at *
    · exact absurd h (by decide)
    · exact absurd h (by decide)
    · decide
    · decide
  obtain ⟨s₁, hpoll, hrest⟩ := @unhandled_blocks GalvoVar _ galvoObjects escPreop
    ⟨{ staticMailbox with mbxRun := true }, OdVariables.initial.memory⟩ _ _ hread hrunning hidle
    hclaim (by rw [hheader]) (by rw [hheader]; decide) hunhandled
  exact ⟨s₁, hpoll, fun polls s' hrun => (hrest polls s' hrun).1⟩

end Process

end Server

end GalvoCtrl.Coe
