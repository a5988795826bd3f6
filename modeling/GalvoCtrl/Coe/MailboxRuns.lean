import Mathlib.Data.List.Infix
import GalvoCtrl.Coe.Serving

/-!
# Coe — MailboxRuns

The mailboxes over a whole run. Whatever the master and the ESC do, the buffers are where
the variables say. While no repeat is asked for, what has been written and what waits to be
written is one sequence of responses that only ever grows, so that none is lost or
overtaken; and while nothing comes in it stays as it is, so that none is sent twice.
-/

namespace GalvoCtrl.Coe

open GalvoCtrl.Lib

variable {V : Type}

namespace Mailbox

/-! ## The invariant -/

/-- A buffer counts in `txcue` from its claim until it is posted. -/
def occupied (state : MbxState) : Nat := if state = .outclaim ∨ state = .outreq then 1 else 0

structure Inv (m : Mailbox V) : Prop where
  inbox : m.control .inbox = .idle ∨ m.control .inbox = .inclaim
  backup : m.mbxbackup ≠ .inbox → m.control m.mbxbackup = .backup
  outpost : m.mbxoutpost ≠ .inbox →
    m.control m.mbxoutpost = .outpost ∨ m.control m.mbxoutpost = .again
  order : m.control .out1 = .outreq → m.control .out2 ≠ .idle
  txcue : m.txcue = occupied (m.control .out1) + occupied (m.control .out2)

/-- The message of a buffer that waits to be posted. -/
def waiting (m : Mailbox V) (n : MbxIx) : List MbxMsg :=
  if m.control n = .outreq then [(m.mbx n).msg] else []

/-- What has been posted and what waits for it, in order. -/
def sent (m : Mailbox V) : List MbxMsg := m.posted.reverse ++ (m.waiting .out2 ++ m.waiting .out1)

/-- No repeat is asked for, and none is due. -/
structure Steady (m : Mailbox V) : Prop where
  toggle : m.sm1Rep = m.toggle
  control : ∀ n, m.control n ≠ .again

/-- The invariant is kept, and while no repeat is asked for the sequence grows. -/
structure Grows (m m' : Mailbox V) : Prop where
  inv : m'.Inv
  steady : m.Steady → m'.Steady ∧ m.sent <+: m'.sent

/-- The invariant is kept, and while no repeat is asked for the sequence stays as it is. -/
structure Keeps (m m' : Mailbox V) : Prop where
  inv : m'.Inv
  steady : m.Steady → m'.Steady ∧ m'.sent = m.sent

theorem Keeps.refl {m : Mailbox V} (h : m.Inv) : Keeps m m := ⟨h, fun hs => ⟨hs, rfl⟩⟩

theorem Keeps.trans {m m' m'' : Mailbox V} (h : Keeps m m') (h' : Keeps m' m'') : Keeps m m'' where
  inv := h'.inv
  steady := by
    intro hs
    obtain ⟨hs', hsent⟩ := h.steady hs
    obtain ⟨hs'', hsent'⟩ := h'.steady hs'
    exact ⟨hs'', hsent'.trans hsent⟩

theorem Keeps.grows {m m' : Mailbox V} (h : Keeps m m') : Grows m m' where
  inv := h.inv
  steady := by
    intro hs
    obtain ⟨hs', hsent⟩ := h.steady hs
    exact ⟨hs', hsent ▸ List.prefix_rfl⟩

theorem Grows.refl {m : Mailbox V} (h : m.Inv) : Grows m m := ⟨h, fun hs => ⟨hs, List.prefix_rfl⟩⟩

theorem Grows.trans {m m' m'' : Mailbox V} (h : Grows m m') (h' : Grows m' m'') : Grows m m'' where
  inv := h'.inv
  steady := by
    intro hs
    obtain ⟨hs', hextends⟩ := h.steady hs
    obtain ⟨hs'', hextends'⟩ := h'.steady hs'
    exact ⟨hs'', hextends.trans hextends'⟩

/-- Where neither the outgoing buffers nor what was posted change. -/
theorem Keeps.of_eq {m m' : Mailbox V} (h : m.Inv)
    (hinbox : m'.control .inbox = .idle ∨ m'.control .inbox = .inclaim)
    (hcontrol : ∀ n, n ≠ .inbox → m'.control n = m.control n)
    (hmbx : ∀ n, n ≠ .inbox → m'.mbx n = m.mbx n)
    (hrest : (m'.mbxbackup, m'.mbxoutpost, m'.txcue, m'.posted)
      = (m.mbxbackup, m.mbxoutpost, m.txcue, m.posted))
    (htoggle : m.sm1Rep = m.toggle → m'.sm1Rep = m'.toggle) : Keeps m m' := by
  simp only [Prod.mk.injEq] at hrest
  obtain ⟨hbackup, houtpost, htxcue, hposted⟩ := hrest
  have hwaiting : ∀ n, n ≠ .inbox → m'.waiting n = m.waiting n := by
    intro n hn
    rw [waiting, waiting, hcontrol n hn, hmbx n hn]
  refine ⟨⟨hinbox, ?_, ?_, ?_, ?_⟩, fun hs => ⟨⟨htoggle hs.toggle, ?_⟩, ?_⟩⟩
  · intro hn
    rw [hbackup] at hn ⊢
    rw [hcontrol _ hn]
    exact h.backup hn
  · intro hn
    rw [houtpost] at hn ⊢
    rw [hcontrol _ hn]
    exact h.outpost hn
  · rw [hcontrol .out1 (by decide), hcontrol .out2 (by decide)]
    exact h.order
  · rw [hcontrol .out1 (by decide), hcontrol .out2 (by decide), htxcue]
    exact h.txcue
  · intro n
    by_cases hn : n = .inbox
    · subst hn
      rcases hinbox with h | h <;> rw [h] <;> decide
    · rw [hcontrol n hn]
      exact hs.control n
  · rw [sent, sent, hposted, hwaiting .out1 (by decide), hwaiting .out2 (by decide)]

/-! ## Services -/

theorem Claims.idle {m : Mailbox V} {n : MbxIx} (h : m.Claims n) : m.control n = .idle := by
  obtain ⟨rfl, hidle⟩ | ⟨rfl, hidle, _⟩ := h.cases
  · exact hidle
  · exact hidle

/-- A buffer is claimed, and then sent or not. -/
theorem Claims.inv {m m' : Mailbox V} {n : MbxIx} (hn : m.Claims n) (h : m.Inv)
    (hself : m'.control n = .outclaim ∨ m'.control n = .outreq)
    (hother : ∀ k, k ≠ n → m'.control k = m.control k)
    (hrest : (m'.mbxbackup, m'.mbxoutpost, m'.txcue) = (m.mbxbackup, m.mbxoutpost, m.txcue + 1)) :
    m'.Inv := by
  simp only [Prod.mk.injEq] at hrest
  obtain ⟨hbackup, houtpost, htxcue⟩ := hrest
  have hne : ∀ {k state}, m.control k = state → state ≠ .idle → k ≠ n := by
    rintro k state hk hstate rfl
    exact hstate (hk.symm.trans hn.idle)
  have hoccupied : occupied (m'.control n) = 1 := by
    rcases hself with hself | hself <;> rw [hself] <;> rfl
  constructor
  · rw [hother _ hn.1.symm]
    exact h.inbox
  · intro hk
    rw [hbackup] at hk ⊢
    rw [hother _ (hne (h.backup hk) (by decide))]
    exact h.backup hk
  · intro hk
    rw [houtpost] at hk ⊢
    rcases h.outpost hk with hout | hout
    · rw [hother _ (hne hout (by decide))]
      exact Or.inl hout
    · rw [hother _ (hne hout (by decide))]
      exact Or.inr hout
  · obtain ⟨rfl, _⟩ | ⟨rfl, _, h2⟩ := hn.cases
    · intro _
      rcases hself with hself | hself <;> rw [hself] <;> decide
    · intro _
      rw [hother .out2 (by decide)]
      exact h2
  · rw [htxcue, h.txcue]
    obtain ⟨rfl, hidle⟩ | ⟨rfl, hidle, _⟩ := hn.cases
    · rw [hoccupied, hother .out1 (by decide), hidle]
      rfl
    · rw [hoccupied, hother .out2 (by decide), hidle]
      show 0 + occupied (m.control .out2) + 1 = _
      omega

/-- An answer comes behind all the others. -/
theorem sent_answered {m : Mailbox V} {n : MbxIx} (hn : m.Claims n) (h : m.Inv) (buf : MbxBuf) :
    (m.answered n buf).sent = m.sent ++ [buf.msg] := by
  obtain ⟨rfl, hidle⟩ | ⟨rfl, hidle, _⟩ := hn.cases
  · have h1 : m.control .out1 ≠ .outreq := fun h1 => h.order h1 hidle
    have hw1 : (m.answered .out2 buf).waiting .out1 = [] := if_neg h1
    have hw2 : (m.answered .out2 buf).waiting .out2 = [buf.msg] := rfl
    rw [sent, sent, hw1, hw2, waiting, waiting, hidle, if_neg (by decide), if_neg h1]
    rw [List.append_nil, List.append_nil, List.append_nil]
    rfl
  · have hw1 : (m.answered .out1 buf).waiting .out1 = [buf.msg] := rfl
    have hw2 : (m.answered .out1 buf).waiting .out2 = m.waiting .out2 := rfl
    have hw1' : m.waiting .out1 = [] := by rw [waiting, hidle, if_neg (by decide)]
    rw [sent, sent, hw1, hw2, hw1', List.append_nil, ← List.append_assoc]
    rfl

theorem Act.grows {m m' : Mailbox V} (hact : Act m m') (h : m.Inv) : Grows m m' := by
  cases hact with
  | @answer n buf hn =>
      have hother : ∀ k, k ≠ n → (m.answered n buf).control k = m.control k := fun k hk =>
        (Function.update_of_ne hk ..).trans (Function.update_of_ne hk ..)
      have hself : (m.answered n buf).control n = .outreq := Function.update_self ..
      refine ⟨hn.inv h (Or.inr hself) hother rfl, fun hs => ⟨⟨hs.toggle, ?_⟩, ?_⟩⟩
      · intro k
        by_cases hk : k = n
        · rw [hk, hself]
          decide
        · rw [hother k hk]
          exact hs.control k
      · rw [sent_answered hn h]
        exact List.prefix_append ..
  | @leak n buf hn =>
      have hother : ∀ k, k ≠ n → ((m.claim n).setBuf n buf).control k = m.control k := fun k hk =>
        Function.update_of_ne hk ..
      have hself : ((m.claim n).setBuf n buf).control n = .outclaim := Function.update_self ..
      refine ⟨hn.inv h (Or.inl hself) hother rfl, fun hs => ⟨⟨hs.toggle, ?_⟩, ?_⟩⟩
      · intro k
        by_cases hk : k = n
        · rw [hk, hself]
          decide
        · rw [hother k hk]
          exact hs.control k
      · have hwaiting : ∀ k, k ≠ .inbox → ((m.claim n).setBuf n buf).waiting k = m.waiting k := by
          intro k _
          by_cases hk : k = n
          · rw [hk, waiting, waiting, hself, hn.idle, if_neg (by decide), if_neg (by decide)]
          · have hmbx : ((m.claim n).setBuf n buf).mbx k = m.mbx k :=
              (Function.update_of_ne hk ..).trans (Function.update_of_ne hk ..)
            rw [waiting, waiting, hother k hk, hmbx]
        rw [sent, sent, hwaiting .out1 (by decide), hwaiting .out2 (by decide)]
        exact List.prefix_rfl
  | drop =>
      refine Keeps.grows (Keeps.of_eq h (Or.inl rfl) ?_ (fun _ _ => rfl) rfl id)
      exact fun n hn => Function.update_of_ne hn ..
  | transfer xoe t =>
      exact Keeps.grows (Keeps.of_eq h h.inbox (fun _ _ => rfl) (fun _ _ => rfl) rfl id)

theorem Serves.grows {m m' : Mailbox V} (hserves : Serves m m') (h : m.Inv) : Grows m m' := by
  induction hserves with
  | refl => exact Grows.refl h
  | tail _ hact ih => exact ih.trans (hact.grows ih.inv)

/-! ## `ESC_mbxprocess` -/

theorem refresh_keeps {m : Mailbox V} (h : m.Inv) (i : Input) : Keeps m (m.refresh i) := by
  rw [refresh]
  split_ifs
  · exact Keeps.of_eq h h.inbox (fun _ _ => rfl) (fun _ _ => rfl) rfl id
  · exact Keeps.refl h

theorem resend_eq (m : Mailbox V) :
    m.resend = { m with posted := m.resend.posted, mbxfree := m.resend.mbxfree } := by
  rw [resend]
  split_ifs <;> rfl

theorem disposeBackup_eq (m : Mailbox V) :
    m.disposeBackup = { m with control := fun n =>
      if n = m.mbxbackup ∧ n ≠ .inbox then .idle else m.control n } := by
  rw [disposeBackup]
  by_cases hb : m.mbxbackup ≠ .inbox
  · rw [if_pos hb, setState]
    congr
    funext n
    by_cases hn : n = m.mbxbackup
    · subst hn
      rw [if_pos ⟨rfl, hb⟩, Function.update_self]
    · rw [if_neg (fun h => hn h.1), Function.update_of_ne hn]
  · rw [if_neg hb]
    rw [ne_eq, not_not] at hb
    have hcontrol : (fun n => if n = m.mbxbackup ∧ n ≠ .inbox then .idle else m.control n)
        = m.control := by
      funext n
      rw [hb, if_neg (fun h => h.2 h.1)]
    rw [hcontrol]

/-- The buffer that was read by the master is kept, and the one kept before is free. -/
theorem outmbxRead_eq (m : Mailbox V) :
    m.outmbxRead = { m with
      control := fun n =>
        if n = m.mbxoutpost then .backup
        else if n = m.mbxbackup ∧ n ≠ .inbox then .idle else m.control n,
      mbxbackup := m.mbxoutpost, mbxoutpost := .inbox, mbxfree := m.outmbxRead.mbxfree,
      posted := m.outmbxRead.posted } := by
  rw [outmbxRead, resend_eq, disposeBackup_eq]
  dsimp only [ackmbxread, setState]
  congr
  funext n
  by_cases hn : n = m.mbxoutpost
  · subst hn
    rw [if_pos rfl, Function.update_self]
  · rw [if_neg hn, Function.update_of_ne hn]
    rfl

theorem outmbxRead_posted {m : Mailbox V} (h : ∀ n, m.control n ≠ .again) :
    m.outmbxRead.posted = m.posted := by
  rw [outmbxRead, disposeBackup_eq, resend, if_neg]
  · rfl
  · show ¬(if _ then MbxState.idle else m.control m.mbxoutpost) = .again
    split_ifs
    · exact nofun
    · exact h _

theorem outmbxRead_keeps {m : Mailbox V} (h : m.Inv) (hout : m.mbxoutpost ≠ .inbox) :
    Keeps m m.outmbxRead := by
  have hread := outmbxRead_eq m
  have hposted := outmbxRead_posted (m := m)
  generalize m.outmbxRead = m' at hread hposted ⊢
  have hcontrol : ∀ n, m'.control n = if n = m.mbxoutpost then .backup
      else if n = m.mbxbackup ∧ n ≠ .inbox then .idle else m.control n :=
    congrFun (congrArg Mailbox.control hread)
  -- the buffers that change neither waited nor were counted
  have hstate : ∀ n, m'.control n = m.control n
      ∨ (occupied (m'.control n) = 0 ∧ occupied (m.control n) = 0 ∧ m'.control n ≠ .outreq
        ∧ m'.control n ≠ .again ∧ m.control n ≠ .outreq) := by
    intro n
    rw [hcontrol n]
    split_ifs with hn hb
    · right
      subst hn
      rcases h.outpost hout with hs | hs <;> rw [hs] <;> decide
    · right
      have hs := h.backup (hb.1 ▸ hb.2)
      rw [← hb.1] at hs
      rw [hs]
      decide
    · exact Or.inl rfl
  have hoccupied : ∀ n, occupied (m'.control n) = occupied (m.control n) := by
    intro n
    rcases hstate n with hs | ⟨hs', hs, _⟩
    · rw [hs]
    · rw [hs', hs]
  have hwaiting : ∀ n, m'.waiting n = m.waiting n := by
    intro n
    have hmbx : m'.mbx n = m.mbx n := congrFun (congrArg Mailbox.mbx hread) n
    rcases hstate n with hs | ⟨_, _, hs', _, hs⟩
    · rw [waiting, waiting, hs, hmbx]
    · rw [waiting, waiting, if_neg hs', if_neg hs]
  refine ⟨⟨?_, ?_, ?_, ?_, ?_⟩, fun hs => ⟨⟨?_, ?_⟩, ?_⟩⟩
  · rw [hcontrol, if_neg hout.symm, if_neg (fun h => h.2 rfl)]
    exact h.inbox
  · intro _
    have hbackup : m'.mbxbackup = m.mbxoutpost := congrArg Mailbox.mbxbackup hread
    rw [hbackup, hcontrol, if_pos rfl]
  · intro hne
    exact absurd (congrArg Mailbox.mbxoutpost hread) hne
  · intro h1
    rw [hcontrol] at h1
    -- the first buffer waits, so it was the second one that was read
    have hsecond : m.mbxoutpost = .out2 := by
      cases hn : m.mbxoutpost with
      | inbox => exact absurd hn hout
      | out1 =>
          rw [if_pos hn.symm] at h1
          cases h1
      | out2 => rfl
    rw [hcontrol, if_pos hsecond.symm]
    decide
  · rw [hoccupied, hoccupied]
    exact (congrArg Mailbox.txcue hread :).trans h.txcue
  · exact (congrArg Mailbox.sm1Rep hread :).trans
      (hs.toggle.trans (congrArg Mailbox.toggle hread :).symm)
  · intro n
    rcases hstate n with h | ⟨_, _, _, h, _⟩
    · rw [h]
      exact hs.control n
    · exact h
  · rw [sent, sent, hwaiting, hwaiting, hposted hs.control]

/-- The last message is written again. -/
theorem repeatRequest_inv {m : Mailbox V} (h : m.Inv) : m.repeatRequest.Inv := by
  rw [repeatRequest]
  by_cases hany : m.mbxoutpost ≠ .inbox ∨ m.mbxbackup ≠ .inbox
  · rw [if_pos hany]
    by_cases hout : m.mbxoutpost = .inbox
    · rw [if_pos hout]
      exact ⟨h.inbox, h.backup, h.outpost, h.order, h.txcue⟩
    · rw [if_neg hout]
      have hself : (m.setState m.mbxoutpost .again).control m.mbxoutpost = .again :=
        Function.update_self ..
      have hother : ∀ k, k ≠ m.mbxoutpost →
          (m.setState m.mbxoutpost .again).control k = m.control k := fun k hk =>
        Function.update_of_ne hk ..
      have hoccupied : ∀ k, occupied ((m.setState m.mbxoutpost .again).control k)
          = occupied (m.control k) := by
        intro k
        by_cases hk : k = m.mbxoutpost
        · rw [hk, hself]
          rcases h.outpost hout with hs | hs
          · rw [hs]
            rfl
          · rw [hs]
        · rw [hother k hk]
      refine ⟨?_, ?_, fun _ => Or.inr hself, ?_, ?_⟩
      · exact (hother _ (Ne.symm hout)).symm ▸ h.inbox
      · intro hb
        have hne : m.mbxbackup ≠ m.mbxoutpost := by
          intro heq
          have hs := h.backup hb
          rw [heq] at hs
          rcases h.outpost hout with hs' | hs' <;> rw [hs] at hs' <;> cases hs'
        exact (hother _ hne).trans (h.backup hb)
      · intro h1
        have hsecond : m.mbxoutpost = .out2 := by
          cases hn : m.mbxoutpost with
          | inbox => exact absurd hn hout
          | out1 =>
              rw [← hn] at h1
              exact absurd (hself.symm.trans h1 : MbxState.again = .outreq) nofun
          | out2 => rfl
        rw [← hsecond]
        exact fun hidle => absurd (hself.symm.trans hidle : MbxState.again = .idle) nofun
      · refine h.txcue.trans ?_
        rw [← hoccupied, ← hoccupied]
        rfl
  · rw [if_neg hany]
    exact h

theorem outreqbuffer_cases (m : Mailbox V) :
    m.outreqbuffer = .inbox ∨ (m.outreqbuffer = .out2 ∧ m.control .out2 = .outreq)
      ∨ (m.outreqbuffer = .out1 ∧ m.control .out1 = .outreq ∧ m.control .out2 ≠ .outreq) := by
  by_cases h2 : m.control .out2 = .outreq
  · right; left
    simp [outreqbuffer, outBuffers, h2]
  · by_cases h1 : m.control .out1 = .outreq
    · right; right
      simp [outreqbuffer, outBuffers, h1, h2]
    · left
      simp [outreqbuffer, outBuffers, h1, h2]

/-- Posting a response moves it from the front of the queue. -/
theorem sent_post {m : Mailbox V} {n : MbxIx}
    (h : n = .inbox ∨ (n = .out2 ∧ m.control .out2 = .outreq)
      ∨ (n = .out1 ∧ m.control .out1 = .outreq ∧ m.control .out2 ≠ .outreq)) (hn : n ≠ .inbox) :
    ((m.writembx n).setState n .outpost).sent = m.sent := by
  obtain rfl | ⟨rfl, h2⟩ | ⟨rfl, h1, h2⟩ := h
  · exact absurd rfl hn
  · have hw1 : ((m.writembx .out2).setState .out2 .outpost).waiting .out1 = m.waiting .out1 := rfl
    have hw2 : ((m.writembx .out2).setState .out2 .outpost).waiting .out2 = [] := rfl
    have hw2' : m.waiting .out2 = [(m.mbx .out2).msg] := by rw [waiting, if_pos h2]
    rw [sent, sent, hw1, hw2, hw2', List.nil_append, ← List.append_assoc]
    exact congrArg (· ++ m.waiting .out1) List.reverse_cons
  · have hw1 : ((m.writembx .out1).setState .out1 .outpost).waiting .out1 = [] := rfl
    have hw2 : ((m.writembx .out1).setState .out1 .outpost).waiting .out2 = m.waiting .out2 := rfl
    have hw1' : m.waiting .out1 = [(m.mbx .out1).msg] := by rw [waiting, if_pos h1]
    have hw2' : m.waiting .out2 = [] := by rw [waiting, if_neg h2]
    rw [sent, sent, hw1, hw2, hw1', hw2', List.append_nil, List.append_nil, List.nil_append]
    exact List.reverse_cons

/-- The oldest response that waits is posted. -/
theorem post_keeps {m : Mailbox V} (h : m.Inv) (i : Input) : Keeps m (m.post i) := by
  rw [post]
  by_cases hfree : 0 < m.txcue ∧ (m.mbxfree = true ∨ m.sm1Full = false)
  · rw [if_pos hfree]
    have hcases := m.outreqbuffer_cases
    generalize m.outreqbuffer = n at hcases
    dsimp only
    by_cases hnone : n = .inbox
    · rw [if_pos hnone]
      exact Keeps.refl h
    rw [if_neg hnone]
    have hreq : m.control n = .outreq := by
      obtain rfl | ⟨rfl, hreq⟩ | ⟨rfl, hreq, _⟩ := hcases
      · exact absurd rfl hnone
      · exact hreq
      · exact hreq
    have hother : ∀ k, k ≠ n →
        ((m.writembx n).setState n .outpost).control k = m.control k := fun k hk =>
      Function.update_of_ne hk ..
    have hself : ((m.writembx n).setState n .outpost).control n = .outpost :=
      Function.update_self ..
    have hsent := sent_post hcases hnone
    refine ⟨⟨?_, ?_, fun _ => Or.inl hself, ?_, ?_⟩, fun hs => ⟨⟨hs.toggle, ?_⟩, ?_⟩⟩
    · exact (hother _ (Ne.symm hnone)).symm ▸ h.inbox
    · intro hb
      have hne : m.mbxbackup ≠ n := by
        intro heq
        have hs := h.backup hb
        rw [heq, hreq] at hs
        cases hs
      exact (hother _ hne).trans (h.backup hb)
    · intro h1
      cases n with
      | inbox => exact absurd rfl hnone
      | out1 => exact absurd (hself.symm.trans h1 : MbxState.outpost = .outreq) nofun
      | out2 => exact fun hidle => absurd (hself.symm.trans hidle : MbxState.outpost = .idle) nofun
    · show m.txcue - 1 = occupied (((m.writembx n).setState n .outpost).control .out1)
        + occupied (((m.writembx n).setState n .outpost).control .out2)
      rw [h.txcue]
      cases n with
      | inbox => exact absurd rfl hnone
      | out1 =>
          rw [hself, hother .out2 (by decide), hreq]
          exact (Nat.add_sub_cancel_left ..).trans (Nat.zero_add _).symm
      | out2 =>
          rw [hself, hother .out1 (by decide), hreq]
          exact Nat.add_sub_cancel ..
    · intro k
      by_cases hk : k = n
      · rw [hk]
        exact fun hagain => absurd (hself.symm.trans hagain : MbxState.outpost = .again) nofun
      · exact fun hagain => hs.control k ((hother k hk).symm.trans hagain)
    · exact hsent
  · rw [if_neg hfree]
    exact Keeps.refl h

theorem serves_checked (m : Mailbox V) : Serves m m.checkHeader.dropRepeated :=
  (serves_ite ((serves_respond _ _).tail .drop) .refl).trans
    (serves_ite (Relation.ReflTransGen.single .drop) .refl)

/-- A request is taken in, or dropped. -/
theorem receive_grows {m : Mailbox V} (h : m.Inv) (i : Input) : Grows m (m.receive i).2 := by
  rw [receive]
  by_cases hfull : m.sm0Full = true ∧ m.control .inbox = .idle ∧ m.mbxoutpost = .inbox
      ∧ m.xoe = .idle
  · rw [if_pos hfull]
    have hread : Grows m { m.readmbx i.sm0 with sm0Full := false } :=
      Keeps.grows (Keeps.of_eq h (Or.inr rfl) (fun _ hn => Function.update_of_ne hn ..)
        (fun _ hn => Function.update_of_ne hn ..) rfl id)
    generalize ({ m.readmbx i.sm0 with sm0Full := false } : Mailbox V) = m₁ at hread
    have hchecked := (serves_checked m₁).grows hread.inv
    refine hread.trans (hchecked.trans (Keeps.grows ?_))
    exact Keeps.of_eq hchecked.inv hchecked.inv.inbox (fun _ _ => rfl) (fun _ _ => rfl) rfl id
  · rw [if_neg hfull]
    exact Grows.refl h

theorem mbxprocess_grows {m : Mailbox V} (h : m.Inv) (i : Input) : Grows m (m.mbxprocess i).2 := by
  rw [mbxprocess]
  by_cases hrun : m.mbxRun = false
  · rw [if_pos hrun]
    exact Grows.refl h
  rw [if_neg hrun]
  have hrefresh := refresh_keeps h i
  generalize m.refresh i = m₁ at hrefresh
  dsimp only
  by_cases hread : m₁.mbxoutpost ≠ .inbox ∧ i.alevent' &&& escregAleventSm1 ≠ 0
  · rw [if_pos hread]
    exact Keeps.grows (hrefresh.trans (outmbxRead_keeps hrefresh.inv hread.1))
  rw [if_neg hread]
  by_cases hrepeat : m₁.sm1Rep ≠ m₁.toggle
  · rw [if_pos hrepeat]
    refine ⟨repeatRequest_inv hrefresh.inv, fun hs => ?_⟩
    exact absurd (hrefresh.steady hs).1.toggle hrepeat
  · rw [if_neg hrepeat]
    have hpost := hrefresh.trans (post_keeps hrefresh.inv i)
    exact hpost.grows.trans (receive_grows hpost.inv i)

/-- No message has come in, and no service is in progress. -/
structure Resting (m : Mailbox V) : Prop where
  xoe : m.xoe = .idle
  sm0Full : m.sm0Full = false

/-- The ESC does not show a message in the incoming mailbox. -/
def Input.Silent (i : Input) : Prop :=
  i.alevent &&& (escregAleventSm0 ||| escregAleventSm1) ≠ 0 → i.sm0Stat = false

theorem refresh_resting {m : Mailbox V} {i : Input} (hrest : m.Resting) (hi : i.Silent) :
    (m.refresh i).Resting := by
  rw [refresh]
  split_ifs with hevent
  · exact ⟨hrest.xoe, hi hevent⟩
  · exact hrest

/-- What is posted is what waited, and nothing else is done. -/
theorem mbxprocess_resting {m : Mailbox V} {i : Input} (h : m.Inv) (hs : m.Steady)
    (hrest : m.Resting) (hi : i.Silent) :
    (m.mbxprocess i).1 = false ∧ (m.mbxprocess i).2.Resting
      ∧ (m.mbxprocess i).2.sent = m.sent := by
  rw [mbxprocess]
  by_cases hrun : m.mbxRun = false
  · rw [if_pos hrun]
    exact ⟨rfl, hrest, rfl⟩
  rw [if_neg hrun]
  have hrest₁ := refresh_resting hrest hi
  have hrefresh := refresh_keeps h i
  generalize m.refresh i = m₁ at hrefresh hrest₁
  dsimp only
  by_cases hread : m₁.mbxoutpost ≠ .inbox ∧ i.alevent' &&& escregAleventSm1 ≠ 0
  · rw [if_pos hread]
    have hxoe : m₁.outmbxRead.xoe = .idle :=
      (congrArg Mailbox.xoe m₁.outmbxRead_eq :).trans hrest₁.xoe
    have hfull : m₁.outmbxRead.sm0Full = false :=
      (congrArg Mailbox.sm0Full m₁.outmbxRead_eq :).trans hrest₁.sm0Full
    have hsent := (hrefresh.trans (outmbxRead_keeps hrefresh.inv hread.1)).steady hs
    exact ⟨decide_eq_false (not_not_intro hxoe), ⟨hxoe, hfull⟩, hsent.2⟩
  rw [if_neg hread, if_neg (not_not_intro (hrefresh.steady hs).1.toggle)]
  have hpost : (m₁.post i).Resting := by
    rw [post]
    dsimp only
    split_ifs <;> exact ⟨hrest₁.xoe, hrest₁.sm0Full⟩
  have hsent := (hrefresh.trans (post_keeps hrefresh.inv i)).steady hs
  rw [receive, if_neg (fun hfull => absurd (hpost.sm0Full.symm.trans hfull.1) (by decide))]
  exact ⟨rfl, hpost, hsent.2⟩

/-- Only the state machine starts and stops the mailboxes, and the toggle only follows a
repeat. -/
theorem mbxprocess_mbxRun (m : Mailbox V) (i : Input) :
    (m.mbxprocess i).2.mbxRun = m.mbxRun
      ∧ (m.sm1Rep = m.toggle → (m.mbxprocess i).2.toggle = m.toggle) := by
  have hrefresh : (m.refresh i).mbxRun = m.mbxRun ∧ (m.refresh i).toggle = m.toggle
      ∧ (m.refresh i).sm1Rep = m.sm1Rep := by
    rw [refresh]
    split_ifs <;> exact ⟨rfl, rfl, rfl⟩
  rw [mbxprocess]
  by_cases hrun : m.mbxRun = false
  · rw [if_pos hrun]
    exact ⟨rfl, fun _ => rfl⟩
  rw [if_neg hrun, ← hrefresh.1, ← hrefresh.2.1, ← hrefresh.2.2]
  generalize m.refresh i = m
  dsimp only
  by_cases hread : m.mbxoutpost ≠ .inbox ∧ i.alevent' &&& escregAleventSm1 ≠ 0
  · rw [if_pos hread]
    exact ⟨(congrArg Mailbox.mbxRun m.outmbxRead_eq :),
      fun _ => (congrArg Mailbox.toggle m.outmbxRead_eq :)⟩
  rw [if_neg hread]
  by_cases hrepeat : m.sm1Rep ≠ m.toggle
  · rw [if_pos hrepeat]
    refine ⟨?_, fun hsame => absurd hsame hrepeat⟩
    rw [repeatRequest]
    split_ifs <;> rfl
  · rw [if_neg hrepeat]
    have hpost : (m.post i).mbxRun = m.mbxRun ∧ (m.post i).toggle = m.toggle := by
      rw [post]
      dsimp only
      split_ifs <;> exact ⟨rfl, rfl⟩
    rw [← hpost.1, ← hpost.2, receive]
    split_ifs
    · have hkept := (serves_checked { (m.post i).readmbx i.sm0 with sm0Full := false }).kept
      exact ⟨hkept.mbxRun, fun _ => hkept.toggle⟩
    · exact ⟨rfl, fun _ => rfl⟩

end Mailbox

namespace Server

section Runs

variable [DecidableEq V] (table : List (ObjectItem V))

/-- The mailboxes polled once for each input, in the states of the slave that come with it. -/
def pollsFrom (s : Server V) (polls : List (BitVec 8 × Mailbox.Input)) :
    Except AccessFault (Server V) :=
  polls.foldlM (fun s poll => s.pollMailbox table poll.1 poll.2) s

variable {table} {alstatus : BitVec 8} {s s' : Server V}

theorem pollMailbox_grows {i : Mailbox.Input} (h : s.pollMailbox table alstatus i = .ok s')
    (hinv : s.box.Inv) : s.box.Grows s'.box := by
  rw [pollMailbox] at h
  have hgrows := Mailbox.mbxprocess_grows hinv i
  generalize s.box.mbxprocess i = p at h hgrows
  obtain ⟨b, box⟩ := p
  cases b with
  | false =>
      cases h
      exact hgrows
  | true =>
      obtain ⟨s₁, hcoe, hs'⟩ := bind_eq_ok h
      cases hs'
      have hserves := (coeprocess_serves hcoe).trans (Mailbox.xoeprocess_serves s₁.box)
      exact hgrows.trans (Mailbox.Serves.grows hserves hgrows.inv)

theorem pollMailbox_mbxRun {i : Mailbox.Input} (h : s.pollMailbox table alstatus i = .ok s') :
    s'.box.mbxRun = s.box.mbxRun
      ∧ (s.box.sm1Rep = s.box.toggle → s'.box.toggle = s.box.toggle) := by
  rw [pollMailbox] at h
  have hrun := s.box.mbxprocess_mbxRun i
  generalize s.box.mbxprocess i = p at h hrun
  obtain ⟨b, box⟩ := p
  cases b with
  | false =>
      cases h
      exact hrun
  | true =>
      obtain ⟨s₁, hcoe, hs'⟩ := bind_eq_ok h
      cases hs'
      have hkept :=
        Mailbox.Serves.kept ((coeprocess_serves hcoe).trans (Mailbox.xoeprocess_serves s₁.box))
      exact ⟨hkept.mbxRun.trans hrun.1, fun hsame => hkept.toggle.trans (hrun.2 hsame)⟩

theorem pollMailbox_resting {i : Mailbox.Input} (h : s.pollMailbox table alstatus i = .ok s')
    (hinv : s.box.Inv) (hs : s.box.Steady) (hrest : s.box.Resting) (hi : i.Silent) :
    s'.box.Resting ∧ s'.box.sent = s.box.sent := by
  rw [pollMailbox] at h
  have hresting := Mailbox.mbxprocess_resting hinv hs hrest hi
  generalize s.box.mbxprocess i = p at h hresting
  obtain ⟨b, box⟩ := p
  obtain ⟨rfl, hbox⟩ := hresting
  cases h
  exact hbox

/-- **Responses are never lost or overtaken.** -/
theorem pollsFrom_grows {polls : List (BitVec 8 × Mailbox.Input)}
    (h : s.pollsFrom table polls = .ok s') (hinv : s.box.Inv) : s.box.Grows s'.box := by
  induction polls generalizing s with
  | nil =>
      cases h
      exact Mailbox.Grows.refl hinv
  | cons poll polls ih =>
      obtain ⟨s₁, hpoll, hrest⟩ := bind_eq_ok h
      have hgrows := pollMailbox_grows hpoll hinv
      exact hgrows.trans (ih hrest hgrows.inv)

end Runs

end Server

end GalvoCtrl.Coe
