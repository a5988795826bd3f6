import GalvoCtrl.Coe.Defaults
import GalvoCtrl.Coe.MailboxRuns

/-!
# Coe — Access

What the master can write through the mailboxes. As long as nothing is transferred in
segments, these are the variables that the access rights of the state leave to it, whatever
it requests. In the dictionary of the controller nothing is large enough to be.
-/

namespace GalvoCtrl.Coe

open GalvoCtrl.Lib

variable {V : Type}

/-! ## Polls -/

namespace Mailbox

theorem transfer_receive (m : Mailbox V) (i : Input) : (m.receive i).2.transfer = m.transfer := by
  rw [receive]
  split_ifs
  · show Mailbox.transfer (dropRepeated _) = _
    have hdrop : ∀ k : Mailbox V, k.dropRepeated.transfer = k.transfer := by
      intro k
      rw [dropRepeated]
      split_ifs <;> rfl
    rw [hdrop, checkHeader]
    split_ifs
    · exact transfer_respond ..
    · rfl
  · rfl

/-- The transfer is left to the services. -/
theorem transfer_mbxprocess (m : Mailbox V) (i : Input) :
    (m.mbxprocess i).2.transfer = m.transfer := by
  have hrefresh : (m.refresh i).transfer = m.transfer := by
    rw [refresh]
    split_ifs <;> rfl
  rw [mbxprocess]
  by_cases hrun : m.mbxRun = false
  · rw [if_pos hrun]
  rw [if_neg hrun, ← hrefresh]
  generalize m.refresh i = m
  dsimp only
  by_cases hread : m.mbxoutpost ≠ .inbox ∧ i.alevent' &&& escregAleventSm1 ≠ 0
  · rw [if_pos hread]
    exact (congrArg transfer m.outmbxRead_eq :)
  rw [if_neg hread]
  by_cases hrepeat : m.sm1Rep ≠ m.toggle
  · rw [if_pos hrepeat, repeatRequest]
    split_ifs <;> rfl
  · rw [if_neg hrepeat, transfer_receive, post]
    dsimp only
    split_ifs <;> rfl

theorem setState_self (m : Mailbox V) (n : MbxIx) (st : MbxState) :
    (m.setState n st).control n = st := Function.update_self ..

/-- A message that is kept has a header that can be. -/
theorem kept_length {m : Mailbox V}
    (h : m.checkHeader.dropRepeated.control .inbox = .inclaim) :
    (m.checkHeader.dropRepeated.mbx .inbox).header.length.toNat ≤ escMbxdsize := by
  have hkept : m.checkHeader.dropRepeated = m.checkHeader := by
    rw [dropRepeated] at h ⊢
    split_ifs at h with hrepeated
    · rw [setState_self] at h
      cases h
    · exact if_neg hrepeated
  rw [hkept] at h ⊢
  rw [checkHeader] at h ⊢
  by_cases hbad : (m.mbx .inbox).header.length = 0
      ∨ escMbxdsize < (m.mbx .inbox).header.length.toNat
  · rw [if_pos hbad, setState_self] at h
    cases h
  · rw [if_neg hbad]
    exact not_lt.mp fun hlong => hbad (Or.inr hlong)

theorem mbxprocess_length {m box : Mailbox V} {i : Input} (h : m.mbxprocess i = (true, box))
    (hidle : box.xoe = .idle) (hclaim : box.control .inbox = .inclaim) :
    (box.mbx .inbox).header.length.toNat ≤ escMbxdsize := by
  rw [mbxprocess] at h
  dsimp only at h
  split_ifs at h with hrun hread hrepeat
  · cases h
  · obtain ⟨hbusy, rfl⟩ := Prod.mk.inj h
    exact absurd hidle (of_decide_eq_true hbusy)
  · cases h
  · rw [receive] at h
    split_ifs at h with hfull
    · cases h
      exact kept_length hclaim
    · cases h

end Mailbox

namespace Server

section Polls

variable [DecidableEq V] {table : List (ObjectItem V)} {alstatus : BitVec 8} {s s' : Server V}

/-- What the services do between two polls, they do to the mailbox as it was processed. -/
theorem pollMailbox_served {i : Mailbox.Input} (h : s.pollMailbox table alstatus i = .ok s') :
    Writes (fun v => Writable table alstatus v ∨ ∃ o, s.box.data = .var v o) s.mem s'.mem
      ∧ (s.box.Unsegmented → s'.box.Unsegmented ∨ Segmentable table alstatus) := by
  rw [pollMailbox] at h
  have htransfer := s.box.transfer_mbxprocess i
  generalize s.box.mbxprocess i = p at h htransfer
  obtain ⟨b, box⟩ := p
  cases b with
  | false =>
      cases h
      exact ⟨.refl _ _, fun hu => Or.inl (hu.of_transfer htransfer)⟩
  | true =>
      obtain ⟨s₁, hcoe, hs'⟩ := bind_eq_ok h
      cases hs'
      have hserved := coeprocess_served hcoe
      have hdata : box.data = s.box.data := congrArg Mailbox.Transfer.data htransfer
      refine ⟨hdata ▸ hserved.writes, fun hu => ?_⟩
      refine (hserved.segments (hu.of_transfer htransfer)).imp_left fun hu₁ => ?_
      exact hu₁.of_transfer s₁.box.transfer_xoeprocess

/-- Without segments, only what may be written is written. -/
theorem pollMailbox_access (hlarge : ¬Segmentable table alstatus) {i : Mailbox.Input}
    (h : s.pollMailbox table alstatus i = .ok s') (hu : s.box.Unsegmented) :
    Writes (Writable table alstatus) s.mem s'.mem ∧ s'.box.Unsegmented := by
  obtain ⟨hwrites, hsegments⟩ := pollMailbox_served h
  refine ⟨hwrites.mono fun v hv => hv.resolve_right ?_, (hsegments hu).resolve_right hlarge⟩
  rintro ⟨o, ho⟩
  rw [hu.data] at ho
  cases ho

omit [DecidableEq V] in
/-- A segment is only empty if it is a short one that uses none of its bytes. -/
theorem downloadSegmentSize_ne_zero {coesdo : MbxBuf}
    (hlength : coeMinimumLength ≤ coesdo.header.length.toNat)
    (hbytes : ¬(coesdo.header.length = 10 ∧ coesdo.command &&& 0x0E = 0x0E)) :
    downloadSegmentSize coesdo ≠ 0 := by
  have hshort : ∀ command : BitVec 8, command &&& 0x0E ≠ 0x0E →
      (7 : BitVec 32) - ((command >>> 1) &&& 7).setWidth 32 ≠ 0 := by decide +kernel
  rw [coeMinimumLength] at hlength
  rw [downloadSegmentSize]
  split_ifs with hseven
  · refine hshort _ fun hcommand => hbytes ⟨?_, hcommand⟩
    bv_omega
  · bv_omega

omit [DecidableEq V] in
/-- What a segment carries lies in the buffer. -/
theorem downloadSegmentSize_le {coesdo : MbxBuf}
    (hlength : coeMinimumLength ≤ coesdo.header.length.toNat)
    (hroom : coesdo.header.length.toNat ≤ escMbxdsize) :
    3 + (downloadSegmentSize coesdo).toNat ≤ escMbxdsize := by
  have hshort : ∀ command : BitVec 8,
      ((7 : BitVec 32) - ((command >>> 1) &&& 7).setWidth 32).toNat ≤ 7 := by decide +kernel
  rw [coeMinimumLength] at hlength
  rw [escMbxdsize, mbxsize, escMbxhsize] at *
  rw [downloadSegmentSize]
  split_ifs with hseven
  · exact (Nat.add_le_add_left (hshort coesdo.command) 3).trans (by decide)
  · bv_omega

/-- A segment of a download needs somewhere to go. -/
theorem sdoDownloadsegment_fault (hu : s.box.Unsegmented) {n : MbxIx} (hn : s.box.Claims n)
    (hlength : coeMinimumLength ≤ (s.box.mbx .inbox).header.length.toNat)
    (hroom : (s.box.mbx .inbox).header.length.toNat ≤ escMbxdsize)
    (hbytes : ¬((s.box.mbx .inbox).header.length = 10
      ∧ (s.box.mbx .inbox).command &&& 0x0E = 0x0E)) :
    s.sdoDownloadsegment table alstatus = .error .nullPointer := by
  have hfits := downloadSegmentSize_le hlength hroom
  rw [← (s.box.mbx .inbox).size] at hfits
  obtain ⟨bytes, hcopy⟩ : ∃ bytes, copyFrom (s.box.mbx .inbox).b 3
      (downloadSegmentSize (s.box.mbx .inbox)).toNat = .ok bytes := ⟨_, if_pos hfits⟩
  have hne : bytes ≠ [] := by
    rintro rfl
    have hsize := copyFrom_length hcopy
    exact downloadSegmentSize_ne_zero hlength hbytes (BitVec.eq_of_toNat_eq hsize.symm)
  rw [sdoDownloadsegment, hn.2]
  cases n with
  | inbox => exact absurd rfl hn.1
  | _ =>
      dsimp only
      rw [hcopy, ok_bind', writeData, if_neg hne]
      dsimp only [withBox, Mailbox.setBuf, Mailbox.claim, Mailbox.setState]
      rw [hu.data]
      rfl

end Polls

end Server

/-! ## Whole objects -/

section Whole

variable [DecidableEq V] {alstatus : BitVec 8} {item : ObjectItem V}

/-- The bits that entries take at most, when a whole object is transferred. -/
def wholeBits (ds : List (ObjDesc V)) : Nat := (ds.map fun d => max 16 d.bitlength.toNat + 7).sum

omit [DecidableEq V] in
/-- The entry that is read is one of those that are left. -/
theorem wholeBits_drop {ds : List (ObjDesc V)} {n : Nat} {d : ObjDesc V}
    (h : descAt (some ds) n = .ok d) :
    wholeBits (ds.drop n) = max 16 d.bitlength.toNat + 7 + wholeBits (ds.drop (n + 1)) := by
  rw [descAt] at h
  cases hd : ds[n]? with
  | none =>
      rw [hd] at h
      cases h
  | some d' =>
      rw [hd] at h
      cases h
      obtain ⟨hn, hget⟩ := List.getElem?_eq_some_iff.mp hd
      rw [List.drop_eq_getElem_cons hn, hget]
      rfl

theorem caLoop_size {ds : List (ObjDesc V)} (hds : item.objdesc = some ds) {maxBytes : Nat}
    {left nsub : Nat} {st st' : CaScan V}
    (h : caLoop .size alstatus item maxBytes left nsub st = .ok st') :
    st'.size ≤ st.size + wholeBits (ds.drop nsub) := by
  induction left generalizing nsub st with
  | zero =>
      cases h
      exact Nat.le_add_right ..
  | succ left ih =>
      obtain ⟨d, hd, hentry⟩ := bind_eq_ok h
      obtain ⟨st₁, hst₁, hmore⟩ := bind_eq_ok hentry
      rw [hds] at hd
      rw [wholeBits_drop hd]
      have haligned : st₁.size ≤ st.size + 7 := by
        split_ifs at hst₁
        · rw [caBytes] at hst₁
          cases hst₁
          dsimp only
          split_ifs <;> omega
        · rw [caBits, if_pos (by decide)] at hst₁
          cases hst₁
          omega
      dsimp only at hmore
      have hbits : (if nsub = 0 ∧ item.objtype ≠ otypeVar then 16 else d.bitlength.toNat)
          ≤ max 16 d.bitlength.toNat := by
        split_ifs <;> omega
      generalize (if nsub = 0 ∧ item.objtype ≠ otypeVar then 16 else d.bitlength.toNat) = bits
        at hmore hbits
      by_cases hstop : 0 < maxBytes ∧ maxBytes ≤ bits2bytes (st₁.size + bits)
      · rw [if_pos hstop] at hmore
        cases hmore
        show st₁.size + bits ≤ _
        omega
      · rw [if_neg hstop] at hmore
        have hrest := ih hmore
        have hsize : ({ st₁ with size := st₁.size + bits } : CaScan V).size = st₁.size + bits := rfl
        omega

/-- The size of a whole object, unless it is an abort code. -/
theorem completeAccess_size {ds : List (ObjDesc V)} (hds : item.objdesc = some ds) {nsub : Nat}
    {mem : Memory V} {total : CaScan V}
    (h : completeAccessSubindexLoop .size alstatus item 0 nsub [] mem = .ok total)
    (hcode : bits2bytes total.size ≤ 0xFFFF) : total.size ≤ wholeBits (ds.drop nsub) := by
  obtain ⟨d, _, hload⟩ := bind_eq_ok h
  by_cases hstring : IsString d.datatype
  · rw [if_pos hstring] at hload
    cases hload
    exact absurd hcode (show ¬bits2bytes abortCaNotSupported.toNat ≤ 0xFFFF by decide)
  · rw [if_neg hstring] at hload
    have hloop := caLoop_size hds hload
    exact (Nat.zero_add (wholeBits (ds.drop nsub))) ▸ hloop

omit [DecidableEq V] in
theorem wholeBits_drop_le (ds : List (ObjDesc V)) (n : Nat) :
    wholeBits (ds.drop n) ≤ wholeBits ds := by
  have hsplit : wholeBits ds = wholeBits (ds.take n) + wholeBits (ds.drop n) := by
    rw [wholeBits, wholeBits, wholeBits, ← List.sum_append, ← List.map_append,
      List.take_append_drop]
  omega

end Whole

/-! ## The controller -/

/-- An entry of the controller fits in one message, and one that may be written is at most
four bytes. -/
def SmallEntry (d : ObjDesc GalvoVar) : Prop :=
  d.size + coeHeadersize ≤ escMbxdsize
    ∧ (d.access &&& atypeWo = 0
      ∨ d.size ≤ 4 ∧ d.datatype ≠ dtypeVisibleString ∧ ¬Flexible d.datatype)

instance (d : ObjDesc GalvoVar) : Decidable (SmallEntry d) := inferInstanceAs (Decidable (_ ∧ _))

theorem smallEntry_galvoObjects {d : ObjDesc GalvoVar} (h : IsEntry galvoObjects d) :
    SmallEntry d := by
  obtain ⟨o, ho, ds, hds, hd⟩ := h
  have hall : (galvoObjects.all fun o => (o.objdesc.getD []).all fun d => decide (SmallEntry d))
      = true := by decide
  have hentries := List.all_eq_true.mp hall o ho
  rw [hds, Option.getD_some] at hentries
  exact of_decide_eq_true (List.all_eq_true.mp hentries d hd)

theorem wholeBits_galvoObjects {o : ObjectItem GalvoVar} (ho : o ∈ galvoObjects)
    {ds : List (ObjDesc GalvoVar)} (hds : o.objdesc = some ds) : wholeBits ds ≤ 896 := by
  have hall : (galvoObjects.all fun o => decide (wholeBits (o.objdesc.getD []) ≤ 896)) = true := by
    decide
  have hsize := List.all_eq_true.mp hall o ho
  rw [hds, Option.getD_some] at hsize
  exact of_decide_eq_true hsize

/-- Some bit for writing is set. -/
theorem writeAccess_wo {access : BitVec 16} {state : BitVec 8} (h : WriteAccess access state) :
    access &&& atypeWo ≠ 0 := by
  have hbit : ∀ bit : BitVec 16, bit &&& atypeWo = bit → access &&& bit ≠ 0 →
      access &&& atypeWo ≠ 0 := by
    intro bit hbit hset hnone
    refine hset ?_
    rw [← hbit, BitVec.and_comm bit, ← BitVec.and_assoc, hnone]
    exact BitVec.zero_and
  rcases h with ⟨h, _⟩ | ⟨h, _⟩ | ⟨h, _⟩
  · exact hbit atypeWpre (by decide) h
  · exact hbit atypeWsafe (by decide) h
  · exact hbit atypeWop (by decide) h

/-- **Nothing in the controller is transferred in segments.** -/
theorem not_segmentable_galvoObjects (alstatus : BitVec 8) :
    ¬Segmentable galvoObjects alstatus := by
  rintro (⟨d, hd, hlarge⟩ | ⟨d, hd, haccess, hlarge⟩ | ⟨o, nsub, mem, total, ho, htotal, hcode, hlarge⟩)
  · exact absurd (smallEntry_galvoObjects hd).1 (not_le.mpr hlarge)
  · obtain hro | ⟨hsize, hstring, hflexible⟩ := (smallEntry_galvoObjects hd).2
    · exact writeAccess_wo haccess hro
    · rcases hlarge with hlarge | hlarge | hlarge
      · omega
      · exact hstring hlarge
      · exact hflexible hlarge
  · cases hds : o.objdesc with
    | none =>
        rw [completeAccessSubindexLoop, hds] at htotal
        cases htotal
    | some ds =>
        have hsize := completeAccess_size hds htotal hcode
        have hdrop := wholeBits_drop_le ds nsub
        have hwhole := wholeBits_galvoObjects ho hds
        have hbytes : bits2bytes total.size + coeHeadersize ≤ escMbxdsize := by
          show (total.size + 7) / 8 + 10 ≤ 122
          omega
        exact absurd hlarge (not_lt.mpr hbytes)

/-- The master may write this variable of the controller in this state: the outputs in every
state with mailboxes, and the assignments in `PREOP`. -/
def MasterWrites (state : BitVec 8) : GalvoVar → Prop
  | .rx _ => state = escPreop ∨ state = escSafeop ∨ state = escOp
  | .obj1c12Sub0 | .obj1c12Sub1 | .obj1c13Sub0 | .obj1c13Sub1 => state = escPreop
  | _ => False

/-- The access rights of the controller are those. -/
theorem writable_galvoObjects {alstatus : BitVec 8} {v : GalvoVar}
    (h : Writable galvoObjects alstatus v) : MasterWrites (alstatus &&& 0x0F) v := by
  obtain ⟨d, ⟨o, ho, ds, hds, hd⟩, hdata, haccess⟩ := h
  have hall : (galvoObjects.all fun o => (o.objdesc.getD []).all fun d =>
      match d.data with
      | some (.rx _) | none => true
      | some .obj1c12Sub0 | some .obj1c12Sub1 | some .obj1c13Sub0 | some .obj1c13Sub1 =>
          decide (d.access &&& atypeWsafe = 0 ∧ d.access &&& atypeWop = 0)
      | some .deviceName | some (.tx _) => decide (d.access &&& atypeWo = 0)) = true := by
    decide
  have hentries := List.all_eq_true.mp hall o ho
  rw [hds, Option.getD_some] at hentries
  have hentry := List.all_eq_true.mp hentries d hd
  rw [hdata] at hentry
  cases v with
  | rx field =>
      rcases haccess with ⟨_, hstate⟩ | ⟨_, hstate⟩ | ⟨_, hstate⟩
      · exact Or.inl hstate
      · exact Or.inr (Or.inl hstate)
      · exact Or.inr (Or.inr hstate)
  | deviceName => exact absurd (of_decide_eq_true hentry) (writeAccess_wo haccess)
  | tx field => exact absurd (of_decide_eq_true hentry) (writeAccess_wo haccess)
  | _ =>
      have hpre := of_decide_eq_true hentry
      rcases haccess with ⟨_, hstate⟩ | ⟨hset, _⟩ | ⟨hset, _⟩
      · exact hstate
      · exact absurd hpre.1 hset
      · exact absurd hpre.2 hset

/-- The assignments stay while they may not be written. -/
theorem DefaultAssignment.of_writes {mem mem' : Memory GalvoVar} {p : GalvoVar → Prop}
    (h : DefaultAssignment mem) (hwrites : Writes p mem mem')
    (hnone : ∀ v ∈ [GalvoVar.obj1c12Sub0, .obj1c12Sub1, .obj1c13Sub0, .obj1c13Sub1], ¬p v) :
    DefaultAssignment mem' where
  sizes := h.sizes.trans hwrites.sizes
  rxCount := (hwrites.frame _ (hnone _ (by simp))).trans h.rxCount
  rxObject := (hwrites.frame _ (hnone _ (by simp))).trans h.rxObject
  txCount := (hwrites.frame _ (hnone _ (by simp))).trans h.txCount
  txObject := (hwrites.frame _ (hnone _ (by simp))).trans h.txObject

end GalvoCtrl.Coe
