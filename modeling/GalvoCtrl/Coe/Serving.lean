import GalvoCtrl.Coe.CoeProcess
import Mathlib.Logic.Relation

/-!
# Coe — Serving

What the services do, said once. To the mailboxes: they claim buffers and fill the ones
they have claimed, they finish the request, and they keep the variables of a transfer. To
the variables of the dictionary: they write those of entries that may be written, and the
one that a transfer in segments is about.
-/

namespace GalvoCtrl.Coe

open GalvoCtrl.Lib

variable {V : Type}

/-! ## Writing -/

/-- Only variables of which `p` holds are written, and all keep their sizes. -/
structure Writes (p : V → Prop) (mem mem' : Memory V) : Prop where
  sizes : SameSizes mem mem'
  frame : ∀ v, ¬p v → mem' v = mem v

section Writes

variable {p q : V → Prop} {mem mem' mem'' : Memory V}

theorem Writes.refl (p : V → Prop) (mem : Memory V) : Writes p mem mem :=
  ⟨fun _ => rfl, fun _ _ => rfl⟩

theorem Writes.trans (h : Writes p mem mem') (h' : Writes p mem' mem'') : Writes p mem mem'' :=
  ⟨h.sizes.trans h'.sizes, fun v hv => (h'.frame v hv).trans (h.frame v hv)⟩

theorem Writes.mono (h : Writes p mem mem') (hpq : ∀ v, p v → q v) : Writes q mem mem' :=
  ⟨h.sizes, fun v hv => h.frame v fun hp => hv (hpq v hp)⟩

theorem writeVar_writes [DecidableEq V] {v : V} {off : Nat} {bs : List (BitVec 8)} (hv : p v)
    (h : writeVar mem v off bs = .ok mem') : Writes p mem mem' := by
  rw [writeVar] at h
  split_ifs at h
  cases h
  refine ⟨SameSizes.update (length_overwrite ..), fun u hu => Function.update_of_ne ?_ ..⟩
  rintro rfl
  exact hu hv

end Writes

section Entries

variable (table : List (ObjectItem V)) (alstatus : BitVec 8)

def IsEntry (d : ObjDesc V) : Prop := ∃ o ∈ table, ∃ ds, o.objdesc = some ds ∧ d ∈ ds

/-- The variable of an entry that may be written in the state of the slave. -/
def Writable (v : V) : Prop :=
  ∃ d, IsEntry table d ∧ d.data = some v ∧ WriteAccess d.access (alstatus &&& 0x0F)

/-- Something in the dictionary is transferred in segments. -/
inductive Segmentable [DecidableEq V] : Prop where
  | upload (d : ObjDesc V) : IsEntry table d → escMbxdsize < d.size + coeHeadersize → Segmentable
  | download (d : ObjDesc V) : IsEntry table d → WriteAccess d.access (alstatus &&& 0x0F) →
      (4 < d.size ∨ d.datatype = dtypeVisibleString ∨ Flexible d.datatype) → Segmentable
  | whole (o : ObjectItem V) (nsub : Nat) (mem : Memory V) (total : CaScan V) : o ∈ table →
      completeAccessSubindexLoop .size alstatus o 0 nsub [] mem = .ok total →
      bits2bytes total.size ≤ 0xFFFF → escMbxdsize < bits2bytes total.size + coeHeadersize →
      Segmentable

variable {table}

theorem descAt_isEntry {o : ObjectItem V} {n : Nat} {d : ObjDesc V} (ho : o ∈ table)
    (h : descAt o.objdesc n = .ok d) : IsEntry table d := by
  cases hds : o.objdesc with
  | none =>
      rw [hds] at h
      cases h
  | some ds =>
      rw [hds, descAt] at h
      cases hd : ds[n]? with
      | none =>
          rw [hd] at h
          cases h
      | some d' =>
          rw [hd] at h
          cases h
          exact ⟨o, ho, ds, hds, List.mem_of_getElem? hd⟩

theorem itemAt_mem {n : Nat} {o : ObjectItem V} (h : itemAt table n = .ok o) : o ∈ table := by
  rw [itemAt] at h
  cases ho : table[n]? with
  | none =>
      rw [ho] at h
      cases h
  | some o' =>
      rw [ho] at h
      cases h
      exact List.mem_of_getElem? ho

/-- What is found is in the table. -/
theorem lookup_found {mem : Memory V} {index : BitVec 16} {subindex : BitVec 8} {o : ObjectItem V}
    {nsub : Nat} {d : ObjDesc V} (h : lookup mem table index subindex = .ok (.found o nsub d)) :
    o ∈ table ∧ IsEntry table d := by
  obtain ⟨nidx, _, hobject⟩ := bind_eq_ok h
  split_ifs at hobject with hnone
  · cases hobject
  obtain ⟨n, _, hsub⟩ := bind_eq_ok hobject
  split_ifs at hsub with hnone'
  · cases hsub
  obtain ⟨item, hitem, hdesc⟩ := bind_eq_ok hsub
  obtain ⟨desc, hd, hfound⟩ := bind_eq_ok hdesc
  cases hfound
  exact ⟨itemAt_mem hitem, descAt_isEntry (itemAt_mem hitem) hd⟩

theorem dataOf_eq {d : ObjDesc V} {v : V} (h : dataOf d = .ok v) : d.data = some v := by
  rw [dataOf] at h
  cases hdata : d.data with
  | none =>
      rw [hdata] at h
      cases h
  | some u =>
      rw [hdata] at h
      cases h
      rfl

end Entries

namespace Mailbox

/-! ## Actions -/

/-- The variables of a transfer. -/
structure Transfer (V : Type) where
  segmented : Segmented
  data : DataPtr V
  entries : BitVec 16
  frags : BitVec 32
  fragsleft : BitVec 32
  index : BitVec 16
  subindex : BitVec 8
  flags : BitVec 16
  mbxdata : List (BitVec 8)

def transfer (m : Mailbox V) : Transfer V :=
  ⟨m.segmented, m.data, m.entries, m.frags, m.fragsleft, m.index, m.subindex, m.flags, m.mbxdata⟩

/-- The mailbox with the variables of another transfer. -/
def withTransfer (m : Mailbox V) (t : Transfer V) : Mailbox V :=
  { m with
    segmented := t.segmented, data := t.data, entries := t.entries, frags := t.frags,
    fragsleft := t.fragsleft, index := t.index, subindex := t.subindex, flags := t.flags,
    mbxdata := t.mbxdata }

/-- A buffer as it is claimed, filled and requested to be sent. -/
def answered (m : Mailbox V) (n : MbxIx) (buf : MbxBuf) : Mailbox V :=
  ((m.claim n).setBuf n buf).setState n .outreq

/-- The buffer that `ESC_claimbuffer` takes. -/
def Claims (m : Mailbox V) (n : MbxIx) : Prop := n ≠ .inbox ∧ m.claimbuffer = (n, m.claim n)

/-- One action of a service: it answers, it claims a buffer and does not send it, it drops
the request, or it sets other variables. -/
inductive Act : Mailbox V → Mailbox V → Prop where
  | answer {m : Mailbox V} {n : MbxIx} (buf : MbxBuf) : m.Claims n → Act m (m.answered n buf)
  | leak {m : Mailbox V} {n : MbxIx} (buf : MbxBuf) : m.Claims n → Act m ((m.claim n).setBuf n buf)
  | drop {m : Mailbox V} : Act m (m.setState .inbox .idle)
  | transfer {m : Mailbox V} (xoe : Xoe) (t : Transfer V) :
      Act m { m.withTransfer t with xoe }

/-- Actions, any number of them. -/
abbrev Serves : Mailbox V → Mailbox V → Prop := Relation.ReflTransGen Act

/-- What no action changes. -/
structure Kept (m m' : Mailbox V) : Prop where
  mbxRun : m'.mbxRun = m.mbxRun
  mbxincnt : m'.mbxincnt = m.mbxincnt
  mbxoutpost : m'.mbxoutpost = m.mbxoutpost
  mbxbackup : m'.mbxbackup = m.mbxbackup
  mbxfree : m'.mbxfree = m.mbxfree
  toggle : m'.toggle = m.toggle
  sm0Full : m'.sm0Full = m.sm0Full
  sm1Full : m'.sm1Full = m.sm1Full
  sm1Rep : m'.sm1Rep = m.sm1Rep
  posted : m'.posted = m.posted
  request : m'.mbx .inbox = m.mbx .inbox

theorem Kept.refl (m : Mailbox V) : Kept m m :=
  ⟨rfl, rfl, rfl, rfl, rfl, rfl, rfl, rfl, rfl, rfl, rfl⟩

theorem Kept.trans {m m' m'' : Mailbox V} (h : Kept m m') (h' : Kept m' m'') : Kept m m'' where
  mbxRun := h'.mbxRun.trans h.mbxRun
  mbxincnt := h'.mbxincnt.trans h.mbxincnt
  mbxoutpost := h'.mbxoutpost.trans h.mbxoutpost
  mbxbackup := h'.mbxbackup.trans h.mbxbackup
  mbxfree := h'.mbxfree.trans h.mbxfree
  toggle := h'.toggle.trans h.toggle
  sm0Full := h'.sm0Full.trans h.sm0Full
  sm1Full := h'.sm1Full.trans h.sm1Full
  sm1Rep := h'.sm1Rep.trans h.sm1Rep
  posted := h'.posted.trans h.posted
  request := h'.request.trans h.request

/-- `ESC_claimbuffer` takes an idle buffer, the last one first. -/
theorem claimbuffer_cases (m : Mailbox V) :
    (m.control .out1 ≠ .idle ∧ m.control .out2 ≠ .idle ∧ m.claimbuffer = (.inbox, m))
      ∨ ∃ n, m.Claims n := by
  by_cases h2 : m.control .out2 = .idle
  · refine Or.inr ⟨.out2, by decide, ?_⟩
    simp [claimbuffer, outBuffers, h2]
  · by_cases h1 : m.control .out1 = .idle
    · refine Or.inr ⟨.out1, by decide, ?_⟩
      simp [claimbuffer, outBuffers, h1, h2]
    · refine Or.inl ⟨h1, h2, ?_⟩
      simp [claimbuffer, outBuffers, h1, h2]

theorem Claims.cases {m : Mailbox V} {n : MbxIx} (h : m.Claims n) :
    (n = .out2 ∧ m.control .out2 = .idle)
      ∨ (n = .out1 ∧ m.control .out1 = .idle ∧ m.control .out2 ≠ .idle) := by
  obtain ⟨hn, hclaim⟩ := h
  by_cases h2 : m.control .out2 = .idle
  · have h : m.claimbuffer = (.out2, m.claim .out2) := by simp [claimbuffer, outBuffers, h2]
    exact Or.inl ⟨congrArg Prod.fst (hclaim.symm.trans h), h2⟩
  · by_cases h1 : m.control .out1 = .idle
    · have h : m.claimbuffer = (.out1, m.claim .out1) := by simp [claimbuffer, outBuffers, h1, h2]
      exact Or.inr ⟨congrArg Prod.fst (hclaim.symm.trans h), h1, h2⟩
    · have h : m.claimbuffer = (.inbox, m) := by simp [claimbuffer, outBuffers, h1, h2]
      exact absurd (congrArg Prod.fst (hclaim.symm.trans h)) hn

theorem Act.kept {m m' : Mailbox V} (h : Act m m') : Kept m m' := by
  cases h with
  | answer buf hn | leak buf hn =>
      exact ⟨rfl, rfl, rfl, rfl, rfl, rfl, rfl, rfl, rfl, rfl,
        (Function.update_of_ne hn.1.symm ..).trans (Function.update_of_ne hn.1.symm ..)⟩
  | _ => exact ⟨rfl, rfl, rfl, rfl, rfl, rfl, rfl, rfl, rfl, rfl, rfl⟩

theorem Serves.kept {m m' : Mailbox V} (h : Serves m m') : Kept m m' := by
  induction h with
  | refl => exact Kept.refl m
  | tail _ hact ih => exact ih.trans hact.kept

/-! ## Services -/

theorem Claims.respond {m : Mailbox V} {n : MbxIx} (hn : m.Claims n) (fill : MbxBuf → MbxBuf) :
    m.respond fill = m.answered n (fill ((m.claim n).mbx n)) := by
  rw [Mailbox.respond, hn.2]
  cases n with
  | inbox => exact absurd rfl hn.1
  | _ => rfl

theorem Claims.sdoInfoerror {m : Mailbox V} {n : MbxIx} (hn : m.Claims n)
    (abortcode : BitVec 32) : m.sdoInfoerror abortcode
      = (m.answered n (fillInfoerror abortcode ((m.claim n).mbx n))).done := by
  rw [Mailbox.sdoInfoerror, hn.2]
  cases n with
  | inbox => exact absurd rfl hn.1
  | _ => rfl

theorem serves_answered {m : Mailbox V} {n : MbxIx} (hn : m.Claims n) (buf : MbxBuf) :
    Serves m (m.answered n buf) := Relation.ReflTransGen.single (.answer buf hn)

theorem serves_respond (m : Mailbox V) (fill : MbxBuf → MbxBuf) : Serves m (m.respond fill) := by
  obtain ⟨_, _, hfail⟩ | ⟨n, hn⟩ := m.claimbuffer_cases
  · rw [respond, hfail]
  · rw [hn.respond]
    exact serves_answered hn _

/-- Other variables of the transfer, and another protocol. -/
theorem serves_transfer {m box : Mailbox V}
    (hbox : box = { m.withTransfer box.transfer with xoe := box.xoe }) : Serves m box := by
  rw [hbox]
  exact Relation.ReflTransGen.single (.transfer _ _)

theorem serves_done (m : Mailbox V) : Serves m m.done :=
  (Relation.ReflTransGen.single .drop).trans (serves_transfer rfl)

/-- A claimed buffer is sent, and the variables of the transfer are others. -/
theorem serves_answer {m box : Mailbox V} {n : MbxIx} (hn : m.Claims n)
    (hbox : box = { (m.claim n).withTransfer box.transfer with xoe := box.xoe }) (buf : MbxBuf) :
    Serves m ((box.setBuf n buf).setState n .outreq) := by
  refine (Relation.ReflTransGen.single (.answer buf hn)).trans (serves_transfer ?_)
  rw [hbox]
  rfl

/-- The request may be done with before. -/
theorem serves_answer_done {m box : Mailbox V} {n : MbxIx} (hn : m.Claims n)
    (hbox : box = { (m.claim n).withTransfer box.transfer with xoe := box.xoe }) (buf : MbxBuf) :
    Serves m ((box.done.setBuf n buf).setState n .outreq) := by
  have hswap : (box.done.setBuf n buf).setState n .outreq
      = ((box.setBuf n buf).setState n .outreq).done :=
    congrArg (fun control => ({ box.done.setBuf n buf with control } : Mailbox V))
      (Function.update_comm hn.1.symm ..)
  rw [hswap]
  exact (serves_answer hn hbox buf).trans (serves_done _)

/-- A claimed buffer that is not sent. -/
theorem serves_claim {m : Mailbox V} {n : MbxIx} (hn : m.Claims n) : Serves m (m.claim n) := by
  have hself : m.claim n = (m.claim n).setBuf n ((m.claim n).mbx n) :=
    congrArg (fun mbx => ({ m.claim n with mbx } : Mailbox V)) (Function.update_eq_self n _).symm
  rw [hself]
  exact Relation.ReflTransGen.single (.leak _ hn)

theorem serves_ite {m a b : Mailbox V} {p : Prop} [Decidable p] (ha : Serves m a)
    (hb : Serves m b) : Serves m (if p then a else b) := by
  split_ifs
  · exact ha
  · exact hb

theorem serves_sdoAbort (m : Mailbox V) (index : BitVec 16) (subindex : BitVec 8)
    (abortcode : BitVec 32) : Serves m (m.sdoAbort .inbox index subindex abortcode) := by
  rw [sdoAbort, if_pos rfl]
  exact serves_respond m _

theorem serves_setStateIdle (m : Mailbox V) (index : BitVec 16) (subindex : BitVec 8)
    (abortcode : BitVec 32) : Serves m (m.setStateIdle .inbox index subindex abortcode) := by
  rw [setStateIdle]
  split_ifs
  · exact (serves_sdoAbort m index subindex abortcode).trans (serves_done _)
  · exact serves_done m

/-- The buffer that was claimed for the response carries the abort. -/
theorem serves_setStateIdle_claim {m : Mailbox V} {n : MbxIx} (hn : m.Claims n)
    (index : BitVec 16) (subindex : BitVec 8) (abortcode : BitVec 32) :
    Serves m ((m.claim n).setStateIdle n index subindex abortcode) := by
  rw [setStateIdle]
  split_ifs
  · rw [sdoAbort, if_neg hn.1]
    exact (serves_answer hn rfl _).trans (serves_done _)
  · exact (serves_claim hn).trans (serves_done _)

theorem serves_sdoInfoerror (m : Mailbox V) (abortcode : BitVec 32) :
    Serves m (m.sdoInfoerror abortcode) := by
  obtain ⟨_, _, hfail⟩ | ⟨n, hn⟩ := m.claimbuffer_cases
  · rw [sdoInfoerror, hfail]
  · rw [hn.sdoInfoerror]
    exact (serves_answered hn _).trans (serves_done _)

/-! ## Transfers -/

@[simp] theorem transfer_setState (m : Mailbox V) (n : MbxIx) (st : MbxState) :
    (m.setState n st).transfer = m.transfer := rfl

@[simp] theorem transfer_setBuf (m : Mailbox V) (n : MbxIx) (buf : MbxBuf) :
    (m.setBuf n buf).transfer = m.transfer := rfl

@[simp] theorem transfer_claim (m : Mailbox V) (n : MbxIx) :
    (m.claim n).transfer = m.transfer := rfl

@[simp] theorem transfer_done (m : Mailbox V) : m.done.transfer = m.transfer := rfl

@[simp] theorem transfer_answered (m : Mailbox V) (n : MbxIx) (buf : MbxBuf) :
    (m.answered n buf).transfer = m.transfer := by
  rw [answered, transfer_setState, transfer_setBuf, transfer_claim]

@[simp] theorem transfer_respond (m : Mailbox V) (fill : MbxBuf → MbxBuf) :
    (m.respond fill).transfer = m.transfer := by
  obtain ⟨_, _, hfail⟩ | ⟨n, hn⟩ := m.claimbuffer_cases
  · rw [respond, hfail]
  · rw [hn.respond, transfer_answered]

@[simp] theorem transfer_sdoAbort (m : Mailbox V) (n : MbxIx) (index : BitVec 16)
    (subindex : BitVec 8) (abortcode : BitVec 32) :
    (m.sdoAbort n index subindex abortcode).transfer = m.transfer := by
  rw [sdoAbort]
  split_ifs
  · exact transfer_respond ..
  · rw [transfer_setState, transfer_setBuf]

@[simp] theorem transfer_setStateIdle (m : Mailbox V) (n : MbxIx) (index : BitVec 16)
    (subindex : BitVec 8) (abortcode : BitVec 32) :
    (m.setStateIdle n index subindex abortcode).transfer = m.transfer := by
  rw [setStateIdle, transfer_done]
  split_ifs
  · exact transfer_sdoAbort ..
  · rfl

@[simp] theorem transfer_sdoInfoerror (m : Mailbox V) (abortcode : BitVec 32) :
    (m.sdoInfoerror abortcode).transfer = m.transfer := by
  obtain ⟨_, _, hfail⟩ | ⟨n, hn⟩ := m.claimbuffer_cases
  · rw [sdoInfoerror, hfail]
  · rw [hn.sdoInfoerror, transfer_done, transfer_answered]

/-- No transfer in segments has been started. -/
structure Unsegmented (m : Mailbox V) : Prop where
  data : m.data = .null
  segmented : m.segmented = .no

theorem Unsegmented.of_transfer {m m' : Mailbox V} (ht : m'.transfer = m.transfer)
    (h : m.Unsegmented) : m'.Unsegmented := by
  simp only [transfer, Transfer.mk.injEq] at ht
  exact ⟨ht.2.1.trans h.data, ht.1.trans h.segmented⟩

end Mailbox

namespace Server

open Mailbox

section Services

variable [DecidableEq V] {table : List (ObjectItem V)} {alstatus : BitVec 8} {s s' s'' : Server V}

/-- What a service does from `s` to `s'`. -/
structure Served (table : List (ObjectItem V)) (alstatus : BitVec 8) (s s' : Server V) : Prop where
  serves : Serves s.box s'.box
  writes : Writes (fun v => Writable table alstatus v ∨ ∃ o, s.box.data = .var v o) s.mem s'.mem
  segments : s.box.Unsegmented → s'.box.Unsegmented ∨ Segmentable table alstatus

/-- A service that writes nothing and has no data. -/
theorem Served.of_data (hserves : Serves s.box s'.box) (hmem : s'.mem = s.mem)
    (hdata : s'.box.data = s.box.data) (hsegmented : s'.box.segmented = s.box.segmented) :
    Served table alstatus s s' :=
  ⟨hserves, hmem ▸ Writes.refl _ _,
    fun hu => Or.inl ⟨hdata.trans hu.data, hsegmented.trans hu.segmented⟩⟩

/-- A service that neither writes nor transfers. -/
theorem Served.withBox {box : Mailbox V} (hserves : Serves s.box box)
    (ht : box.transfer = s.box.transfer) : Served table alstatus s (s.withBox box) :=
  ⟨hserves, Writes.refl _ _, fun hu => Or.inl (hu.of_transfer ht)⟩

theorem Served.refl (s : Server V) : Served table alstatus s s := ⟨.refl, .refl _ _, Or.inl⟩

/-- Where the first of two services leaves the transfer alone. -/
theorem Served.trans (h : Served table alstatus s s') (h' : Served table alstatus s' s'')
    (hdata : s'.box.data = s.box.data) : Served table alstatus s s'' where
  serves := h.serves.trans h'.serves
  writes := h.writes.trans (hdata ▸ h'.writes)
  segments := fun hu => (h.segments hu).elim h'.segments Or.inr

/-- Behind a service the request is done with. -/
theorem Served.done (h : Served table alstatus s s') :
    Served table alstatus s (s'.withBox s'.box.done) where
  serves := h.serves.trans (serves_done _)
  writes := h.writes
  segments := fun hu => (h.segments hu).imp_left fun hu' => ⟨hu'.data, hu'.segmented⟩

/-- A claimed buffer is sent, and a transfer in segments is only started where there are
entries for it. -/
theorem Served.of_answer {m box : Mailbox V} {mem : Memory V} {n : MbxIx} (hn : m.Claims n)
    (hbox : box = { (m.claim n).withTransfer box.transfer with xoe := box.xoe }) (buf : MbxBuf)
    (hsegments : (m.claim n).Unsegmented → box.Unsegmented ∨ Segmentable table alstatus) :
    Served table alstatus ⟨m, mem⟩ ⟨(box.setBuf n buf).setState n .outreq, mem⟩ where
  serves := serves_answer hn hbox buf
  writes := .refl _ mem
  segments := fun hu =>
    (hsegments ⟨hu.data, hu.segmented⟩).imp_left fun hu' => ⟨hu'.data, hu'.segmented⟩

/-- The same, and the request is done with. -/
theorem Served.of_answer_done {box : Mailbox V} {n : MbxIx} (hn : s.box.Claims n)
    (hbox : box = { (s.box.claim n).withTransfer box.transfer with xoe := box.xoe }) (buf : MbxBuf)
    (hsegments : (s.box.claim n).Unsegmented → box.Unsegmented ∨ Segmentable table alstatus) :
    Served table alstatus s (s.withBox ((box.setBuf n buf).setState n .outreq).done) :=
  (Served.of_answer hn hbox buf hsegments).done

/-- The same in the other order. -/
theorem Served.of_done_answer {box : Mailbox V} {n : MbxIx} (hn : s.box.Claims n)
    (hbox : box = { (s.box.claim n).withTransfer box.transfer with xoe := box.xoe }) (buf : MbxBuf)
    (hsegments : (s.box.claim n).Unsegmented → box.Unsegmented ∨ Segmentable table alstatus) :
    Served table alstatus s (s.withBox ((box.done.setBuf n buf).setState n .outreq)) where
  serves := serves_answer_done hn hbox buf
  writes := .refl _ s.mem
  segments := fun hu =>
    (hsegments ⟨hu.data, hu.segmented⟩).imp_left fun hu' => ⟨hu'.data, hu'.segmented⟩

theorem served_sdoAbort (s : Server V) (index : BitVec 16) (subindex : BitVec 8)
    (abortcode : BitVec 32) :
    Served table alstatus s (s.withBox (s.box.sdoAbort .inbox index subindex abortcode).done) :=
  .withBox ((serves_sdoAbort ..).trans (serves_done _))
    ((transfer_done _).trans (transfer_sdoAbort s.box _ _ _ _))

theorem served_setStateIdle (s : Server V) (index : BitVec 16) (subindex : BitVec 8)
    (abortcode : BitVec 32) :
    Served table alstatus s (s.withBox (s.box.setStateIdle .inbox index subindex abortcode)) :=
  .withBox (serves_setStateIdle ..) (transfer_setStateIdle ..)

theorem served_sdoInfoerror (s : Server V) (abortcode : BitVec 32) :
    Served table alstatus s (s.withBox (s.box.sdoInfoerror abortcode)) :=
  .withBox (serves_sdoInfoerror ..) (transfer_sdoInfoerror ..)

/-! ### Upload -/

theorem uploadResponse_served {m : Mailbox V} {mem : Memory V} {n : MbxIx} {index : BitVec 16}
    {subindex : BitVec 8} {d : ObjDesc V} (hn : m.Claims n) (hd : IsEntry table d)
    (h : uploadResponse ⟨m.claim n, mem⟩ n index subindex d = .ok s') :
    Served table alstatus ⟨m, mem⟩ s' := by
  rw [uploadResponse] at h
  by_cases hsize : d.size ≤ 4
  · rw [if_pos hsize] at h
    cases hdata : d.data with
    | none =>
        rw [hdata] at h
        cases h
        exact .of_answer hn rfl _ Or.inl
    | some v =>
        rw [hdata] at h
        obtain ⟨bytes, _, hcopy⟩ := bind_eq_ok h
        obtain ⟨buf, _, hs'⟩ := bind_eq_ok hcopy
        cases hs'
        exact .of_answer hn rfl _ Or.inl
  · rw [if_neg hsize] at h
    obtain ⟨v, _, hread⟩ := bind_eq_ok h
    obtain ⟨bytes, _, hcopy⟩ := bind_eq_ok hread
    obtain ⟨buf, _, hs'⟩ := bind_eq_ok hcopy
    cases hs'
    by_cases hlarge : escMbxdsize < d.size + coeHeadersize
    · simp only [if_pos hlarge]
      exact .of_answer hn rfl _ fun _ => Or.inr (.upload d hd hlarge)
    · simp only [if_neg hlarge]
      exact .of_answer hn rfl _ fun hu => Or.inl ⟨hu.data, rfl⟩

theorem sdoUpload_served (h : s.sdoUpload table alstatus = .ok s') :
    Served table alstatus s s' := by
  obtain ⟨found, hlookup, hfound⟩ := bind_eq_ok h
  cases found with
  | noObject =>
      cases hfound
      exact served_sdoAbort ..
  | noSubindex =>
      cases hfound
      exact served_sdoAbort ..
  | found item nsub d =>
      dsimp only at hfound
      by_cases hread : ReadAccess d.access (alstatus &&& 0x0F)
      · rw [if_pos hread] at hfound
        obtain ⟨_, _, hfail⟩ | ⟨n, hn⟩ := s.box.claimbuffer_cases
        · rw [hfail] at hfound
          cases hfound
          exact (Served.refl s).done
        · rw [hn.2] at hfound
          cases n with
          | inbox => exact absurd rfl hn.1
          | _ =>
              obtain ⟨s₁, hresponse, hs'⟩ := bind_eq_ok hfound
              cases hs'
              exact (uploadResponse_served hn (lookup_found hlookup).2 hresponse).done
      · rw [if_neg hread] at hfound
        cases hfound
        exact served_setStateIdle ..

theorem sdoUploadsegment_served (h : s.sdoUploadsegment = .ok s') :
    Served table alstatus s s' := by
  obtain ⟨_, _, hfail⟩ | ⟨n, hn⟩ := s.box.claimbuffer_cases
  · rw [sdoUploadsegment, hfail] at h
    cases h
    exact (Served.refl s).done
  · rw [sdoUploadsegment, hn.2] at h
    cases n with
    | inbox => exact absurd rfl hn.1
    | _ =>
        dsimp only at h
        split_ifs at h
        · obtain ⟨bytes, _, hcopy⟩ := bind_eq_ok h
          obtain ⟨buf, _, hs'⟩ := bind_eq_ok hcopy
          cases hs'
          exact .of_answer_done hn rfl _ fun hu => Or.inl ⟨hu.data, hu.segmented⟩
        all_goals
          obtain ⟨bytes, _, hcopy⟩ := bind_eq_ok h
          obtain ⟨buf, _, hs'⟩ := bind_eq_ok hcopy
          cases hs'
          exact .of_answer_done hn rfl _ fun hu => Or.inl ⟨hu.data, rfl⟩

/-! ### Download -/

theorem padString_writes {mem mem' : Memory V} {d : ObjDesc V} {size : Nat}
    (h : padString mem d size = .ok mem') : Writes (fun v => d.data = some v) mem mem' := by
  obtain ⟨v, hv, hpad⟩ := bind_eq_ok h
  split_ifs at hpad
  exact writeVar_writes (dataOf_eq hv) hpad

theorem storeEntry_writes {mem mem' : Memory V} {d : ObjDesc V} {bs : List (BitVec 8)}
    (h : storeEntry mem d bs = .ok mem') : Writes (fun v => d.data = some v) mem mem' := by
  rw [storeEntry] at h
  split_ifs at h
  · cases h
    exact .refl _ _
  · obtain ⟨v, hv, hwrite⟩ := bind_eq_ok h
    exact writeVar_writes (dataOf_eq hv) hwrite

/-- Data are stored in a variable that may be written; only more than four bytes of them may
be followed by segments. -/
theorem downloadStore_served {index : BitVec 16} {subindex : BitVec 8} {d : ObjDesc V}
    {size off : Nat} (hd : IsEntry table d) (haccess : WriteAccess d.access (alstatus &&& 0x0F))
    (hsize : 4 < size → 4 < d.size ∨ d.datatype = dtypeVisibleString ∨ Flexible d.datatype)
    (h : s.downloadStore index subindex d size off = .ok s') : Served table alstatus s s' := by
  obtain ⟨bytes, _, hwrite⟩ := bind_eq_ok h
  obtain ⟨mem, hmem, hs'⟩ := bind_eq_ok hwrite
  cases hs'
  have hwrites : Writes (Writable table alstatus) s.mem mem :=
    (storeEntry_writes hmem).mono fun v hv => ⟨d, hd, hv, haccess⟩
  refine ⟨?_, hwrites.mono fun v hv => Or.inl hv, fun hu => ?_⟩
  · refine Relation.ReflTransGen.trans ?_ ((serves_respond _ _).trans (serves_done _))
    refine serves_transfer ?_
    split_ifs <;> rfl
  · by_cases hlarge : 4 < size
        ∧ ((s.box.mbx .inbox).header.length.setWidth 32 - BitVec.ofNat 32 coeHeadersize).toNat < size
    · exact Or.inr (.download d hd haccess (hsize hlarge.1))
    · simp only [if_neg hlarge]
      left
      refine Unsegmented.of_transfer (m := { s.box with segmented := .no }) ?_ ⟨hu.data, rfl⟩
      exact transfer_respond ..

theorem sdoDownload_served (h : s.sdoDownload table alstatus = .ok s') :
    Served table alstatus s s' := by
  obtain ⟨found, hlookup, hfound⟩ := bind_eq_ok h
  cases found with
  | noObject =>
      cases hfound
      exact served_sdoAbort ..
  | noSubindex =>
      cases hfound
      exact served_sdoAbort ..
  | found item nsub d =>
      dsimp only at hfound
      by_cases haccess : WriteAccess d.access (alstatus &&& 0x0F)
      · rw [if_pos haccess] at hfound
        by_cases htype : d.size ≠ (downloadData (s.box.mbx .inbox)).1
            ∧ d.datatype ≠ dtypeVisibleString ∧ ¬Flexible d.datatype
        · rw [if_pos htype] at hfound
          cases hfound
          exact served_setStateIdle ..
        · rw [if_neg htype] at hfound
          obtain ⟨mem, hmem, hpre⟩ := bind_eq_ok hfound
          obtain ⟨abort, _, hstore⟩ := bind_eq_ok hpre
          have hd := (lookup_found hlookup).2
          have hpadded : Served table alstatus s ⟨s.box, mem⟩ := by
            refine ⟨.refl, ?_, fun hu => Or.inl hu⟩
            split_ifs at hmem
            · exact (padString_writes hmem).mono fun v hv => Or.inl ⟨d, hd, hv, haccess⟩
            · cases hmem
              exact .refl _ _
          by_cases habort : abort = 0
          · rw [if_pos habort] at hstore
            refine hpadded.trans (downloadStore_served (s := ⟨s.box, mem⟩) hd haccess ?_ hstore) rfl
            intro hsize
            by_cases heq : d.size = (downloadData (s.box.mbx .inbox)).1
            · exact Or.inl (heq ▸ hsize)
            · by_contra hnone
              push Not at hnone
              exact htype ⟨heq, hnone.2.1, hnone.2.2⟩
          · rw [if_neg habort] at hstore
            cases hstore
            exact hpadded.trans (served_sdoAbort (s := ⟨s.box, mem⟩) ..) rfl
      · rw [if_neg haccess] at hfound
        split_ifs at hfound <;> cases hfound <;> exact served_sdoAbort ..

/-- In segments data only go where `ESCvar.data` points to, and it keeps pointing there. -/
theorem writeData_writes {bs : List (BitVec 8)} (h : s.writeData bs = .ok s') :
    s'.box = s.box.withTransfer s'.box.transfer
      ∧ s'.box.data = s.box.data ∧ s'.box.segmented = s.box.segmented
      ∧ Writes (fun v => ∃ o, s.box.data = .var v o) s.mem s'.mem := by
  rw [writeData] at h
  by_cases hbs : bs = []
  · rw [if_pos hbs] at h
    cases h
    exact ⟨rfl, rfl, rfl, .refl _ _⟩
  rw [if_neg hbs] at h
  cases hdata : s.box.data with
  | null =>
      rw [hdata] at h
      cases h
  | var v o =>
      rw [hdata] at h
      obtain ⟨mem, hmem, hs'⟩ := bind_eq_ok h
      cases hs'
      exact ⟨rfl, hdata, rfl, writeVar_writes ⟨o, rfl⟩ hmem⟩
  | mbxdata o =>
      rw [hdata] at h
      obtain ⟨mbxdata, _, hs'⟩ := bind_eq_ok h
      cases hs'
      exact ⟨rfl, hdata, rfl, .refl _ _⟩

section Whole

variable {load : LoadType} {item : ObjectItem V} {maxBytes : Nat}

/-- An entry is only stored if it may be written. -/
theorem caBytes_writes {d : ObjDesc V} {st st' : CaScan V}
    (h : caBytes load alstatus d st = .ok st') :
    Writes (fun v => d.data = some v ∧ WriteAccess d.access (alstatus &&& 0x0F)) st.mem st'.mem := by
  cases load with
  | size =>
      cases h
      exact .refl _ _
  | upload =>
      obtain ⟨bytes, _, hcopy⟩ := bind_eq_ok h
      obtain ⟨mbxdata, _, hst'⟩ := bind_eq_ok hcopy
      cases hst'
      exact .refl _ _
  | download =>
      by_cases haccess : WriteAccess d.access (alstatus &&& 0x0F)
      · simp only [caBytes, if_pos haccess] at h
        obtain ⟨bytes, _, hwrite⟩ := bind_eq_ok h
        obtain ⟨mem, hmem, hst'⟩ := bind_eq_ok hwrite
        cases hst'
        exact (storeEntry_writes hmem).mono fun v hv => ⟨hv, haccess⟩
      · simp only [caBytes, if_neg haccess] at h
        cases h
        exact .refl _ _

omit [DecidableEq V] in
theorem caBits_mem {d : ObjDesc V} {st st' : CaScan V} (h : caBits load alstatus d st = .ok st') :
    st'.mem = st.mem := by
  by_cases hload : load ≠ .upload
  · rw [caBits, if_pos hload] at h
    cases h
    rfl
  · rw [caBits, if_neg hload] at h
    split_ifs at h
    obtain ⟨old, _, hmerge⟩ := bind_eq_ok h
    obtain ⟨new, _, hcopy⟩ := bind_eq_ok hmerge
    obtain ⟨mbxdata, _, hst'⟩ := bind_eq_ok hcopy
    cases hst'
    rfl

theorem caLoop_writes (hitem : item ∈ table) {left nsub : Nat} {st st' : CaScan V}
    (h : caLoop load alstatus item maxBytes left nsub st = .ok st') :
    Writes (Writable table alstatus) st.mem st'.mem := by
  induction left generalizing nsub st with
  | zero =>
      cases h
      exact .refl _ _
  | succ left ih =>
      obtain ⟨d, hd, hentry⟩ := bind_eq_ok h
      obtain ⟨st₁, hst₁, hmore⟩ := bind_eq_ok hentry
      have hwrites : Writes (Writable table alstatus) st.mem st₁.mem := by
        split_ifs at hst₁
        · refine (caBytes_writes hst₁).mono fun v hv => ?_
          exact ⟨d, descAt_isEntry hitem hd, hv.1, hv.2⟩
        · rw [caBits_mem hst₁]
          exact .refl _ _
      dsimp only at hmore
      generalize hbits : (if nsub = 0 ∧ item.objtype ≠ otypeVar then 16 else d.bitlength.toNat) = bits
        at hmore
      by_cases hstop : 0 < maxBytes ∧ maxBytes ≤ bits2bytes (st₁.size + bits)
      · rw [if_pos hstop] at hmore
        cases hmore
        exact hwrites
      · rw [if_neg hstop] at hmore
        have hrest := ih hmore
        exact hwrites.trans hrest

theorem completeAccess_writes (hitem : item ∈ table) {nsub : Nat} {mbxdata : List (BitVec 8)}
    {mem : Memory V} {st' : CaScan V}
    (h : completeAccessSubindexLoop load alstatus item maxBytes nsub mbxdata mem = .ok st') :
    Writes (Writable table alstatus) mem st'.mem := by
  obtain ⟨d, _, hload⟩ := bind_eq_ok h
  by_cases hstring : IsString d.datatype
  · rw [if_pos hstring] at hload
    cases hload
    exact .refl _ _
  · rw [if_neg hstring] at hload
    obtain ⟨mbxdata', _, hloop⟩ := bind_eq_ok hload
    exact caLoop_writes hitem hloop

end Whole

omit [DecidableEq V] in
/-- What `complete_access_get_variables` finds is in the table. -/
theorem completeAccessGetVariables_mem {item : ObjectItem V} {nsub : Nat}
    (h : s.completeAccessGetVariables table = .ok (.inr (item, nsub))) : item ∈ table := by
  rw [completeAccessGetVariables] at h
  split_ifs at h
  · cases h
  · obtain ⟨found, hlookup, hfound⟩ := bind_eq_ok h
    cases found with
    | noObject | noSubindex => cases hfound
    | found o n d =>
        cases hfound
        exact (lookup_found hlookup).1

theorem sdoUploadCompleteAccess_served (h : s.sdoUploadCompleteAccess table alstatus = .ok s') :
    Served table alstatus s s' := by
  obtain ⟨found, hvariables, hfound⟩ := bind_eq_ok h
  cases found with
  | inl abortcode =>
      cases hfound
      exact served_setStateIdle ..
  | inr entry =>
      obtain ⟨item, nsub⟩ := entry
      have hitem := completeAccessGetVariables_mem hvariables
      obtain ⟨_, _, hfail⟩ | ⟨n, hn⟩ := s.box.claimbuffer_cases
      · dsimp only at hfound
        rw [hfail] at hfound
        cases hfound
        exact served_setStateIdle ..
      · dsimp only at hfound
        rw [hn.2] at hfound
        cases n with
        | inbox => exact absurd rfl hn.1
        | _ =>
            obtain ⟨total, htotal, hsize⟩ := bind_eq_ok hfound
            by_cases hcode : 0xFFFF < bits2bytes total.size
            · rw [if_pos hcode] at hsize
              cases hsize
              exact .withBox (serves_setStateIdle_claim hn ..)
                ((transfer_setStateIdle ..).trans (transfer_claim ..))
            rw [if_neg hcode] at hsize
            by_cases hlarge : preallocBufferSize < bits2bytes total.size
                + preallocFactor * coeHeadersize
            · rw [if_pos hlarge] at hsize
              cases hsize
              exact .withBox (serves_setStateIdle_claim hn ..)
                ((transfer_setStateIdle ..).trans (transfer_claim ..))
            rw [if_neg hlarge] at hsize
            obtain ⟨ca, _, hresponse⟩ := bind_eq_ok hsize
            by_cases hsmall : bits2bytes total.size ≤ 4
            · rw [if_pos hsmall] at hresponse
              obtain ⟨bytes, _, hcopy⟩ := bind_eq_ok hresponse
              obtain ⟨buf, _, hs'⟩ := bind_eq_ok hcopy
              cases hs'
              exact .of_answer_done hn rfl _ fun hu => Or.inl ⟨hu.data, rfl⟩
            · rw [if_neg hsmall] at hresponse
              obtain ⟨bytes, _, hcopy⟩ := bind_eq_ok hresponse
              obtain ⟨buf, _, hs'⟩ := bind_eq_ok hcopy
              cases hs'
              by_cases hsegments : escMbxdsize < bits2bytes total.size + coeHeadersize
              · simp only [if_pos hsegments]
                exact .of_answer_done hn rfl _ fun _ =>
                  Or.inr (.whole item nsub s.mem total hitem htotal (not_lt.mp hcode) hsegments)
              · simp only [if_neg hsegments]
                exact .of_answer_done hn rfl _ fun hu => Or.inl ⟨hu.data, rfl⟩

theorem sdoDownloadCompleteAccess_served
    (h : s.sdoDownloadCompleteAccess table alstatus = .ok s') : Served table alstatus s s' := by
  rw [sdoDownloadCompleteAccess] at h
  generalize downloadData (s.box.mbx .inbox) = request at h
  obtain ⟨bytes, off⟩ := request
  obtain ⟨found, hvariables, hfound⟩ := bind_eq_ok h
  cases found with
  | inl abortcode =>
      cases hfound
      exact served_setStateIdle ..
  | inr entry =>
      obtain ⟨item, nsub⟩ := entry
      have hitem := completeAccessGetVariables_mem hvariables
      obtain ⟨total, htotal, hsize⟩ := bind_eq_ok hfound
      by_cases hcode : 0xFFFF < bits2bytes total.size
      · rw [if_pos hcode] at hsize
        cases hsize
        exact served_setStateIdle ..
      rw [if_neg hcode] at hsize
      by_cases hlarge : bits2bytes total.size < bytes
      · rw [if_pos hlarge] at hsize
        cases hsize
        exact served_setStateIdle ..
      rw [if_neg hlarge] at hsize
      obtain ⟨d, _, hpre⟩ := bind_eq_ok hsize
      obtain ⟨abortcode, _, habort⟩ := bind_eq_ok hpre
      by_cases hzero : abortcode ≠ 0
      · rw [if_pos hzero] at habort
        cases habort
        exact served_setStateIdle ..
      rw [if_neg hzero] at habort
      by_cases hsegments : escMbxdsize < bytes + coeHeadersize
      · rw [if_pos hsegments] at habort
        by_cases hbuffer : preallocBufferSize < bytes + preallocFactor * coeHeadersize
        · rw [if_pos hbuffer] at habort
          cases habort
          exact served_setStateIdle ..
        · rw [if_neg hbuffer] at habort
          obtain ⟨data, _, hdata⟩ := bind_eq_ok habort
          obtain ⟨mbxdata, _, hs'⟩ := bind_eq_ok hdata
          cases hs'
          refine ⟨(serves_transfer rfl).trans ((serves_respond _ _).trans (serves_done _)),
            .refl _ _, fun _ => Or.inr ?_⟩
          exact .whole item nsub s.mem total hitem htotal (not_lt.mp hcode) (by omega)
      · rw [if_neg hsegments] at habort
        obtain ⟨ca, hca, hs'⟩ := bind_eq_ok habort
        cases hs'
        refine ⟨(serves_transfer rfl).trans ((serves_respond _ _).trans (serves_done _)),
          (completeAccess_writes hitem hca).mono fun v hv => Or.inl hv, fun hu => Or.inl ?_⟩
        exact Unsegmented.of_transfer (m := { s.box with segmented := .no })
          (transfer_respond ..) ⟨hu.data, rfl⟩

theorem downloadLast_writes {size : BitVec 32} {mem : Memory V}
    (h : s.downloadLast table alstatus size = .ok (.inr mem)) :
    Writes (Writable table alstatus) s.mem mem := by
  rw [downloadLast] at h
  split_ifs at h
  · cases h
  · obtain ⟨found, hlookup, hfound⟩ := bind_eq_ok h
    cases found with
    | noObject | noSubindex => cases hfound
    | found item nsub d =>
        obtain ⟨ca, hca, hmem⟩ := bind_eq_ok hfound
        cases hmem
        exact completeAccess_writes (lookup_found hlookup).1 hca

/-- A segment goes to where a transfer points to; without one, nothing does. -/
theorem sdoDownloadsegment_served (h : s.sdoDownloadsegment table alstatus = .ok s') :
    Served table alstatus s s' := by
  obtain ⟨_, _, hfail⟩ | ⟨n, hn⟩ := s.box.claimbuffer_cases
  · rw [sdoDownloadsegment, hfail] at h
    cases h
    exact (Served.refl s).done
  · rw [sdoDownloadsegment, hn.2] at h
    cases n with
    | inbox => exact absurd rfl hn.1
    | _ =>
        obtain ⟨bytes, _, hdata⟩ := bind_eq_ok h
        obtain ⟨s₁, hwrite, hlast⟩ := bind_eq_ok hdata
        obtain ⟨hbox, hpointer, hsegmented, hwrites⟩ := writeData_writes hwrite
        have hsegment : Writes (fun v => Writable table alstatus v
            ∨ ∃ o, s.box.data = .var v o) s.mem s₁.mem := hwrites.mono fun v hv => Or.inr hv
        have hnull (hu : s.box.Unsegmented) : s₁.box.data = .null := hpointer.trans hu.data
        by_cases hbit : (s.box.mbx .inbox).command &&& coeCommandLastsegmentbit ≠ 0
        · rw [if_pos hbit] at hlast
          obtain ⟨last, hlast', hend⟩ := bind_eq_ok hlast
          cases last with
          | inl abortcode =>
              cases hend
              -- the buffer stays claimed, and the abort takes another one
              have hleak : Serves s.box s₁.box := by
                rw [hbox]
                exact (Relation.ReflTransGen.single (.leak _ hn)).trans (serves_transfer rfl)
              refine ⟨hleak.trans (serves_setStateIdle ..), hsegment, fun hu => Or.inl ?_⟩
              exact Unsegmented.of_transfer (transfer_setStateIdle ..)
                ⟨hnull hu, hsegmented.trans hu.segmented⟩
          | inr mem =>
              cases hend
              refine ⟨Relation.ReflTransGen.trans ?_ (serves_done _), hsegment.trans ?_,
                fun hu => Or.inl ⟨hnull hu, rfl⟩⟩
              · rw [hbox]
                exact (Relation.ReflTransGen.single (.answer _ hn)).trans (serves_transfer rfl)
              · by_cases hflags : s₁.box.flags = completeAccessFlag
                · rw [if_pos hflags] at hlast'
                  exact (downloadLast_writes hlast').mono fun v hv => Or.inl hv
                · rw [if_neg hflags] at hlast'
                  cases hlast'
                  exact .refl _ _
        · rw [if_neg hbit] at hlast
          cases hlast
          refine ⟨Relation.ReflTransGen.trans ?_ (serves_done _), hsegment,
            fun hu => Or.inl ⟨?_, hsegmented.trans hu.segmented⟩⟩
          · rw [hbox]
            exact (Relation.ReflTransGen.single (.answer _ hn)).trans (serves_transfer rfl)
          · show s₁.box.data.add _ = .null
            rw [hnull hu, DataPtr.add]

/-! ### SDO information -/

theorem sdoGetodlist_served (h : s.sdoGetodlist table = .ok s') : Served table alstatus s s' := by
  obtain ⟨entries, _, hlist⟩ := bind_eq_ok h
  have hentries : Served table alstatus s
      (s.withBox { s.box with entries := BitVec.ofNat 16 entries }) :=
    .of_data (serves_transfer rfl) rfl rfl rfl
  refine hentries.trans ?_ rfl
  generalize s.withBox { s.box with entries := BitVec.ofNat 16 entries } = s₁ at hlist
  by_cases htype : 1 < (s.box.mbx .inbox).objIndex.toNat
  · rw [if_pos htype] at hlist
    cases hlist
    exact served_sdoInfoerror ..
  rw [if_neg htype] at hlist
  obtain ⟨_, _, hfail⟩ | ⟨n, hn⟩ := s₁.box.claimbuffer_cases
  · rw [hfail] at hlist
    cases hlist
    exact .refl _
  · rw [hn.2] at hlist
    cases n with
    | inbox => exact absurd rfl hn.1
    | _ =>
        dsimp only at hlist
        by_cases hzero : (s.box.mbx .inbox).objIndex = 0
        · rw [if_pos hzero] at hlist
          cases hlist
          exact .of_done_answer hn rfl _ fun hu => Or.inl ⟨hu.data, hu.segmented⟩
        · rw [if_neg hzero] at hlist
          obtain ⟨bytes, _, hcopy⟩ := bind_eq_ok hlist
          obtain ⟨buf, _, hs'⟩ := bind_eq_ok hcopy
          cases hs'
          split_ifs
          · exact .of_answer hn rfl _ fun hu => Or.inl ⟨hu.data, hu.segmented⟩
          · exact .of_done_answer hn rfl _ fun hu => Or.inl ⟨hu.data, hu.segmented⟩

theorem sdoGetodlistcont_served (h : s.sdoGetodlistcont table = .ok s') :
    Served table alstatus s s' ∧ s'.box.data = s.box.data := by
  obtain ⟨_, _, hfail⟩ | ⟨n, hn⟩ := s.box.claimbuffer_cases
  · rw [sdoGetodlistcont, hfail] at h
    cases h
    exact ⟨.refl _, rfl⟩
  · rw [sdoGetodlistcont, hn.2] at h
    cases n with
    | inbox => exact absurd rfl hn.1
    | _ =>
        obtain ⟨bytes, _, hcopy⟩ := bind_eq_ok h
        obtain ⟨buf, _, hs'⟩ := bind_eq_ok hcopy
        cases hs'
        split_ifs
        · exact ⟨.of_answer hn rfl _ fun hu => Or.inl ⟨hu.data, hu.segmented⟩, rfl⟩
        · exact ⟨.of_done_answer hn rfl _ fun hu => Or.inl ⟨hu.data, hu.segmented⟩, rfl⟩

theorem sdoGetod_served (h : s.sdoGetod table = .ok s') : Served table alstatus s s' := by
  obtain ⟨nidx, _, hfound⟩ := bind_eq_ok h
  by_cases hnone : nidx < 0
  · rw [if_pos hnone] at hfound
    cases hfound
    exact served_sdoInfoerror ..
  rw [if_neg hnone] at hfound
  obtain ⟨_, _, hfail⟩ | ⟨n, hn⟩ := s.box.claimbuffer_cases
  · rw [hfail] at hfound
    cases hfound
    exact .refl _
  · rw [hn.2] at hfound
    cases n with
    | inbox => exact absurd rfl hn.1
    | _ =>
        obtain ⟨o, _, hitem⟩ := bind_eq_ok hfound
        obtain ⟨nsub, _, hsub⟩ := bind_eq_ok hitem
        obtain ⟨⟨datatype, maxsub⟩, _, hshape⟩ := bind_eq_ok hsub
        obtain ⟨buf, _, hs'⟩ := bind_eq_ok hshape
        cases hs'
        exact .of_answer_done hn rfl _ Or.inl

theorem sdoGeted_served (h : s.sdoGeted table = .ok s') : Served table alstatus s s' := by
  obtain ⟨found, _, hfound⟩ := bind_eq_ok h
  cases found with
  | noObject =>
      cases hfound
      exact served_sdoInfoerror ..
  | noSubindex =>
      cases hfound
      exact served_sdoInfoerror ..
  | found item nsub d =>
      dsimp only at hfound
      obtain ⟨_, _, hfail⟩ | ⟨n, hn⟩ := s.box.claimbuffer_cases
      · rw [hfail] at hfound
        cases hfound
        exact .refl _
      · rw [hn.2] at hfound
        cases n with
        | inbox => exact absurd rfl hn.1
        | _ =>
            obtain ⟨buf, _, hs'⟩ := bind_eq_ok hfound
            cases hs'
            exact .of_answer_done hn rfl _ Or.inl

/-! ### Requests -/

theorem acceptCoe_served (s : Server V) : Served table alstatus s (s.withBox (acceptCoe s.box)) := by
  have hrefl : Served table alstatus s s := .refl s
  rw [acceptCoe]
  split_ifs
  · exact .withBox (serves_respond ..) (transfer_respond ..)
  · exact .withBox (serves_transfer rfl) rfl
  · exact hrefl
  · exact hrefl

omit [DecidableEq V] in
theorem acceptCoe_transfer (m : Mailbox V) : (acceptCoe m).transfer = m.transfer := by
  rw [acceptCoe]
  split_ifs
  · exact transfer_respond ..
  · rfl
  · rfl
  · rfl

theorem rejectCoe_served (s : Server V) : Served table alstatus s (s.withBox (rejectCoe s.box)) := by
  rw [rejectCoe]
  split_ifs
  · exact .withBox ((serves_respond ..).trans (serves_done _))
      ((transfer_done _).trans (transfer_respond ..))
  · exact served_sdoAbort ..

theorem sdoRequest_served (h : s.sdoRequest table alstatus = .ok s') :
    Served table alstatus s s' := by
  rw [sdoRequest] at h
  split_ifs at h
  · exact sdoUploadCompleteAccess_served h
  · exact sdoUpload_served h
  · exact sdoUploadsegment_served h
  · exact sdoDownloadCompleteAccess_served h
  · exact sdoDownload_served h
  · exact sdoDownloadsegment_served h
  · cases h
    exact .refl _

theorem coeRequest_served (h : s.coeRequest table alstatus = .ok s') :
    Served table alstatus s s' := by
  rw [coeRequest] at h
  split_ifs at h
  · exact sdoRequest_served h
  · exact sdoGetodlist_served h
  · exact sdoGetod_served h
  · exact sdoGeted_served h
  · cases h
    exact rejectCoe_served s

theorem coeprocess_served (h : s.coeprocess table alstatus = .ok s') :
    Served table alstatus s s' := by
  rw [coeprocess] at h
  by_cases hrun : s.box.mbxRun = false
  · rw [if_pos hrun] at h
    cases h
    exact .refl _
  rw [if_neg hrun] at h
  obtain ⟨s₁, hlist, hrequest⟩ := bind_eq_ok h
  have hdata : (acceptCoe s.box).data = s.box.data := congrArg Transfer.data (acceptCoe_transfer _)
  have hcont : Served table alstatus (s.withBox (acceptCoe s.box)) s₁
      ∧ s₁.box.data = (acceptCoe s.box).data := by
    split_ifs at hlist
    · exact sdoGetodlistcont_served hlist
    · cases hlist
      exact ⟨.refl _, rfl⟩
  refine ((acceptCoe_served s).trans hcont.1 hdata).trans ?_ (hcont.2.trans hdata)
  split_ifs at hrequest
  · exact coeRequest_served hrequest
  · cases hrequest
    exact .refl _

/-- **The server only acts on the mailboxes as a service may.** -/
theorem coeprocess_serves (h : s.coeprocess table alstatus = .ok s') : Serves s.box s'.box :=
  (coeprocess_served h).serves

end Services

end Server

namespace Mailbox

theorem xoeprocess_serves (m : Mailbox V) : Serves m m.xoeprocess := by
  rw [xoeprocess]
  refine serves_ite .refl (serves_ite ?_ .refl)
  exact (serves_ite (serves_respond _ _) (serves_respond _ _)).tail .drop

theorem transfer_xoeprocess (m : Mailbox V) : m.xoeprocess.transfer = m.transfer := by
  rw [xoeprocess]
  split_ifs
  · rfl
  · -- the request that is dropped is no part of a transfer
    change (if (m.mbx .inbox).header.mbxtype = 0 ∨ (m.mbx .inbox).header.length = 0 then
      m.mbxError mbxerrInvalidheader else m.mbxError mbxerrUnsupportedprotocol).transfer = _
    split_ifs <;> exact transfer_respond ..
  · rfl

end Mailbox

end GalvoCtrl.Coe
