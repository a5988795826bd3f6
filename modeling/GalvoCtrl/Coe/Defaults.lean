import GalvoCtrl.Coe.GalvoPdo

/-!
# Coe — Defaults

The values that the variables of the dictionary start with (`COE_initDefaultValues` of
`esc_coe.c`).
-/

namespace GalvoCtrl.Coe

open GalvoCtrl.Lib

variable {V : Type} [DecidableEq V]

/-! ## The function -/

/-- One entry; a constant one is left out. -/
def initEntry (mem : Memory V) (d : ObjDesc V) : Except AccessFault (Memory V) :=
  match d.data with
  | none => .ok mem
  | some _ => coeSetValue mem d (d.value.setWidth 64)

/-- The loop over the descriptors of an object, up to the one with subindex `maxsub`. -/
def initEntries (maxsub : BitVec 8) :
    List (ObjDesc V) → Memory V → Except AccessFault (Memory V)
  | [], _ => .error (.dictionary .outsideDescriptors)
  | d :: ds, mem => do
      let mem ← initEntry mem d
      if d.subindex.toNat < maxsub.toNat then initEntries maxsub ds mem else return mem

/-- `COE_initDefaultValues`, without a hook. -/
def coeInitDefaultValues : List (ObjectItem V) → Memory V → Except AccessFault (Memory V)
  | [], _ => .error (.dictionary .outsideObjects)
  | o :: table, mem =>
      if o.index = 0xFFFF then .ok mem
      else do
        match o.objdesc with
        | none => throw (AccessFault.dictionary .nullDescriptors)
        | some ds =>
            let mem ← initEntries o.maxsub ds mem
            coeInitDefaultValues table mem

/-! ## The values -/

/-- The variables with the value of one entry; other data types are left alone. -/
def setDefault (mem : Memory V) (d : ObjDesc V) : Memory V :=
  match d.data, valueWidth d.datatype with
  | some v, some n => Function.update mem v (toBytes n (d.value.setWidth 64))
  | _, _ => mem

/-- An entry whose variable is as wide as its data type says. -/
def Settable (mem : Memory V) (d : ObjDesc V) : Prop :=
  ∀ v n, d.data = some v → valueWidth d.datatype = some n → (mem v).length = n

theorem setDefault_sizes {mem : Memory V} {d : ObjDesc V} (h : Settable mem d) :
    SameSizes mem (setDefault mem d) := by
  rw [setDefault]
  split
  · next v n hdata hwidth =>
      exact SameSizes.update (by rw [length_toBytes, h v n hdata hwidth])
  · exact fun _ => rfl

theorem initEntry_eq {mem : Memory V} {d : ObjDesc V} (h : Settable mem d) :
    initEntry mem d = .ok (setDefault mem d) := by
  rw [initEntry, setDefault]
  cases hdata : d.data with
  | none => rfl
  | some v =>
      dsimp only
      rw [coeSetValue]
      cases hwidth : valueWidth d.datatype with
      | none => rfl
      | some n =>
          have hlength := h v n hdata hwidth
          have hbytes : (toBytes n (d.value.setWidth 64)).length = (mem v).length := by
            rw [length_toBytes, hlength]
          simp only [dataOf, hdata, ok_bind']
          rw [writeVar, if_pos (by omega), overwrite_all hbytes]

theorem Settable.setDefault {mem : Memory V} {d d' : ObjDesc V} (h : Settable mem d)
    (h' : Settable mem d') : Settable (setDefault mem d') d := by
  intro v n hdata hwidth
  rw [setDefault_sizes h' v]
  exact h v n hdata hwidth

theorem settable_foldl {mem : Memory V} {ds : List (ObjDesc V)} (hset : ∀ d ∈ ds, Settable mem d)
    {d : ObjDesc V} (h : Settable mem d) : Settable (ds.foldl Coe.setDefault mem) d := by
  induction ds generalizing mem with
  | nil => exact h
  | cons d' ds ih =>
      have hd' := hset d' List.mem_cons_self
      exact ih (fun d hd => (hset d (List.mem_cons_of_mem d' hd)).setDefault hd') (h.setDefault hd')

/-- The loop ends at the last descriptor. -/
def Complete (maxsub : BitVec 8) : List (ObjDesc V) → Prop
  | [] => False
  | [d] => ¬d.subindex.toNat < maxsub.toNat
  | d :: ds => d.subindex.toNat < maxsub.toNat ∧ Complete maxsub ds

/-- One object: every entry, in their order. -/
theorem initEntries_eq {maxsub : BitVec 8} {ds : List (ObjDesc V)} (hall : Complete maxsub ds)
    {mem : Memory V} (hset : ∀ d ∈ ds, Settable mem d) :
    initEntries maxsub ds mem = .ok (ds.foldl setDefault mem) := by
  induction ds generalizing mem with
  | nil => exact hall.elim
  | cons d ds ih =>
      have hd := hset d List.mem_cons_self
      rw [initEntries, initEntry_eq hd, ok_bind', List.foldl_cons]
      cases ds with
      | nil =>
          rw [if_neg hall]
          rfl
      | cons d' ds =>
          rw [if_pos hall.1]
          exact ih hall.2 fun e he => (hset e (List.mem_cons_of_mem d he)).setDefault hd

/-- The entries of all objects in front of the terminator. -/
def allEntries (table : List (ObjectItem V)) : List (ObjDesc V) :=
  table.dropLast.flatMap fun o => o.objdesc.getD []

/-- **The variables get the values of their entries**, in the order of the table. -/
theorem coeInitDefaultValues_eq {table : List (ObjectItem V)} (h : IsTable table)
    (hall : ∀ o ∈ table.dropLast, Complete o.maxsub (o.objdesc.getD [])) {mem : Memory V}
    (hset : ∀ d ∈ allEntries table, Settable mem d) :
    coeInitDefaultValues table mem = .ok ((allEntries table).foldl setDefault mem) := by
  obtain ⟨t, hlast, htop, _⟩ := h.terminated
  have hsorted := h.sorted
  rw [← List.dropLast_append_getLast? t hlast] at hsorted ⊢
  have hobjects := h.objects
  rw [allEntries, List.dropLast_concat] at *
  -- no object but the last one has the index of the terminator
  have hindex : ∀ o ∈ table.dropLast, o.index ≠ 0xFFFF := by
    intro o ho heq
    have hlt : o.index.toNat < t.index.toNat :=
      (List.pairwise_append.mp hsorted).2.2 o ho t List.mem_cons_self
    rw [heq, htop] at hlt
    exact Nat.lt_irrefl _ hlt
  clear hsorted hlast h
  generalize table.dropLast = objects at *
  induction objects generalizing mem with
  | nil =>
      rw [List.nil_append, coeInitDefaultValues, if_pos htop]
      rfl
  | cons o objects ih =>
      obtain ⟨ds, hds, _⟩ := hobjects o List.mem_cons_self
      have hcomplete := hall o List.mem_cons_self
      rw [hds, Option.getD_some] at hcomplete
      rw [List.flatMap_cons, hds, Option.getD_some] at hset ⊢
      have hfirst : ∀ d ∈ ds, Settable mem d := fun d hd => hset d (List.mem_append_left _ hd)
      rw [List.cons_append, coeInitDefaultValues, if_neg (hindex o List.mem_cons_self), hds]
      simp only [initEntries_eq hcomplete hfirst, ok_bind', List.foldl_append]
      refine ih (fun o' ho' => hall o' (List.mem_cons_of_mem o ho')) (fun d hd => ?_)
        (fun o' ho' => hobjects o' (List.mem_cons_of_mem o ho'))
        (fun o' ho' => hindex o' (List.mem_cons_of_mem o ho'))
      exact settable_foldl hfirst (hset d (List.mem_append_right ds hd))

/-! ## The galvo controller -/

theorem settable_galvoObjects {mem : Memory GalvoVar} (h : GalvoSizes mem) :
    ∀ d ∈ allEntries galvoObjects, Settable mem d := by
  have hwidths : ∀ d ∈ allEntries galvoObjects, ∀ v, d.data = some v →
      ∀ n, valueWidth d.datatype = some n → (OdVariables.initial.memory v).length = n := by
    intro d hd v hv n hn
    have hcheck : ((allEntries galvoObjects).all fun d => d.data.all fun v =>
        (valueWidth d.datatype).all fun n =>
          decide ((OdVariables.initial.memory v).length = n)) = true := by decide
    have := List.all_eq_true.mp hcheck d hd
    rw [hv, hn] at this
    exact of_decide_eq_true this
  intro d hd v n hv hn
  rw [h v]
  exact hwidths d hd v hv n hn

theorem complete_galvoObjects :
    ∀ o ∈ galvoObjects.dropLast, Complete o.maxsub (o.objdesc.getD []) := by
  intro o ho
  simp only [galvoObjects, List.dropLast_cons_cons, List.dropLast_singleton, List.mem_cons,
    List.not_mem_nil, or_false] at ho
  rcases ho with rfl | rfl | rfl | rfl | rfl | rfl | rfl | rfl | rfl <;>
    simp [Complete, constEntry, mappingEntry, inputEntry, outputEntry]

/-- **The controller starts with its mapping assigned** and with zeros in the process
data. -/
theorem coeInitDefaultValues_galvoObjects {mem : Memory GalvoVar} (h : GalvoSizes mem) :
    ∃ mem', coeInitDefaultValues galvoObjects mem = .ok mem'
      ∧ mem' .deviceName = mem .deviceName
      ∧ ∀ v, v ≠ .deviceName → mem' v = OdVariables.initial.memory v := by
  refine ⟨_, coeInitDefaultValues_eq isTable_galvoObjects complete_galvoObjects
    (settable_galvoObjects h), rfl, fun v hv => ?_⟩
  cases v with
  | deviceName => exact absurd rfl hv
  | rx field => cases field <;> rfl
  | tx field => cases field <;> rfl
  | _ => rfl

end GalvoCtrl.Coe
