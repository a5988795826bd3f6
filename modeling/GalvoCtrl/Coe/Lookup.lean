import GalvoCtrl.Coe.Objects
import GalvoCtrl.Coe.ReadValue

/-!
# Coe — Lookup

An index and a subindex are looked up by `SDO_findobject` and then `SDO_findsubindex`,
everywhere in the same way (`lookup`). In a table that is one, that finds the entry with
the two numbers, whatever the variables hold. Only the index of the terminator leads
through its NULL descriptors.
-/

namespace GalvoCtrl.Coe

open GalvoCtrl.Lib

variable {V : Type}

/-! ## Looking up -/

/-- What the two searches come to. -/
inductive Lookup (V : Type) where
  | noObject
  | noSubindex
  | found (item : ObjectItem V) (nsub : Nat) (desc : ObjDesc V)
deriving DecidableEq

/-- `SDO_findobject`, then `SDO_findsubindex`. -/
def lookup (mem : Memory V) (table : List (ObjectItem V)) (index : BitVec 16)
    (subindex : BitVec 8) : Except AccessFault (Lookup V) := do
  let nidx ← ofSearch (sdoFindobject (snapshot mem table) index)
  if nidx < 0 then return .noObject
  else
    let nsub ← ofSearch (sdoFindsubindex (snapshot mem table) nidx.toNat subindex)
    if nsub < 0 then return .noSubindex
    else
      let o ← itemAt table nidx.toNat
      let d ← descAt o.objdesc nsub.toNat
      return .found o nsub.toNat d

/-- `SDO_findobject`, for the object itself. -/
def lookupObject (mem : Memory V) (table : List (ObjectItem V)) (index : BitVec 16) :
    Except AccessFault (Option (ObjectItem V)) := do
  let nidx ← ofSearch (sdoFindobject (snapshot mem table) index)
  if nidx < 0 then return none
  else
    let o ← itemAt table nidx.toNat
    return some o

/-! ## Tables -/

/-- A table of objects and a terminator, in the order of their indices, each object with
the descriptors it says it has. -/
structure IsTable (table : List (ObjectItem V)) : Prop where
  sorted : SortedBy (fun o => o.index.toNat) table
  terminated : ∃ t, table.getLast? = some t ∧ t.index = 0xFFFF ∧ t.objdesc = none
  objects : ∀ o ∈ table.dropLast, ∃ ds, o.objdesc = some ds ∧ ds.length = o.maxsub.toNat + 1
    ∧ SortedBy (fun d => d.subindex.toNat) ds ∧ ∀ d ∈ ds, d.data = none → d.bitlength.toNat ≤ 32

/-- The object with an index. -/
def object? (table : List (ObjectItem V)) (index : BitVec 16) : Option (ObjectItem V) :=
  table.find? fun o => o.index == index

/-- The descriptor with a subindex. -/
def desc? (ds : List (ObjDesc V)) (subindex : BitVec 8) : Option (ObjDesc V) :=
  ds.find? fun d => d.subindex == subindex.setWidth 16

/-- The entry with an index and a subindex. -/
def tableEntry (table : List (ObjectItem V)) (index : BitVec 16) (subindex : BitVec 8) :
    Option (ObjDesc V) :=
  match object? table index with
  | none => none
  | some o => desc? (o.objdesc.getD []) subindex

theorem object?_eq_some {table : List (ObjectItem V)} (h : IsTable table) {o : ObjectItem V}
    {index : BitVec 16} : object? table index = some o ↔ o ∈ table ∧ o.index = index := by
  constructor
  · intro hfind
    exact ⟨List.mem_of_find?_eq_some hfind, by simpa using List.find?_some hfind⟩
  · rintro ⟨ho, hindex⟩
    cases hfind : object? table index with
    | none =>
        have := List.find?_eq_none.mp hfind o ho
        simp [hindex] at this
    | some o' =>
        have hindex' : o'.index = index := by simpa using List.find?_some hfind
        rw [h.sorted.unique (List.mem_of_find?_eq_some hfind) ho
          (congrArg BitVec.toNat (hindex'.trans hindex.symm))]

theorem desc?_eq_some {ds : List (ObjDesc V)} (h : SortedBy (fun d => d.subindex.toNat) ds)
    {d : ObjDesc V} {subindex : BitVec 8} :
    desc? ds subindex = some d ↔ d ∈ ds ∧ d.subindex = subindex.setWidth 16 := by
  constructor
  · intro hfind
    exact ⟨List.mem_of_find?_eq_some hfind, by simpa using List.find?_some hfind⟩
  · rintro ⟨hd, hsub⟩
    cases hfind : desc? ds subindex with
    | none =>
        have := List.find?_eq_none.mp hfind d hd
        simp [hsub] at this
    | some d' =>
        have hsub' : d'.subindex = subindex.setWidth 16 := by simpa using List.find?_some hfind
        rw [h.unique (List.mem_of_find?_eq_some hfind) hd
          (congrArg BitVec.toNat (hsub'.trans hsub.symm))]

/-- **The dictionary of the galvo controller is such a table.** -/
theorem isTable_galvoObjects : IsTable galvoObjects where
  sorted := by
    have h : (galvoObjects.map fun o => o.index.toNat).Pairwise (· < ·) := by decide
    exact List.pairwise_map.mp h
  terminated := ⟨_, rfl, rfl, rfl⟩
  objects := by
    have hobject : ∀ {index objtype : BitVec 16} {maxsub : BitVec 8} {name : String}
        {ds : List (ObjDesc GalvoVar)},
        ds.map (fun d => d.subindex.toNat) = List.range (maxsub.toNat + 1) →
        (∀ d ∈ ds, d.data = none → d.bitlength.toNat ≤ 32) →
        ∃ ds', (⟨index, objtype, maxsub, name, some ds⟩ : ObjectItem GalvoVar).objdesc = some ds'
          ∧ ds'.length = maxsub.toNat + 1 ∧ SortedBy (fun d => d.subindex.toNat) ds'
          ∧ ∀ d ∈ ds', d.data = none → d.bitlength.toNat ≤ 32 := by
      intro index objtype maxsub name ds hmap hnarrow
      refine ⟨ds, rfl, ?_, ?_, hnarrow⟩
      · rw [← List.length_map (fun d => d.subindex.toNat), hmap, List.length_range]
      · rw [SortedBy, ← List.pairwise_map (f := fun d : ObjDesc GalvoVar => d.subindex.toNat)
          (R := (· < ·)), hmap]
        exact List.pairwise_lt_range
    intro o ho
    simp only [galvoObjects, List.dropLast_cons_cons, List.dropLast_singleton, List.mem_cons,
      List.not_mem_nil, or_false] at ho
    rcases ho with rfl | rfl | rfl | rfl | rfl | rfl | rfl | rfl | rfl <;>
      exact hobject rfl (by decide)

section Table

variable {table : List (ObjectItem V)}

@[simp] theorem length_snapshot (mem : Memory V) : (snapshot mem table).length = table.length :=
  List.length_map ..

theorem getElem?_snapshot (mem : Memory V) (n : Nat) :
    (snapshot mem table)[n]? = table[n]?.map (ObjectItem.snapshot mem) := List.getElem?_map ..

/-- At any values of the variables it is a dictionary. -/
theorem IsTable.isDictionary (h : IsTable table) (mem : Memory V) :
    IsDictionary (snapshot mem table) where
  sorted := List.pairwise_map.mpr h.sorted
  terminated := by
    obtain ⟨t, hlast, htop, hnull⟩ := h.terminated
    refine ⟨t.snapshot mem, ?_, htop, by rw [ObjectItem.snapshot, hnull]; rfl⟩
    rw [snapshot, List.getLast?_map, hlast]
    rfl
  objects := by
    intro e he
    rw [snapshot, ← List.map_dropLast] at he
    obtain ⟨o, ho, rfl⟩ := List.mem_map.mp he
    obtain ⟨ds, hds, hlength, hsorted, hnarrow⟩ := h.objects o ho
    refine ⟨ds.map (ObjDesc.snapshot mem), ?_, ?_, List.pairwise_map.mpr hsorted, ?_⟩
    · rw [ObjectItem.snapshot, hds]
      rfl
    · rw [List.length_map, hlength]
      rfl
    · intro e he hdata
      obtain ⟨d, hd, rfl⟩ := List.mem_map.mp he
      exact hnarrow d hd (Option.map_eq_none_iff.mp hdata)

theorem itemAt_of {n : Nat} {o : ObjectItem V} (h : table[n]? = some o) :
    itemAt table n = .ok o := by
  rw [itemAt, h]

theorem descAt_of {ds : List (ObjDesc V)} {n : Nat} {d : ObjDesc V} (h : ds[n]? = some d) :
    descAt (some ds) n = .ok d := by
  rw [descAt, h]

/-- `SDO_findobject` in the table. -/
theorem IsTable.findobject (h : IsTable table) (mem : Memory V) (index : BitVec 16) :
    (∃ (n : Nat) (o : ObjectItem V), table[n]? = some o ∧ object? table index = some o
        ∧ sdoFindobject (snapshot mem table) index = .ok n)
      ∨ (object? table index = none
        ∧ sdoFindobject (snapshot mem table) index = .ok (-1)) := by
  obtain ⟨n, e, hread, hindex, hfind⟩ | ⟨hnone, hfind⟩ :=
    sdoFindobject_spec (h.isDictionary mem) index
  · rw [getElem?_snapshot] at hread
    obtain ⟨o, ho, rfl⟩ := Option.map_eq_some_iff.mp hread
    exact Or.inl ⟨n, o, ho,
      (object?_eq_some h).mpr ⟨List.mem_of_getElem? ho, hindex⟩, hfind⟩
  · refine Or.inr ⟨List.find?_eq_none.mpr fun o ho => ?_, hfind⟩
    have hne : o.index ≠ index := hnone (o.snapshot mem) (List.mem_map_of_mem ho)
    simpa using hne

/-- Any object but the terminator has its descriptors. -/
theorem IsTable.descriptors (h : IsTable table) {o : ObjectItem V} (ho : o ∈ table)
    (hindex : o.index ≠ 0xFFFF) :
    ∃ ds, o.objdesc = some ds ∧ ds.length = o.maxsub.toNat + 1
      ∧ SortedBy (fun d => d.subindex.toNat) ds
      ∧ ∀ d ∈ ds, d.data = none → d.bitlength.toNat ≤ 32 := by
  obtain ⟨t, hlast, htop, _⟩ := h.terminated
  rw [← List.dropLast_append_getLast? t hlast] at ho
  rcases List.mem_append.mp ho with ho | ho
  · exact h.objects o ho
  · rw [List.mem_singleton.mp ho] at hindex
    exact absurd htop hindex

/-- `SDO_findsubindex` in an object. -/
theorem IsTable.findsubindex (h : IsTable table) (mem : Memory V) {n : Nat} {o : ObjectItem V}
    (hread : table[n]? = some o) (hindex : o.index ≠ 0xFFFF) (subindex : BitVec 8) :
    ∃ ds, o.objdesc = some ds ∧
      ((∃ (k : Nat) (d : ObjDesc V), ds[k]? = some d ∧ desc? ds subindex = some d
          ∧ sdoFindsubindex (snapshot mem table) n subindex = .ok k)
        ∨ (desc? ds subindex = none
          ∧ sdoFindsubindex (snapshot mem table) n subindex = .ok (-1))) := by
  obtain ⟨ds, hds, hlength, hsorted, hnarrow⟩ :=
    h.descriptors (List.mem_of_getElem? hread) hindex
  refine ⟨ds, hds, ?_⟩
  have hobject : IsObject (o.snapshot mem) (ds.map (ObjDesc.snapshot mem)) := by
    refine ⟨by rw [ObjectItem.snapshot, hds]; rfl, by rw [List.length_map, hlength]; rfl,
      List.pairwise_map.mpr hsorted, fun e he hdata => ?_⟩
    obtain ⟨d, hd, rfl⟩ := List.mem_map.mp he
    exact hnarrow d hd (Option.map_eq_none_iff.mp hdata)
  obtain ⟨k, e, he, hsub, hfind⟩ | ⟨hnone, hfind⟩ :=
    sdoFindsubindex_spec (by rw [getElem?_snapshot, hread]; rfl) hobject subindex
  · rw [List.getElem?_map] at he
    obtain ⟨d, hd, rfl⟩ := Option.map_eq_some_iff.mp he
    exact Or.inl ⟨k, d, hd,
      (desc?_eq_some hsorted).mpr ⟨List.mem_of_getElem? hd, hsub⟩, hfind⟩
  · refine Or.inr ⟨List.find?_eq_none.mpr fun d hd => ?_, hfind⟩
    have hne : d.subindex ≠ subindex.setWidth 16 :=
      hnone (d.snapshot mem) (List.mem_map_of_mem hd)
    simpa using hne

/-- **What a lookup finds** does not depend on the variables. -/
theorem IsTable.lookup (h : IsTable table) (mem : Memory V) {index : BitVec 16}
    (hindex : index ≠ 0xFFFF) (subindex : BitVec 8) :
    (object? table index = none ∧ Coe.lookup mem table index subindex = .ok .noObject)
      ∨ (∃ o, object? table index = some o ∧ tableEntry table index subindex = none
        ∧ Coe.lookup mem table index subindex = .ok .noSubindex)
      ∨ ∃ o ds nsub d, object? table index = some o ∧ o.objdesc = some ds
        ∧ ds[nsub]? = some d ∧ tableEntry table index subindex = some d
        ∧ Coe.lookup mem table index subindex = .ok (.found o nsub d) := by
  obtain ⟨n, o, hread, hobject, hfind⟩ | ⟨hnone, hfind⟩ := h.findobject mem index
  · have hitem : o.index ≠ 0xFFFF := by
      rwa [((object?_eq_some h).mp hobject).2]
    have hentry : tableEntry table index subindex = desc? (o.objdesc.getD []) subindex := by
      rw [tableEntry, hobject]
    obtain ⟨ds, hds, ⟨k, d, hd, hdesc, hsub⟩ | ⟨hdesc, hsub⟩⟩ :=
      h.findsubindex mem hread hitem subindex
    · rw [hds, Option.getD_some, hdesc] at hentry
      refine Or.inr (Or.inr ⟨o, ds, k, d, hobject, hds, hd, hentry, ?_⟩)
      rw [Coe.lookup, hfind, ofSearch, ok_bind', if_neg (by omega), Int.toNat_natCast, hsub,
        ofSearch, ok_bind', if_neg (by omega), itemAt_of hread, ok_bind', hds,
        Int.toNat_natCast, descAt_of hd, ok_bind']
      rfl
    · rw [hds, Option.getD_some, hdesc] at hentry
      refine Or.inr (Or.inl ⟨o, hobject, hentry, ?_⟩)
      rw [Coe.lookup, hfind, ofSearch, ok_bind', if_neg (by omega), Int.toNat_natCast, hsub,
        ofSearch, ok_bind', if_pos (by omega)]
      rfl
  · refine Or.inl ⟨hnone, ?_⟩
    rw [Coe.lookup, hfind, ofSearch, ok_bind', if_pos (by omega)]
    rfl

theorem IsTable.lookupObject (h : IsTable table) (mem : Memory V) (index : BitVec 16) :
    Coe.lookupObject mem table index = .ok (object? table index) := by
  obtain ⟨n, o, hread, hobject, hfind⟩ | ⟨hnone, hfind⟩ := h.findobject mem index
  · rw [Coe.lookupObject, hfind, ofSearch, ok_bind', if_neg (by omega), Int.toNat_natCast,
      itemAt_of hread, ok_bind', hobject]
    rfl
  · rw [Coe.lookupObject, hfind, ofSearch, ok_bind', if_pos (by omega), hnone]
    rfl

end Table

end GalvoCtrl.Coe
