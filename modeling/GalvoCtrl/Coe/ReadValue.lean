import Mathlib.Data.Nat.Basic
import GalvoCtrl.Coe.GalvoOd
import GalvoCtrl.Lib.SortedSearch

/-!
# Coe — ReadValue

Reads of the object dictionary, for any request. Both searches end inside their arrays,
since the table ends in the largest index there is and an object says how many
descriptors it has. But the terminator has an index like any other, and a request for it
is answered through its descriptor list, which is NULL.
-/

namespace GalvoCtrl.Coe

open GalvoCtrl.Lib

/-! ## Dictionaries -/

/-- What the objects are sorted by. -/
def ObjectEntry.key (o : ObjectEntry) : Nat := o.index.toNat

/-- What the descriptors are sorted by. -/
def Objd.key (d : Objd) : Nat := d.subindex.toNat

/-- The descriptors of an object. -/
structure IsObject (o : ObjectEntry) (ds : List Objd) : Prop where
  objdesc : o.objdesc = some ds
  length : ds.length = o.maxsub.toNat + 1
  sorted : SortedBy Objd.key ds
  narrow : ∀ d ∈ ds, d.data = none → d.bitlength.toNat ≤ 32

/-- A table of objects and a terminator, in the order of their indices. -/
structure IsDictionary (table : List ObjectEntry) : Prop where
  sorted : SortedBy ObjectEntry.key table
  terminated : ∃ t, table.getLast? = some t ∧ t.index = 0xFFFF ∧ t.objdesc = none
  objects : ∀ o ∈ table.dropLast, ∃ ds, IsObject o ds

/-- `d` is the entry that the request names. The terminator has none. -/
def Names (table : List ObjectEntry) (index : BitVec 16) (subindex : BitVec 8) (d : Objd) :
    Prop :=
  ∃ o ∈ table.dropLast, ∃ ds, o.objdesc = some ds ∧ o.index = index ∧ d ∈ ds
    ∧ d.subindex = subindex.setWidth 16

/-- **The dictionary of the galvo controller is one**, whatever its variables hold. -/
theorem isDictionary_sdoObjects (m : OdVariables) : IsDictionary (sdoObjects m) where
  sorted := by
    have h : ((sdoObjects m).map ObjectEntry.key).Pairwise (· < ·) := by
      show [0x1000, 0x1008, 0x1018, 0x1600, 0x1A00, 0x1C12, 0x1C13, 0x6000, 0x7000, 0xFFFF].Pairwise
        (· < ·)
      decide
    exact List.pairwise_map.mp h
  terminated := ⟨_, rfl, rfl, rfl⟩
  objects := by
    have hobject : ∀ {index : BitVec 16} {maxsub : BitVec 8} {ds : List Objd},
        ds.map Objd.key = List.range (maxsub.toNat + 1) →
        (∀ d ∈ ds, d.data = none → d.bitlength.toNat ≤ 32) →
        ∃ ds', IsObject ⟨index, maxsub, some ds⟩ ds' := by
      intro index maxsub ds hmap hnarrow
      refine ⟨ds, rfl, ?_, ?_, hnarrow⟩
      · rw [← List.length_map Objd.key, hmap, List.length_range]
      · rw [SortedBy, ← List.pairwise_map (f := Objd.key) (R := (· < ·)),
          hmap]
        exact List.pairwise_lt_range
    intro o ho
    simp only [sdoObjects, List.dropLast_cons_cons, List.dropLast_singleton, List.mem_cons,
      List.not_mem_nil, or_false] at ho
    rcases ho with rfl | rfl | rfl | rfl | rfl | rfl | rfl | rfl | rfl <;>
      exact hobject rfl (by simp [obj1000, obj1008, obj1018, obj1600, obj1a00, obj1c12, obj1c13,
        obj6000, obj7000, literal, pointer])

/-! ## The searches -/

@[simp] theorem ok_bind {α β : Type} (a : α) (f : α → Except Fault β) :
    (Except.ok a >>= f) = f a := rfl

@[simp] theorem error_bind {α β : Type} (e : Fault) (f : α → Except Fault β) :
    (Except.error e >>= f) = .error e := rfl

theorem objectAt_of {table : List ObjectEntry} {n : Nat} {o : ObjectEntry}
    (h : table[n]? = some o) : objectAt table n = .ok o := by
  rw [objectAt, h]

theorem descriptorAt_of {ds : List Objd} {n : Nat} {d : Objd} (h : ds[n]? = some d) :
    descriptorAt (some ds) n = .ok d := by
  rw [descriptorAt, h]

/-- Any access through NULL. -/
@[simp] theorem descriptorAt_none (n : Nat) : descriptorAt none n = .error .nullDescriptors := rfl

theorem findobjectLoop_eq (index : BitVec 16) {rest : List ObjectEntry} (n : Nat)
    (h : lowerBound ObjectEntry.key index.toNat rest < rest.length) :
    findobjectLoop index rest n
      = .ok (n + lowerBound ObjectEntry.key index.toNat rest) := by
  induction rest generalizing n with
  | nil => exact absurd h (Nat.not_lt_zero _)
  | cons o rest ih =>
      rw [findobjectLoop]
      by_cases hlt : o.index < index
      · have hkey : o.key < index.toNat := BitVec.lt_def.mp hlt
        rw [lowerBound_cons_of_lt hkey] at h ⊢
        rw [if_pos hlt, ih _ (Nat.lt_of_succ_lt_succ h), Nat.add_right_comm, Nat.add_assoc]
      · have hkey : index.toNat ≤ o.key := Nat.not_lt.mp fun hn => hlt (BitVec.lt_def.mpr hn)
        rw [if_neg hlt, lowerBound_cons_of_le hkey, Nat.add_zero]

/-- **`SDO_findobject` stays inside the table** and finds the index if it is there, the
terminator's included. -/
theorem sdoFindobject_spec {table : List ObjectEntry} (h : IsDictionary table)
    (index : BitVec 16) :
    (∃ (n : Nat) (o : ObjectEntry), table[n]? = some o ∧ o.index = index
        ∧ sdoFindobject table index = .ok n)
      ∨ ((∀ o ∈ table, o.index ≠ index) ∧ sdoFindobject table index = .ok (-1)) := by
  obtain ⟨t, hlast, htop, _⟩ := h.terminated
  have hmem : t ∈ table := List.mem_of_getLast? hlast
  -- no index is above that of the terminator
  have hend : lowerBound ObjectEntry.key index.toNat table
      < table.length := by
    refine List.findIdx_lt_length_of_exists ⟨t, hmem, decide_eq_true ?_⟩
    have := index.isLt
    rw [ObjectEntry.key, htop]
    show index.toNat ≤ 65535
    omega
  have hloop := findobjectLoop_eq index 0 hend
  rw [Nat.zero_add] at hloop
  have hread := objectAt_of (List.getElem?_eq_getElem hend)
  rw [sdoFindobject, hloop, ok_bind, hread, ok_bind]
  by_cases hfound : ∃ o ∈ table, o.index = index
  · obtain ⟨o, ho, hindex⟩ := hfound
    obtain ⟨i, hi⟩ := List.mem_iff_getElem?.mp ho
    have hstop := lowerBound_eq h.sorted hi (congrArg BitVec.toNat hindex)
    obtain ⟨_, helem⟩ := List.getElem?_eq_some_iff.mp hi
    refine Or.inl ⟨i, o, hi, hindex, ?_⟩
    simp only [hstop, helem, hindex, ne_eq, not_true_eq_false, if_false]
    rfl
  · have hnone : ∀ o ∈ table, o.index ≠ index := fun o ho hindex => hfound ⟨o, ho, hindex⟩
    exact Or.inr ⟨hnone, if_pos (hnone _ (List.getElem_mem hend))⟩

/-- A subindex of a request, among those of the descriptors. -/
theorem toNat_subindex (subindex : BitVec 8) :
    (subindex.setWidth 16).toNat = subindex.toNat := by
  rw [BitVec.toNat_setWidth]
  have := subindex.isLt
  omega

theorem findsubindexLoop_eq (subindex : BitVec 8) {ds : List Objd} (left : Nat) :
    ∀ n, n + left + 1 = ds.length → findsubindexLoop (some ds) subindex left n
      = .ok (n + min left (lowerBound Objd.key subindex.toNat
          (ds.drop n))) := by
  induction left with
  | zero =>
      intro n hn
      have hread := descriptorAt_of (List.getElem?_eq_getElem (show n < ds.length by omega))
      rw [findsubindexLoop, hread, ok_bind, Nat.zero_min]
      rfl
  | succ left ih =>
      intro n hn
      have hlt : n < ds.length := by omega
      have hread := descriptorAt_of (List.getElem?_eq_getElem hlt)
      rw [findsubindexLoop, hread, ok_bind, List.drop_eq_getElem_cons hlt]
      by_cases hbelow : ds[n].subindex < subindex.setWidth 16
      · have hkey : ds[n].key < subindex.toNat := by
          rw [← toNat_subindex]
          exact BitVec.lt_def.mp hbelow
        rw [if_pos hbelow, ih (n + 1) (by omega), lowerBound_cons_of_lt hkey]
        congr 1
        omega
      · have hkey : subindex.toNat ≤ ds[n].key := by
          rw [← toNat_subindex]
          exact Nat.not_lt.mp fun hn => hbelow (BitVec.lt_def.mpr hn)
        rw [if_neg hbelow, lowerBound_cons_of_le hkey, Nat.min_zero]
        rfl

theorem searchSubindex_spec {o : ObjectEntry} {ds : List Objd} (ho : IsObject o ds)
    (subindex : BitVec 8) :
    (∃ (n : Nat) (d : Objd), ds[n]? = some d ∧ d.subindex = subindex.setWidth 16
        ∧ searchSubindex (some ds) o.maxsub subindex = .ok n)
      ∨ ((∀ d ∈ ds, d.subindex ≠ subindex.setWidth 16)
        ∧ searchSubindex (some ds) o.maxsub subindex = .ok (-1)) := by
  have hloop := findsubindexLoop_eq subindex o.maxsub.toNat 0
    (by rw [ho.length, Nat.zero_add])
  rw [Nat.zero_add, List.drop_zero] at hloop
  have hend : min o.maxsub.toNat (lowerBound Objd.key subindex.toNat ds) < ds.length := by
    rw [ho.length]
    omega
  rw [searchSubindex, hloop, ok_bind, descriptorAt_of (List.getElem?_eq_getElem hend), ok_bind]
  by_cases hfound : ∃ d ∈ ds, d.subindex = subindex.setWidth 16
  · obtain ⟨d, hd, hsub⟩ := hfound
    obtain ⟨i, hi⟩ := List.mem_iff_getElem?.mp hd
    obtain ⟨hlt, helem⟩ := List.getElem?_eq_some_iff.mp hi
    have hkey : d.key = subindex.toNat := by rw [Objd.key, hsub, toNat_subindex]
    have hstop : min o.maxsub.toNat (lowerBound Objd.key subindex.toNat ds) = i := by
      rw [lowerBound_eq ho.sorted hi hkey]
      have := ho.length
      omega
    refine Or.inl ⟨i, d, hi, hsub, ?_⟩
    simp only [hstop, helem, hsub, ne_eq, not_true_eq_false, if_false]
    rfl
  · have hnone : ∀ d ∈ ds, d.subindex ≠ subindex.setWidth 16 :=
      fun d hd hsub => hfound ⟨d, hd, hsub⟩
    exact Or.inr ⟨hnone, if_pos (hnone _ (List.getElem_mem hend))⟩

/-- **`SDO_findsubindex` stays inside the descriptors** of an object and finds the
subindex if it is there. -/
theorem sdoFindsubindex_spec {table : List ObjectEntry} {nidx : Nat} {o : ObjectEntry}
    {ds : List Objd} (hread : table[nidx]? = some o) (ho : IsObject o ds)
    (subindex : BitVec 8) :
    (∃ (n : Nat) (d : Objd), ds[n]? = some d ∧ d.subindex = subindex.setWidth 16
        ∧ sdoFindsubindex table nidx subindex = .ok n)
      ∨ ((∀ d ∈ ds, d.subindex ≠ subindex.setWidth 16)
        ∧ sdoFindsubindex table nidx subindex = .ok (-1)) := by
  have hsearch := searchSubindex_spec ho subindex
  rw [sdoFindsubindex, objectAt_of hread, ok_bind, ho.objdesc]
  by_cases hle : subindex ≤ o.maxsub
  · have hlt : subindex.toNat < ds.length := by
      have := BitVec.le_def.mp hle
      rw [ho.length]
      omega
    have hd := List.getElem?_eq_getElem hlt
    rw [if_pos hle, descriptorAt_of hd, ok_bind]
    by_cases hdirect : ds[subindex.toNat].subindex = subindex.setWidth 16
    · rw [if_pos hdirect]
      exact Or.inl ⟨_, _, hd, hdirect, rfl⟩
    · rw [if_neg hdirect]
      exact hsearch
  · rw [if_neg hle]
    exact hsearch

/-! ## One read -/

theorem readDescriptor_ret {d : Objd} (hnarrow : d.data = none → d.bitlength.toNat ≤ 32)
    (outbuf : Option Bytes) (outlen : Option Nat) :
    (readDescriptor d outbuf outlen).ret = 0
      ↔ ∃ len, outlen = some len ∧ (outbuf.isSome → d.bytes ≤ len) := by
  cases outlen with
  | none => simp [readDescriptor]
  | some len =>
      cases outbuf with
      | none => simp [readDescriptor]
      | some buf =>
          rw [readDescriptor]
          by_cases hshort : len < d.bytes
          · simp [hshort]
          · have hfits : d.bytes ≤ len := Nat.not_lt.mp hshort
            cases hdata : d.data with
            | some data => simp [hshort, hfits]
            | none =>
                have hbytes : d.bytes ≤ 4 := by
                  have := hnarrow hdata
                  rw [Objd.bytes]
                  omega
                simp [hshort, hfits, hbytes]

/-- A failed read leaves everything as it was. -/
theorem readDescriptor_unchanged {d : Objd} {outbuf : Option Bytes} {outlen : Option Nat}
    (h : (readDescriptor d outbuf outlen).ret ≠ 0) :
    (readDescriptor d outbuf outlen).outbuf = outbuf
      ∧ (readDescriptor d outbuf outlen).outlen = outlen := by
  cases outlen with
  | none => exact ⟨rfl, rfl⟩
  | some len =>
      cases outbuf with
      | none => exact absurd rfl h
      | some buf =>
          rw [readDescriptor] at h ⊢
          by_cases hshort : len < d.bytes
          · rw [if_pos hshort]
            exact ⟨rfl, rfl⟩
          · rw [if_neg hshort] at h ⊢
            cases hdata : d.data with
            | some data =>
                rw [hdata] at h
                exact absurd rfl h
            | none =>
                rw [hdata] at h
                dsimp only at h ⊢
                split at h
                · exact absurd rfl h
                · next hwide =>
                    rw [if_neg hwide]
                    exact ⟨rfl, rfl⟩

/-- **A size query and a read** with the capacity it tells. -/
theorem readDescriptor_query {d : Objd} (hnarrow : d.data = none → d.bitlength.toNat ≤ 32)
    (len : Nat) (buf : Bytes) :
    readDescriptor d none (some len) = ⟨0, none, some d.bytes⟩
      ∧ ∃ buf', readDescriptor d (some buf) (some d.bytes) = ⟨0, some buf', some d.bytes⟩ := by
  refine ⟨rfl, ?_⟩
  rw [readDescriptor, if_neg (lt_irrefl _)]
  cases hdata : d.data with
  | some data => exact ⟨_, rfl⟩
  | none =>
      have hbytes : d.bytes ≤ 4 := by
        have := hnarrow hdata
        rw [Objd.bytes]
        omega
      exact ⟨_, if_pos hbytes⟩

/-! ## Requests -/

/-- A request is answered as it should be: no access faults, it succeeds if it names an
entry and there is room for it, a size query tells the room, and a failure changes
nothing. -/
structure Answers (table : List ObjectEntry) (index : BitVec 16) (subindex : BitVec 8)
    (outbuf : Option Bytes) (outlen : Option Nat) : Prop where
  safe : ∃ r, getObjectDictionaryValue table index subindex outbuf outlen = .ok r
  success : ∀ r, getObjectDictionaryValue table index subindex outbuf outlen = .ok r →
    (r.ret = 0 ↔ ∃ d, Names table index subindex d
      ∧ ∃ len, outlen = some len ∧ (outbuf.isSome → d.bytes ≤ len))
  unchanged : ∀ r, getObjectDictionaryValue table index subindex outbuf outlen = .ok r →
    r.ret ≠ 0 → r.outbuf = outbuf ∧ r.outlen = outlen
  query : ∀ len r, getObjectDictionaryValue table index subindex none (some len) = .ok r →
    r.ret = 0 → ∃ size, r.outlen = some size ∧ ∀ buf, ∃ buf',
      getObjectDictionaryValue table index subindex (some buf) (some size)
        = .ok ⟨0, some buf', some size⟩

section Dictionary

variable {table : List ObjectEntry}

/-- An index belongs to one object. -/
theorem IsDictionary.object_unique (h : IsDictionary table) {o o' : ObjectEntry} (ho : o ∈ table)
    (ho' : o' ∈ table) (hindex : o.index = o'.index) : o = o' :=
  h.sorted.unique ho ho' (congrArg BitVec.toNat hindex)

/-- The terminator is the one with the largest index. -/
theorem IsDictionary.mem_dropLast_iff (h : IsDictionary table) {o : ObjectEntry}
    (ho : o ∈ table) : o ∈ table.dropLast ↔ o.index ≠ 0xFFFF := by
  obtain ⟨t, hlast, htop, hnull⟩ := h.terminated
  have hsplit : table.dropLast ++ [t] = table := List.dropLast_append_getLast? t hlast
  constructor
  · intro hobject hindex
    obtain ⟨ds, hds⟩ := h.objects o hobject
    have hsame : o = t :=
      h.object_unique ho (List.mem_of_getLast? hlast) (hindex.trans htop.symm)
    have hnone := hds.objdesc
    rw [hsame, hnull] at hnone
    cases hnone
  · intro hindex
    rw [← hsplit] at ho
    rcases List.mem_append.mp ho with ho | ho
    · exact ho
    · rw [List.mem_singleton.mp ho] at hindex
      exact absurd htop hindex

/-- A request names one entry. -/
theorem IsDictionary.names_unique (h : IsDictionary table) {index : BitVec 16}
    {subindex : BitVec 8} {d d' : Objd} (hd : Names table index subindex d)
    (hd' : Names table index subindex d') : d = d' := by
  obtain ⟨o, ho, ds, hds, hindex, hmem, hsub⟩ := hd
  obtain ⟨o', ho', ds', hds', hindex', hmem', hsub'⟩ := hd'
  have hsame : o = o' := h.object_unique (List.dropLast_subset _ ho)
    (List.dropLast_subset _ ho') (hindex.trans hindex'.symm)
  obtain ⟨ds₀, hobject⟩ := h.objects o ho
  rw [← hsame, hds] at hds'
  obtain rfl := Option.some.inj hds'
  obtain rfl := Option.some.inj (hds.symm.trans hobject.objdesc)
  exact hobject.sorted.unique hmem hmem' (congrArg BitVec.toNat (hsub.trans hsub'.symm))

theorem IsDictionary.names_narrow (h : IsDictionary table) {index : BitVec 16}
    {subindex : BitVec 8} {d : Objd} (hd : Names table index subindex d) :
    d.data = none → d.bitlength.toNat ≤ 32 := by
  obtain ⟨o, ho, ds, hds, _, hmem, _⟩ := hd
  obtain ⟨ds₀, hobject⟩ := h.objects o ho
  obtain rfl := Option.some.inj (hds.symm.trans hobject.objdesc)
  exact hobject.narrow d hmem

/-- **A request for anything but the terminator** reads the entry it names, or fails
before it has touched anything. -/
theorem IsDictionary.request (h : IsDictionary table) {index : BitVec 16}
    (hindex : index ≠ 0xFFFF) (subindex : BitVec 8) :
    (∃ d, Names table index subindex d ∧ ∀ outbuf outlen,
        getObjectDictionaryValue table index subindex outbuf outlen
          = .ok (readDescriptor d outbuf outlen))
      ∨ (∀ d, ¬Names table index subindex d) ∧ ∃ code, code < 0 ∧ ∀ outbuf outlen,
        getObjectDictionaryValue table index subindex outbuf outlen
          = .ok ⟨code, outbuf, outlen⟩ := by
  obtain ⟨nidx, o, hread, hfound, hobj⟩ | ⟨hnone, hobj⟩ := sdoFindobject_spec h index
  · have ho : o ∈ table.dropLast :=
      (h.mem_dropLast_iff (List.mem_of_getElem? hread)).mpr (by rwa [hfound])
    obtain ⟨ds, hobject⟩ := h.objects o ho
    obtain ⟨nsub, d, hd, hsub, hdesc⟩ | ⟨hmissing, hdesc⟩ :=
      sdoFindsubindex_spec hread hobject subindex
    · refine Or.inl ⟨d, ⟨o, ho, ds, hobject.objdesc, hfound, List.mem_of_getElem? hd, hsub⟩, ?_⟩
      intro outbuf outlen
      rw [getObjectDictionaryValue, hobj, ok_bind, if_neg (by omega), Int.toNat_natCast, hdesc,
        ok_bind, if_neg (by omega), objectAt_of hread, ok_bind, hobject.objdesc,
        Int.toNat_natCast, descriptorAt_of hd, ok_bind]
      rfl
    · refine Or.inr ⟨?_, -2, by decide, ?_⟩
      · rintro d ⟨o', ho', ds', hds', hindex', hmem, hsub⟩
        have hsame : o' = o := h.object_unique (List.dropLast_subset _ ho')
          (List.dropLast_subset _ ho) (hindex'.trans hfound.symm)
        rw [hsame, hobject.objdesc] at hds'
        obtain rfl := Option.some.inj hds'
        exact hmissing d hmem hsub
      · intro outbuf outlen
        rw [getObjectDictionaryValue, hobj, ok_bind, if_neg (by omega), Int.toNat_natCast, hdesc,
          ok_bind, if_pos (by decide)]
        rfl
  · refine Or.inr ⟨?_, -1, by decide, ?_⟩
    · rintro d ⟨o, ho, ds, _, hfound, _⟩
      exact hnone o (List.dropLast_subset _ ho) hfound
    · intro outbuf outlen
      rw [getObjectDictionaryValue, hobj, ok_bind, if_pos (by decide)]
      rfl

/-- **A request for the terminator** goes through NULL, whatever the subindex. -/
theorem IsDictionary.request_terminator (h : IsDictionary table) (subindex : BitVec 8)
    (outbuf : Option Bytes) (outlen : Option Nat) :
    getObjectDictionaryValue table 0xFFFF subindex outbuf outlen = .error .nullDescriptors := by
  obtain ⟨t, hlast, htop, hnull⟩ := h.terminated
  have hmem : t ∈ table := List.mem_of_getLast? hlast
  obtain ⟨nidx, o, hread, hfound, hobj⟩ | ⟨hnone, _⟩ := sdoFindobject_spec h 0xFFFF
  · have hsame : o = t :=
      h.object_unique (List.mem_of_getElem? hread) hmem (hfound.trans htop.symm)
    rw [hsame] at hread
    have hloop : ∀ left, findsubindexLoop none subindex left 0 = .error .nullDescriptors := by
      intro left
      cases left <;> rfl
    have hsearch : searchSubindex none t.maxsub subindex = .error .nullDescriptors := by
      rw [searchSubindex, hloop, error_bind]
    have hdesc : sdoFindsubindex table nidx subindex = .error .nullDescriptors := by
      rw [sdoFindsubindex, objectAt_of hread, ok_bind, hnull, descriptorAt_none, error_bind,
        hsearch, ite_self]
    rw [getObjectDictionaryValue, hobj, ok_bind, if_neg (by omega), Int.toNat_natCast, hdesc,
      error_bind]
  · exact absurd htop (hnone t hmem)

/-- A request that names an entry is answered, -/
theorem IsDictionary.answers_found (h : IsDictionary table) {index : BitVec 16}
    {subindex : BitVec 8} {d : Objd} (hd : Names table index subindex d)
    (hget : ∀ outbuf outlen, getObjectDictionaryValue table index subindex outbuf outlen
      = .ok (readDescriptor d outbuf outlen))
    (outbuf : Option Bytes) (outlen : Option Nat) :
    Answers table index subindex outbuf outlen := by
  have hnarrow := h.names_narrow hd
  constructor
  · exact ⟨_, hget outbuf outlen⟩
  · intro r hr
    obtain rfl := Except.ok.inj ((hget outbuf outlen).symm.trans hr)
    rw [readDescriptor_ret hnarrow]
    constructor
    · intro hroom
      exact ⟨d, hd, hroom⟩
    · rintro ⟨d', hd', hroom⟩
      rwa [h.names_unique hd hd']
  · intro r hr hret
    obtain rfl := Except.ok.inj ((hget outbuf outlen).symm.trans hr)
    exact readDescriptor_unchanged hret
  · intro len r hr _
    obtain rfl := Except.ok.inj ((hget none (some len)).symm.trans hr)
    refine ⟨d.bytes, rfl, ?_⟩
    intro buf
    obtain ⟨_, buf', hread⟩ := readDescriptor_query hnarrow len buf
    exact ⟨buf', by rw [hget, hread]⟩

/-- and so is one that fails for want of it. -/
theorem answers_missing {index : BitVec 16} {subindex : BitVec 8}
    (hnone : ∀ d, ¬Names table index subindex d) {code : Int} (hcode : code < 0)
    (hget : ∀ outbuf outlen, getObjectDictionaryValue table index subindex outbuf outlen
      = .ok ⟨code, outbuf, outlen⟩)
    (outbuf : Option Bytes) (outlen : Option Nat) :
    Answers table index subindex outbuf outlen := by
  constructor
  · exact ⟨_, hget outbuf outlen⟩
  · intro r hr
    obtain rfl := Except.ok.inj ((hget outbuf outlen).symm.trans hr)
    constructor
    · intro hret
      have : code = 0 := hret
      omega
    · rintro ⟨d, hd, _⟩
      exact absurd hd (hnone d)
  · intro r hr _
    obtain rfl := Except.ok.inj ((hget outbuf outlen).symm.trans hr)
    exact ⟨rfl, rfl⟩
  · intro len r hr hret
    obtain rfl := Except.ok.inj ((hget none (some len)).symm.trans hr)
    have : code = 0 := hret
    omega

/-- **Exactly when a request is answered as it should be**: when it is not for the index
of the terminator. -/
theorem answers_iff (table : List ObjectEntry) (h : IsDictionary table) (index : BitVec 16)
    (subindex : BitVec 8) (outbuf : Option Bytes) (outlen : Option Nat) :
    Answers table index subindex outbuf outlen ↔ index ≠ 0xFFFF := by
  constructor
  · rintro ⟨⟨r, hr⟩, _⟩ rfl
    rw [h.request_terminator] at hr
    cases hr
  · intro hindex
    obtain ⟨d, hd, hget⟩ | ⟨hnone, code, hcode, hget⟩ := h.request hindex subindex
    · exact h.answers_found hd hget outbuf outlen
    · exact answers_missing hnone hcode hget outbuf outlen

end Dictionary

/-- The sequence number, object `0x6000:0A`, into a buffer of four bytes. -/
theorem answers_iff_sequence :
    Answers (sdoObjects .initial) 0x6000 10 (some fun _ => 0xFF) (some 4) :=
  (answers_iff (sdoObjects .initial) (isDictionary_sdoObjects .initial) 0x6000 10
    (some fun _ => 0xFF) (some 4)).mpr (by decide)

/-- A size query for the index of the terminator. -/
theorem not_answers_terminator : ¬Answers (sdoObjects .initial) 0xFFFF 0 none (some 0) := by
  rintro ⟨⟨r, hr⟩, _⟩
  rw [(isDictionary_sdoObjects .initial).request_terminator] at hr
  cases hr

end GalvoCtrl.Coe
