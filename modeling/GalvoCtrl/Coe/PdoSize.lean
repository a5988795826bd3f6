import GalvoCtrl.Coe.BitSlice
import GalvoCtrl.Coe.Lookup

/-!
# Coe — PdoSize

The process data of a sync manager (`sizeOfPDO` of `esc_coe.c`): the objects that are
assigned to it list mapping values, and each value names an entry and the bits it takes.
Where the lists can be read, the function comes to a layout of their values: one entry
behind the other, or none at all if an entry does not exist or there are too many.
-/

namespace GalvoCtrl.Coe

open GalvoCtrl.Lib

variable {V : Type}

/-! ## The function -/

/-- `MAX_MAPPINGS_SM2` and `MAX_MAPPINGS_SM3` -/
def maxMappingsSm : Nat := 12

/-- `MAX_RXPDO_SIZE` -/
def maxRxpdoSize : Nat := 32

/-- `MAX_TXPDO_SIZE` -/
def maxTxpdoSize : Nat := 48

/-- `_SMmap`: the mapped entry, or padding, and the bit it starts at. -/
structure SmMap (V : Type) where
  obj : Option (ObjDesc V)
  offset : Nat
deriving DecidableEq

/-- `offset`, and `mappings` up to `mapIx`. -/
structure MapScan (V : Type) where
  offset : Nat
  mappings : List (SmMap V)
deriving DecidableEq

/-- The bits that a mapping value takes. -/
def mappedBits (value : BitVec 32) : Nat := (value &&& 0xFF).toNat

def mappedIndex (value : BitVec 32) : BitVec 16 := (value >>> 16).setWidth 16

def mappedSubindex (value : BitVec 32) : BitVec 8 := (value >>> 8).setWidth 8

/-- The scan with one more entry. -/
def MapScan.push (st : MapScan V) (obj : Option (ObjDesc V)) (value : BitVec 32) : MapScan V where
  offset := st.offset + mappedBits value
  mappings := st.mappings ++ [⟨obj, st.offset⟩]

section Function

variable (mem : Memory V) (table : List (ObjectItem V)) (maxMappings : Nat)

/-- One mapping value. `none` is a return with `*nmappings = -1`. -/
def mapValue (st : MapScan V) (value : BitVec 32) : Except AccessFault (Option (MapScan V)) :=
  if 0 < maxMappings then
    if st.mappings.length = maxMappings then .ok none
    else if mappedIndex value = 0 ∧ mappedSubindex value = 0 then .ok (some (st.push none value))
    else do
      match ← lookup mem table (mappedIndex value) (mappedSubindex value) with
      | .found _ _ d => return some (st.push (some d) value)
      | _ => return none
  else .ok (some { st with offset := st.offset + mappedBits value })

/-- The loop over the mapping values of an object, `left` of them from `c` on. The
counter is a `uint8_t`: a loop up to 255 starts over. -/
def mapPdoLoop (objdesc : Option (List (ObjDesc V))) :
    (left c : Nat) → MapScan V → Except AccessFault (Option (MapScan V))
  | 0, c, st => if c = 256 then .error .counterWraps else .ok (some st)
  | left + 1, c, st => do
      let d ← descAt objdesc c
      let value ← objValueFetch 32 mem d
      match ← mapValue mem table maxMappings st value with
      | none => return none
      | some st => mapPdoLoop objdesc left (c + 1) st

/-- One assigned object. -/
def mapPdo (st : MapScan V) (hobj : BitVec 16) : Except AccessFault (Option (MapScan V)) := do
  match ← lookupObject mem table hobj with
  | none => return some st
  | some o =>
      let d ← descAt o.objdesc 0
      let maxsub ← objValueFetch 8 mem d
      mapPdoLoop mem table maxMappings o.objdesc maxsub.toNat 1 st

/-- The loop over the assigned objects, `left` of them from `sic` on. -/
def assignLoop (objdesc : Option (List (ObjDesc V))) :
    (left sic : Nat) → MapScan V → Except AccessFault (Option (MapScan V))
  | 0, sic, st => if sic = 256 then .error .counterWraps else .ok (some st)
  | left + 1, sic, st => do
      let d ← descAt objdesc sic
      let hobj ← objValueFetch 16 mem d
      match ← mapPdo mem table maxMappings st hobj with
      | none => return none
      | some st => assignLoop objdesc left (sic + 1) st

/-- `sizeOfPDO`: the size in bytes and the mappings, `none` where `*nmappings` is -1. They
stay as they were if there is no such object. -/
def sizeOfPdo (index : BitVec 16) (mappings : Option (List (SmMap V))) :
    Except AccessFault (BitVec 16 × Option (List (SmMap V))) :=
  if index ≠ rxPdoObjidx ∧ index ≠ txPdoObjidx then .ok (0, mappings)
  else do
    match ← lookupObject mem table index with
    | none => return (0, mappings)
    | some o =>
        let d ← descAt o.objdesc 0
        let si ← objValueFetch 8 mem d
        match ← assignLoop mem table maxMappings o.objdesc si.toNat 1 ⟨0, []⟩ with
        | none => return (0, none)
        | some st => return (BitVec.ofNat 16 (bits2bytes st.offset), some st.mappings)

end Function

/-! ## What is listed -/

section Listed

variable (mem : Memory V) (table : List (ObjectItem V))

/-- The `n` values from descriptor `c` on. -/
def valuesFrom (w : Nat) (objdesc : Option (List (ObjDesc V))) (c n : Nat) :
    Except AccessFault (List (BitVec w)) :=
  (List.range' c n).mapM fun k => do
    let d ← descAt objdesc k
    objValueFetch w mem d

/-- The values that an object lists: as many as subindex 0 says. -/
def listOf (w : Nat) (objdesc : Option (List (ObjDesc V))) :
    Except AccessFault (List (BitVec w)) := do
  let d ← descAt objdesc 0
  let count ← objValueFetch 8 mem d
  if count = 255 then .error .counterWraps else valuesFrom mem w objdesc 1 count.toNat

/-- The mapping values of an assigned object. -/
def pdoValues (hobj : BitVec 16) : Except AccessFault (List (BitVec 32)) := do
  match ← lookupObject mem table hobj with
  | none => return []
  | some o => listOf mem 32 o.objdesc

/-- The mapping values of all assigned objects. -/
def assignedValues (index : BitVec 16) : Except AccessFault (List (BitVec 32)) := do
  match ← lookupObject mem table index with
  | none => return []
  | some o =>
      let hobjs ← listOf mem 16 o.objdesc
      let values ← hobjs.mapM (pdoValues mem table)
      return values.flatten

end Listed

/-! ## Layouts -/

/-- The entry that a mapping value names: padding, a descriptor, or none. -/
def mapped? (table : List (ObjectItem V)) (value : BitVec 32) : Option (Option (ObjDesc V)) :=
  if mappedIndex value = 0 ∧ mappedSubindex value = 0 then some none
  else (tableEntry table (mappedIndex value) (mappedSubindex value)).map some

/-- The entries one behind the other, from bit `offset` on. -/
def layoutFrom (table : List (ObjectItem V)) : (offset : Nat) → List (BitVec 32) →
    Option (List (SmMap V))
  | _, [] => some []
  | offset, value :: values =>
      match mapped? table value, layoutFrom table (offset + mappedBits value) values with
      | some obj, some ms => some (⟨obj, offset⟩ :: ms)
      | _, _ => none

/-- The bits of all values. -/
def totalBits (values : List (BitVec 32)) : Nat := (values.map mappedBits).sum

@[simp] theorem totalBits_nil : totalBits [] = 0 := rfl

@[simp] theorem totalBits_cons (value : BitVec 32) (values : List (BitVec 32)) :
    totalBits (value :: values) = mappedBits value + totalBits values := by
  simp [totalBits]

/-- A layout of at most `maxMappings` entries. -/
def pdoLayout (table : List (ObjectItem V)) (maxMappings : Nat) (values : List (BitVec 32)) :
    Option (List (SmMap V)) :=
  if values.length ≤ maxMappings then layoutFrom table 0 values else none

/-! ## The scan -/

/-- The scan with the values added, as far as there is room and the entries exist. -/
def MapScan.extend (table : List (ObjectItem V)) (maxMappings : Nat) :
    MapScan V → List (BitVec 32) → Option (MapScan V)
  | st, [] => some st
  | st, value :: values =>
      if st.mappings.length = maxMappings then none
      else
        match mapped? table value with
        | none => none
        | some obj => (st.push obj value).extend table maxMappings values

theorem MapScan.extend_append (table : List (ObjectItem V)) (maxMappings : Nat) (st : MapScan V)
    (as bs : List (BitVec 32)) :
    st.extend table maxMappings (as ++ bs)
      = (st.extend table maxMappings as).bind fun st => st.extend table maxMappings bs := by
  induction as generalizing st with
  | nil => rfl
  | cons a as ih =>
      rw [List.cons_append, extend, extend]
      by_cases hfull : st.mappings.length = maxMappings
      · rw [if_pos hfull, if_pos hfull]
        rfl
      · rw [if_neg hfull, if_neg hfull]
        cases mapped? table a with
        | none => rfl
        | some obj => exact ih _

/-- **A scan is a layout** behind what it has already. -/
theorem MapScan.extend_eq (table : List (ObjectItem V)) {maxMappings : Nat} {st : MapScan V}
    (hroom : st.mappings.length ≤ maxMappings) (values : List (BitVec 32)) :
    st.extend table maxMappings values
      = if st.mappings.length + values.length ≤ maxMappings then
          (layoutFrom table st.offset values).map fun ms =>
            ⟨st.offset + totalBits values, st.mappings ++ ms⟩
        else none := by
  induction values generalizing st with
  | nil =>
      simp [extend, layoutFrom, hroom]
  | cons value values ih =>
      rw [extend, List.length_cons]
      by_cases hfull : st.mappings.length = maxMappings
      · rw [if_pos hfull, if_neg (by omega)]
      · rw [if_neg hfull]
        cases hobj : mapped? table value with
        | none =>
            rw [layoutFrom, hobj]
            simp
        | some obj =>
            have hlength : (st.push obj value).mappings.length = st.mappings.length + 1 := by
              simp [push]
            show (st.push obj value).extend table maxMappings values = _
            rw [ih (by omega), hlength, layoutFrom, hobj,
              show st.mappings.length + 1 + values.length
                = st.mappings.length + (values.length + 1) from by omega]
            refine if_congr Iff.rfl ?_ rfl
            rw [show (st.push obj value).offset = st.offset + mappedBits value from rfl]
            cases layoutFrom table (st.offset + mappedBits value) values with
            | none => rfl
            | some ms => simp [push, Nat.add_assoc]

/-! ## The loops -/

section Loops

variable {mem : Memory V} {table : List (ObjectItem V)} {maxMappings : Nat}

/-- No value leads to the terminator of the table. -/
def NoTerminator (values : List (BitVec 32)) : Prop :=
  ∀ value ∈ values, mappedIndex value ≠ 0xFFFF

instance (values : List (BitVec 32)) : Decidable (NoTerminator values) :=
  List.decidableBAll (fun value => mappedIndex value ≠ 0xFFFF) values

theorem mapValue_eq (h : IsTable table) (hmax : 0 < maxMappings) (st : MapScan V)
    {value : BitVec 32} (hvalue : mappedIndex value ≠ 0xFFFF) :
    mapValue mem table maxMappings st value
      = .ok (if st.mappings.length = maxMappings then none
          else (mapped? table value).map fun obj => st.push obj value) := by
  rw [mapValue, if_pos hmax]
  by_cases hfull : st.mappings.length = maxMappings
  · rw [if_pos hfull, if_pos hfull]
  · rw [if_neg hfull, if_neg hfull, mapped?]
    by_cases hpad : mappedIndex value = 0 ∧ mappedSubindex value = 0
    · rw [if_pos hpad, if_pos hpad]
      rfl
    · rw [if_neg hpad, if_neg hpad]
      obtain ⟨hobject, hlookup⟩ | ⟨o, _, hentry, hlookup⟩
        | ⟨o, ds, nsub, d, _, _, _, hentry, hlookup⟩ :=
          h.lookup mem hvalue (mappedSubindex value)
      · rw [hlookup, tableEntry, hobject]
        rfl
      · rw [hlookup, hentry]
        rfl
      · rw [hlookup, hentry]
        rfl

/-- Reading one more value. -/
theorem valuesFrom_succ {w : Nat} {objdesc : Option (List (ObjDesc V))} {c n : Nat}
    {values : List (BitVec w)} (hvalues : valuesFrom mem w objdesc c (n + 1) = .ok values) :
    ∃ d value rest, values = value :: rest ∧ descAt objdesc c = .ok d
      ∧ objValueFetch w mem d = .ok value ∧ valuesFrom mem w objdesc (c + 1) n = .ok rest := by
  rw [valuesFrom, List.range'_succ, List.mapM_cons] at hvalues
  obtain ⟨value, hread, hmore⟩ := bind_eq_ok hvalues
  obtain ⟨d, hd, hvalue⟩ := bind_eq_ok hread
  obtain ⟨rest, hrest, hcons⟩ := bind_eq_ok hmore
  cases hcons
  exact ⟨d, value, rest, rfl, hd, hvalue, hrest⟩

theorem mapPdoLoop_eq (h : IsTable table) (hmax : 0 < maxMappings)
    {objdesc : Option (List (ObjDesc V))} {left c : Nat} (hc : c + left ≠ 256)
    {values : List (BitVec 32)} (hvalues : valuesFrom mem 32 objdesc c left = .ok values)
    (hno : NoTerminator values) (st : MapScan V) :
    mapPdoLoop mem table maxMappings objdesc left c st
      = .ok (st.extend table maxMappings values) := by
  induction left generalizing c values st with
  | zero =>
      cases hvalues
      exact if_neg hc
  | succ left ih =>
      obtain ⟨d, value, rest, rfl, hd, hvalue, hrest⟩ := valuesFrom_succ hvalues
      rw [mapPdoLoop, hd, ok_bind', hvalue, ok_bind',
        mapValue_eq h hmax st (hno value List.mem_cons_self), ok_bind', MapScan.extend]
      by_cases hfull : st.mappings.length = maxMappings
      · rw [if_pos hfull, if_pos hfull]
        rfl
      · rw [if_neg hfull, if_neg hfull]
        cases mapped? table value with
        | none => rfl
        | some obj =>
            exact ih (by omega) hrest (fun v hv => hno v (List.mem_cons_of_mem value hv)) _

/-- What `listOf` reads, the loops read. -/
theorem listOf_ok {w : Nat} {objdesc : Option (List (ObjDesc V))} {values : List (BitVec w)}
    (hvalues : listOf mem w objdesc = .ok values) :
    ∃ d count, descAt objdesc 0 = .ok d ∧ objValueFetch 8 mem d = .ok count
      ∧ 1 + count.toNat ≠ 256 ∧ valuesFrom mem w objdesc 1 count.toNat = .ok values := by
  obtain ⟨d, hd, hvalues⟩ := bind_eq_ok hvalues
  obtain ⟨count, hcount, hvalues⟩ := bind_eq_ok hvalues
  by_cases hwrap : count = 255
  · rw [if_pos hwrap] at hvalues
    cases hvalues
  · rw [if_neg hwrap] at hvalues
    refine ⟨d, count, hd, hcount, fun hc => hwrap ?_, hvalues⟩
    exact BitVec.eq_of_toNat_eq (by rw [show (255 : BitVec 8).toNat = 255 from rfl]; omega)

theorem mapPdo_eq (h : IsTable table) (hmax : 0 < maxMappings) {hobj : BitVec 16}
    {values : List (BitVec 32)} (hvalues : pdoValues mem table hobj = .ok values)
    (hno : NoTerminator values) (st : MapScan V) :
    mapPdo mem table maxMappings st hobj = .ok (st.extend table maxMappings values) := by
  rw [pdoValues, h.lookupObject, ok_bind'] at hvalues
  rw [mapPdo, h.lookupObject, ok_bind']
  cases hobject : object? table hobj with
  | none =>
      rw [hobject] at hvalues
      cases hvalues
      rfl
  | some o =>
      rw [hobject] at hvalues
      obtain ⟨d, count, hd, hcount, hwrap, hfrom⟩ := listOf_ok hvalues
      simp only [hd, ok_bind', hcount]
      exact mapPdoLoop_eq h hmax hwrap hfrom hno st

/-- Reading the values of one more object. -/
theorem mapM_pdoValues_cons {hobj : BitVec 16} {hobjs : List (BitVec 16)}
    {lists : List (List (BitVec 32))}
    (hlists : (hobj :: hobjs).mapM (pdoValues mem table) = .ok lists) :
    ∃ values rest, lists = values :: rest ∧ pdoValues mem table hobj = .ok values
      ∧ hobjs.mapM (pdoValues mem table) = .ok rest := by
  rw [List.mapM_cons] at hlists
  obtain ⟨values, hvalues, hlists⟩ := bind_eq_ok hlists
  obtain ⟨rest, hrest, hcons⟩ := bind_eq_ok hlists
  cases hcons
  exact ⟨values, rest, rfl, hvalues, hrest⟩

theorem assignLoop_eq (h : IsTable table) (hmax : 0 < maxMappings)
    {objdesc : Option (List (ObjDesc V))} {left sic : Nat} (hsic : sic + left ≠ 256)
    {hobjs : List (BitVec 16)} (hhobjs : valuesFrom mem 16 objdesc sic left = .ok hobjs)
    {lists : List (List (BitVec 32))} (hlists : hobjs.mapM (pdoValues mem table) = .ok lists)
    (hno : NoTerminator lists.flatten) (st : MapScan V) :
    assignLoop mem table maxMappings objdesc left sic st
      = .ok (st.extend table maxMappings lists.flatten) := by
  induction left generalizing sic hobjs lists st with
  | zero =>
      cases hhobjs
      cases hlists
      exact if_neg hsic
  | succ left ih =>
      obtain ⟨d, hobj, hobjs, rfl, hd, hhobj, hfrom⟩ := valuesFrom_succ hhobjs
      obtain ⟨values, lists, rfl, hvalues, hrest⟩ := mapM_pdoValues_cons hlists
      rw [List.flatten_cons] at hno ⊢
      have hnovalues : NoTerminator values := fun v hv => hno v (List.mem_append_left _ hv)
      have hnolists : NoTerminator lists.flatten := fun v hv => hno v (List.mem_append_right _ hv)
      rw [assignLoop, hd, ok_bind', hhobj, ok_bind', mapPdo_eq h hmax hvalues hnovalues, ok_bind',
        MapScan.extend_append]
      cases st.extend table maxMappings values with
      | none => rfl
      | some st => exact ih (by omega) hfrom hrest hnolists st

end Loops

/-! ## The layout that is computed -/

/-- The size that goes with a layout. -/
def layoutSize (values : List (BitVec 32)) : Option (List (SmMap V)) → BitVec 16
  | none => 0
  | some _ => BitVec.ofNat 16 (bits2bytes (totalBits values))

/-- **`sizeOfPDO` computes the layout** of the values that the assigned objects list. -/
theorem sizeOfPdo_eq_layout {table : List (ObjectItem V)} (h : IsTable table) (mem : Memory V)
    {maxMappings : Nat} (hmax : 0 < maxMappings) {index : BitVec 16}
    (hindex : index = rxPdoObjidx ∨ index = txPdoObjidx) (hobject : (object? table index).isSome)
    {values : List (BitVec 32)} (hvalues : assignedValues mem table index = .ok values)
    (hno : NoTerminator values) (mappings : Option (List (SmMap V))) :
    sizeOfPdo mem table maxMappings index mappings
      = .ok (layoutSize values (pdoLayout table maxMappings values),
          pdoLayout table maxMappings values) := by
  rw [assignedValues, h.lookupObject, ok_bind'] at hvalues
  rw [sizeOfPdo, if_neg (by tauto), h.lookupObject, ok_bind']
  cases hfind : object? table index with
  | none =>
      rw [hfind] at hobject
      cases hobject
  | some o =>
      rw [hfind] at hvalues
      obtain ⟨hobjs, hhobjs, hvalues⟩ := bind_eq_ok hvalues
      obtain ⟨lists, hlists, hvalues⟩ := bind_eq_ok hvalues
      cases hvalues
      obtain ⟨d, count, hd, hcount, hwrap, hfrom⟩ := listOf_ok hhobjs
      simp only [hd, ok_bind', hcount]
      rw [assignLoop_eq h hmax hwrap hfrom hlists hno, ok_bind',
        MapScan.extend_eq table (Nat.zero_le _), pdoLayout]
      simp only [List.length_nil, Nat.zero_add, List.nil_append]
      by_cases hroom : lists.flatten.length ≤ maxMappings
      · rw [if_pos hroom, if_pos hroom]
        cases layoutFrom table 0 lists.flatten with
        | none => rfl
        | some ms => rfl
      · rw [if_neg hroom, if_neg hroom]
        rfl

end GalvoCtrl.Coe
