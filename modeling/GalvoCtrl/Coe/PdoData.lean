import GalvoCtrl.Coe.PdoSize

/-!
# Coe — PdoData

Process data (`COE_pdoPack`, `COE_pdoUnpack` of `esc_coe.c`): packing lays the value of
every mapped entry over the buffer, and unpacking takes it from there.
-/

namespace GalvoCtrl.Coe

open GalvoCtrl.Lib

variable {V : Type}

/-! ## The functions -/

/-- The bytes that `COE_getValue` and `COE_setValue` access for a data type. -/
def valueWidth (datatype : BitVec 16) : Option Nat :=
  if datatype ∈ [dtypeBit1, dtypeBit2, dtypeBit3, dtypeBit4, dtypeBit5, dtypeBit6, dtypeBit7,
      dtypeBit8, dtypeBoolean, dtypeUnsigned8, dtypeInteger8, dtypeBitarr8] then some 1
  else if datatype ∈ [dtypeUnsigned16, dtypeInteger16, dtypeBitarr16] then some 2
  else if datatype ∈ [dtypeReal32, dtypeUnsigned32, dtypeInteger32, dtypeBitarr32] then some 4
  else if datatype ∈ [dtypeReal64, dtypeUnsigned64, dtypeInteger64] then some 8
  else none

/-- `obj->data`, to be followed. -/
def dataOf (d : ObjDesc V) : Except AccessFault V :=
  match d.data with
  | some v => .ok v
  | none => .error .nullPointer

/-- `COE_getValue` -/
def coeGetValue (mem : Memory V) (d : ObjDesc V) : Except AccessFault (BitVec 64) :=
  match valueWidth d.datatype with
  | some n => do
      let v ← dataOf d
      let bytes ← readVar mem v n
      return ofBytes 64 bytes
  | none => .error .assertion

/-- `COE_setValue`; other data types are ignored. -/
def coeSetValue [DecidableEq V] (mem : Memory V) (d : ObjDesc V) (value : BitVec 64) :
    Except AccessFault (Memory V) :=
  match valueWidth d.datatype with
  | some n => do
      let v ← dataOf d
      writeVar mem v 0 (toBytes n value)
  | none => .ok mem

/-- `memcpy` into a buffer. -/
def copyInto (buffer : List (BitVec 8)) (off : Nat) (bs : List (BitVec 8)) :
    Except AccessFault (List (BitVec 8)) :=
  if off + bs.length ≤ buffer.length then .ok (overwrite buffer off bs) else .error .outsideBuffer

/-- `memcpy` out of a buffer. -/
def copyFrom (buffer : List (BitVec 8)) (off n : Nat) : Except AccessFault (List (BitVec 8)) :=
  if off + n ≤ buffer.length then .ok (slice buffer off n) else .error .outsideBuffer

/-- One round of `COE_pdoPack`. -/
def packEntry (mem : Memory V) (buffer : List (BitVec 8)) (m : SmMap V) :
    Except AccessFault (List (BitVec 8)) :=
  match m.obj with
  | none => .ok buffer
  | some d =>
      if d.bitlength.toNat > 64 then do
        let v ← dataOf d
        let bytes ← readVar mem v d.size
        copyInto buffer (m.offset / 8) bytes
      else do
        let value ← coeGetValue mem d
        coeBitsliceSet buffer m.offset d.bitlength.toNat value

/-- `COE_pdoPack` -/
def coePdoPack (mem : Memory V) (buffer : List (BitVec 8)) (mappings : List (SmMap V)) :
    Except AccessFault (List (BitVec 8)) :=
  mappings.foldlM (packEntry mem) buffer

/-- One round of `COE_pdoUnpack`. -/
def unpackEntry [DecidableEq V] (buffer : List (BitVec 8)) (mem : Memory V) (m : SmMap V) :
    Except AccessFault (Memory V) :=
  match m.obj with
  | none => .ok mem
  | some d =>
      if d.bitlength.toNat > 64 then do
        let v ← dataOf d
        let bytes ← copyFrom buffer (m.offset / 8) d.size
        writeVar mem v 0 bytes
      else do
        let value ← coeBitsliceGet buffer m.offset d.bitlength.toNat
        coeSetValue mem d value

/-- `COE_pdoUnpack` -/
def coePdoUnpack [DecidableEq V] (buffer : List (BitVec 8)) (mem : Memory V)
    (mappings : List (SmMap V)) : Except AccessFault (Memory V) :=
  mappings.foldlM (unpackEntry buffer) mem

/-! ## Sizes -/

theorem copyFrom_length {buffer bs : List (BitVec 8)} {off n : Nat}
    (h : copyFrom buffer off n = .ok bs) : bs.length = n := by
  rw [copyFrom] at h
  split_ifs at h with hroom
  cases h
  exact length_slice hroom

theorem copyInto_length {buffer bs buffer' : List (BitVec 8)} {off : Nat}
    (h : copyInto buffer off bs = .ok buffer') : buffer'.length = buffer.length := by
  rw [copyInto] at h
  split_ifs at h
  cases h
  exact length_overwrite ..

theorem setWordAt_length {bitmap bitmap' : List (BitVec 8)} {k : Nat} {w : BitVec 64}
    (h : setWordAt bitmap k w = .ok bitmap') : bitmap'.length = bitmap.length := by
  rw [setWordAt] at h
  split_ifs at h
  cases h
  exact length_overwrite ..

theorem coeBitsliceSet_length {bitmap bitmap' : List (BitVec 8)} {offset length : Nat}
    {value : BitVec 64} (h : coeBitsliceSet bitmap offset length value = .ok bitmap') :
    bitmap'.length = bitmap.length := by
  obtain ⟨w₀, _, hlow⟩ := bind_eq_ok h
  obtain ⟨bitmap₁, hset, hhigh⟩ := bind_eq_ok hlow
  by_cases hcross : length + offset % 64 > 64
  · rw [if_pos hcross] at hhigh
    obtain ⟨w₁, _, hset'⟩ := bind_eq_ok hhigh
    exact (setWordAt_length hset').trans (setWordAt_length hset)
  · rw [if_neg hcross] at hhigh
    cases hhigh
    exact setWordAt_length hset

/-- Packing keeps the size of the buffer, whatever the mapping. -/
theorem coePdoPack_length {mem : Memory V} {mappings : List (SmMap V)}
    {buffer buffer' : List (BitVec 8)} (h : coePdoPack mem buffer mappings = .ok buffer') :
    buffer'.length = buffer.length := by
  induction mappings generalizing buffer with
  | nil =>
      cases h
      rfl
  | cons m mappings ih =>
      obtain ⟨buffer₁, hentry, hrest⟩ := bind_eq_ok h
      refine (ih hrest).trans ?_
      rw [packEntry] at hentry
      cases hobj : m.obj with
      | none =>
          rw [hobj] at hentry
          cases hentry
          rfl
      | some d =>
          rw [hobj] at hentry
          dsimp only at hentry
          by_cases hlong : d.bitlength.toNat > 64
          · rw [if_pos hlong] at hentry
            obtain ⟨v, _, hread⟩ := bind_eq_ok hentry
            obtain ⟨bytes, _, hcopy⟩ := bind_eq_ok hread
            exact copyInto_length hcopy
          · rw [if_neg hlong] at hentry
            obtain ⟨value, _, hset⟩ := bind_eq_ok hentry
            exact coeBitsliceSet_length hset

/-! ## Entries that can be transferred -/

/-- Where an entry lies in the buffer: bits if it has at most 64 of them, else bytes. -/
def SmMap.start (m : SmMap V) (d : ObjDesc V) : Nat :=
  if d.bitlength.toNat > 64 then 8 * (m.offset / 8) else m.offset

/-- How many bits of it are transferred. -/
def ObjDesc.bits (d : ObjDesc V) : Nat :=
  if d.bitlength.toNat > 64 then 8 * d.size else d.bitlength.toNat

/-- The entry has a variable as wide as its data type, and a place in a buffer of `size`
bytes. -/
structure Transferable (mem : Memory V) (size : Nat) (m : SmMap V) (d : ObjDesc V) (v : V) :
    Prop where
  data : d.data = some v
  pos : 0 < d.bitlength.toNat
  wide : d.bits ≤ 8 * (mem v).length
  width : d.bitlength.toNat ≤ 64 → valueWidth d.datatype = some (mem v).length
  long : 64 < d.bitlength.toNat → (mem v).length = d.size
  ends : m.start d + d.bits ≤ 8 * size

/-- Padding, or an entry that can be transferred. -/
def Mappable (mem : Memory V) (size : Nat) (m : SmMap V) : Prop :=
  ∀ d, m.obj = some d → ∃ v, Transferable mem size m d v

/-- What packing lays over the buffer for an entry. -/
def entryField (mem : Memory V) (m : SmMap V) : Option BitField :=
  match m.obj with
  | none => none
  | some d =>
      match d.data with
      | none => none
      | some v => some ⟨m.start d, d.bits, bitAt (mem v)⟩

theorem entryField_eq {mem : Memory V} {m : SmMap V} {d : ObjDesc V} {v : V} (hobj : m.obj = some d)
    (hdata : d.data = some v) : entryField mem m = some ⟨m.start d, d.bits, bitAt (mem v)⟩ := by
  rw [entryField, hobj]
  simp only [hdata]

section Transfer

variable {mem : Memory V} {size : Nat} {m : SmMap V} {d : ObjDesc V} {v : V}

/-- A value of at most 64 bits is where the bit functions expect it. -/
theorem Transferable.inBitmap (h : Transferable mem size m d v) (hbits : d.bitlength.toNat ≤ 64)
    {buffer : List (BitVec 8)} (hlength : buffer.length = size) (haligned : size % 8 = 0) :
    InBitmap buffer m.offset d.bitlength.toNat := by
  have hends := h.ends
  rw [SmMap.start, ObjDesc.bits, if_neg (by omega), if_neg (by omega)] at hends
  exact ⟨by rw [hlength, haligned], hbits, h.pos, by rw [hlength]; exact hends⟩

/-- Packing an entry lays its field over the buffer. -/
theorem packEntry_spec (h : Transferable mem size m d v) (hobj : m.obj = some d)
    {buffer : List (BitVec 8)} (hlength : buffer.length = size) (haligned : size % 8 = 0) :
    ∃ buffer', packEntry mem buffer m = .ok buffer' ∧ buffer'.length = size
      ∧ bitAt buffer'
        = BitField.put ⟨m.start d, d.bits, bitAt (mem v)⟩ (bitAt buffer) := by
  have hends := h.ends
  rw [packEntry, hobj]
  dsimp only
  by_cases hlong : d.bitlength.toNat > 64
  · rw [SmMap.start, ObjDesc.bits, if_pos hlong, if_pos hlong] at hends ⊢
    have hvar := h.long hlong
    have hread : readVar mem v d.size = .ok (mem v) := by
      rw [readVar, if_pos (by omega), ← hvar, List.take_length]
    have hroom : m.offset / 8 + (mem v).length ≤ buffer.length := by omega
    rw [if_pos hlong, dataOf, h.data, ok_bind', hread, ok_bind']
    refine ⟨_, if_pos hroom, by rw [length_overwrite, hlength], funext fun i => ?_⟩
    rw [bitAt_overwrite hroom, hvar,
      show 8 * (m.offset / 8 + d.size) = 8 * (m.offset / 8) + 8 * d.size from by omega]
    rfl
  · have hbits : d.bitlength.toNat ≤ 64 := by omega
    have hwide := h.wide
    have hwidth := h.width hbits
    rw [SmMap.start, ObjDesc.bits, if_neg hlong, if_neg hlong]
    rw [ObjDesc.bits, if_neg hlong] at hwide
    have hvalue : coeGetValue mem d = .ok (ofBytes 64 (mem v)) := by
      rw [coeGetValue, hwidth]
      simp only [dataOf, h.data, ok_bind', readVar, Nat.le_refl, if_true, List.take_length]
      rfl
    obtain ⟨buffer', hset, hlength', hput⟩ :=
      coeBitsliceSet_spec (h.inBitmap hbits hlength haligned) (ofBytes 64 (mem v))
    rw [if_neg hlong, hvalue, ok_bind', hset]
    refine ⟨buffer', rfl, hlength'.trans hlength, ?_⟩
    rw [hput]
    funext i
    rw [put_valueField, BitField.put_mk]
    by_cases hi : m.offset ≤ i ∧ i < m.offset + d.bitlength.toNat
    · rw [if_pos hi, if_pos hi, getLsbD_ofBytes]
      simp [show i - m.offset < 64 from by omega]
    · rw [if_neg hi, if_neg hi]

/-- Unpacking an entry takes its bits from the buffer. -/
theorem unpackEntry_spec [DecidableEq V] (h : Transferable mem size m d v) (hobj : m.obj = some d)
    {buffer : List (BitVec 8)} (hlength : buffer.length = size) (haligned : size % 8 = 0) :
    ∃ bytes, unpackEntry buffer mem m = .ok (Function.update mem v bytes)
      ∧ bytes.length = (mem v).length
      ∧ ∀ i, bitAt bytes i = (decide (i < d.bits) && bitAt buffer (m.start d + i)) := by
  have hends := h.ends
  have hwide := h.wide
  rw [unpackEntry, hobj]
  dsimp only
  -- a copy that covers the whole variable
  have hwrite : ∀ bytes : List (BitVec 8), bytes.length = (mem v).length →
      writeVar mem v 0 bytes = .ok (Function.update mem v bytes) := by
    intro bytes hbytes
    rw [writeVar, if_pos (by omega), overwrite_all hbytes]
  by_cases hlong : d.bitlength.toNat > 64
  · rw [SmMap.start, ObjDesc.bits, if_pos hlong, if_pos hlong] at hends
    have hvar := h.long hlong
    have hroom : m.offset / 8 + d.size ≤ buffer.length := by omega
    have hbytes : (slice buffer (m.offset / 8) d.size).length = (mem v).length := by
      rw [length_slice hroom, hvar]
    rw [if_pos hlong, dataOf, h.data, ok_bind', copyFrom, if_pos hroom, ok_bind']
    refine ⟨_, hwrite _ hbytes, hbytes, fun i => ?_⟩
    rw [bitAt_slice, SmMap.start, ObjDesc.bits, if_pos hlong, if_pos hlong]
  · have hbits : d.bitlength.toNat ≤ 64 := by omega
    have hwidth := h.width hbits
    rw [ObjDesc.bits, if_neg hlong] at hwide
    obtain ⟨value, hget, hvalue⟩ :=
      coeBitsliceGet_spec (h.inBitmap hbits hlength haligned)
    have hbytes : (toBytes (mem v).length value).length = (mem v).length := length_toBytes _ _
    rw [if_neg hlong, hget, ok_bind', coeSetValue, hwidth]
    simp only [dataOf, h.data, ok_bind']
    refine ⟨_, hwrite _ hbytes, hbytes, fun i => ?_⟩
    rw [bitAt_toBytes, hvalue, SmMap.start, ObjDesc.bits, if_neg hlong, if_neg hlong]
    by_cases hi : i < d.bitlength.toNat
    · simp [hi, show i < 8 * (mem v).length from by omega]
    · simp [hi]

end Transfer

/-! ## Packing -/

/-- **Packing lays the fields of all entries over the buffer**, in their order. -/
theorem coePdoPack_spec {mem : Memory V} {size : Nat} {mappings : List (SmMap V)}
    (hmap : ∀ m ∈ mappings, Mappable mem size m) (haligned : size % 8 = 0)
    {buffer : List (BitVec 8)} (hlength : buffer.length = size) :
    ∃ buffer', coePdoPack mem buffer mappings = .ok buffer' ∧ buffer'.length = size
      ∧ bitAt buffer'
        = BitField.putAll (mappings.filterMap (entryField mem)) (bitAt buffer) := by
  induction mappings generalizing buffer with
  | nil => exact ⟨buffer, rfl, hlength, rfl⟩
  | cons m mappings ih =>
      have hrest : ∀ m ∈ mappings, Mappable mem size m :=
        fun m' hm' => hmap m' (List.mem_cons_of_mem m hm')
      rw [coePdoPack, List.foldlM_cons]
      cases hobj : m.obj with
      | none =>
          have hskip : packEntry mem buffer m = .ok buffer := by rw [packEntry, hobj]
          have hfield : entryField mem m = none := by rw [entryField, hobj]
          rw [hskip, ok_bind', List.filterMap_cons_none hfield]
          exact ih hrest hlength
      | some d =>
          obtain ⟨v, hv⟩ := hmap m List.mem_cons_self d hobj
          obtain ⟨buffer₁, hpack, hlength₁, hput⟩ := packEntry_spec hv hobj hlength haligned
          obtain ⟨buffer', hpackAll, hlength', hputAll⟩ := ih hrest hlength₁
          rw [hpack, ok_bind', List.filterMap_cons_some (entryField_eq hobj hv.data)]
          refine ⟨buffer', hpackAll, hlength', ?_⟩
          rw [hputAll, hput, BitField.putAll_cons]

/-! ## Unpacking -/

/-- Memories with variables of the same sizes. -/
def SameSizes (mem mem' : Memory V) : Prop := ∀ v, (mem' v).length = (mem v).length

theorem SameSizes.trans {mem mem' mem'' : Memory V} (h : SameSizes mem mem')
    (h' : SameSizes mem' mem'') : SameSizes mem mem'' := fun v => (h' v).trans (h v)

theorem SameSizes.update [DecidableEq V] {mem : Memory V} {v : V} {bytes : List (BitVec 8)}
    (hbytes : bytes.length = (mem v).length) : SameSizes mem (Function.update mem v bytes) := by
  intro u
  by_cases hu : u = v
  · rw [hu, Function.update_self, hbytes]
  · rw [Function.update_of_ne hu]

theorem Mappable.of_sameSizes {mem mem' : Memory V} {size : Nat} {m : SmMap V}
    (hsizes : SameSizes mem mem') (h : Mappable mem size m) : Mappable mem' size m := by
  intro d hobj
  obtain ⟨v, hv⟩ := h d hobj
  have hlength := hsizes v
  exact ⟨v, hv.data, hv.pos, by rw [hlength]; exact hv.wide, by rw [hlength]; exact hv.width,
    by rw [hlength]; exact hv.long, hv.ends⟩

/-- The variable of a mapped entry. -/
def SmMap.var (m : SmMap V) : Option V := m.obj.bind ObjDesc.data

theorem SmMap.var_eq {m : SmMap V} {d : ObjDesc V} {v : V} (hobj : m.obj = some d)
    (hdata : d.data = some v) : m.var = some v := by
  rw [var, hobj]
  exact hdata

/-- No variable is mapped twice. -/
def DistinctVars (mappings : List (SmMap V)) : Prop := (mappings.filterMap SmMap.var).Nodup

section Unpacking

variable [DecidableEq V]

/-- **Unpacking takes the bits of every entry from the buffer** and leaves all variables
alone that are not mapped. -/
theorem coePdoUnpack_spec {mem : Memory V} {size : Nat} {mappings : List (SmMap V)}
    (hmap : ∀ m ∈ mappings, Mappable mem size m) (hdistinct : DistinctVars mappings)
    (haligned : size % 8 = 0) {buffer : List (BitVec 8)} (hlength : buffer.length = size) :
    ∃ mem', coePdoUnpack buffer mem mappings = .ok mem' ∧ SameSizes mem mem'
      ∧ (∀ m ∈ mappings, ∀ d v, m.obj = some d → d.data = some v →
        ∀ i, bitAt (mem' v) i = (decide (i < d.bits) && bitAt buffer (m.start d + i)))
      ∧ ∀ v, v ∉ mappings.filterMap SmMap.var → mem' v = mem v := by
  induction mappings generalizing mem with
  | nil =>
      exact ⟨mem, rfl, fun _ => rfl, fun m hm => absurd hm List.not_mem_nil, fun _ _ => rfl⟩
  | cons m mappings ih =>
      have hrest : ∀ m ∈ mappings, Mappable mem size m :=
        fun m' hm' => hmap m' (List.mem_cons_of_mem m hm')
      rw [coePdoUnpack, List.foldlM_cons]
      cases hobj : m.obj with
      | none =>
          have hskip : unpackEntry buffer mem m = .ok mem := by rw [unpackEntry, hobj]
          have hvar : m.var = none := by rw [SmMap.var, hobj]; rfl
          rw [DistinctVars, List.filterMap_cons_none hvar] at hdistinct
          obtain ⟨mem', hunpack, hsizes, hbits, hframe⟩ := ih hrest hdistinct
          rw [hskip, ok_bind', List.filterMap_cons_none hvar]
          refine ⟨mem', hunpack, hsizes, fun m' hm' d v hd hv => ?_, hframe⟩
          rcases List.mem_cons.mp hm' with rfl | hm'
          · rw [hobj] at hd
            cases hd
          · exact hbits m' hm' d v hd hv
      | some d =>
          obtain ⟨v, hv⟩ := hmap m List.mem_cons_self d hobj
          have hvar := SmMap.var_eq hobj hv.data
          rw [DistinctVars, List.filterMap_cons_some hvar] at hdistinct
          obtain ⟨hfresh, hdistinct⟩ := List.nodup_cons.mp hdistinct
          obtain ⟨bytes, hunpack, hbytes, hbit⟩ := unpackEntry_spec hv hobj hlength haligned
          have hsizes := SameSizes.update hbytes
          obtain ⟨mem', hunpackAll, hsizes', hbits, hframe⟩ :=
            ih (fun m' hm' => (hrest m' hm').of_sameSizes hsizes) hdistinct
          rw [hunpack, ok_bind', List.filterMap_cons_some hvar]
          refine ⟨mem', hunpackAll, hsizes.trans hsizes', fun m' hm' d' v' hd' hv' => ?_,
            fun u hu => ?_⟩
          · rcases List.mem_cons.mp hm' with rfl | hm'
            · -- no later entry writes to its variable
              rw [hobj] at hd'
              obtain rfl := Option.some.inj hd'
              obtain rfl := Option.some.inj (hv.data.symm.trans hv')
              rw [hframe v hfresh, Function.update_self]
              exact hbit
            · exact hbits m' hm' d' v' hd' hv'
          · rw [List.mem_cons, not_or] at hu
            rw [hframe u hu.2, Function.update_of_ne hu.1]

end Unpacking

end GalvoCtrl.Coe
