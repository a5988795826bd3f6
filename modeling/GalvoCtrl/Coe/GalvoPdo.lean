import GalvoCtrl.Coe.PdoData

/-!
# Coe — GalvoPdo

The process data of the galvo controller. Whole bytes that are mapped end to end make an
image that is the variables one after the other, in the order of the mapping; so the
inputs are `galvo_txpdo_t` without its padding, and the outputs are `galvo_rxpdo_t`.
-/

namespace GalvoCtrl.Coe

open GalvoCtrl.Lib

variable {V : Type}

/-! ## Entries end to end -/

/-- Whole bytes from byte `off` on, one entry behind the other: the variables `vs`. -/
inductive Contiguous (mem : Memory V) : (off : Nat) → List (SmMap V) → List V → Prop where
  | nil (off : Nat) : Contiguous mem off [] []
  | cons {off : Nat} {m : SmMap V} {ms : List (SmMap V)} {d : ObjDesc V} {v : V} {vs : List V} :
      m.obj = some d → d.data = some v → m.offset = 8 * off → 0 < (mem v).length →
      d.bitlength.toNat = 8 * (mem v).length →
      (d.bitlength.toNat ≤ 64 → valueWidth d.datatype = some (mem v).length) →
      Contiguous mem (off + (mem v).length) ms vs → Contiguous mem off (m :: ms) (v :: vs)

/-- The bytes of variables one after the other. -/
def image (mem : Memory V) (vs : List V) : List (BitVec 8) := (vs.map mem).flatten

theorem image_cons (mem : Memory V) (v : V) (vs : List V) :
    image mem (v :: vs) = mem v ++ image mem vs := rfl

section Contiguous

variable {mem : Memory V} {off size : Nat} {m : SmMap V} {ms : List (SmMap V)} {d : ObjDesc V}
  {v : V} {vs : List V}

theorem wholeBytes (hbits : d.bitlength.toNat = 8 * (mem v).length) :
    d.bits = 8 * (mem v).length := by
  rw [ObjDesc.bits, ObjDesc.size, bits2bytes, hbits]
  split <;> omega

theorem wholeBytes_start (hoff : m.offset = 8 * off) : m.start d = 8 * off := by
  rw [SmMap.start, hoff]
  split <;> omega

theorem Contiguous.mappable (h : Contiguous mem off ms vs)
    (hsize : off + (image mem vs).length ≤ size) : ∀ m ∈ ms, Mappable mem size m := by
  induction h with
  | nil off => exact fun m hm => absurd hm List.not_mem_nil
  | @cons off m ms d v vs hobj hdata hoff hpos hbits hwidth _ ih =>
      rw [image_cons, List.length_append] at hsize
      intro m' hm'
      rcases List.mem_cons.mp hm' with rfl | hm'
      · intro d' hobj'
        obtain rfl := Option.some.inj (hobj.symm.trans hobj')
        refine ⟨v, hdata, by omega, Nat.le_of_eq (wholeBytes hbits), hwidth, fun _ => ?_, ?_⟩
        · rw [ObjDesc.size, bits2bytes, hbits]
          omega
        · rw [wholeBytes_start hoff, wholeBytes hbits]
          omega
      · exact ih (by omega) m' hm'

/-- The fields of later entries start behind. -/
theorem Contiguous.start_le (h : Contiguous mem off ms vs) :
    ∀ f ∈ ms.filterMap (entryField mem), 8 * off ≤ f.start := by
  induction h with
  | nil off => exact fun f hf => absurd hf List.not_mem_nil
  | cons hobj hdata hoff _ _ _ _ ih =>
      intro f hf
      rw [List.filterMap_cons_some (entryField_eq hobj hdata)] at hf
      rcases List.mem_cons.mp hf with rfl | hf
      · exact Nat.le_of_eq (wholeBytes_start hoff).symm
      · have := ih f hf
        omega

theorem Contiguous.disjoint (h : Contiguous mem off ms vs) :
    (ms.filterMap (entryField mem)).Pairwise BitField.Disjoint := by
  induction h with
  | nil off => exact List.Pairwise.nil
  | cons hobj hdata hoff _ hbits _ hrest ih =>
      rw [List.filterMap_cons_some (entryField_eq hobj hdata)]
      refine List.pairwise_cons.mpr ⟨fun f hf => BitField.disjoint_of_le ?_, ih⟩
      have := hrest.start_le f hf
      simp only [wholeBytes_start hoff, wholeBytes hbits]
      omega

theorem Contiguous.vars (h : Contiguous mem off ms vs) : ms.filterMap SmMap.var = vs := by
  induction h with
  | nil off => rfl
  | cons hobj hdata _ _ _ _ _ ih =>
      rw [List.filterMap_cons_some (SmMap.var_eq hobj hdata), ih]

/-- A buffer with the bits of every entry has the image. -/
theorem Contiguous.slice_eq_image (h : Contiguous mem off ms vs) {buffer : List (BitVec 8)}
    (hend : off + (image mem vs).length ≤ buffer.length)
    (hfields : ∀ f ∈ ms.filterMap (entryField mem), ∀ i < f.len,
      bitAt buffer (f.start + i) = f.content i) :
    slice buffer off (image mem vs).length = image mem vs := by
  induction h with
  | nil off => rfl
  | @cons off m ms d v vs hobj hdata hoff hpos hbits hwidth hrest ih =>
      rw [List.filterMap_cons_some (entryField_eq hobj hdata)] at hfields
      rw [image_cons, List.length_append] at hend ⊢
      have hhead : slice buffer off (mem v).length = mem v := by
        refine ext_bitAt (length_slice (by omega)) fun i hi => ?_
        rw [length_slice (by omega)] at hi
        have hfield := hfields _ List.mem_cons_self i
        simp only [wholeBytes_start hoff, wholeBytes hbits] at hfield
        rw [bitAt_slice, hfield hi]
        simp [hi]
      rw [slice_add, hhead,
        ih (by omega) fun f hf => hfields f (List.mem_cons_of_mem _ hf)]

/-- **The process data are the variables one after the other.** -/
theorem Contiguous.coePdoPack (h : Contiguous mem off ms vs) (haligned : size % 8 = 0)
    (hsize : off + (image mem vs).length ≤ size) {buffer : List (BitVec 8)}
    (hlength : buffer.length = size) :
    ∃ buffer', Coe.coePdoPack mem buffer ms = .ok buffer' ∧ buffer'.length = size
      ∧ slice buffer' off (image mem vs).length = image mem vs := by
  obtain ⟨buffer', hpack, hlength', hput⟩ :=
    coePdoPack_spec (h.mappable hsize) haligned hlength
  refine ⟨buffer', hpack, hlength', h.slice_eq_image (by omega) fun f hf i hi => ?_⟩
  rw [hput, BitField.putAll_of_mem h.disjoint hf _ hi]

/-- Memories that hold slices of a buffer one after the other. -/
theorem Contiguous.image_eq_slice (h : Contiguous mem off ms vs) {mem' : Memory V}
    (hsizes : SameSizes mem mem') {buffer : List (BitVec 8)}
    (hend : off + (image mem vs).length ≤ buffer.length)
    (hvars : ∀ m ∈ ms, ∀ d v, m.obj = some d → d.data = some v →
      ∀ i, bitAt (mem' v) i = (decide (i < d.bits) && bitAt buffer (m.start d + i))) :
    image mem' vs = slice buffer off (image mem vs).length := by
  induction h with
  | nil off => rfl
  | @cons off m ms d v vs hobj hdata hoff hpos hbits hwidth hrest ih =>
      rw [image_cons, List.length_append] at hend
      have hhead : mem' v = slice buffer off (mem v).length := by
        refine ext_bitAt (by rw [hsizes v, length_slice (by omega)]) fun i _ => ?_
        rw [hvars m List.mem_cons_self d v hobj hdata i, bitAt_slice, wholeBytes hbits,
          wholeBytes_start hoff]
      rw [image_cons, image_cons, List.length_append, slice_add, hhead,
        ih (by omega) fun m' hm' => hvars m' (List.mem_cons_of_mem m hm')]

/-- **The variables take the process data over**, one after the other, and the others
stay. -/
theorem Contiguous.coePdoUnpack [DecidableEq V] (h : Contiguous mem off ms vs) (hnodup : vs.Nodup)
    (haligned : size % 8 = 0) (hsize : off + (image mem vs).length ≤ size)
    {buffer : List (BitVec 8)} (hlength : buffer.length = size) :
    ∃ mem', Coe.coePdoUnpack buffer mem ms = .ok mem' ∧ SameSizes mem mem'
      ∧ image mem' vs = slice buffer off (image mem vs).length ∧ ∀ v, v ∉ vs → mem' v = mem v := by
  have hvars := h.vars
  obtain ⟨mem', hunpack, hsizes, hbits, hframe⟩ :=
    coePdoUnpack_spec (h.mappable hsize) (by rwa [DistinctVars, hvars]) haligned hlength
  rw [hvars] at hframe
  exact ⟨mem', hunpack, hsizes, h.image_eq_slice hsizes (by omega) hbits, hframe⟩

end Contiguous

/-! ## The galvo controller -/

/-- The outputs in the order of object 0x1600. -/
def rxVars : List GalvoVar :=
  [.rx .control, .rx .startX, .rx .startY, .rx .endX, .rx .endY, .rx .cycleCounter, .rx .flags]

/-- The inputs in the order of object 0x1A00. -/
def txVars : List GalvoVar :=
  [.tx .status, .tx .startX, .tx .startY, .tx .endX, .tx .endY, .tx .actualX, .tx .actualY,
    .tx .followingErrorX, .tx .followingErrorY, .tx .sequence]

/-- The mapping that object 0x1600 lists. -/
def rxMappings : List (SmMap GalvoVar) :=
  [⟨some (outputEntry 1 dtypeUnsigned16 16 "Control word" .control), 0⟩,
    ⟨some (outputEntry 2 dtypeInteger32 32 "Start X" .startX), 16⟩,
    ⟨some (outputEntry 3 dtypeInteger32 32 "Start Y" .startY), 48⟩,
    ⟨some (outputEntry 4 dtypeInteger32 32 "End X" .endX), 80⟩,
    ⟨some (outputEntry 5 dtypeInteger32 32 "End Y" .endY), 112⟩,
    ⟨some (outputEntry 6 dtypeUnsigned32 32 "Cycle counter" .cycleCounter), 144⟩,
    ⟨some (outputEntry 7 dtypeUnsigned16 16 "Flags" .flags), 176⟩]

/-- The mapping that object 0x1A00 lists. -/
def txMappings : List (SmMap GalvoVar) :=
  [⟨some (inputEntry 1 dtypeUnsigned16 16 "Status word" .status), 0⟩,
    ⟨some (inputEntry 2 dtypeInteger32 32 "Start X" .startX), 16⟩,
    ⟨some (inputEntry 3 dtypeInteger32 32 "Start Y" .startY), 48⟩,
    ⟨some (inputEntry 4 dtypeInteger32 32 "End X" .endX), 80⟩,
    ⟨some (inputEntry 5 dtypeInteger32 32 "End Y" .endY), 112⟩,
    ⟨some (inputEntry 6 dtypeInteger32 32 "Actual X" .actualX), 144⟩,
    ⟨some (inputEntry 7 dtypeInteger32 32 "Actual Y" .actualY), 176⟩,
    ⟨some (inputEntry 8 dtypeInteger32 32 "Following error X" .followingErrorX), 208⟩,
    ⟨some (inputEntry 9 dtypeInteger32 32 "Following error Y" .followingErrorY), 240⟩,
    ⟨some (inputEntry 10 dtypeUnsigned32 32 "Sequence" .sequence), 272⟩]

/-- The values that object 0x1600 lists. -/
def rxValues : List (BitVec 32) :=
  [0x70000110, 0x70000220, 0x70000320, 0x70000420, 0x70000520, 0x70000620, 0x70000710]

/-- The values that object 0x1A00 lists. -/
def txValues : List (BitVec 32) :=
  [0x60000110, 0x60000220, 0x60000320, 0x60000420, 0x60000520, 0x60000620, 0x60000720,
    0x60000820, 0x60000920, 0x60000A20]

/-- Memories with variables of the sizes that they have in the controller. -/
def GalvoSizes (mem : Memory GalvoVar) : Prop := SameSizes OdVariables.initial.memory mem

theorem galvoSizes_memory (m : OdVariables) : GalvoSizes m.memory := by
  intro v
  cases v with
  | rx field => cases field <;> rfl
  | tx field => cases field <;> rfl
  | _ => rfl

/-- Only the sizes of the variables count. -/
theorem Contiguous.of_sameSizes {mem mem' : Memory V} (hsizes : SameSizes mem mem') {off : Nat}
    {ms : List (SmMap V)} {vs : List V} (h : Contiguous mem off ms vs) :
    Contiguous mem' off ms vs := by
  induction h with
  | nil off => exact .nil off
  | @cons off m ms d v vs hobj hdata hoff hpos hbits hwidth _ ih =>
      have hlength := hsizes v
      rw [← hlength] at hpos hbits hwidth ih
      exact .cons hobj hdata hoff hpos hbits hwidth ih

theorem contiguous_rxMappings {mem : Memory GalvoVar} (h : GalvoSizes mem) :
    Contiguous mem 0 rxMappings rxVars := by
  refine Contiguous.of_sameSizes h ?_
  repeat refine .cons rfl rfl rfl (by decide) rfl (fun _ => rfl) ?_
  exact .nil _

theorem contiguous_txMappings {mem : Memory GalvoVar} (h : GalvoSizes mem) :
    Contiguous mem 0 txMappings txVars := by
  refine Contiguous.of_sameSizes h ?_
  repeat refine .cons rfl rfl rfl (by decide) rfl (fun _ => rfl) ?_
  exact .nil _

theorem length_image {mem mem' : Memory V} (hsizes : SameSizes mem mem') (vs : List V) :
    (image mem' vs).length = (image mem vs).length := by
  induction vs with
  | nil => rfl
  | cons v vs ih =>
      rw [image_cons, image_cons, List.length_append, List.length_append, ih, hsizes v]

theorem length_image_rxVars {mem : Memory GalvoVar} (h : GalvoSizes mem) :
    (image mem rxVars).length = 24 := by
  rw [length_image h]
  rfl

theorem length_image_txVars {mem : Memory GalvoVar} (h : GalvoSizes mem) :
    (image mem txVars).length = 38 := by
  rw [length_image h]
  rfl

theorem pdoLayout_rxValues : pdoLayout galvoObjects maxMappingsSm rxValues = some rxMappings := rfl

theorem pdoLayout_txValues : pdoLayout galvoObjects maxMappingsSm txValues = some txMappings := rfl

theorem noTerminator_rxValues : NoTerminator rxValues := by decide

theorem noTerminator_txValues : NoTerminator txValues := by decide

/-- The mapping objects that the controller comes with are assigned. -/
structure DefaultAssignment (mem : Memory GalvoVar) : Prop where
  sizes : GalvoSizes mem
  rxCount : mem .obj1c12Sub0 = toBytes 1 (1 : BitVec 8)
  rxObject : mem .obj1c12Sub1 = toBytes 2 (0x1600 : BitVec 16)
  txCount : mem .obj1c13Sub0 = toBytes 1 (1 : BitVec 8)
  txObject : mem .obj1c13Sub1 = toBytes 2 (0x1A00 : BitVec 16)

theorem objValueFetch_var {mem : Memory V} {d : ObjDesc V} {v : V} {w n : Nat}
    (hdata : d.data = some v) (hn : bits2bytes w = n) {value : BitVec w}
    (hvar : mem v = toBytes n value) (hw : w ≤ 8 * n) : objValueFetch w mem d = .ok value := by
  rw [objValueFetch, hdata]
  simp only [readVar, hvar, hn, length_toBytes, Nat.le_refl, if_true]
  rw [List.take_of_length_le (by rw [length_toBytes])]
  exact congrArg Except.ok (ofBytes_toBytes hw value)

/-- The values of one object that is assigned to a sync manager. -/
theorem assignedValues_single {table : List (ObjectItem V)} (h : IsTable table) {mem : Memory V}
    {index : BitVec 16} {o : ObjectItem V} {d₀ d₁ : ObjDesc V} {ds : List (ObjDesc V)} {v₀ v₁ : V}
    (hobject : object? table index = some o) (hdesc : o.objdesc = some (d₀ :: d₁ :: ds))
    (hdata₀ : d₀.data = some v₀) (hdata₁ : d₁.data = some v₁)
    (hvar₀ : mem v₀ = toBytes 1 (1 : BitVec 8)) {hobj : BitVec 16} (hvar₁ : mem v₁ = toBytes 2 hobj)
    {values : List (BitVec 32)} (hvalues : pdoValues mem table hobj = .ok values) :
    assignedValues mem table index = .ok values := by
  have hcount : objValueFetch 8 mem d₀ = .ok 1 :=
    objValueFetch_var hdata₀ rfl hvar₀ (Nat.le_refl _)
  have hfirst : objValueFetch 16 mem d₁ = .ok hobj :=
    objValueFetch_var hdata₁ rfl hvar₁ (Nat.le_refl _)
  have hlist : listOf mem 16 o.objdesc = .ok [hobj] := by
    rw [hdesc, listOf, descAt_of (List.getElem?_cons_zero ..), ok_bind', hcount, ok_bind',
      if_neg (by decide)]
    show valuesFrom mem 16 (some (d₀ :: d₁ :: ds)) 1 1 = _
    rw [valuesFrom, List.range'_one, List.mapM_cons, List.mapM_nil,
      descAt_of (List.getElem?_cons_succ ..), ok_bind', hfirst]
    rfl
  rw [assignedValues, h.lookupObject, ok_bind', hobject]
  dsimp only
  rw [hlist, ok_bind', List.mapM_cons, List.mapM_nil, hvalues]
  simp only [ok_bind']
  exact congrArg Except.ok (List.append_nil values)

section Galvo

variable {mem : Memory GalvoVar}

/-- **The outputs are mapped as object 0x1600 lists them.** -/
theorem DefaultAssignment.sizeOfPdo_rx (h : DefaultAssignment mem)
    (mappings : Option (List (SmMap GalvoVar))) :
    sizeOfPdo mem galvoObjects maxMappingsSm rxPdoObjidx mappings = .ok (24, some rxMappings) := by
  have hpdo : pdoValues mem galvoObjects 0x1600 = .ok rxValues := by
    rw [pdoValues, isTable_galvoObjects.lookupObject]
    rfl
  have hvalues : assignedValues mem galvoObjects rxPdoObjidx = .ok rxValues :=
    assignedValues_single isTable_galvoObjects rfl rfl rfl rfl h.rxCount h.rxObject hpdo
  rw [sizeOfPdo_eq_layout isTable_galvoObjects mem (by decide) (Or.inl rfl) rfl hvalues
    noTerminator_rxValues, pdoLayout_rxValues]
  rfl

/-- **The inputs are mapped as object 0x1A00 lists them.** -/
theorem DefaultAssignment.sizeOfPdo_tx (h : DefaultAssignment mem)
    (mappings : Option (List (SmMap GalvoVar))) :
    sizeOfPdo mem galvoObjects maxMappingsSm txPdoObjidx mappings = .ok (38, some txMappings) := by
  have hpdo : pdoValues mem galvoObjects 0x1A00 = .ok txValues := by
    rw [pdoValues, isTable_galvoObjects.lookupObject]
    rfl
  have hvalues : assignedValues mem galvoObjects txPdoObjidx = .ok txValues :=
    assignedValues_single isTable_galvoObjects rfl rfl rfl rfl h.txCount h.txObject hpdo
  rw [sizeOfPdo_eq_layout isTable_galvoObjects mem (by decide) (Or.inr rfl) rfl hvalues
    noTerminator_txValues, pdoLayout_txValues]
  rfl

end Galvo

end GalvoCtrl.Coe
