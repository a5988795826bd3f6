import GalvoCtrl.Coe.GalvoPdo

/-!
# Coe — ProcessImage

The process image that the dictionary lists: the entries of a computed mapping do not
overlap and end with the size that goes with it. So what is packed into the first bytes of
one buffer is unpacked from the first bytes of any other one.
-/

namespace GalvoCtrl.Coe

open GalvoCtrl.Lib

variable {V : Type}

/-- An entry that a mapping can carry: its variable is as wide as its data type, and it is
either at most 64 bits or whole bytes on a byte boundary. -/
structure Carried (mem : Memory V) (m : SmMap V) (d : ObjDesc V) (v : V) : Prop where
  data : d.data = some v
  pos : 0 < d.bitlength.toNat
  wide : d.bits ≤ 8 * (mem v).length
  width : d.bitlength.toNat ≤ 64 → valueWidth d.datatype = some (mem v).length
  long : 64 < d.bitlength.toNat →
    (mem v).length = d.size ∧ d.bitlength.toNat % 8 = 0 ∧ m.offset % 8 = 0

section Carried

variable {mem : Memory V} {m : SmMap V} {d : ObjDesc V} {v : V}

theorem Carried.start (h : Carried mem m d v) : m.start d = m.offset := by
  rw [SmMap.start]
  by_cases hlong : d.bitlength.toNat > 64
  · have := (h.long hlong).2.2
    rw [if_pos hlong]
    omega
  · rw [if_neg hlong]

theorem Carried.bits (h : Carried mem m d v) : d.bits = d.bitlength.toNat := by
  rw [ObjDesc.bits]
  by_cases hlong : d.bitlength.toNat > 64
  · have := (h.long hlong).2.1
    rw [if_pos hlong, ObjDesc.size, bits2bytes]
    omega
  · rw [if_neg hlong]

theorem Carried.transferable (h : Carried mem m d v) {size : Nat}
    (hend : m.offset + d.bitlength.toNat ≤ 8 * size) : Transferable mem size m d v :=
  ⟨h.data, h.pos, h.wide, h.width, fun hlong => (h.long hlong).1, by rw [h.start, h.bits]; exact hend⟩

end Carried

/-- A mapping all of whose entries can be carried. -/
def CarriedAll (mem : Memory V) (ms : List (SmMap V)) : Prop :=
  ∀ m ∈ ms, ∀ d, m.obj = some d → ∃ v, Carried mem m d v

section Layout

variable {table : List (ObjectItem V)} {mem mem₂ : Memory V}

/-- The mapping values state how long the entries are that they name. -/
def StatesLengths (table : List (ObjectItem V)) (values : List (BitVec 32)) : Prop :=
  ∀ value ∈ values, ∀ d, mapped? table value = some (some d) →
    d.bitlength.toNat = mappedBits value

/-- The head of a layout. -/
theorem layoutFrom_cons {off : Nat} {value : BitVec 32} {values : List (BitVec 32)}
    {ms : List (SmMap V)} (h : layoutFrom table off (value :: values) = some ms) :
    ∃ obj rest, mapped? table value = some obj
      ∧ layoutFrom table (off + mappedBits value) values = some rest ∧ ms = ⟨obj, off⟩ :: rest := by
  rw [layoutFrom] at h
  cases hobj : mapped? table value with
  | none =>
      rw [hobj] at h
      cases h
  | some obj =>
      cases hrest : layoutFrom table (off + mappedBits value) values with
      | none =>
          rw [hobj, hrest] at h
          cases h
      | some rest =>
          rw [hobj, hrest] at h
          cases h
          exact ⟨obj, rest, rfl, rfl, rfl⟩

/-- Every entry lies between the first offset and the end of the layout. -/
theorem layoutFrom_bounds {values : List (BitVec 32)} {off : Nat} {ms : List (SmMap V)}
    (h : layoutFrom table off values = some ms) (hlengths : StatesLengths table values) :
    ∀ m ∈ ms, ∀ d, m.obj = some d →
      off ≤ m.offset ∧ m.offset + d.bitlength.toNat ≤ off + totalBits values := by
  induction values generalizing off ms with
  | nil =>
      cases h
      exact fun m hm => absurd hm List.not_mem_nil
  | cons value values ih =>
      obtain ⟨obj, rest, hobj, hrest, rfl⟩ := layoutFrom_cons h
      intro m hm d hd
      rw [totalBits_cons]
      rcases List.mem_cons.mp hm with rfl | hm
      · subst hd
        have := hlengths value List.mem_cons_self d hobj
        dsimp only
        omega
      · have := ih hrest (fun w hw => hlengths w (List.mem_cons_of_mem value hw)) m hm d hd
        omega

/-- **The entries of a layout do not overlap.** -/
theorem layoutFrom_disjoint {values : List (BitVec 32)} {off : Nat} {ms : List (SmMap V)}
    (h : layoutFrom table off values = some ms) (hlengths : StatesLengths table values)
    (hcarried : CarriedAll mem ms) :
    (ms.filterMap (entryField mem)).Pairwise BitField.Disjoint := by
  induction values generalizing off ms with
  | nil =>
      cases h
      exact List.Pairwise.nil
  | cons value values ih =>
      obtain ⟨obj, rest, hobj, hrest, rfl⟩ := layoutFrom_cons h
      have hlengths' : StatesLengths table values := fun w hw =>
        hlengths w (List.mem_cons_of_mem value hw)
      have hcarried' : CarriedAll mem rest := fun m hm => hcarried m (List.mem_cons_of_mem _ hm)
      have hpairwise := ih hrest hlengths' hcarried'
      cases obj with
      | none => rwa [List.filterMap_cons_none rfl]
      | some d =>
          obtain ⟨v, hv⟩ := hcarried _ List.mem_cons_self d rfl
          rw [List.filterMap_cons_some (entryField_eq rfl hv.data)]
          refine List.pairwise_cons.mpr ⟨fun f hf => ?_, hpairwise⟩
          obtain ⟨m, hm, hfield⟩ := List.mem_filterMap.mp hf
          cases hd : m.obj with
          | none =>
              rw [entryField, hd] at hfield
              cases hfield
          | some d' =>
              obtain ⟨v', hv'⟩ := hcarried' m hm d' hd
              rw [entryField_eq hd hv'.data] at hfield
              cases hfield
              refine BitField.disjoint_of_le ?_
              have hbound := (layoutFrom_bounds hrest hlengths' m hm d' hd).1
              have hlength := hlengths value List.mem_cons_self d hobj
              rw [hv.start, hv.bits, hv'.start, hlength]
              exact hbound

theorem mappedBits_lt (value : BitVec 32) : mappedBits value < 256 := by
  rw [mappedBits, BitVec.toNat_and]
  exact Nat.lt_of_le_of_lt Nat.and_le_right (by decide)

theorem totalBits_le (values : List (BitVec 32)) : totalBits values ≤ 255 * values.length := by
  induction values with
  | nil => exact Nat.le_refl 0
  | cons value values ih =>
      have := mappedBits_lt value
      rw [totalBits_cons, List.length_cons]
      omega

/-- The size of a layout fits the `uint16_t` that it is returned in. -/
theorem toNat_layoutSize {values : List (BitVec 32)} {ms : List (SmMap V)}
    (h : pdoLayout table maxMappingsSm values = some ms) :
    (layoutSize values (some ms)).toNat = bits2bytes (totalBits values) := by
  have htotal := totalBits_le values
  rw [pdoLayout] at h
  by_cases hroom : values.length ≤ maxMappingsSm
  · rw [maxMappingsSm] at hroom
    rw [layoutSize, BitVec.toNat_ofNat, bits2bytes]
    exact Nat.mod_eq_of_lt (by omega)
  · rw [if_neg hroom] at h
    cases h

/-- A layout is `layoutFrom` the first bit on. -/
theorem layoutFrom_of_pdoLayout {maxMappings : Nat} {values : List (BitVec 32)}
    {ms : List (SmMap V)} (h : pdoLayout table maxMappings values = some ms) :
    layoutFrom table 0 values = some ms := by
  rw [pdoLayout] at h
  split_ifs at h
  exact h

/-- Every entry can be transferred in a buffer that has room for all. -/
theorem mappable_of_layout {values : List (BitVec 32)} {ms : List (SmMap V)}
    (h : layoutFrom table 0 values = some ms) (hlengths : StatesLengths table values)
    (hcarried : CarriedAll mem ms) {size : Nat} (hsize : bits2bytes (totalBits values) ≤ size) :
    ∀ m ∈ ms, Mappable mem size m := by
  intro m hm d hobj
  obtain ⟨v, hv⟩ := hcarried m hm d hobj
  have hend := (layoutFrom_bounds h hlengths m hm d hobj).2
  rw [bits2bytes] at hsize
  exact ⟨v, hv.transferable (by omega)⟩

/-- Buffers that begin alike have the same bits there. -/
theorem bitAt_of_take_eq {buffer buffer' : List (BitVec 8)} {n i : Nat}
    (h : buffer.take n = buffer'.take n) (hi : i < 8 * n) : bitAt buffer i = bitAt buffer' i := by
  have hbyte : buffer[i / 8]? = buffer'[i / 8]? := by
    rw [← List.getElem?_take_of_lt (show i / 8 < n from by omega), h,
      List.getElem?_take_of_lt (by omega)]
  rw [bitAt, bitAt, List.getD_eq_getElem?_getD, List.getD_eq_getElem?_getD, hbyte]

/-- **A process image goes from one dictionary to another.** Where the objects assigned to
a sync manager list entries that can be carried, none of them twice, `sizeOfPDO` gives the
size of their image; packing into any buffer with that much room succeeds; and whatever
buffer begins with these bytes, unpacking it gives every mapped variable the bits that it has
on the other side and leaves all others alone. The buffers are made of whole words of 64 bits,
as those of the controller are. -/
theorem process_image_roundtrip [DecidableEq V] (h : IsTable table) (hsizes : SameSizes mem mem₂)
    {index : BitVec 16} (hindex : index = rxPdoObjidx ∨ index = txPdoObjidx)
    (hobject : (object? table index).isSome) {values : List (BitVec 32)}
    (hvalues : assignedValues mem table index = .ok values) (hno : NoTerminator values)
    {ms : List (SmMap V)} (hlayout : pdoLayout table maxMappingsSm values = some ms)
    (hlengths : StatesLengths table values) (hcarried : CarriedAll mem ms)
    (hdistinct : DistinctVars ms) {buffer : List (BitVec 8)} (haligned : buffer.length % 8 = 0)
    (hroom : bits2bytes (totalBits values) ≤ buffer.length) (mappings : Option (List (SmMap V))) :
    ∃ size buffer', sizeOfPdo mem table maxMappingsSm index mappings = .ok (size, some ms)
      ∧ size.toNat = bits2bytes (totalBits values)
      ∧ coePdoPack mem buffer ms = .ok buffer'
      ∧ ∀ buffer₂ : List (BitVec 8), buffer₂.length % 8 = 0 → size.toNat ≤ buffer₂.length →
        buffer₂.take size.toNat = buffer'.take size.toNat →
        ∃ mem', coePdoUnpack buffer₂ mem₂ ms = .ok mem' ∧ SameSizes mem₂ mem'
          ∧ (∀ m ∈ ms, ∀ d v, m.obj = some d → d.data = some v →
            ∀ i, bitAt (mem' v) i = (decide (i < d.bits) && bitAt (mem v) i))
          ∧ ∀ v, v ∉ ms.filterMap SmMap.var → mem' v = mem₂ v := by
  have hfrom := layoutFrom_of_pdoLayout hlayout
  have hsize := toNat_layoutSize hlayout
  have hmap := mappable_of_layout hfrom hlengths hcarried hroom
  obtain ⟨buffer', hpack, _, hput⟩ := coePdoPack_spec hmap haligned rfl
  have hmax : 0 < maxMappingsSm := by decide
  have hcomputed := sizeOfPdo_eq_layout h mem hmax hindex hobject hvalues hno mappings
  rw [hlayout] at hcomputed
  refine ⟨_, buffer', hcomputed, hsize, hpack, fun buffer₂ haligned₂ hroom₂ hbytes => ?_⟩
  rw [hsize] at hroom₂ hbytes
  have hmap₂ : ∀ m ∈ ms, Mappable mem₂ buffer₂.length m := fun m hm =>
    (mappable_of_layout hfrom hlengths hcarried hroom₂ m hm).of_sameSizes hsizes
  obtain ⟨mem', hunpack, hsizes', hbits, hframe⟩ :=
    coePdoUnpack_spec hmap₂ hdistinct haligned₂ rfl
  refine ⟨mem', hunpack, hsizes', fun m hm d v hobj hdata i => ?_, hframe⟩
  rw [hbits m hm d v hobj hdata i]
  by_cases hi : i < d.bits
  · -- the bit lies in the part that the two buffers have in common
    obtain ⟨u, hu⟩ := hcarried m hm d hobj
    have hend := (layoutFrom_bounds hfrom hlengths m hm d hobj).2
    have hlow : m.start d + i < 8 * bits2bytes (totalBits values) := by
      rw [hu.bits] at hi
      rw [hu.start, bits2bytes]
      omega
    have hfield : (⟨m.start d, d.bits, bitAt (mem v)⟩ : BitField)
        ∈ ms.filterMap (entryField mem) :=
      List.mem_filterMap.mpr ⟨m, hm, entryField_eq hobj hdata⟩
    rw [bitAt_of_take_eq hbytes hlow, hput, BitField.putAll_of_mem
      (layoutFrom_disjoint hfrom hlengths hcarried) hfield (bitAt buffer) hi]
  · simp [hi]

end Layout

/-! ## The galvo controller -/

/-- Entries end to end can be carried. -/
theorem Contiguous.carriedAll {mem : Memory V} {off : Nat} {ms : List (SmMap V)} {vs : List V}
    (h : Contiguous mem off ms vs) : CarriedAll mem ms := by
  induction h with
  | nil off => exact fun m hm => absurd hm List.not_mem_nil
  | @cons off m ms d v vs hobj hdata hoff hpos hbits hwidth _ ih =>
      intro m' hm' d' hobj'
      rcases List.mem_cons.mp hm' with rfl | hm'
      · obtain rfl := Option.some.inj (hobj.symm.trans hobj')
        refine ⟨v, hdata, by omega, Nat.le_of_eq (wholeBytes hbits), hwidth, fun _ => ?_⟩
        rw [ObjDesc.size, bits2bytes]
        omega
      · exact ih m' hm' d' hobj'

theorem Contiguous.entry {mem : Memory V} {off : Nat} {ms : List (SmMap V)} {vs : List V}
    (h : Contiguous mem off ms vs) : ∀ v ∈ vs, ∃ m ∈ ms, ∃ d, m.obj = some d ∧ d.data = some v
      ∧ d.bits = 8 * (mem v).length := by
  induction h with
  | nil off => exact fun v hv => absurd hv List.not_mem_nil
  | @cons off m ms d v vs hobj hdata _ _ hbits _ _ ih =>
      intro v' hv'
      rcases List.mem_cons.mp hv' with rfl | hv'
      · exact ⟨m, List.mem_cons_self, d, hobj, hdata, wholeBytes hbits⟩
      · obtain ⟨m', hm', hentry⟩ := ih v' hv'
        exact ⟨m', List.mem_cons_of_mem _ hm', hentry⟩

theorem statesLengths_txValues : StatesLengths galvoObjects txValues := by
  intro value hvalue d hmapped
  have hcheck : (txValues.all fun value => (mapped? galvoObjects value).all fun obj =>
      obj.all fun d => decide (d.bitlength.toNat = mappedBits value)) = true := by decide
  have := List.all_eq_true.mp hcheck value hvalue
  rw [hmapped] at this
  exact of_decide_eq_true this

/-- The variables of a controller at work. -/
def OdVariables.sampled : OdVariables :=
  { OdVariables.initial with
    galvoTxPdo := ⟨0x1234, 70000, 0xFFFEEE90, 1, 2, 69999, 0xFFFEEE91, 1, 0xFFFFFFFF, 7⟩ }

/-- Its inputs go over to another controller, whatever follows them in the buffer there. -/
theorem process_image_roundtrip_inputs :
    ∃ buffer' mem', coePdoPack OdVariables.sampled.memory (List.replicate maxTxpdoSize 0) txMappings
          = .ok buffer'
      ∧ coePdoUnpack (buffer'.take 38 ++ List.replicate 10 0xFF) OdVariables.initial.memory
          txMappings = .ok mem'
      ∧ (∀ v ∈ txVars, mem' v = OdVariables.sampled.memory v)
      ∧ mem' (.rx .control) = OdVariables.initial.memory (.rx .control) := by
  have hsizes := galvoSizes_memory OdVariables.sampled
  have hcontiguous := contiguous_txMappings hsizes
  have hdistinct : DistinctVars txMappings := by
    rw [DistinctVars, hcontiguous.vars]
    decide
  have hvalues :
      assignedValues OdVariables.sampled.memory galvoObjects txPdoObjidx = .ok txValues := rfl
  have haligned : (List.replicate maxTxpdoSize (0 : BitVec 8)).length % 8 = 0 := rfl
  have hroom : bits2bytes (totalBits txValues)
      ≤ (List.replicate maxTxpdoSize (0 : BitVec 8)).length := by decide
  have hsame : SameSizes OdVariables.sampled.memory OdVariables.initial.memory := fun v =>
    (galvoSizes_memory OdVariables.initial v).trans (hsizes v).symm
  obtain ⟨size, buffer', _, hsize, hpack, hcarry⟩ :=
    process_image_roundtrip isTable_galvoObjects hsame (Or.inr rfl) rfl hvalues
      noTerminator_txValues pdoLayout_txValues statesLengths_txValues hcontiguous.carriedAll
      hdistinct haligned hroom none
  have hsize' : size.toNat = 38 := hsize
  rw [hsize'] at hcarry
  have hlength : (buffer'.take 38).length = 38 := by
    rw [List.length_take, coePdoPack_length hpack]
    rfl
  obtain ⟨mem', hunpack, hsizes', hbits, hframe⟩ :=
    hcarry (buffer'.take 38 ++ List.replicate 10 0xFF) (by rw [List.length_append, hlength]; rfl)
      (by rw [List.length_append, hlength]; decide) (List.take_left' hlength)
  refine ⟨buffer', mem', hpack, hunpack, fun v hv => ?_, hframe _ ?_⟩
  · obtain ⟨m, hm, d, hobj, hdata, hwhole⟩ := hcontiguous.entry v hv
    have hlength : (mem' v).length = (OdVariables.sampled.memory v).length :=
      (hsizes' v).trans (hsame v)
    refine ext_bitAt hlength fun i hi => ?_
    rw [hbits m hm d v hobj hdata i, decide_eq_true (by omega), Bool.true_and]
  · rw [hcontiguous.vars]
    decide

end GalvoCtrl.Coe
