import GalvoCtrl.Coe.GalvoOd
import GalvoCtrl.Lib.ByteWords

/-!
# Coe — Objects

The object dictionary with all that a transfer looks at (`_objd`, `_objectlist` of
`esc_coe.h`). The table is constant, and its `data` pointers lead to variables of a known
size, so an access past the end of a variable is a fault as well. For the application's
read, and for the searches, the table is the one of `ObjectDictionary` at the values that
the variables have (`snapshot`).
-/

namespace GalvoCtrl.Coe

open GalvoCtrl.Lib

/-! ## Constants -/

def dtypeBoolean : BitVec 16 := 0x0001
def dtypeInteger8 : BitVec 16 := 0x0002
def dtypeInteger16 : BitVec 16 := 0x0003
def dtypeInteger32 : BitVec 16 := 0x0004
def dtypeUnsigned8 : BitVec 16 := 0x0005
def dtypeUnsigned16 : BitVec 16 := 0x0006
def dtypeUnsigned32 : BitVec 16 := 0x0007
def dtypeReal32 : BitVec 16 := 0x0008
def dtypeVisibleString : BitVec 16 := 0x0009
def dtypeOctetString : BitVec 16 := 0x000A
def dtypeUnicodeString : BitVec 16 := 0x000B
def dtypeReal64 : BitVec 16 := 0x0011
def dtypeInteger64 : BitVec 16 := 0x0015
def dtypeUnsigned64 : BitVec 16 := 0x001B
def dtypePdoMapping : BitVec 16 := 0x0021
def dtypeBitarr8 : BitVec 16 := 0x002D
def dtypeBitarr16 : BitVec 16 := 0x002E
def dtypeBitarr32 : BitVec 16 := 0x002F
def dtypeBit1 : BitVec 16 := 0x0030
def dtypeBit2 : BitVec 16 := 0x0031
def dtypeBit3 : BitVec 16 := 0x0032
def dtypeBit4 : BitVec 16 := 0x0033
def dtypeBit5 : BitVec 16 := 0x0034
def dtypeBit6 : BitVec 16 := 0x0035
def dtypeBit7 : BitVec 16 := 0x0036
def dtypeBit8 : BitVec 16 := 0x0037
def dtypeArrayOfInt : BitVec 16 := 0x0260
def dtypeArrayOfSint : BitVec 16 := 0x0261
def dtypeArrayOfDint : BitVec 16 := 0x0262
def dtypeArrayOfUdint : BitVec 16 := 0x0263

def atypeRpre : BitVec 16 := 0x01
def atypeRsafe : BitVec 16 := 0x02
def atypeRop : BitVec 16 := 0x04
def atypeWpre : BitVec 16 := 0x08
def atypeWsafe : BitVec 16 := 0x10
def atypeWop : BitVec 16 := 0x20
def atypeRxpdo : BitVec 16 := 0x40
def atypeTxpdo : BitVec 16 := 0x80

def atypeRo : BitVec 16 := atypeRpre ||| atypeRsafe ||| atypeRop
def atypeWo : BitVec 16 := atypeWpre ||| atypeWsafe ||| atypeWop
def atypeRw : BitVec 16 := atypeRo ||| atypeWo
def atypeRwpre : BitVec 16 := atypeWpre ||| atypeRo

def otypeVar : BitVec 16 := 0x0007
def otypeArray : BitVec 16 := 0x0008
def otypeRecord : BitVec 16 := 0x0009

/-- `RX_PDO_OBJIDX` -/
def rxPdoObjidx : BitVec 16 := 0x1C12

/-- `TX_PDO_OBJIDX` -/
def txPdoObjidx : BitVec 16 := 0x1C13

/-! ## Tables and variables -/

/-- `_objd`; `data` points to one of the variables `V`. -/
structure ObjDesc (V : Type) where
  subindex : BitVec 16
  datatype : BitVec 16
  bitlength : BitVec 16
  flags : BitVec 16
  name : String
  value : BitVec 32
  data : Option V
deriving DecidableEq

/-- `_objectlist` -/
structure ObjectItem (V : Type) where
  index : BitVec 16
  objtype : BitVec 16
  maxsub : BitVec 8
  name : String
  objdesc : Option (List (ObjDesc V))
deriving DecidableEq

/-- The bytes of every variable. -/
abbrev Memory (V : Type) := V → List (BitVec 8)

/-- What C leaves undefined in a transfer. -/
inductive AccessFault where
  | dictionary (fault : Fault)
  | nullPointer
  | outsideVariable
  | outsideBuffer
  | counterWraps
  | shiftWidth
  | assertion
deriving DecidableEq, Repr

variable {V : Type}

/-- The descriptor at the values of the variables. -/
def ObjDesc.snapshot (mem : Memory V) (d : ObjDesc V) : Objd where
  subindex := d.subindex
  bitlength := d.bitlength
  value := d.value
  data := d.data.map fun v i => (mem v).getD i 0

def ObjectItem.snapshot (mem : Memory V) (o : ObjectItem V) : ObjectEntry where
  index := o.index
  maxsub := o.maxsub
  objdesc := o.objdesc.map fun ds => ds.map (ObjDesc.snapshot mem)

/-- The table that the searches and the application's read see. -/
def snapshot (mem : Memory V) (table : List (ObjectItem V)) : List ObjectEntry :=
  table.map (ObjectItem.snapshot mem)

/-- `BITS2BYTES` -/
def bits2bytes (b : Nat) : Nat := (b + 7) / 8

/-- The bytes of an entry, `BITS2BYTES(objd->bitlength)`. -/
def ObjDesc.size (d : ObjDesc V) : Nat := bits2bytes d.bitlength.toNat

/-! ## Accesses -/

/-- An outcome of the searches. -/
def ofSearch {α : Type} : Except Fault α → Except AccessFault α
  | .ok a => .ok a
  | .error f => .error (.dictionary f)

/-- `SDOobjects[nidx]` -/
def itemAt (table : List (ObjectItem V)) (nidx : Nat) : Except AccessFault (ObjectItem V) :=
  match table[nidx]? with
  | some o => .ok o
  | none => .error (.dictionary .outsideObjects)

/-- `SDOobjects[nidx].objdesc[n]` -/
def descAt (objdesc : Option (List (ObjDesc V))) (n : Nat) : Except AccessFault (ObjDesc V) :=
  match objdesc with
  | none => .error (.dictionary .nullDescriptors)
  | some ds =>
      match ds[n]? with
      | some d => .ok d
      | none => .error (.dictionary .outsideDescriptors)

/-- The first `n` bytes of a variable. -/
def readVar (mem : Memory V) (v : V) (n : Nat) : Except AccessFault (List (BitVec 8)) :=
  if n ≤ (mem v).length then .ok ((mem v).take n) else .error .outsideVariable

/-- The variables with `bs` copied to `v` at `off`. -/
def writeVar [DecidableEq V] (mem : Memory V) (v : V) (off : Nat) (bs : List (BitVec 8)) :
    Except AccessFault (Memory V) :=
  if off + bs.length ≤ (mem v).length then
    .ok (Function.update mem v (overwrite (mem v) off bs))
  else .error .outsideVariable

/-- `OBJ_VALUE_FETCH` into a variable of `w` bits. -/
def objValueFetch (w : Nat) (mem : Memory V) (d : ObjDesc V) : Except AccessFault (BitVec w) :=
  match d.data with
  | some v => (readVar mem v (bits2bytes w)).map (ofBytes w)
  | none => .ok (d.value.setWidth w)

@[simp] theorem ok_bind' {α β : Type} (a : α) (f : α → Except AccessFault β) :
    (Except.ok a >>= f) = f a := rfl

@[simp] theorem error_bind' {α β : Type} (e : AccessFault) (f : α → Except AccessFault β) :
    (Except.error e >>= f) = .error e := rfl

/-- Both steps of a computation that succeeds. -/
theorem bind_eq_ok {α β : Type} {x : Except AccessFault α} {f : α → Except AccessFault β} {b : β}
    (h : (x >>= f) = .ok b) : ∃ a, x = .ok a ∧ f a = .ok b := by
  cases x with
  | error e => cases h
  | ok a => exact ⟨a, rfl, h⟩

/-! ## The dictionary of the galvo controller -/

/-- The members of `galvo_rxpdo_t`. -/
inductive RxField where
  | control | startX | startY | endX | endY | cycleCounter | flags
deriving DecidableEq, Repr

/-- The members of `galvo_txpdo_t`. -/
inductive TxField where
  | status | startX | startY | endX | endY | actualX | actualY | followingErrorX
  | followingErrorY | sequence
deriving DecidableEq, Repr

/-- What the descriptors of `galvo_od.c` point to. -/
inductive GalvoVar where
  | deviceName
  | obj1c12Sub0 | obj1c12Sub1 | obj1c13Sub0 | obj1c13Sub1
  | rx (field : RxField)
  | tx (field : TxField)
deriving DecidableEq, Repr

/-- The characters of a string literal. -/
def literalBytes (s : String) : List (BitVec 8) := s.toList.map fun c => BitVec.ofNat 8 c.toNat

def GalvoRxpdo.bytes (p : GalvoRxpdo) : RxField → List (BitVec 8)
  | .control => toBytes 2 p.control
  | .startX => toBytes 4 p.startX
  | .startY => toBytes 4 p.startY
  | .endX => toBytes 4 p.endX
  | .endY => toBytes 4 p.endY
  | .cycleCounter => toBytes 4 p.cycleCounter
  | .flags => toBytes 2 p.flags

def GalvoTxpdo.bytes (p : GalvoTxpdo) : TxField → List (BitVec 8)
  | .status => toBytes 2 p.status
  | .startX => toBytes 4 p.startX
  | .startY => toBytes 4 p.startY
  | .endX => toBytes 4 p.endX
  | .endY => toBytes 4 p.endY
  | .actualX => toBytes 4 p.actualX
  | .actualY => toBytes 4 p.actualY
  | .followingErrorX => toBytes 4 p.followingErrorX
  | .followingErrorY => toBytes 4 p.followingErrorY
  | .sequence => toBytes 4 p.sequence

/-- The variables of the dictionary as bytes. -/
def OdVariables.memory (m : OdVariables) : Memory GalvoVar
  | .deviceName => literalBytes "EtherCAT GalvoCtrl"
  | .obj1c12Sub0 => toBytes 1 m.obj1c12Sub0
  | .obj1c12Sub1 => toBytes 2 m.obj1c12Sub1
  | .obj1c13Sub0 => toBytes 1 m.obj1c13Sub0
  | .obj1c13Sub1 => toBytes 2 m.obj1c13Sub1
  | .rx field => m.galvoRxPdo.bytes field
  | .tx field => m.galvoTxPdo.bytes field

/-- An entry that is read only and constant. -/
def constEntry (subindex datatype bitlength : BitVec 16) (name : String) (value : BitVec 32) :
    ObjDesc GalvoVar :=
  ⟨subindex, datatype, bitlength, atypeRo, name, value, none⟩

/-- An entry of a PDO mapping object. -/
def mappingEntry (subindex : BitVec 16) (name : String) (value : BitVec 32) :
    ObjDesc GalvoVar :=
  constEntry subindex dtypePdoMapping 32 name value

/-- An entry of the galvo inputs. -/
def inputEntry (subindex datatype bitlength : BitVec 16) (name : String) (field : TxField) :
    ObjDesc GalvoVar :=
  ⟨subindex, datatype, bitlength, atypeRo ||| atypeTxpdo, name, 0, some (.tx field)⟩

/-- An entry of the galvo outputs. -/
def outputEntry (subindex datatype bitlength : BitVec 16) (name : String) (field : RxField) :
    ObjDesc GalvoVar :=
  ⟨subindex, datatype, bitlength, atypeRw ||| atypeRxpdo, name, 0, some (.rx field)⟩

/-- `SDOobjects` of `galvo_od.c`. -/
def galvoObjects : List (ObjectItem GalvoVar) :=
  [⟨0x1000, otypeVar, 0, "Device type", some
      [constEntry 0 dtypeUnsigned32 32 "Device type" 0x00001389]⟩,
    ⟨0x1008, otypeVar, 0, "Device name", some
      [⟨0, dtypeVisibleString, 8 * 18, atypeRo, "Device name", 0, some .deviceName⟩]⟩,
    ⟨0x1018, otypeRecord, 4, "Identity object", some
      [constEntry 0 dtypeUnsigned8 8 "SubIndex 000" 4,
        constEntry 1 dtypeUnsigned32 32 "Vendor ID" 0x00000000,
        constEntry 2 dtypeUnsigned32 32 "Product code" 0x00000001,
        constEntry 3 dtypeUnsigned32 32 "Revision" 0x00000001,
        constEntry 4 dtypeUnsigned32 32 "Serial number" 0x00000000]⟩,
    ⟨0x1600, otypeRecord, 7, "RxPDO mapping", some
      [constEntry 0 dtypeUnsigned8 8 "SubIndex 000" 7,
        mappingEntry 1 "Control word" 0x70000110,
        mappingEntry 2 "Start X" 0x70000220,
        mappingEntry 3 "Start Y" 0x70000320,
        mappingEntry 4 "End X" 0x70000420,
        mappingEntry 5 "End Y" 0x70000520,
        mappingEntry 6 "Cycle counter" 0x70000620,
        mappingEntry 7 "Flags" 0x70000710]⟩,
    ⟨0x1A00, otypeRecord, 10, "TxPDO mapping", some
      [constEntry 0 dtypeUnsigned8 8 "SubIndex 000" 10,
        mappingEntry 1 "Status word" 0x60000110,
        mappingEntry 2 "Start X" 0x60000220,
        mappingEntry 3 "Start Y" 0x60000320,
        mappingEntry 4 "End X" 0x60000420,
        mappingEntry 5 "End Y" 0x60000520,
        mappingEntry 6 "Actual X" 0x60000620,
        mappingEntry 7 "Actual Y" 0x60000720,
        mappingEntry 8 "Following error X" 0x60000820,
        mappingEntry 9 "Following error Y" 0x60000920,
        mappingEntry 10 "Sequence" 0x60000A20]⟩,
    ⟨0x1C12, otypeArray, 1, "RxPDO assign", some
      [⟨0, dtypeUnsigned8, 8, atypeRwpre, "SubIndex 000", 1, some .obj1c12Sub0⟩,
        ⟨1, dtypeUnsigned16, 16, atypeRwpre, "RxPDO assign", 0x1600, some .obj1c12Sub1⟩]⟩,
    ⟨0x1C13, otypeArray, 1, "TxPDO assign", some
      [⟨0, dtypeUnsigned8, 8, atypeRwpre, "SubIndex 000", 1, some .obj1c13Sub0⟩,
        ⟨1, dtypeUnsigned16, 16, atypeRwpre, "TxPDO assign", 0x1A00, some .obj1c13Sub1⟩]⟩,
    ⟨0x6000, otypeRecord, 10, "Galvo inputs", some
      [constEntry 0 dtypeUnsigned8 8 "SubIndex 000" 10,
        inputEntry 1 dtypeUnsigned16 16 "Status word" .status,
        inputEntry 2 dtypeInteger32 32 "Start X" .startX,
        inputEntry 3 dtypeInteger32 32 "Start Y" .startY,
        inputEntry 4 dtypeInteger32 32 "End X" .endX,
        inputEntry 5 dtypeInteger32 32 "End Y" .endY,
        inputEntry 6 dtypeInteger32 32 "Actual X" .actualX,
        inputEntry 7 dtypeInteger32 32 "Actual Y" .actualY,
        inputEntry 8 dtypeInteger32 32 "Following error X" .followingErrorX,
        inputEntry 9 dtypeInteger32 32 "Following error Y" .followingErrorY,
        inputEntry 10 dtypeUnsigned32 32 "Sequence" .sequence]⟩,
    ⟨0x7000, otypeRecord, 7, "Galvo outputs", some
      [constEntry 0 dtypeUnsigned8 8 "SubIndex 000" 7,
        outputEntry 1 dtypeUnsigned16 16 "Control word" .control,
        outputEntry 2 dtypeInteger32 32 "Start X" .startX,
        outputEntry 3 dtypeInteger32 32 "Start Y" .startY,
        outputEntry 4 dtypeInteger32 32 "End X" .endX,
        outputEntry 5 dtypeInteger32 32 "End Y" .endY,
        outputEntry 6 dtypeUnsigned32 32 "Cycle counter" .cycleCounter,
        outputEntry 7 dtypeUnsigned16 16 "Flags" .flags]⟩,
    ⟨0xFFFF, 0, 0, "End", none⟩]

/-! ## One dictionary -/

theorem getD_toBytes {w n : Nat} (hn : w ≤ 8 * n) (v : BitVec w) (i : Nat) :
    (toBytes n v).getD i 0 = v.extractLsb' (8 * i) 8 := by
  by_cases h : i < n
  · rw [List.getD_eq_getElem _ _ (by rwa [length_toBytes])]
    simp only [toBytes, List.getElem_map, List.getElem_range]
  · rw [List.getD_eq_default _ _ (by simpa using h)]
    refine BitVec.eq_of_getLsbD_eq fun k _ => ?_
    rw [BitVec.getLsbD_extractLsb', BitVec.getLsbD_of_ge v _ (by omega), Bool.and_false]
    exact BitVec.getLsbD_zero

theorem map_toBytes {w n : Nat} (hn : w ≤ 8 * n) (v : BitVec w) :
    (some fun i => (toBytes n v).getD i 0) = pointer v :=
  congrArg some (funext (getD_toBytes hn v))

theorem map_literalBytes (s : String) :
    (some fun i => (literalBytes s).getD i 0) = literal s := by
  refine congrArg some (funext fun i => ?_)
  rw [literalBytes, List.getD_eq_getElem?_getD, List.getElem?_map]
  cases s.toList[i]? <;> rfl

/-- **The dictionary that a transfer sees is the one that the application reads.** -/
theorem snapshot_galvoObjects (m : OdVariables) :
    snapshot m.memory galvoObjects = sdoObjects m := by
  have h1 (v : BitVec 8) := map_toBytes (n := 1) (Nat.le_refl _) v
  have h2 (v : BitVec 16) := map_toBytes (n := 2) (Nat.le_refl _) v
  have h4 (v : BitVec 32) := map_toBytes (n := 4) (Nat.le_refl _) v
  simp only [snapshot, galvoObjects, sdoObjects, obj1000, obj1008, obj1018, obj1600, obj1a00,
    obj1c12, obj1c13, obj6000, obj7000, List.map_cons, List.map_nil, ObjectItem.snapshot,
    ObjDesc.snapshot, Option.map_some, Option.map_none, constEntry, mappingEntry, inputEntry,
    outputEntry, OdVariables.memory, GalvoRxpdo.bytes, GalvoTxpdo.bytes, h1, h2, h4,
    map_literalBytes]

end GalvoCtrl.Coe
