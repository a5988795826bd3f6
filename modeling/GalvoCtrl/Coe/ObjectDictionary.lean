/-!
# Coe — ObjectDictionary

The object dictionary of the slave (`esc_coe.h`), its two searches (`esc_coe.c`) and the
application's read of one value (`app.c`). Every access to the table is checked here: a
NULL descriptor list, or an index past the end of an array, is a `Fault`, and not a
value. Of the descriptors and objects the fields are kept that a read looks at.
-/

namespace GalvoCtrl.Coe

/-! ## The tables -/

/-- The bytes in memory from a pointer on. -/
abbrev Bytes := Nat → BitVec 8

/-- `_objd`; without `data` the value is in `value`. -/
structure Objd where
  subindex : BitVec 16
  bitlength : BitVec 16
  value : BitVec 32
  data : Option Bytes

/-- `_objectlist`; `objdesc` may be NULL. -/
structure ObjectEntry where
  index : BitVec 16
  maxsub : BitVec 8
  objdesc : Option (List Objd)

/-- What C leaves undefined. -/
inductive Fault where
  | nullDescriptors
  | outsideObjects
  | outsideDescriptors
deriving DecidableEq, Repr

/-- `SDOobjects[n]` -/
def objectAt (table : List ObjectEntry) (n : Nat) : Except Fault ObjectEntry :=
  match table[n]? with
  | some o => .ok o
  | none => .error .outsideObjects

/-- `*(objd + n)` -/
def descriptorAt (objdesc : Option (List Objd)) (n : Nat) : Except Fault Objd :=
  match objdesc with
  | none => .error .nullDescriptors
  | some ds =>
      match ds[n]? with
      | some d => .ok d
      | none => .error .outsideDescriptors

/-! ## The searches -/

/-- The loop of `SDO_findobject` at entry `n`, with the entries from there on. -/
def findobjectLoop (index : BitVec 16) : List ObjectEntry → (n : Nat) → Except Fault Nat
  | [], _ => .error .outsideObjects
  | o :: rest, n => if o.index < index then findobjectLoop index rest (n + 1) else .ok n

/-- `SDO_findobject` -/
def sdoFindobject (table : List ObjectEntry) (index : BitVec 16) : Except Fault Int := do
  let n ← findobjectLoop index table 0
  let o ← objectAt table n
  if o.index ≠ index then return -1 else return n

/-- The loop of `SDO_findsubindex` at descriptor `n`; `left` is `maxsub - n`. The
descriptor is read before `n` is compared. -/
def findsubindexLoop (objdesc : Option (List Objd)) (subindex : BitVec 8) :
    (left n : Nat) → Except Fault Nat
  | 0, n => do
      let _ ← descriptorAt objdesc n
      return n
  | left + 1, n => do
      let d ← descriptorAt objdesc n
      if d.subindex < subindex.setWidth 16 then findsubindexLoop objdesc subindex left (n + 1)
      else return n

/-- `SDO_findsubindex` from its second search on. -/
def searchSubindex (objdesc : Option (List Objd)) (maxsub subindex : BitVec 8) :
    Except Fault Int := do
  let n ← findsubindexLoop objdesc subindex maxsub.toNat 0
  let d ← descriptorAt objdesc n
  if d.subindex ≠ subindex.setWidth 16 then return -1 else return n

/-- `SDO_findsubindex` -/
def sdoFindsubindex (table : List ObjectEntry) (nidx : Nat) (subindex : BitVec 8) :
    Except Fault Int := do
  let o ← objectAt table nidx
  if subindex ≤ o.maxsub then
    let d ← descriptorAt o.objdesc subindex.toNat
    if d.subindex = subindex.setWidth 16 then return subindex.toNat
    else searchSubindex o.objdesc o.maxsub subindex
  else searchSubindex o.objdesc o.maxsub subindex

/-! ## Reading a value -/

/-- The return value, the buffer and `*outlen` afterwards; a NULL pointer is `none`. -/
structure Reply where
  ret : Int
  outbuf : Option Bytes
  outlen : Option Nat

/-- `memcpy` -/
def memcpy (dst src : Bytes) (n : Nat) : Bytes := fun i => if i < n then src i else dst i

/-- The bytes of a `uint32_t`, the low one first. -/
def valueBytes (value : BitVec 32) : Bytes := fun i => value.extractLsb' (8 * i) 8

/-- `(objd->bitlength + 7U) / 8U` -/
def Objd.bytes (d : Objd) : Nat := (d.bitlength.toNat + 7) / 8

/-- `get_object_dictionary_value` with the descriptor at hand. -/
def readDescriptor (d : Objd) (outbuf : Option Bytes) (outlen : Option Nat) : Reply :=
  match outlen with
  | none => ⟨-3, outbuf, outlen⟩
  | some len =>
      match outbuf with
      | none => ⟨0, none, some d.bytes⟩
      | some buf =>
          if len < d.bytes then ⟨-4, some buf, some len⟩
          else
            match d.data with
            | some data => ⟨0, some (memcpy buf data d.bytes), some d.bytes⟩
            | none =>
                if d.bytes ≤ 4 then
                  ⟨0, some (memcpy buf (valueBytes d.value) d.bytes), some d.bytes⟩
                else ⟨-5, some buf, some len⟩

/-- `get_object_dictionary_value` -/
def getObjectDictionaryValue (table : List ObjectEntry) (index : BitVec 16)
    (subindex : BitVec 8) (outbuf : Option Bytes) (outlen : Option Nat) :
    Except Fault Reply := do
  let nidx ← sdoFindobject table index
  if nidx < 0 then return ⟨-1, outbuf, outlen⟩
  else
    let nsub ← sdoFindsubindex table nidx.toNat subindex
    if nsub < 0 then return ⟨-2, outbuf, outlen⟩
    else
      let o ← objectAt table nidx.toNat
      let d ← descriptorAt o.objdesc nsub.toNat
      return readDescriptor d outbuf outlen

end GalvoCtrl.Coe
