import GalvoCtrl.Coe.ObjectDictionary

/-!
# Coe — GalvoOd

The dictionary of the galvo controller (`galvo_od.c`), over the variables that its
descriptors point to.
-/

namespace GalvoCtrl.Coe

/-- `galvo_rxpdo_t` -/
structure GalvoRxpdo where
  control : BitVec 16
  startX : BitVec 32
  startY : BitVec 32
  endX : BitVec 32
  endY : BitVec 32
  cycleCounter : BitVec 32
  flags : BitVec 16

/-- `galvo_txpdo_t` -/
structure GalvoTxpdo where
  status : BitVec 16
  startX : BitVec 32
  startY : BitVec 32
  endX : BitVec 32
  endY : BitVec 32
  actualX : BitVec 32
  actualY : BitVec 32
  followingErrorX : BitVec 32
  followingErrorY : BitVec 32
  sequence : BitVec 32

/-- The variables of the dictionary. -/
structure OdVariables where
  galvoRxPdo : GalvoRxpdo
  galvoTxPdo : GalvoTxpdo
  obj1c12Sub0 : BitVec 8
  obj1c12Sub1 : BitVec 16
  obj1c13Sub0 : BitVec 8
  obj1c13Sub1 : BitVec 16

/-- The variables at their initial values. -/
def OdVariables.initial : OdVariables where
  galvoRxPdo := ⟨0, 0, 0, 0, 0, 0, 0⟩
  galvoTxPdo := ⟨0, 0, 0, 0, 0, 0, 0, 0, 0, 0⟩
  obj1c12Sub0 := 1
  obj1c12Sub1 := 0x1600
  obj1c13Sub0 := 1
  obj1c13Sub1 := 0x1A00

/-- A pointer to a variable; its bytes, and zeros for what lies behind it. -/
def pointer {w : Nat} (v : BitVec w) : Option Bytes := some fun i => v.extractLsb' (8 * i) 8

/-- A pointer to a string literal. -/
def literal (s : String) : Option Bytes := some fun i =>
  match s.toList[i]? with
  | some c => BitVec.ofNat 8 c.toNat
  | none => 0

def obj1000 : List Objd := [⟨0, 32, 0x00001389, none⟩]

def obj1008 : List Objd := [⟨0, 8 * 18, 0, literal "EtherCAT GalvoCtrl"⟩]

def obj1018 : List Objd :=
  [⟨0, 8, 4, none⟩,
    ⟨1, 32, 0x00000000, none⟩,
    ⟨2, 32, 0x00000001, none⟩,
    ⟨3, 32, 0x00000001, none⟩,
    ⟨4, 32, 0x00000000, none⟩]

def obj1600 : List Objd :=
  [⟨0, 8, 7, none⟩,
    ⟨1, 32, 0x70000110, none⟩,
    ⟨2, 32, 0x70000220, none⟩,
    ⟨3, 32, 0x70000320, none⟩,
    ⟨4, 32, 0x70000420, none⟩,
    ⟨5, 32, 0x70000520, none⟩,
    ⟨6, 32, 0x70000620, none⟩,
    ⟨7, 32, 0x70000710, none⟩]

def obj1a00 : List Objd :=
  [⟨0, 8, 10, none⟩,
    ⟨1, 32, 0x60000110, none⟩,
    ⟨2, 32, 0x60000220, none⟩,
    ⟨3, 32, 0x60000320, none⟩,
    ⟨4, 32, 0x60000420, none⟩,
    ⟨5, 32, 0x60000520, none⟩,
    ⟨6, 32, 0x60000620, none⟩,
    ⟨7, 32, 0x60000720, none⟩,
    ⟨8, 32, 0x60000820, none⟩,
    ⟨9, 32, 0x60000920, none⟩,
    ⟨10, 32, 0x60000A20, none⟩]

section Variables

variable (m : OdVariables)

def obj1c12 : List Objd :=
  [⟨0, 8, 1, pointer m.obj1c12Sub0⟩,
    ⟨1, 16, 0x1600, pointer m.obj1c12Sub1⟩]

def obj1c13 : List Objd :=
  [⟨0, 8, 1, pointer m.obj1c13Sub0⟩,
    ⟨1, 16, 0x1A00, pointer m.obj1c13Sub1⟩]

def obj6000 : List Objd :=
  [⟨0, 8, 10, none⟩,
    ⟨1, 16, 0, pointer m.galvoTxPdo.status⟩,
    ⟨2, 32, 0, pointer m.galvoTxPdo.startX⟩,
    ⟨3, 32, 0, pointer m.galvoTxPdo.startY⟩,
    ⟨4, 32, 0, pointer m.galvoTxPdo.endX⟩,
    ⟨5, 32, 0, pointer m.galvoTxPdo.endY⟩,
    ⟨6, 32, 0, pointer m.galvoTxPdo.actualX⟩,
    ⟨7, 32, 0, pointer m.galvoTxPdo.actualY⟩,
    ⟨8, 32, 0, pointer m.galvoTxPdo.followingErrorX⟩,
    ⟨9, 32, 0, pointer m.galvoTxPdo.followingErrorY⟩,
    ⟨10, 32, 0, pointer m.galvoTxPdo.sequence⟩]

def obj7000 : List Objd :=
  [⟨0, 8, 7, none⟩,
    ⟨1, 16, 0, pointer m.galvoRxPdo.control⟩,
    ⟨2, 32, 0, pointer m.galvoRxPdo.startX⟩,
    ⟨3, 32, 0, pointer m.galvoRxPdo.startY⟩,
    ⟨4, 32, 0, pointer m.galvoRxPdo.endX⟩,
    ⟨5, 32, 0, pointer m.galvoRxPdo.endY⟩,
    ⟨6, 32, 0, pointer m.galvoRxPdo.cycleCounter⟩,
    ⟨7, 16, 0, pointer m.galvoRxPdo.flags⟩]

/-- `SDOobjects` -/
def sdoObjects : List ObjectEntry :=
  [⟨0x1000, 0, some obj1000⟩,
    ⟨0x1008, 0, some obj1008⟩,
    ⟨0x1018, 4, some obj1018⟩,
    ⟨0x1600, 7, some obj1600⟩,
    ⟨0x1A00, 10, some obj1a00⟩,
    ⟨0x1C12, 1, some (obj1c12 m)⟩,
    ⟨0x1C13, 1, some (obj1c13 m)⟩,
    ⟨0x6000, 10, some (obj6000 m)⟩,
    ⟨0x7000, 7, some (obj7000 m)⟩,
    ⟨0xffff, 0, none⟩]

end Variables

end GalvoCtrl.Coe
