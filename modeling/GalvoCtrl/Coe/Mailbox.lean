import GalvoCtrl.Coe.PdoData

/-!
# Coe — Mailbox

The mailbox of the stack (`esc.c`): three buffers, the first for what comes in, the others
for what goes out. What the ESC shows at the places where its registers are read comes in
as input; what is written to the outgoing mailbox is kept, the latest message first.
-/

namespace GalvoCtrl.Coe

open GalvoCtrl.Lib

variable {V : Type}

/-! ## States, events and buffers -/

def escInit : BitVec 8 := 0x01
def escPreop : BitVec 8 := 0x02
def escBoot : BitVec 8 := 0x03
def escSafeop : BitVec 8 := 0x04
def escOp : BitVec 8 := 0x08
def escError : BitVec 8 := 0x10

def escregAleventControl : BitVec 32 := 0x0001
def escregAleventSmchange : BitVec 32 := 0x0010
def escregAleventSm0 : BitVec 32 := 0x0100
def escregAleventSm1 : BitVec 32 := 0x0200
def escregAleventSm2 : BitVec 32 := 0x0400

/-- `MBXSIZE` and `MBXSIZEBOOT` -/
def mbxsize : Nat := 128

/-- `ESC_MBXHSIZE` -/
def escMbxhsize : Nat := 6

/-- `ESC_MBXDSIZE` -/
def escMbxdsize : Nat := mbxsize - escMbxhsize

def mbxerr : BitVec 4 := 0x0
def mbxcoe : BitVec 4 := 0x3

def mbxerrUnsupportedprotocol : BitVec 16 := 0x0002
def mbxerrInvalidheader : BitVec 16 := 0x0005
def mbxerrInvalidsize : BitVec 16 := 0x0008

/-- `_MBXh` -/
structure MbxHeader where
  length : BitVec 16
  address : BitVec 16
  channel : BitVec 6
  priority : BitVec 2
  mbxtype : BitVec 4
  mbxcnt : BitVec 4
deriving DecidableEq, Repr

/-- A mailbox as far as it is transferred. -/
structure MbxMsg where
  header : MbxHeader
  data : List (BitVec 8)
deriving DecidableEq, Repr

/-- `_MBX`, a buffer of `MBXSIZE` bytes. -/
structure MbxBuf where
  header : MbxHeader
  b : List (BitVec 8)
  size : b.length = escMbxdsize

/-- The buffer with `bs` at byte `off` behind the header. -/
def MbxBuf.put (buf : MbxBuf) (off : Nat) (bs : List (BitVec 8)) : MbxBuf where
  header := buf.header
  b := overwrite buf.b off bs
  size := (length_overwrite buf.b off bs).trans buf.size

/-- A field of `n` bytes at byte `off` behind the header. -/
def MbxBuf.field (buf : MbxBuf) (w off n : Nat) : BitVec w := ofBytes w (slice buf.b off n)

/-- The `length` bytes of a buffer, and no more than it has. -/
def MbxBuf.msg (buf : MbxBuf) : MbxMsg :=
  ⟨buf.header, buf.b.take (min buf.header.length.toNat escMbxdsize)⟩

@[simp] theorem MbxBuf.put_header (buf : MbxBuf) (off : Nat) (bs : List (BitVec 8)) :
    (buf.put off bs).header = buf.header := rfl

/-- Index of a buffer; the first one stands for none of the others, too. -/
inductive MbxIx where
  | inbox | out1 | out2
deriving DecidableEq, Repr

/-- `MBXstate_...` -/
inductive MbxState where
  | idle | inclaim | outclaim | outreq | outpost | backup | again
deriving DecidableEq, Repr

/-- `ESCvar.xoe`: no protocol, `MBXCOE`, or `MBXCOE + MBXODL`. -/
inductive Xoe where
  | idle | coe | coeOdl
deriving DecidableEq, Repr

/-- `ESCvar.segmented`: 0, `MBXSEU` or `MBXSED`. -/
inductive Segmented where
  | no | seu | sed
deriving DecidableEq, Repr

/-- Where `ESCvar.data` points to. -/
inductive DataPtr (V : Type) where
  | null
  | var (v : V) (off : Nat)
  | mbxdata (off : Nat)
deriving DecidableEq

/-- What `ESCvar`, `MBXcontrol` and `MBX` hold of the mailboxes. -/
structure Mailbox (V : Type) where
  mbxRun : Bool
  mbxcnt : BitVec 8
  mbxincnt : BitVec 4
  mbxoutpost : MbxIx
  mbxbackup : MbxIx
  xoe : Xoe
  txcue : Nat
  mbxfree : Bool
  toggle : Bool
  sm0Full : Bool
  sm1Full : Bool
  sm1Rep : Bool
  control : MbxIx → MbxState
  mbx : MbxIx → MbxBuf
  segmented : Segmented
  data : DataPtr V
  entries : BitVec 16
  frags : BitVec 32
  fragsleft : BitVec 32
  index : BitVec 16
  subindex : BitVec 8
  flags : BitVec 16
  mbxdata : List (BitVec 8)
  posted : List MbxMsg

namespace Mailbox

def setState (m : Mailbox V) (n : MbxIx) (s : MbxState) : Mailbox V :=
  { m with control := Function.update m.control n s }

def setBuf (m : Mailbox V) (n : MbxIx) (buf : MbxBuf) : Mailbox V :=
  { m with mbx := Function.update m.mbx n buf }

/-! ## Transfers -/

/-- `ESC_readmbx`, of what the incoming mailbox holds. -/
def readmbx (m : Mailbox V) (sm0 : MbxBuf) : Mailbox V :=
  (m.setBuf .inbox { (m.mbx .inbox).put 0 sm0.msg.data with header := sm0.header }).setState
    .inbox .inclaim

/-- `ESC_writembx` -/
def writembx (m : Mailbox V) (n : MbxIx) : Mailbox V :=
  { m with posted := (m.mbx n).msg :: m.posted, mbxfree := false }

/-- `ESC_ackmbxread` -/
def ackmbxread (m : Mailbox V) : Mailbox V := { m with mbxfree := true }

/-- The next `mbxcnt`, from 1 to 7. -/
def nextCnt (cnt : BitVec 8) : BitVec 8 := if (cnt + 1) &&& 0x07 = 0 then 1 else (cnt + 1) &&& 0x07

/-- The outgoing buffers from the last one on. -/
def outBuffers : List MbxIx := [.out2, .out1]

/-- A buffer prepared to be sent, under the number `cnt`. -/
def prepare (cnt : BitVec 8) (buf : MbxBuf) : MbxBuf :=
  { buf with header := { buf.header with
      address := 0, channel := 0, priority := 0, mbxcnt := cnt.setWidth 4 } }

/-- The mailbox with buffer `n` claimed. -/
def claim (m : Mailbox V) (n : MbxIx) : Mailbox V :=
  { (m.setState n .outclaim).setBuf n (prepare (nextCnt m.mbxcnt) (m.mbx n)) with
    mbxcnt := nextCnt m.mbxcnt, txcue := m.txcue + 1 }

/-- `ESC_claimbuffer` -/
def claimbuffer (m : Mailbox V) : MbxIx × Mailbox V :=
  match outBuffers.find? fun n => m.control n = .idle with
  | none => (.inbox, m)
  | some n => (n, m.claim n)

/-- `ESC_outreqbuffer` -/
def outreqbuffer (m : Mailbox V) : MbxIx :=
  (outBuffers.find? fun n => m.control n = .outreq).getD .inbox

/-- Claim a buffer, fill it, and request its transfer; nothing if there is none. -/
def respond (m : Mailbox V) (fill : MbxBuf → MbxBuf) : Mailbox V :=
  match m.claimbuffer with
  | (.inbox, m) => m
  | (n, m) => (m.setBuf n (fill (m.mbx n))).setState n .outreq

/-- What `MBX_error` makes of a buffer. -/
def fillError (error : BitVec 16) (buf : MbxBuf) : MbxBuf :=
  { (buf.put 0 (toBytes 2 (1 : BitVec 16))).put 2 (toBytes 2 error) with
    header := { buf.header with length := 4, mbxtype := mbxerr } }

/-- `MBX_error` -/
def mbxError (m : Mailbox V) (error : BitVec 16) : Mailbox V := m.respond (fillError error)

/-! ## `ESC_mbxprocess` -/

/-- What the ESC shows to one call: the events and the states of the mailboxes, the events
again after these have been read, the state of the outgoing mailbox after a transfer, and
the contents of the incoming one. -/
structure Input where
  alevent : BitVec 32
  sm0Stat : Bool
  sm1Stat : Bool
  alevent' : BitVec 32
  sm1Stat' : Bool
  sm0 : MbxBuf

/-- SM0/1 access -/
def refresh (m : Mailbox V) (i : Input) : Mailbox V :=
  if i.alevent &&& (escregAleventSm0 ||| escregAleventSm1) ≠ 0 then
    { m with sm0Full := i.sm0Stat, sm1Full := i.sm1Stat }
  else m

/-- dispose old backup -/
def disposeBackup (m : Mailbox V) : Mailbox V :=
  if m.mbxbackup ≠ .inbox then m.setState m.mbxbackup .idle else m

/-- if still to do -/
def resend (m : Mailbox V) : Mailbox V :=
  if m.control m.mbxoutpost = .again then m.writembx m.mbxoutpost else m

/-- outmbx read by master -/
def outmbxRead (m : Mailbox V) : Mailbox V :=
  let m := m.ackmbxread.disposeBackup.resend
  -- create new backup
  { m.setState m.mbxoutpost .backup with mbxbackup := m.mbxoutpost, mbxoutpost := .inbox }

/-- repeat request -/
def repeatRequest (m : Mailbox V) : Mailbox V :=
  if m.mbxoutpost ≠ .inbox ∨ m.mbxbackup ≠ .inbox then
    let m := if m.mbxoutpost = .inbox then m else m.setState m.mbxoutpost .again
    { m.writembx m.mbxbackup with toggle := m.sm1Rep }
  else m

/-- if the outmailbox is free check if we have something to send -/
def post (m : Mailbox V) (i : Input) : Mailbox V :=
  if 0 < m.txcue ∧ (m.mbxfree = true ∨ m.sm1Full = false) then
    let n := m.outreqbuffer
    if n = .inbox then m
    else
      { (m.writembx n).setState n .outpost with
        sm1Full := i.sm1Stat', mbxoutpost := n, txcue := m.txcue - 1 }
  else m

/-- A header that cannot be is answered with an error. -/
def checkHeader (m : Mailbox V) : Mailbox V :=
  let header := (m.mbx .inbox).header
  if header.length = 0 ∨ escMbxdsize < header.length.toNat then
    (m.mbxError mbxerrInvalidheader).setState .inbox .idle
  else m

/-- A message with the number of the last one is dropped. -/
def dropRepeated (m : Mailbox V) : Mailbox V :=
  let header := (m.mbx .inbox).header
  if header.mbxcnt ≠ 0 ∧ header.mbxcnt = m.mbxincnt then m.setState .inbox .idle else m

/-- read mailbox if full and no xoe in progress -/
def receive (m : Mailbox V) (i : Input) : Bool × Mailbox V :=
  if m.sm0Full = true ∧ m.control .inbox = .idle ∧ m.mbxoutpost = .inbox ∧ m.xoe = .idle then
    let m := ({ m.readmbx i.sm0 with sm0Full := false } : Mailbox V).checkHeader.dropRepeated
    (true, { m with mbxincnt := (m.mbx .inbox).header.mbxcnt })
  else (false, m)

/-- `ESC_mbxprocess` -/
def mbxprocess (m : Mailbox V) (i : Input) : Bool × Mailbox V :=
  if m.mbxRun = false then (false, m)
  else
    let m := m.refresh i
    if m.mbxoutpost ≠ .inbox ∧ i.alevent' &&& escregAleventSm1 ≠ 0 then
      let m := m.outmbxRead
      (decide (m.xoe ≠ .idle), m)
    else if m.sm1Rep ≠ m.toggle then (false, m.repeatRequest)
    else (m.post i).receive i

/-- `ESC_xoeprocess` -/
def xoeprocess (m : Mailbox V) : Mailbox V :=
  if m.mbxRun = false then m
  else if m.xoe = .idle ∧ m.control .inbox = .inclaim then
    let header := (m.mbx .inbox).header
    let m :=
      if header.mbxtype = 0 ∨ header.length = 0 then m.mbxError mbxerrInvalidheader
      else m.mbxError mbxerrUnsupportedprotocol
    m.setState .inbox .idle
  else m

/-! ## Start and stop -/

/-- `ESC_stopmbx`, but for the sync managers. -/
def stopmbx (m : Mailbox V) : Mailbox V :=
  { m with
    mbxRun := false, control := fun _ => .idle, mbxoutpost := .inbox, mbxbackup := .inbox,
    xoe := .idle, mbxfree := true, toggle := false, mbxincnt := 0, segmented := .no, frags := 0,
    fragsleft := 0, txcue := 0, index := 0, subindex := 0, flags := 0 }

end Mailbox

end GalvoCtrl.Coe
