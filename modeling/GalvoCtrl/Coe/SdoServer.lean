import GalvoCtrl.Coe.Mailbox

/-!
# Coe — SdoServer

The CoE server (`esc_coe.c`): SDO upload and download, expedited, normal, segmented and
with complete access, and the SDO information services. A request lies in the first
mailbox buffer, and the response is made in one that is claimed for it. The application
sets no object hooks.
-/

namespace GalvoCtrl.Coe

open GalvoCtrl.Lib

variable {V : Type}

/-! ## Constants -/

def abortUnsupported : BitVec 32 := 0x06010000
def abortWriteonly : BitVec 32 := 0x06010001
def abortReadonly : BitVec 32 := 0x06010002
def abortSubindex0NotZero : BitVec 32 := 0x06010003
def abortCaNotSupported : BitVec 32 := 0x06010004
def abortNoobject : BitVec 32 := 0x06020000
def abortTypemismatch : BitVec 32 := 0x06070010
def abortNosubindex : BitVec 32 := 0x06090011
def abortNotinthisstate : BitVec 32 := 0x08000022

def coeDefaultlength : Nat := 0x0A
def coeHeadersize : Nat := 0x0A
def coeSegmentheadersize : Nat := 0x03
def coeMinimumLength : Nat := 8

def coeSdorequest : BitVec 16 := 0x02
def coeSdoresponse : BitVec 16 := 0x03
def coeSdoinformation : BitVec 16 := 0x08

def coeCommandSdoabort : BitVec 8 := 0x80
def coeCommandUploadrequest : BitVec 8 := 0x40
def coeCommandUploadresponse : BitVec 8 := 0x40
def coeCommandUploadsegment : BitVec 8 := 0x00
def coeCommandUploadsegreq : BitVec 8 := 0x60
def coeCommandDownloadrequest : BitVec 8 := 0x20
def coeCommandDownloadresponse : BitVec 8 := 0x60
def coeCommandDownloadsegreq : BitVec 8 := 0x00
def coeCommandDownloadsegresp : BitVec 8 := 0x20
def coeCommandLastsegmentbit : BitVec 8 := 0x01
def coeSizeIndicator : BitVec 8 := 0x01
def coeExpeditedIndicator : BitVec 8 := 0x02
def coeCompleteaccess : BitVec 8 := 0x10
def coeTogglebit : BitVec 8 := 0x10

def coeInfoerror : BitVec 8 := 0x07
def coeGetodlistresponse : BitVec 8 := 0x02
def coeGetodresponse : BitVec 8 := 0x04
def coeEntrydescriptionresponse : BitVec 8 := 0x06
def coeValueinfoAccess : BitVec 8 := 0x01
def coeValueinfoObject : BitVec 8 := 0x02
def coeValueinfoMappable : BitVec 8 := 0x04

def completeAccessFlag : BitVec 16 := 1 <<< 15

def preallocFactor : Nat := 3
def preallocBufferSize : Nat := preallocFactor * mbxsize

/-- A buffer of zeros, as the controller starts with. -/
def zeroBuf : MbxBuf where
  header := ⟨0, 0, 0, 0, 0, 0⟩
  b := List.replicate escMbxdsize 0
  size := List.length_replicate

/-- The mailboxes at their static values. -/
def staticMailbox : Mailbox V :=
  { mbxRun := false, mbxcnt := 0, mbxincnt := 0, mbxoutpost := .inbox, mbxbackup := .inbox,
    xoe := .idle, txcue := 0, mbxfree := false, toggle := false, sm0Full := false,
    sm1Full := false, sm1Rep := false, control := fun _ => .idle, mbx := fun _ => zeroBuf,
    segmented := .no, data := .null, entries := 0, frags := 0, fragsleft := 0, index := 0,
    subindex := 0, flags := 0, mbxdata := List.replicate preallocBufferSize 0, posted := [] }

/-- What the mailboxes show while a message of the master lies in the incoming one. -/
def messageInput (sm0 : MbxBuf) : Mailbox.Input := ⟨escregAleventSm0, true, false, 0, true, sm0⟩

/-! ## Messages -/

/-- `coesdo->...`, and `coeobjdesc->...` from `opcode` on. -/
def MbxBuf.service (buf : MbxBuf) : BitVec 16 := buf.field 16 0 2 >>> 12
def MbxBuf.command (buf : MbxBuf) : BitVec 8 := buf.field 8 2 1
def MbxBuf.index (buf : MbxBuf) : BitVec 16 := buf.field 16 3 2
def MbxBuf.subindex (buf : MbxBuf) : BitVec 8 := buf.field 8 5 1
def MbxBuf.dataSize (buf : MbxBuf) : BitVec 32 := buf.field 32 6 4
def MbxBuf.opcode (buf : MbxBuf) : BitVec 8 := buf.field 8 2 1 &&& 0x7F
def MbxBuf.objIndex (buf : MbxBuf) : BitVec 16 := buf.field 16 6 2
def MbxBuf.objSubindex (buf : MbxBuf) : BitVec 8 := buf.field 8 8 1

def MbxBuf.setLength (buf : MbxBuf) (length : Nat) : MbxBuf :=
  { buf with header := { buf.header with length := BitVec.ofNat 16 length } }

/-- `coeres->command |= bits` -/
def MbxBuf.orCommand (buf : MbxBuf) (bits : BitVec 8) : MbxBuf :=
  buf.put 2 (toBytes 1 (buf.command ||| bits))

/-- `init_coesdo`; the other responses are started with the same fields. -/
def initCoesdo (buf : MbxBuf) (sdoservice : BitVec 16) (command : BitVec 8) (index : BitVec 16)
    (subindex : BitVec 8) : MbxBuf :=
  ({ buf with header := { buf.header with
      length := BitVec.ofNat 16 coeDefaultlength, mbxtype := mbxcoe } } : MbxBuf).put 0
    (toBytes 2 (sdoservice <<< 12) ++ toBytes 1 command ++ toBytes 2 index ++ toBytes 1 subindex)

/-- What `SDO_abort` makes of a buffer. -/
def fillAbort (index : BitVec 16) (subindex : BitVec 8) (abortcode : BitVec 32) (buf : MbxBuf) :
    MbxBuf :=
  (initCoesdo buf coeSdorequest coeCommandSdoabort index subindex).put 6 (toBytes 4 abortcode)

/-- The header of an SDO information response. -/
def initCoeinfo (buf : MbxBuf) (opcode : BitVec 8) (incomplete : Bool) (fragmentsleft : BitVec 16) :
    MbxBuf :=
  ({ buf with header := { buf.header with mbxtype := mbxcoe } } : MbxBuf).put 0
    (toBytes 2 (coeSdoinformation <<< 12) ++ toBytes 1 (opcode ||| if incomplete then 0x80 else 0)
      ++ toBytes 1 (0 : BitVec 8) ++ toBytes 2 fragmentsleft)

/-- What `SDO_infoerror` makes of a buffer. -/
def fillInfoerror (abortcode : BitVec 32) (buf : MbxBuf) : MbxBuf :=
  ((initCoeinfo buf coeInfoerror false 0).put 6 (toBytes 4 abortcode)).setLength coeHeadersize

/-- `memcpy` into a mailbox buffer. -/
def MbxBuf.copy (buf : MbxBuf) (off : Nat) (bs : List (BitVec 8)) : Except AccessFault MbxBuf :=
  if off + bs.length ≤ escMbxdsize then .ok (buf.put off bs) else .error .outsideBuffer

/-! ## Access -/

/-- `READ_ACCESS` -/
def ReadAccess (access : BitVec 16) (state : BitVec 8) : Prop :=
  (access &&& atypeRpre ≠ 0 ∧ state = escPreop) ∨ (access &&& atypeRsafe ≠ 0 ∧ state = escSafeop)
    ∨ (access &&& atypeRop ≠ 0 ∧ state = escOp)

/-- `WRITE_ACCESS` -/
def WriteAccess (access : BitVec 16) (state : BitVec 8) : Prop :=
  (access &&& atypeWpre ≠ 0 ∧ state = escPreop) ∨ (access &&& atypeWsafe ≠ 0 ∧ state = escSafeop)
    ∨ (access &&& atypeWop ≠ 0 ∧ state = escOp)

instance (access : BitVec 16) (state : BitVec 8) : Decidable (ReadAccess access state) := by
  unfold ReadAccess
  infer_instance

instance (access : BitVec 16) (state : BitVec 8) : Decidable (WriteAccess access state) := by
  unfold WriteAccess
  infer_instance

/-- The access bits of an entry. -/
def ObjDesc.access (d : ObjDesc V) : BitVec 16 := d.flags &&& 0x3F

/-- `memcpy` to the variable of an entry. -/
def storeEntry [DecidableEq V] (mem : Memory V) (d : ObjDesc V) (bs : List (BitVec 8)) :
    Except AccessFault (Memory V) :=
  if bs = [] then .ok mem
  else do
    let v ← dataOf d
    writeVar mem v 0 bs

/-- `ESCvar.data += n` -/
def DataPtr.add (p : DataPtr V) (n : Nat) : DataPtr V :=
  match p with
  | .null => .null
  | .var v o => .var v (o + n)
  | .mbxdata o => .mbxdata (o + n)

/-- `(objd + nsub)->data + off` -/
def ObjDesc.dataAt (d : ObjDesc V) (off : Nat) : DataPtr V :=
  match d.data with
  | some v => .var v off
  | none => .null

/-- Data types of entries with a flexible length. -/
def Flexible (datatype : BitVec 16) : Prop :=
  datatype ∈ [dtypeOctetString, dtypeUnicodeString, dtypeArrayOfInt, dtypeArrayOfSint,
    dtypeArrayOfDint, dtypeArrayOfUdint]

instance (datatype : BitVec 16) : Decidable (Flexible datatype) :=
  inferInstanceAs (Decidable (datatype ∈ _))

/-! ## The server -/

/-- The mailbox and the variables of the dictionary. -/
structure Server (V : Type) where
  box : Mailbox V
  mem : Memory V

namespace Mailbox

/-- `SDO_abort` -/
def sdoAbort (m : Mailbox V) (reusembx : MbxIx) (index : BitVec 16) (subindex : BitVec 8)
    (abortcode : BitVec 32) : Mailbox V :=
  if reusembx = .inbox then m.respond (fillAbort index subindex abortcode)
  else
    (m.setBuf reusembx (fillAbort index subindex abortcode (m.mbx reusembx))).setState reusembx
      .outreq

/-- The request is done with. -/
def done (m : Mailbox V) : Mailbox V := { m.setState .inbox .idle with xoe := .idle }

/-- `set_state_idle` -/
def setStateIdle (m : Mailbox V) (reusembx : MbxIx) (index : BitVec 16) (subindex : BitVec 8)
    (abortcode : BitVec 32) : Mailbox V :=
  (if abortcode ≠ 0 then m.sdoAbort reusembx index subindex abortcode else m).done

/-- `SDO_infoerror`; without a buffer the request stays. -/
def sdoInfoerror (m : Mailbox V) (abortcode : BitVec 32) : Mailbox V :=
  match m.claimbuffer with
  | (.inbox, m) => m
  | (n, m) => ((m.setBuf n (fillInfoerror abortcode (m.mbx n))).setState n .outreq).done

end Mailbox

namespace Server

/-- `memcpy` from behind `ESCvar.data`. -/
def readData (s : Server V) (off n : Nat) : Except AccessFault (List (BitVec 8)) :=
  if n = 0 then .ok []
  else
    match s.box.data with
    | .null => .error .nullPointer
    | .var v o =>
        if o + off + n ≤ (s.mem v).length then .ok (slice (s.mem v) (o + off) n)
        else .error .outsideVariable
    | .mbxdata o => copyFrom s.box.mbxdata (o + off) n

/-- `memcpy` to `ESCvar.data`; with no bytes to copy the pointer does not matter. -/
def writeData [DecidableEq V] (s : Server V) (bs : List (BitVec 8)) :
    Except AccessFault (Server V) :=
  if bs = [] then .ok s
  else
    match s.box.data with
    | .null => .error .nullPointer
    | .var v o => do
        let mem ← writeVar s.mem v o bs
        return { s with mem }
    | .mbxdata o => do
        let mbxdata ← copyInto s.box.mbxdata o bs
        return { s with box := { s.box with mbxdata } }

/-- The server with another mailbox. -/
def withBox (s : Server V) (box : Mailbox V) : Server V := { s with box }

section Requests

variable (table : List (ObjectItem V)) (alstatus : BitVec 8)

/-! ### SDO upload -/

/-- The expedited bits used, from the length in bits. -/
def dataSetSize (bitlength : Nat) : BitVec 8 :=
  if 24 < bitlength then 0x00 else if 16 < bitlength then 0x04 else if 8 < bitlength then 0x08
  else 0x0C

/-- The response in a claimed buffer. -/
def uploadResponse (s : Server V) (n : MbxIx) (index : BitVec 16) (subindex : BitVec 8)
    (d : ObjDesc V) : Except AccessFault (Server V) := do
  let buf := initCoesdo (s.box.mbx n) coeSdoresponse (coeCommandUploadresponse ||| coeSizeIndicator)
    index subindex
  let size := d.size
  if size ≤ 4 then
    let buf := buf.orCommand (coeExpeditedIndicator ||| dataSetSize d.bitlength.toNat)
    match d.data with
    | none => return s.withBox ((s.box.setBuf n (buf.put 6 (toBytes 4 d.value))).setState n .outreq)
    | some v =>
        let bytes ← readVar s.mem v size
        let buf ← buf.copy 6 bytes
        return s.withBox ((s.box.setBuf n buf).setState n .outreq)
  else
    let buf := buf.put 6 (toBytes 4 (BitVec.ofNat 32 size))
    let done := if escMbxdsize < size + coeHeadersize then escMbxdsize - coeHeadersize else size
    let v ← dataOf d
    let bytes ← readVar s.mem v done
    let buf ← (buf.setLength (coeHeadersize + done)).copy 10 bytes
    let box := { s.box with frags := BitVec.ofNat 32 size }
    -- the rest follows in segments
    let box :=
      if escMbxdsize < size + coeHeadersize then
        { box with
          fragsleft := BitVec.ofNat 32 done, segmented := .seu, data := .var v 0, flags := d.flags }
      else { box with segmented := .no }
    return s.withBox ((box.setBuf n buf).setState n .outreq)

/-- `SDO_upload` -/
def sdoUpload (s : Server V) : Except AccessFault (Server V) := do
  let index := (s.box.mbx .inbox).index
  let subindex := (s.box.mbx .inbox).subindex
  match ← lookup s.mem table index subindex with
  | .noObject => return s.withBox (s.box.sdoAbort .inbox index subindex abortNoobject).done
  | .noSubindex => return s.withBox (s.box.sdoAbort .inbox index subindex abortNosubindex).done
  | .found _ _ d =>
      if ReadAccess d.access (alstatus &&& 0x0F) then
        match s.box.claimbuffer with
        | (.inbox, box) => return s.withBox box.done
        | (n, box) =>
            let s ← (s.withBox box).uploadResponse n index subindex d
            return s.withBox s.box.done
      else return s.withBox (s.box.setStateIdle .inbox index subindex abortWriteonly)

/-- `SDO_uploadsegment` -/
def sdoUploadsegment (s : Server V) : Except AccessFault (Server V) := do
  let coesdo := s.box.mbx .inbox
  match s.box.claimbuffer with
  | (.inbox, box) => return s.withBox box.done
  | (n, box) =>
      let offset := box.fragsleft
      let size := box.frags - box.fragsleft
      let buf := initCoesdo (box.mbx n) coeSdoresponse
        (coeCommandUploadsegment ||| (coesdo.command &&& coeTogglebit)) coesdo.index coesdo.subindex
      if escMbxdsize < (size + BitVec.ofNat 32 coeSegmentheadersize).toNat then
        -- more segments are needed
        let size := escMbxdsize - coeSegmentheadersize
        let bytes ← s.readData offset.toNat size
        let buf ← (buf.setLength (coeSegmentheadersize + size)).copy 3 bytes
        let box := { box with fragsleft := box.fragsleft + BitVec.ofNat 32 size }
        return s.withBox ((box.setBuf n buf).setState n .outreq).done
      else
        let buf := buf.orCommand coeCommandLastsegmentbit
        let buf :=
          if 7 ≤ size.toNat then buf.setLength (coeSegmentheadersize + size.toNat)
          else (buf.orCommand (BitVec.ofNat 8 (7 - size.toNat) <<< 1)).setLength coeDefaultlength
        let bytes ← s.readData offset.toNat size.toNat
        let buf ← buf.copy 3 bytes
        let box := { box with segmented := .no, frags := 0, fragsleft := 0 }
        return s.withBox ((box.setBuf n buf).setState n .outreq).done

/-! ### SDO download -/

/-- `IS_RXPDO`, `IS_TXPDO` and the assignment objects. -/
def IsMappingObject (index : BitVec 16) : Prop :=
  (0x1600 ≤ index.toNat ∧ index.toNat < 0x1800) ∨ (0x1A00 ≤ index.toNat ∧ index.toNat < 0x1C00)
    ∨ index = rxPdoObjidx ∨ index = txPdoObjidx

instance (index : BitVec 16) : Decidable (IsMappingObject index) := by
  unfold IsMappingObject
  infer_instance

/-- `COE_maxSub` -/
def coeMaxSub (mem : Memory V) (index : BitVec 16) : Except AccessFault (BitVec 8) := do
  match ← lookupObject mem table index with
  | none => return 0
  | some o =>
      let d ← descAt o.objdesc 0
      objValueFetch 8 mem d

/-- `ESC_download_pre_objecthandler` -/
def downloadPreObjecthandler (mem : Memory V) (index : BitVec 16) (subindex : BitVec 8)
    (flags : BitVec 16) : Except AccessFault (BitVec 32) :=
  if IsMappingObject index then do
    let minSub : Nat := if flags &&& completeAccessFlag = 0 then 0 else 1
    if minSub < subindex.toNat then
      let maxSub ← coeMaxSub table mem index
      if maxSub ≠ 0 then return abortSubindex0NotZero else return 0
    else return 0
  else .ok 0

/-- The size of the data in a download request, and where they are. -/
def downloadData (coesdo : MbxBuf) : Nat × Nat :=
  if coesdo.command &&& coeExpeditedIndicator ≠ 0 then
    (4 - ((coesdo.command &&& 0x0C) >>> 2).toNat, 6)
  else ((coesdo.dataSize &&& 0xFFFF).toNat, 10)

/-- `memset` of what a string leaves of its entry. -/
def padString [DecidableEq V] (mem : Memory V) (d : ObjDesc V) (size : Nat) :
    Except AccessFault (Memory V) := do
  let v ← dataOf d
  if d.size < size then .error .outsideVariable
  else writeVar mem v size (List.replicate (d.size - size) 0)

/-- The data of a download are stored, and the response is sent. -/
def downloadStore [DecidableEq V] (s : Server V) (index : BitVec 16) (subindex : BitVec 8)
    (d : ObjDesc V) (size off : Nat) : Except AccessFault (Server V) := do
  let coesdo := s.box.mbx .inbox
  -- the payload, as the unsigned difference that the source takes
  let payload := (coesdo.header.length.setWidth 32 - BitVec.ofNat 32 coeHeadersize).toNat
  let first := if 4 < size ∧ payload < size then payload else size
  let box : Mailbox V :=
    if 4 < size ∧ payload < size then
      { s.box with
        segmented := .sed, data := d.dataAt first, index := index, subindex := subindex,
        flags := d.flags }
    else { s.box with segmented := .no }
  let bytes ← copyFrom coesdo.b off first
  let mem ← storeEntry s.mem d bytes
  let box := box.respond fun buf =>
    (initCoesdo buf coeSdoresponse coeCommandDownloadresponse index subindex).put 6
      (toBytes 4 (0 : BitVec 32))
  return { box := box.done, mem }

/-- `SDO_download` -/
def sdoDownload [DecidableEq V] (s : Server V) : Except AccessFault (Server V) := do
  let coesdo := s.box.mbx .inbox
  let index := coesdo.index
  let subindex := coesdo.subindex
  match ← lookup s.mem table index subindex with
  | .noObject => return s.withBox (s.box.sdoAbort .inbox index subindex abortNoobject).done
  | .noSubindex => return s.withBox (s.box.sdoAbort .inbox index subindex abortNosubindex).done
  | .found _ _ d =>
      if WriteAccess d.access (alstatus &&& 0x0F) then
        let (size, off) := downloadData coesdo
        if d.size ≠ size ∧ d.datatype ≠ dtypeVisibleString ∧ ¬Flexible d.datatype then
          return s.withBox (s.box.setStateIdle .inbox index subindex abortTypemismatch)
        else
          let mem ←
            (if d.size ≠ size ∧ d.datatype = dtypeVisibleString then padString s.mem d size
            else .ok s.mem)
          let s := { s with mem }
          let abort ← downloadPreObjecthandler table s.mem index subindex d.flags
          if abort = 0 then s.downloadStore index subindex d size off
          else return s.withBox (s.box.sdoAbort .inbox index subindex abort).done
      else if d.access = atypeRo then
        return s.withBox (s.box.sdoAbort .inbox index subindex abortReadonly).done
      else return s.withBox (s.box.sdoAbort .inbox index subindex abortNotinthisstate).done

end Requests

end Server

end GalvoCtrl.Coe
