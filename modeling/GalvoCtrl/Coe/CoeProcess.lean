import GalvoCtrl.Coe.CompleteAccess

/-!
# Coe — CoeProcess

The SDO information services (`esc_coe.c`), which list and describe the objects, and the
distribution of the requests (`ESC_coeprocess`).
-/

namespace GalvoCtrl.Coe

open GalvoCtrl.Lib

variable {V : Type}

/-! ## SDO information -/

/-- `ODLISTSIZE` -/
def odListSize : Nat := (mbxsize - escMbxhsize - 2 - 4 - 2) / 2 * 2

/-- The indices of the objects from `s` up to `n`. -/
def indexBytes (table : List (ObjectItem V)) (s n : Nat) : Except AccessFault (List (BitVec 8)) :=
  return (← (List.range' s (n - s)).mapM (itemAt table)).flatMap fun o => toBytes 2 o.index

/-- The number of objects in front of the terminator. -/
def entryCount (table : List (ObjectItem V)) : Except AccessFault Nat :=
  match table.findIdx? fun o => o.index = 0xFFFF with
  | some n => .ok n
  | none => .error (.dictionary .outsideObjects)

/-- The characters of a name and what comes behind them, and how many are counted. -/
def nameBytes (name : String) (limit : Nat) : List (BitVec 8) × Nat :=
  ((literalBytes name ++ [0]).take (limit + 1), min (literalBytes name).length limit)

namespace Server

section Requests

variable (table : List (ObjectItem V))

/-- `SDO_getodlist` -/
def sdoGetodlist (s : Server V) : Except AccessFault (Server V) := do
  let coer := s.box.mbx .inbox
  let entries ← entryCount table
  let frags := (entries * 2 + odListSize - 1) / odListSize
  let s := s.withBox { s.box with entries := BitVec.ofNat 16 entries }
  if 1 < coer.objIndex.toNat then return s.withBox (s.box.sdoInfoerror abortUnsupported)
  else
    match s.box.claimbuffer with
    | (.inbox, box) => return s.withBox box
    | (n, box) =>
        let box : Mailbox V :=
          { box with
            frags := BitVec.ofNat 32 frags, fragsleft := BitVec.ofNat 32 frags - 1 }
        if coer.objIndex = 0 then
          -- number of objects
          let buf := (initCoeinfo (box.mbx n) coeGetodlistresponse false 0).put 6
            (toBytes 2 (0 : BitVec 16) ++ toBytes 2 (BitVec.ofNat 16 entries)
              ++ List.replicate 8 0)
          return s.withBox ((box.done.setBuf n (buf.setLength (0x08 + 5 * 2))).setState n .outreq)
        else
          let listed := if 1 < frags then odListSize / 2 else entries
          let bytes ← indexBytes table 0 listed
          let buf := (initCoeinfo (box.mbx n) coeGetodlistresponse (1 < frags)
            ((BitVec.ofNat 32 frags - 1).setWidth 16)).put 6 (toBytes 2 (1 : BitVec 16))
          let buf ← buf.copy 8 bytes
          let box : Mailbox V := if 1 < frags then { box with xoe := .coeOdl } else box.done
          return s.withBox ((box.setBuf n (buf.setLength (0x08 + listed * 2))).setState n .outreq)

/-- `SDO_getodlistcont` -/
def sdoGetodlistcont (s : Server V) : Except AccessFault (Server V) := do
  match s.box.claimbuffer with
  | (.inbox, box) => return s.withBox box
  | (n, box) =>
      let first := ((box.frags - box.fragsleft).setWidth 16 * BitVec.ofNat 16 (odListSize / 2)).toNat
      let more := 1 < box.fragsleft.toNat
      let last := if more then first + odListSize / 2 else box.entries.toNat
      let bytes ← indexBytes table first last
      let buf := initCoeinfo (box.mbx n) coeGetodlistresponse more
        ((box.fragsleft - 1).setWidth 16)
      let buf ← buf.copy 6 bytes
      let box := { box with fragsleft := box.fragsleft - 1 }
      let box := if more then box else box.done
      return s.withBox
        ((box.setBuf n (buf.setLength (0x06 + (last - first) * 2))).setState n .outreq)

/-- The entry at an index that may be -1. -/
def subAt (o : ObjectItem V) (nsub : Int) : Except AccessFault (ObjDesc V) :=
  if nsub < 0 then .error (.dictionary .outsideDescriptors) else descAt o.objdesc nsub.toNat

/-- The data type and the number of entries that an object is described by. -/
def objectShape (o : ObjectItem V) (nsub : Int) : Except AccessFault (BitVec 16 × BitVec 8) := do
  if o.objtype = otypeVar then
    let d ← subAt o nsub
    return (d.datatype, o.maxsub)
  else if o.objtype = otypeArray then
    let d ← subAt o nsub
    let d₀ ← descAt o.objdesc 0
    return (d.datatype, d₀.value.setWidth 8)
  else
    let d₀ ← descAt o.objdesc 0
    return (0, d₀.value.setWidth 8)

/-- `SDO_getod` -/
def sdoGetod (s : Server V) : Except AccessFault (Server V) := do
  let index := (s.box.mbx .inbox).objIndex
  let nidx ← ofSearch (sdoFindobject (snapshot s.mem table) index)
  if nidx < 0 then return s.withBox (s.box.sdoInfoerror abortNoobject)
  else
    match s.box.claimbuffer with
    | (.inbox, box) => return s.withBox box
    | (n, box) =>
        let o ← itemAt table nidx.toNat
        let nsub ←
          (if o.objtype = otypeVar ∨ o.objtype = otypeArray then
            ofSearch (sdoFindsubindex (snapshot s.mem table) nidx.toNat 0)
          else .ok 0)
        let (datatype, maxsub) ← objectShape o nsub
        let (name, counted) := nameBytes o.name (escMbxdsize - 0x0C)
        let buf ← (initCoeinfo (box.mbx n) coeGetodresponse false 0).copy 6
          (toBytes 2 index ++ toBytes 2 datatype ++ toBytes 1 maxsub
            ++ toBytes 1 (o.objtype.setWidth 8) ++ name)
        return s.withBox ((box.setBuf n (buf.setLength (0x0C + counted))).setState n .outreq).done

/-- `SDO_geted` -/
def sdoGeted (s : Server V) : Except AccessFault (Server V) := do
  let index := (s.box.mbx .inbox).objIndex
  let subindex := (s.box.mbx .inbox).objSubindex
  match ← lookup s.mem table index subindex with
  | .noObject => return s.withBox (s.box.sdoInfoerror abortNoobject)
  | .noSubindex => return s.withBox (s.box.sdoInfoerror abortNosubindex)
  | .found _ _ d =>
      match s.box.claimbuffer with
      | (.inbox, box) => return s.withBox box
      | (n, box) =>
          let (name, counted) := nameBytes d.name (escMbxdsize - 0x10)
          let buf ← (initCoeinfo (box.mbx n) coeEntrydescriptionresponse false 0).copy 6
            (toBytes 2 index ++ toBytes 1 subindex
              ++ toBytes 1 (coeValueinfoAccess + coeValueinfoObject + coeValueinfoMappable)
              ++ toBytes 2 d.datatype ++ toBytes 2 d.bitlength ++ toBytes 2 d.flags ++ name)
          return s.withBox ((box.setBuf n (buf.setLength (0x10 + counted))).setState n .outreq).done

end Requests

/-! ## `ESC_coeprocess` -/

section Process

variable [DecidableEq V] (table : List (ObjectItem V)) (alstatus : BitVec 8)

/-- Take a CoE message over. -/
def acceptCoe (m : Mailbox V) : Mailbox V :=
  if m.xoe = .idle ∧ m.control .inbox = .inclaim then
    if (m.mbx .inbox).header.mbxtype = mbxcoe then
      if (m.mbx .inbox).header.length.toNat < coeMinimumLength then m.mbxError mbxerrInvalidsize
      else { m with xoe := .coe }
    else m
  else m

/-- A CoE message that is no service of the server. -/
def rejectCoe (m : Mailbox V) : Mailbox V :=
  let coesdo := m.mbx .inbox
  (if coesdo.service = 0 then m.mbxError mbxerrInvalidheader
    else m.sdoAbort .inbox coesdo.index coesdo.subindex abortUnsupported).done

/-- The SDO services. A command that is none of them is not answered, and stays. -/
def sdoRequest (s : Server V) : Except AccessFault (Server V) :=
  let coesdo := s.box.mbx .inbox
  let command := coesdo.command
  let full := coesdo.header.length = BitVec.ofNat 16 coeHeadersize
  if command &&& 0xE0 = coeCommandUploadrequest ∧ full then
    if command &&& coeCompleteaccess = coeCompleteaccess then
      s.sdoUploadCompleteAccess table alstatus
    else s.sdoUpload table alstatus
  else if command &&& 0xEF = coeCommandUploadsegreq ∧ full ∧ s.box.segmented = .seu then
    s.sdoUploadsegment
  else if command &&& 0xE0 = coeCommandDownloadrequest then
    if command &&& coeCompleteaccess = coeCompleteaccess then
      s.sdoDownloadCompleteAccess table alstatus
    else s.sdoDownload table alstatus
  else if command &&& 0xE0 = coeCommandDownloadsegreq then s.sdoDownloadsegment table alstatus
  else .ok s

/-- One message. -/
def coeRequest (s : Server V) : Except AccessFault (Server V) :=
  let coesdo := s.box.mbx .inbox
  if coesdo.service = coeSdorequest then s.sdoRequest table alstatus
  else if coesdo.service = coeSdoinformation ∧ coesdo.opcode = 0x01 then s.sdoGetodlist table
  else if coesdo.service = coeSdoinformation ∧ coesdo.opcode = 0x03 then s.sdoGetod table
  else if coesdo.service = coeSdoinformation ∧ coesdo.opcode = 0x05 then s.sdoGeted table
  else .ok (s.withBox (rejectCoe s.box))

/-- `ESC_coeprocess` -/
def coeprocess (s : Server V) : Except AccessFault (Server V) :=
  if s.box.mbxRun = false then .ok s
  else do
    let s := s.withBox (acceptCoe s.box)
    let s ←
      (if s.box.xoe = .coeOdl ∧ s.box.mbxoutpost = .inbox then s.sdoGetodlistcont table else .ok s)
    if s.box.xoe = .coe then s.coeRequest table alstatus else .ok s

/-- What `ecat_slv_poll` does with the mailboxes. -/
def pollMailbox (s : Server V) (i : Mailbox.Input) : Except AccessFault (Server V) :=
  match s.box.mbxprocess i with
  | (false, box) => .ok (s.withBox box)
  | (true, box) => do
      let s ← (s.withBox box).coeprocess table alstatus
      return s.withBox s.box.xoeprocess

end Process

end Server

end GalvoCtrl.Coe
