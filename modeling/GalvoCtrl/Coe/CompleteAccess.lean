import GalvoCtrl.Coe.SdoServer

/-!
# Coe — CompleteAccess

The transfers of whole objects (`esc_coe.c`): the entries of an object one after the
other, each at its bits, from or to a buffer of the stack. A segmented download ends in
the same way.
-/

namespace GalvoCtrl.Coe

open GalvoCtrl.Lib

variable {V : Type}

/-! ## The entries of an object -/

/-- What `complete_access_subindex_loop` is called for: the size only (without `mbxdata`),
`UPLOAD` or `DOWNLOAD`. -/
inductive LoadType where
  | size | upload | download
deriving DecidableEq, Repr

/-- `size` in bits, what `mbxdata` points to, and the variables. -/
structure CaScan (V : Type) where
  size : Nat
  mbxdata : List (BitVec 8)
  mem : Memory V

/-- The first `n` bytes at `ul_source`. -/
def ulSource (mem : Memory V) (d : ObjDesc V) (n : Nat) : Except AccessFault (List (BitVec 8)) :=
  match d.data with
  | some v => readVar mem v n
  | none => if n ≤ 4 then .ok (toBytes n d.value) else .error .outsideVariable

/-- An entry of whole bytes, from a byte boundary on. -/
def caBytes [DecidableEq V] (load : LoadType) (alstatus : BitVec 8) (d : ObjDesc V)
    (st : CaScan V) : Except AccessFault (CaScan V) :=
  let bitoffset := st.size % 8
  let size := if bitoffset ≠ 0 then st.size + (8 - bitoffset) else st.size
  match load with
  | .size => .ok { st with size }
  | .upload => do
      let bytes ←
        (if ReadAccess d.access (alstatus &&& 0x0F) then ulSource st.mem d d.size
        else .ok (List.replicate d.size 0))
      let mbxdata ← copyInto st.mbxdata (bits2bytes size) bytes
      return { st with size, mbxdata }
  | .download =>
      if WriteAccess d.access (alstatus &&& 0x0F) then do
        let bytes ← copyFrom st.mbxdata (bits2bytes size) d.size
        let mem ← storeEntry st.mem d bytes
        return { st with size, mem }
      else .ok { st with size }

/-- The byte at the next bit, with the bits of an entry from there on. -/
def mergedByte (alstatus : BitVec 8) (d : ObjDesc V) (st : CaScan V) (old : BitVec 8) :
    Except AccessFault (BitVec 8) :=
  let bitoffset := st.size % 8
  let bitmask : BitVec 32 := (1 <<< d.bitlength.toNat) - 1
  if ReadAccess d.access (alstatus &&& 0x0F) then do
    let source ← ulSource st.mem d 1
    let tempmask := (ofBytes 32 source &&& bitmask) <<< bitoffset
    return (if bitoffset = 0 then 0 else old) ||| tempmask.setWidth 8
  else .ok (old &&& (~~~(bitmask <<< bitoffset)).setWidth 8)

/-- An entry of bits, at the next bit. -/
def caBits (load : LoadType) (alstatus : BitVec 8) (d : ObjDesc V) (st : CaScan V) :
    Except AccessFault (CaScan V) :=
  if load ≠ .upload then .ok st
  else if 32 ≤ d.bitlength.toNat then .error .shiftWidth
  else do
    let old ← copyFrom st.mbxdata (st.size / 8) 1
    let new ← mergedByte alstatus d st (ofBytes 8 old)
    let mbxdata ← copyInto st.mbxdata (st.size / 8) (toBytes 1 new)
    return { st with mbxdata }

section Loop

variable [DecidableEq V] (load : LoadType) (alstatus : BitVec 8) (item : ObjectItem V)
  (maxBytes : Nat)

/-- The loop, `left` entries from `nsub` on. -/
def caLoop : (left nsub : Nat) → CaScan V → Except AccessFault (CaScan V)
  | 0, _, st => .ok st
  | left + 1, nsub, st => do
      let d ← descAt item.objdesc nsub
      let st ←
        (if d.bitlength.toNat % 8 = 0 then caBytes load alstatus d st
        else caBits load alstatus d st)
      -- subindex 0 takes 16 bits if the object is no variable
      let bits := if nsub = 0 ∧ item.objtype ≠ otypeVar then 16 else d.bitlength.toNat
      let st := { st with size := st.size + bits }
      if 0 < maxBytes ∧ maxBytes ≤ bits2bytes st.size then return st else caLoop left (nsub + 1) st

/-- Data types that have no fixed size. -/
def IsString (datatype : BitVec 16) : Prop :=
  datatype ∈ [dtypeVisibleString, dtypeOctetString, dtypeUnicodeString]

instance (datatype : BitVec 16) : Decidable (IsString datatype) :=
  inferInstanceAs (Decidable (datatype ∈ _))

/-- `complete_access_subindex_loop`; the size may also be an abort code. -/
def completeAccessSubindexLoop (nsub : Nat) (mbxdata : List (BitVec 8)) (mem : Memory V) :
    Except AccessFault (CaScan V) := do
  let d ← descAt item.objdesc 0
  if IsString d.datatype then
    return ⟨abortCaNotSupported.toNat, mbxdata, mem⟩
  else
    -- the padding behind subindex 0
    let mbxdata ← (if load = .upload then copyInto mbxdata 1 [0] else .ok mbxdata)
    caLoop load alstatus item maxBytes (item.maxsub.toNat + 1 - nsub) nsub ⟨0, mbxdata, mem⟩

end Loop

namespace Server

section Requests

variable (table : List (ObjectItem V)) (alstatus : BitVec 8)

/-- `complete_access_get_variables`: an abort code, or the object and the entry. -/
def completeAccessGetVariables (s : Server V) :
    Except AccessFault (BitVec 32 ⊕ (ObjectItem V × Nat)) := do
  let coesdo := s.box.mbx .inbox
  if 1 < coesdo.subindex.toNat then return .inl abortUnsupported
  else
    match ← lookup s.mem table coesdo.index coesdo.subindex with
    | .noObject => return .inl abortNoobject
    | .noSubindex => return .inl abortNosubindex
    | .found o nsub _ => return .inr (o, nsub)

/-! ## Upload -/

/-- The expedited bits used; the difference is unsigned. -/
def dataSetSizeCa (size : Nat) : BitVec 8 :=
  if 24 < size then 0
  else (4 * (3 - ((BitVec.ofNat 32 size - 1) >>> 3)) : BitVec 32).setWidth 8

/-- `SDO_upload_complete_access` -/
def sdoUploadCompleteAccess [DecidableEq V] (s : Server V) : Except AccessFault (Server V) := do
  let index := (s.box.mbx .inbox).index
  let subindex := (s.box.mbx .inbox).subindex
  match ← s.completeAccessGetVariables table with
  | .inl abortcode => return s.withBox (s.box.setStateIdle .inbox index subindex abortcode)
  | .inr (item, nsub) =>
      match s.box.claimbuffer with
      | (.inbox, box) => return s.withBox (box.setStateIdle .inbox index subindex 0)
      | (n, box) =>
          let total ← completeAccessSubindexLoop .size alstatus item 0 nsub [] s.mem
          let size := bits2bytes total.size
          if 0xFFFF < size then
            return s.withBox (box.setStateIdle n index subindex (BitVec.ofNat 32 size))
          else if preallocBufferSize < size + preallocFactor * coeHeadersize then
            return s.withBox (box.setStateIdle n index subindex abortCaNotSupported)
          else
            let ca ← completeAccessSubindexLoop .upload alstatus item 0 nsub box.mbxdata s.mem
            let box : Mailbox V := { box with mbxdata := ca.mbxdata, segmented := .no }
            let buf := initCoesdo (box.mbx n) coeSdoresponse
              (coeCommandUploadresponse ||| coeCompleteaccess ||| coeSizeIndicator) index subindex
            if size ≤ 4 then
              let bytes ← copyFrom ca.mbxdata 0 size
              let buf ← (buf.orCommand (coeExpeditedIndicator ||| dataSetSizeCa total.size)).copy 6
                bytes
              return s.withBox ((box.setBuf n buf).setState n .outreq).done
            else
              let buf := buf.put 6 (toBytes 4 (BitVec.ofNat 32 size))
              let done :=
                if escMbxdsize < size + coeHeadersize then escMbxdsize - coeHeadersize else size
              let box :=
                if escMbxdsize < size + coeHeadersize then
                  { box with
                    frags := BitVec.ofNat 32 size, fragsleft := BitVec.ofNat 32 done,
                    segmented := .seu, data := .mbxdata 0, flags := completeAccessFlag }
                else box
              let bytes ← copyFrom ca.mbxdata 0 done
              let buf ← (buf.setLength (coeHeadersize + done)).copy 10 bytes
              return s.withBox ((box.setBuf n buf).setState n .outreq).done

/-! ## Download -/

/-- The response to a download with complete access. -/
def fillDownloadCa (index : BitVec 16) (subindex : BitVec 8) (buf : MbxBuf) : MbxBuf :=
  (initCoesdo buf coeSdoresponse (coeCommandDownloadresponse ||| coeCompleteaccess) index
    subindex).put 6 (toBytes 4 (0 : BitVec 32))

/-- `SDO_download_complete_access` -/
def sdoDownloadCompleteAccess [DecidableEq V] (s : Server V) : Except AccessFault (Server V) := do
  let coesdo := s.box.mbx .inbox
  let index := coesdo.index
  let subindex := coesdo.subindex
  match ← s.completeAccessGetVariables table with
  | .inl abortcode => return s.withBox (s.box.setStateIdle .inbox index subindex abortcode)
  | .inr (item, nsub) =>
      let (bytes, off) := downloadData coesdo
      let total ← completeAccessSubindexLoop .size alstatus item 0 nsub [] s.mem
      let size := bits2bytes total.size
      if 0xFFFF < size then
        return s.withBox (s.box.setStateIdle .inbox index subindex (BitVec.ofNat 32 size))
      else if size < bytes then
        return s.withBox (s.box.setStateIdle .inbox index subindex abortTypemismatch)
      else
        let d ← descAt item.objdesc 0
        let abortcode ←
          downloadPreObjecthandler table s.mem index subindex (d.flags ||| completeAccessFlag)
        if abortcode ≠ 0 then
          return s.withBox (s.box.setStateIdle .inbox index subindex abortcode)
        else if escMbxdsize < bytes + coeHeadersize then
          if preallocBufferSize < bytes + preallocFactor * coeHeadersize then
            return s.withBox (s.box.setStateIdle .inbox index subindex abortCaNotSupported)
          else
            let first := escMbxdsize - coeHeadersize
            let data ← copyFrom coesdo.b off first
            let mbxdata ← copyInto s.box.mbxdata 0 data
            let box : Mailbox V :=
              { s.box with
                mbxdata, frags := BitVec.ofNat 32 bytes, fragsleft := BitVec.ofNat 32 first,
                segmented := .sed, data := .mbxdata first, index, subindex,
                flags := completeAccessFlag }
            return s.withBox (box.respond (fillDownloadCa index subindex)).done
        else
          let ca ← completeAccessSubindexLoop .download alstatus item bytes nsub
            (coesdo.b.drop off) s.mem
          let box : Mailbox V := { s.box with segmented := .no }
          return { box := (box.respond (fillDownloadCa index subindex)).done, mem := ca.mem }

/-- The end of a segmented download with complete access, or an abort code. -/
def downloadLast [DecidableEq V] (s : Server V) (size : BitVec 32) :
    Except AccessFault (BitVec 32 ⊕ Memory V) := do
  if s.box.fragsleft + size < s.box.frags then return .inl abortTypemismatch
  else
    match ← lookup s.mem table s.box.index s.box.subindex with
    | .found item nsub _ =>
        let ca ← completeAccessSubindexLoop .download alstatus item s.box.frags.toNat nsub
          s.box.mbxdata s.mem
        return .inr ca.mem
    -- without the object its subindex is looked for all the same
    | .noObject => throw (AccessFault.dictionary .outsideObjects)
    | .noSubindex => return .inl abortNoobject

/-- The bytes in a segment; a short one says how many of its seven it does not use. -/
def downloadSegmentSize (coesdo : MbxBuf) : BitVec 32 :=
  let size : BitVec 32 := coesdo.header.length.setWidth 32 - 3
  if size = 7 then 7 - ((coesdo.command >>> 1) &&& 7).setWidth 32 else size

/-- `SDO_downloadsegment`; the errors leave the buffer claimed. -/
def sdoDownloadsegment [DecidableEq V] (s : Server V) : Except AccessFault (Server V) := do
  let coesdo := s.box.mbx .inbox
  match s.box.claimbuffer with
  | (.inbox, box) => return s.withBox box.done
  | (n, box) =>
      let size := downloadSegmentSize coesdo
      let buf := initCoesdo (box.mbx n) coeSdoresponse
        (coeCommandDownloadsegresp ||| (coesdo.command &&& coeTogglebit)) 0 0
      let bytes ← copyFrom coesdo.b 3 size.toNat
      let s ← (s.withBox (box.setBuf n buf)).writeData bytes
      if coesdo.command &&& coeCommandLastsegmentbit ≠ 0 then
        let last ←
          (if s.box.flags = completeAccessFlag then s.downloadLast table alstatus size
          else .ok (.inr s.mem))
        match last with
        | .inl abortcode =>
            return s.withBox (s.box.setStateIdle .inbox s.box.index s.box.subindex abortcode)
        | .inr mem =>
            let box : Mailbox V := { s.box with segmented := .no, frags := 0, fragsleft := 0 }
            return { box := (box.setState n .outreq).done, mem }
      else
        let box :=
          { s.box with data := s.box.data.add size.toNat, fragsleft := s.box.fragsleft + size }
        return s.withBox (box.setState n .outreq).done

end Requests

end Server

end GalvoCtrl.Coe
