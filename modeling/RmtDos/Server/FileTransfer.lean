import RmtDos.Server.State

/-! The packet handler and the idle step of the TSR. Both loops over DOS results run on fuel;
a step that uses it up has no execution. -/
namespace RmtDos
open Resumable

def pathCharFold (ch : UInt8) : UInt8 :=
  if 0x61 ≤ ch ∧ ch ≤ 0x7a then ch-0x20 else if ch = 0x2f then 0x5c else ch

/-- The scan stops at the first NUL of either string. -/
def dosPathEqual : List UInt8 → List UInt8 → Bool
  | l::lhs, r::rhs => if pathCharFold l = pathCharFold r then dosPathEqual lhs rhs else false
  | [], [] => true
  | _, _ => false

variable (mac : MacAddr)

def sendFileAck (command : FileAckCommand) (status : FileAckStatus) (offset : UInt32) :
    Tsr Unit := do
  let g ← getFile
  pktdrvSend ⟨g.clientMac,mac,g.sessionId,12,.fileAck g.transferId command status offset⟩

def noChunk (g : FileTransferState) : FileTransferState := { g with chunkCount := 0 }

def sendFileGetData (status : FileAckStatus) : Tsr Unit := do
  let payloadLen ← do
    if status = .ok then
      let g ← getFile
      pure (12+g.chunkCount)
    else
      setFile noChunk
      pure 12
  let g ← getFile
  pktdrvSend ⟨g.clientMac,mac,g.sessionId,payloadLen,
    .fileGetData g.transferId g.chunkOffset g.chunkCount status
      (g.chunk.toList.take g.chunkCount.toNat)⟩

def sendDirListData (status : FileAckStatus) (count : UInt16) : Tsr Unit := do
  let g ← getFile
  let payloadLen := if status = .ok then 10+count*74 else 10
  let count := if status = .ok then count else 0
  pktdrvSend ⟨g.clientMac,mac,g.sessionId,payloadLen,
    .dirListData g.dirRequestId g.dirStartIndex count status
      (g.dirEntries.toList.take count.toNat)⟩

def hasWildcard (s : List UInt8) : Bool := s.any fun ch => ch = 0x2a ∨ ch = 0x3f

/-- `build_dir_pattern`: the search pattern for a directory, or none where it does not fit. -/
def buildDirPattern (destLen : ℕ) (path : List UInt8) : Option (List UInt8) :=
  let path := if path = [] then [0x2e] else path
  if destLen ≤ path.length then none else
    let dest := path.map fun ch => if ch = 0x2f then 0x5c else ch
    if hasWildcard dest then some dest else
      if dest.getLast? = some 0x5c then
        if destLen ≤ dest.length+4 then none else some (dest ++ [0x2a,0x2e,0x2a])
      else
        if destLen ≤ dest.length+5 then none else some (dest ++ [0x5c,0x2a,0x2e,0x2a])

/-- The directory entry read from the DTA of the last search. -/
def dtaEntry (dta : Vector UInt8 43) : DirListEntry where
  attributes := dta.toList.getD 21 0
  reserved := 0
  size := dtaGetU32 dta 26
  dosTime := dtaGetU16 dta 22
  dosDate := dtaGetU16 dta 24
  name := Bytes.overwrite (Vector.replicate 64 0) ((Bytes.cstr (dta.toList.drop 30)).take 63)

/-- The `do`-`while` loop of `collect_dir_entries`. -/
def collectLoop (maxEntries : UInt16) : ℕ → UInt16 → UInt16 → Tsr UInt16
  | 0, _, _ => .hang
  | fuel+1, seen, count => do
    let g ← getFile
    let count ← do
      if g.dirStartIndex ≤ seen ∧ count < maxEntries then
        setFile fun g =>
          { g with dirEntries := g.dirEntries.setIfInBounds count.toNat (dtaEntry g.dta) }
        pure (count+1)
      else pure count
    if count < maxEntries then
      if ← dosFindNext then collectLoop maxEntries fuel (seen+1) count
      else return count
    else return count

def collectDirEntries (fuel : ℕ) : Tsr (FileAckStatus × UInt16) := do
  let g ← getFile
  let maxEntries : UInt16 := if 16 < g.dirMaxEntries then 16 else g.dirMaxEntries
  match buildDirPattern 133 (dirPathStr g) with
  | none => return (.error,0)
  | some pattern =>
    let saved ← dosGetDta
    dosSetDta
    if ← dosFindFirst fun _ => pattern then
      let count ← collectLoop maxEntries fuel 0 0
      dosRestoreDta saved
      return (.ok,count)
    else
      dosRestoreDta saved
      return (.ok,0)

def dosGetFileSize : Tsr UInt32 := do
  let saved ← dosGetDta
  dosSetDta
  if ← dosFindFirst filenameStr then
    let g ← getFile
    let size := dtaGetU32 g.dta 26
    dosRestoreDta saved
    return size
  else
    dosRestoreDta saved
    return 0xffffffff

/-- The `for` loop of `dos_copy_file`: success and the bytes copied. -/
def copyLoop (inHandle outHandle : Int16) : ℕ → UInt32 → Tsr (Bool × UInt32)
  | 0, _ => .hang
  | fuel+1, bytesCopied => do
    let readCount ← dosReadFile inHandle 512
    if readCount < 0 then return (false,bytesCopied)
    if readCount = 0 then return (true,bytesCopied)
    if ← dosWriteFile outHandle readCount.toUInt16 then
      copyLoop inHandle outHandle fuel (bytesCopied+readCount.toUInt16.toUInt32)
    else return (false,bytesCopied)

/-- `dos_copy_file` of `g_file.filename` to `g_file.target`. -/
def dosCopyFile (fuel : ℕ) : Tsr (Bool × UInt32) := do
  let inHandle ← dosOpenReadFile filenameStr
  if inHandle < 0 then
    dosCloseFile (-1)
    dosCloseFile inHandle
    return (false,0)
  let outHandle ← dosCreateFile targetStr
  if outHandle < 0 then
    dosCloseFile outHandle
    dosCloseFile inHandle
    return (false,0)
  let result ← copyLoop inHandle outHandle fuel 0
  dosCloseFile outHandle
  dosCloseFile inHandle
  return result

def rememberClient (buffer : Packet) (g : FileTransferState) : FileTransferState :=
  { g with clientMac := buffer.srcMacAddr, sessionId := buffer.sessionId }

def queueAck (buffer : Packet) (transferId : UInt32) (command : FileAckCommand)
    (status : FileAckStatus) (g : FileTransferState) : FileTransferState :=
  if g.pendingOp ≠ .none then g else
    { rememberClient buffer g with
      transferId := transferId
      ackCommand := command
      ackStatus := status
      ackOffset := g.expectedOffset
      pendingOp := .ack }

def fileTransferHandlePacket (buffer : Packet) (g : FileTransferState) : FileTransferState :=
  if g.pendingOp ≠ .none then g else
  if ¬ buffer.LongEnough then g else
  match buffer.payload with
  | .filePutBegin transferId size filename =>
    { rememberClient buffer g with
      transferId := transferId, size := size, filename := Bytes.terminate filename
      pendingOp := .putBegin }
  | .filePutData transferId offset count data =>
    if !g.active ∨ g.mode ≠ .put ∨ transferId ≠ g.transferId then g
    else if offset ≠ g.expectedOffset then queueAck buffer transferId .data .ok g
    else if 512 < count.toNat ∨ buffer.payloadLen.toNat < 10+count.toNat then
      queueAck buffer transferId .data .error g
    else
      { rememberClient buffer g with
        chunkOffset := offset, chunkCount := count
        chunk := Bytes.overwrite g.chunk (data.take count.toNat)
        pendingOp := .putData }
  | .filePutEnd transferId size =>
    if !g.active ∨ g.mode ≠ .put ∨ transferId ≠ g.transferId ∨ size ≠ g.size then g
    else { rememberClient buffer g with pendingOp := .putEnd }
  | .fileGetBegin transferId filename =>
    { rememberClient buffer g with
      transferId := transferId, filename := Bytes.terminate filename, pendingOp := .getBegin }
  | .fileGetDataReq transferId offset count =>
    if !g.active ∨ g.mode ≠ .get ∨ transferId ≠ g.transferId then g
    else
      { rememberClient buffer g with
        chunkOffset := offset, chunkCount := count, pendingOp := .getDataReq }
  | .fileGetEnd transferId =>
    if !g.active ∨ g.mode ≠ .get ∨ transferId ≠ g.transferId then g
    else { rememberClient buffer g with pendingOp := .getEnd }
  | .dirListBegin requestId path =>
    { rememberClient buffer g with
      dirRequestId := requestId, dirPath := Bytes.terminate path, active := true, mode := .dir }
  | .dirListDataReq requestId startIndex maxEntries =>
    if !g.active ∨ g.mode ≠ .dir ∨ requestId ≠ g.dirRequestId then g
    else
      { rememberClient buffer g with
        dirStartIndex := startIndex, dirMaxEntries := maxEntries, pendingOp := .dirListDataReq }
  | .dirListEnd requestId =>
    if requestId ≠ g.dirRequestId then g
    else { g with active := false, mode := .none, dirRequestId := 0 }
  | .fileMkdir transferId flags path =>
    { rememberClient buffer g with
      transferId := transferId, pathOpFlags := flags, filename := Bytes.terminate path
      pendingOp := .mkdir }
  | .fileDelete transferId flags path =>
    { rememberClient buffer g with
      transferId := transferId, pathOpFlags := flags, filename := Bytes.terminate path
      pendingOp := .delete }
  | .fileRename transferId source target =>
    { rememberClient buffer g with
      transferId := transferId, filename := Bytes.terminate source
      target := Bytes.terminate target, pendingOp := .rename }
  | .fileCopy transferId source target =>
    { rememberClient buffer g with
      transferId := transferId, filename := Bytes.terminate source
      target := Bytes.terminate target, pendingOp := .copy }

/-! The cases of `file_transfer_process_idle`; each returns the command and status it leaves
in the two locals of the source. -/

def statusOf (ok : Bool) : FileAckStatus := if ok then .ok else .error

/-- `if (g_file.active) dos_close_file (g_file.handle)`, which opens both `BEGIN` cases. -/
def closeActive : Tsr Unit := do
  let g ← getFile
  if g.active then dosCloseFile g.handle

def idlePutBegin : Tsr (FileAckCommand × FileAckStatus) := do
  closeActive
  let handle ← dosCreateFile filenameStr
  setFile fun g =>
    { g with
      handle := handle, expectedOffset := 0, active := 0 ≤ handle
      mode := if 0 ≤ handle then .put else .none }
  return (.begin,statusOf (0 ≤ handle))

def idlePutData : Tsr (FileAckCommand × FileAckStatus) := do
  let g ← getFile
  if g.chunkOffset ≠ g.expectedOffset then return (.data,.error)
  if ← dosWriteFile g.handle g.chunkCount then
    setFile fun g => { g with expectedOffset := g.expectedOffset+g.chunkCount.toUInt32 }
    return (.data,.ok)
  else return (.data,.error)

def idlePutEnd : Tsr (FileAckCommand × FileAckStatus) := do
  let g ← getFile
  let status : FileAckStatus := if g.expectedOffset ≠ g.size then .error else .ok
  dosCloseFile g.handle
  setFile fun g => { g with handle := -1, active := false, mode := .none }
  return (.end,status)

def idleAck : Tsr (FileAckCommand × FileAckStatus) := do
  let g ← getFile
  setFile fun g => { g with expectedOffset := g.ackOffset }
  return (g.ackCommand,g.ackStatus)

/-- The record as `GET_BEGIN` leaves it before it asks for the size. -/
def getReset (handle : Int16) (g : FileTransferState) : FileTransferState :=
  { g with handle := handle, active := false, mode := .none, expectedOffset := 0, size := 0 }

def getSized (size : UInt32) (g : FileTransferState) : FileTransferState :=
  if size ≠ 0xffffffff then { g with size := size, active := true, mode := .get }
  else { g with size := size }

def forgetHandle (g : FileTransferState) : FileTransferState := { g with handle := -1 }

/-- The end of `GET_BEGIN`: without a transfer the handle is given up. -/
def getBeginEnd : Tsr (FileAckCommand × FileAckStatus) := do
  let g ← getFile
  if g.active then return (.begin,.ok)
  dosCloseFile g.handle
  setFile forgetHandle
  return (.begin,.error)

def idleGetBegin : Tsr (FileAckCommand × FileAckStatus) := do
  closeActive
  let handle ← dosOpenReadFile filenameStr
  setFile (getReset handle)
  if 0 ≤ handle then
    let size ← dosGetFileSize
    setFile (getSized size)
  getBeginEnd

def chunkRead (count : UInt16) (g : FileTransferState) : FileTransferState :=
  { g with chunkCount := count, expectedOffset := g.chunkOffset+count.toUInt32 }

/-- The tests before the seek of `GET_DATA_REQ`. -/
def getRefused (g : FileTransferState) : Bool :=
  !g.active || g.mode ≠ .get || 512 < g.chunkCount || g.size < g.chunkOffset

/-- This case answers with the data itself, so it sends its reply and returns nothing. -/
def idleGetDataReq : Tsr Unit := do
  let g ← getFile
  let refused ← do
    if getRefused g then pure true
    else do
      let position ← dosSeekFile g.handle 0 g.chunkOffset
      pure (position = 0xffffffff : Bool)
  if refused then
    setFile noChunk
    sendFileGetData mac .error
  else
    let g ← getFile
    let readCount ← dosReadFile g.handle g.chunkCount
    if readCount < 0 then
      setFile noChunk
      sendFileGetData mac .error
    else
      setFile (chunkRead readCount.toUInt16)
      sendFileGetData mac .ok

def idleGetEnd : Tsr (FileAckCommand × FileAckStatus) := do
  let g ← getFile
  dosCloseFile g.handle
  setFile fun g => { g with handle := -1, active := false, mode := .none }
  return (.end,.ok)

def idleDirListDataReq (fuel : ℕ) : Tsr Unit := do
  let result ← collectDirEntries fuel
  sendDirListData mac result.1 result.2

def idleMkdir : Tsr (FileAckCommand × FileAckStatus) := do
  let ok ← dosMkdir
  return (.mkdir,statusOf ok)

def idleDelete : Tsr (FileAckCommand × FileAckStatus) := do
  let g ← getFile
  if g.pathOpFlags &&& filePathOpDirectory ≠ 0 then
    let ok ← dosRmdir
    return (.delete,statusOf ok)
  else
    let ok ← dosUnlink
    return (.delete,statusOf ok)

def idleRename : Tsr (FileAckCommand × FileAckStatus) := do
  let g ← getFile
  if dosPathEqual (filenameStr g) (targetStr g) then return (.rename,.ok)
  let ok ← dosRename
  return (.rename,statusOf ok)

def idleCopy (fuel : ℕ) : Tsr (FileAckCommand × FileAckStatus) := do
  let g ← getFile
  let result ← do
    if dosPathEqual (filenameStr g) (targetStr g) then pure (false,0)
    else dosCopyFile fuel
  setFile fun g => { g with expectedOffset := result.2 }
  return (.copy,statusOf result.1)

/-- The common end of the cases that answer with an acknowledgement. -/
def idleReply (op : FileOp) (answer : FileAckCommand × FileAckStatus) : Tsr Unit := do
  let g ← getFile
  sendFileAck mac answer.1 answer.2
    (if op = .getBegin ∧ answer.2 = .ok then g.size else g.expectedOffset)

/-- The `switch` over the operation, which `process_idle` has taken off the record. -/
def idleOp (fuel : ℕ) : FileOp → Tsr Unit
  | .none => .done ()
  | .putBegin => idlePutBegin >>= idleReply mac .putBegin
  | .putData => idlePutData >>= idleReply mac .putData
  | .putEnd => idlePutEnd >>= idleReply mac .putEnd
  | .ack => idleAck >>= idleReply mac .ack
  | .getBegin => idleGetBegin >>= idleReply mac .getBegin
  | .getDataReq => idleGetDataReq mac
  | .getEnd => idleGetEnd >>= idleReply mac .getEnd
  | .dirListDataReq => idleDirListDataReq mac fuel
  | .mkdir => idleMkdir >>= idleReply mac .mkdir
  | .delete => idleDelete >>= idleReply mac .delete
  | .rename => idleRename >>= idleReply mac .rename
  | .copy => idleCopy fuel >>= idleReply mac .copy

def fileTransferProcessIdle (fuel : ℕ) : Tsr Unit := do
  let g ← getFile
  if g.pendingOp = .none then return ()
  setFile fun g => { g with pendingOp := .none }
  idleOp mac fuel g.pendingOp

end RmtDos
