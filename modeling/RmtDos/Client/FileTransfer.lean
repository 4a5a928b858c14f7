import RmtDos.Client.RemoteDir

/-! The uploads, downloads and path operations of the file client, as programs over its socket and
the local files. The loops that wait for an answer run on fuel, as do the loops over the chunks. -/
namespace RmtDos
open Memory Reading Resumable

def fileRetries : ℕ := 10

def makeTransferId (sock : RawSocket) (salt : UInt32) : UInt32 := sock.sessionId ^^^ salt

/-! The structs behind the protocol header; `snprintf` cuts the names. -/

def filePutBeginBytes (transferId size : UInt32) (filename : Bytes.CString) : List UInt8 :=
  htonl transferId ++ htonl size ++ (Bytes.snprintf 63 filename).toList

/-- `struct FilePutData`, and the data behind it. -/
def filePutDataBytes (transferId offset : UInt32) (data : List UInt8) : List UInt8 :=
  htonl transferId ++ htonl offset ++ htons (UInt16.ofNat data.length) ++ data

def filePutEndBytes (transferId size : UInt32) : List UInt8 := htonl transferId ++ htonl size

def fileGetBeginBytes (transferId : UInt32) (filename : Bytes.CString) : List UInt8 :=
  htonl transferId ++ (Bytes.snprintf 63 filename).toList

def fileGetDataReqBytes (transferId offset : UInt32) (count : UInt16) : List UInt8 :=
  htonl transferId ++ htonl offset ++ htons count

def filePathOpBytes (transferId : UInt32) (flags : UInt16) (path : Bytes.CString) : List UInt8 :=
  htonl transferId ++ htons flags ++ htons 0 ++ (Bytes.snprintf 63 path).toList

def fileTwoPathOpBytes (transferId : UInt32) (source target : Bytes.CString) : List UInt8 :=
  htonl transferId ++ (Bytes.snprintf 63 source).toList ++ (Bytes.snprintf 63 target).toList

/-- `validate_remote_name`: whether it accepts the name. -/
def validateRemoteName (remotePath : Bytes.CString) : Bool :=
  0 < remotePath.bytes.length ∧ remotePath.bytes.length < fileTransferNameBytes ∧
    0x2f ∉ remotePath.bytes

theorem validateRemoteName_eq {p : Bytes.CString} : validateRemoteName p = true ↔
    0 < p.bytes.length ∧ p.bytes.length ≤ 63 ∧ 0x2f ∉ p.bytes := by
  rw [validateRemoteName, decide_eq_true_iff]
  exact ⟨fun h => ⟨h.1,Nat.le_of_lt_succ h.2.1,h.2.2⟩,fun h => ⟨h.1,Nat.lt_succ_of_le h.2.1,h.2.2⟩⟩

/-- A receive loop: the result of its body, or none where the source returns -1. -/
def awaitFrame {α : Type} (body : ℕ → Reading FrameField (Received α)) : ℕ → Remote (Option α)
  | 0 => .hang
  | fuel+1 => do
    match ← socketCall .recv with
    | .received length buf =>
      match run buf (body length) with
      | .ignored => awaitFrame body fuel
      | .failed => return none
      | .ok a => return some a
      | .trapped => .hang
    | _ => return none

section Socket
variable (sock : RawSocket) (ethertype : UInt16) (destMacAddr : MacAddr)

/-- A loop over the attempts that are left to get an answer to a packet. -/
def sendAttempts {α : Type} (pktType : PktType) (payload : List UInt8)
    (await : Remote (Option α)) : ℕ → Remote (Option α)
  | 0 => return none
  | attempts+1 => do
    if ← sendPacket sock ethertype destMacAddr pktType payload then
      match ← await with
      | some a => return some a
      | none => sendAttempts pktType payload await attempts
    else return none

/-- `recv_file_ack`: the acknowledged offset. -/
def awaitFileAck (transferId : UInt32) (command : FileAckCommand) (fuel : ℕ) :
    Remote (Option UInt32) :=
  awaitFrame (recvFileAck sock destMacAddr transferId command.code) fuel

/-- `send_with_ack`: the acknowledged offset. -/
def sendWithAck (fuel : ℕ) (pktType : PktType) (payload : List UInt8) (transferId : UInt32)
    (ackCommand : FileAckCommand) : Remote (Option UInt32) :=
  sendAttempts sock ethertype destMacAddr pktType payload
    (awaitFileAck sock destMacAddr transferId ackCommand fuel) fileRetries

/-- `recv_file_get_data`: the data. -/
def awaitFileGetData (transferId offset : UInt32) (fuel : ℕ) : Remote (Option (List UInt8)) :=
  awaitFrame (recvFileGetData sock destMacAddr transferId offset) fuel

/-- `send_with_data_response`: the data, whose length is the count. -/
def sendWithDataResponse (fuel : ℕ) (transferId offset : UInt32) (count : UInt16) :
    Remote (Option (List UInt8)) :=
  sendAttempts sock ethertype destMacAddr .fileGetDataReq
    (fileGetDataReqBytes transferId offset count)
    (awaitFileGetData sock destMacAddr transferId offset fuel) fileRetries

/-- `send_path_op`: whether it succeeds. -/
def sendPathOp (fuel : ℕ) (pktType : PktType) (ackCommand : FileAckCommand)
    (remotePath : Bytes.CString) (flags : UInt16) : Remote Bool := do
  let transferId := makeTransferId sock (0x4f505031 ^^^ pktType.code)
  if !validateRemoteName remotePath then return false
  match ← sendWithAck sock ethertype destMacAddr fuel pktType
      (filePathOpBytes transferId flags remotePath) transferId ackCommand with
  | some _ => return true
  | none => return false

/-- `send_two_path_op`: whether it succeeds. -/
def sendTwoPathOp (fuel : ℕ) (pktType : PktType) (ackCommand : FileAckCommand)
    (sourcePath targetPath : Bytes.CString) : Remote Bool := do
  let transferId := makeTransferId sock (0x4f505032 ^^^ pktType.code)
  if !validateRemoteName sourcePath || !validateRemoteName targetPath then return false
  match ← sendWithAck sock ethertype destMacAddr fuel pktType
      (fileTwoPathOpBytes transferId sourcePath targetPath) transferId ackCommand with
  | some _ => return true
  | none => return false

def fileRemoteMkdir (fuel : ℕ) (remotePath : Bytes.CString) : Remote Bool :=
  sendPathOp sock ethertype destMacAddr fuel .fileMkdir .mkdir remotePath filePathOpDirectory

def fileRemoteDelete (fuel : ℕ) (remotePath : Bytes.CString) (isDir : Bool) : Remote Bool :=
  sendPathOp sock ethertype destMacAddr fuel .fileDelete .delete remotePath
    (if isDir then filePathOpDirectory else 0)

def fileRemoteRename (fuel : ℕ) (sourcePath targetPath : Bytes.CString) : Remote Bool :=
  sendTwoPathOp sock ethertype destMacAddr fuel .fileRename .rename sourcePath targetPath

def fileRemoteCopy (fuel : ℕ) (sourcePath targetPath : Bytes.CString) : Remote Bool :=
  sendTwoPathOp sock ethertype destMacAddr fuel .fileCopy .copy sourcePath targetPath

end Socket

/-! The calls on local files; a client has one stream open at a time. -/

inductive StdioCall
  | stat (path : Bytes.CString)
  | fopenRead (path : Bytes.CString)
  | fopenWrite (path : Bytes.CString)
  | fread (count : ℕ)
  | fwrite (data : List UInt8)
  | ferror
  | fclose

/-- `size` is the `st_size` of a `stat` that succeeds. -/
inductive StdioReply
  | failed
  | ok
  | size (n : ℤ)
  | data (bs : List UInt8)
  | flag (b : Bool)

inductive ClientCall
  | socket (c : SocketCall)
  | stdio (c : StdioCall)

inductive ClientReply
  | socket (r : SocketReply)
  | stdio (r : StdioReply)

def ClientReply.onSocket : ClientReply → SocketReply
  | .socket r => r
  | .stdio _ => .timeout

def ClientReply.onStdio : ClientReply → StdioReply
  | .socket _ => .failed
  | .stdio r => r

/-- Code of the client that also works on local files. -/
abbrev Transfer := Prog Unit ClientCall ClientReply Empty

def overSocket {α : Type} (p : Remote α) : Transfer α := p.mapCalls .socket ClientReply.onSocket

def stdioCall (c : StdioCall) : Transfer StdioReply :=
  .call (fun _ => .stdio c) (fun _ s => s) fun r => .done r.onStdio

/-- Whether a call succeeds that has no other result. -/
def stdioOk (c : StdioCall) : Transfer Bool := do
  match ← stdioCall c with
  | .ok => return true
  | _ => return false

def fread (count : ℕ) : Transfer (List UInt8) := do
  match ← stdioCall (.fread count) with
  | .data bs => return bs
  | _ => return []

def ferror : Transfer Bool := do
  match ← stdioCall .ferror with
  | .flag b => return b
  | _ => return false

variable (sock : RawSocket) (ethertype : UInt16) (destMacAddr : MacAddr) (fuel : ℕ)

/-- The `for` loop of `file_transfer_put`: the offset behind the last chunk, or none where the
source returns -1. The sum of the test has more than 32 bits. -/
def putChunks (transferId : UInt32) : ℕ → UInt32 → Transfer (Option UInt32)
  | 0, _ => .hang
  | chunks+1, offset => do
    let payload ← fread fileTransferChunkBytes
    if payload = [] then return some offset
    match ← overSocket (sendWithAck sock ethertype destMacAddr fuel .filePutData
        (filePutDataBytes transferId offset payload) transferId .data) with
    | some ackOffset =>
      if ackOffset.toNat = offset.toNat+payload.length then putChunks transferId chunks ackOffset
      else
        let _ ← stdioOk .fclose
        return none
    | none =>
      let _ ← stdioOk .fclose
      return none

/-- `file_transfer_put` from the open file on. -/
def putOpened (transferId size : UInt32) (remotePath : Bytes.CString) : Transfer Bool := do
  match ← overSocket (sendWithAck sock ethertype destMacAddr fuel .filePutBegin
      (filePutBeginBytes transferId size remotePath) transferId .begin) with
  | some 0 =>
    match ← putChunks sock ethertype destMacAddr fuel transferId fuel 0 with
    | none => return false
    | some _ =>
      if ← ferror then
        let _ ← stdioOk .fclose
        return false
      let _ ← stdioOk .fclose
      match ← overSocket (sendWithAck sock ethertype destMacAddr fuel .filePutEnd
          (filePutEndBytes transferId size) transferId .end) with
      | some ackOffset => return ackOffset = size
      | none => return false
  | _ =>
    let _ ← stdioOk .fclose
    return false

/-- `file_transfer_put`: whether it returns 0. -/
def fileTransferPut (localPath remotePath : Bytes.CString) : Transfer Bool := do
  let transferId := makeTransferId sock 0x66554c45
  if !validateRemoteName remotePath then return false
  match ← stdioCall (.stat localPath) with
  | .size stSize =>
    if stSize < 0 ∨ 0xffffffff < stSize then return false
    if ← stdioOk (.fopenRead localPath) then
      putOpened sock ethertype destMacAddr fuel transferId (UInt32.ofInt stSize) remotePath
    else return false
  | _ => return false

/-- The `while` loop of `file_transfer_get`: whether it gets to its end. -/
def getChunks (transferId fileSize : UInt32) : ℕ → UInt32 → Transfer Bool
  | 0, _ => .hang
  | chunks+1, offset => do
    if fileSize ≤ offset then return true
    let remaining := fileSize-offset
    let count : UInt16 := if 512 < remaining then 512 else remaining.toUInt16
    match ← overSocket (sendWithDataResponse sock ethertype destMacAddr fuel transferId offset
        count) with
    | some chunk =>
      if chunk = [] ∨ remaining.toNat < chunk.length then
        let _ ← stdioOk .fclose
        return false
      if ← stdioOk (.fwrite chunk) then
        getChunks transferId fileSize chunks (offset+UInt32.ofNat chunk.length)
      else
        let _ ← stdioOk .fclose
        return false
    | none =>
      let _ ← stdioOk .fclose
      return false

/-- `file_transfer_get`: whether it returns 0. -/
def fileTransferGet (remotePath localPath : Bytes.CString) : Transfer Bool := do
  let transferId := makeTransferId sock 0x47455421
  if !validateRemoteName remotePath then return false
  match ← overSocket (sendWithAck sock ethertype destMacAddr fuel .fileGetBegin
      (fileGetBeginBytes transferId remotePath) transferId .begin) with
  | some fileSize =>
    if ← stdioOk (.fopenWrite localPath) then
      if ← getChunks sock ethertype destMacAddr fuel transferId fileSize fuel 0 then
        if ← stdioOk .fclose then
          match ← overSocket (sendWithAck sock ethertype destMacAddr fuel .fileGetEnd
              (htonl transferId) transferId .end) with
          | some _ => return true
          | none => return false
        else return false
      else return false
    else return false
  | none => return false

end RmtDos
