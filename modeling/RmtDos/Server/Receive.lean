import RmtDos.Lib.Reading
import RmtDos.Server.Bufmgr
import RmtDos.Server.SendBuffer

/-! What `protocol_process` does with one received buffer. A handler takes its lengths from the
packet, and reads the buffer at the positions that follow from them. -/
namespace RmtDos
open Memory Reading

/-- What the server takes a byte of the buffer for. -/
inductive ServerField
  | header | address | id | echo | keystroke | fileData | path
  deriving DecidableEq

/-- `struct Keystroke`. -/
structure Keystroke where
  biosScanCode : UInt8
  asciiValue : UInt8
  flags17 : UInt16
  deriving DecidableEq

/-- An array of `n` bytes. -/
def array (t : ServerField) (i n : ℕ) : Reading ServerField (Vector UInt8 n) := do
  let bs ← bytes t i n
  pure (Vector.ofFn fun j => bs[j.val]?.getD 0)

def arrayAt (m : Mem) (i n : ℕ) : Vector UInt8 n := Vector.ofFn fun j => m (i+j)

@[simp] theorem run_array (m : Mem) (t : ServerField) (i n : ℕ) :
    run m (array t i n) = arrayAt m i n := by
  apply Vector.ext
  intro j hj
  simp [array, arrayAt]

theorem reads_array {P : ServerField → ℕ → Prop} (m : Mem) (t : ServerField) (i n : ℕ) :
    Reads P m (array t i n) ↔ Reads P m (bytes t i n) := by
  rw [array, reads_bind, and_iff_left (reads_pure _)]

/-! The handlers of `protocol.c`. -/

def recvPrepForReply (globals : PktdrvGlobals) :
    Reading ServerField (List (ℕ × List UInt8)) := do
  let srcMacAddr ← bytes .address 6 6
  let sessionId ← bytes .id 18 4
  pure [(0,srcMacAddr),(6,globals.macAddr.toList),(12,htons globals.ethertype),(18,sessionId),
    (26,List.replicate 1488 0),(14,htonl packetSignature)]

def recvPing (globals : PktdrvGlobals) (received : ℕ) : Reading ServerField (List SendOp) := do
  let payloadLen ← be16 .header 22
  let reply ← recvPrepForReply globals
  let payload ← bytes .echo 26 (min 1488 payloadLen.toNat)
  pure (storeOps (reply ++ [(24,htons 2),(22,htons (UInt16.ofNat (min 1488 payloadLen.toNat))),
    (26,payload)]) ++ [.send received])

def recvStatusReq (globals : PktdrvGlobals) (video : VideoState) :
    Reading ServerField (List SendOp) := do
  let reply ← recvPrepForReply globals
  pure (storeOps (reply ++ [(24,htons 4),(22,htons 6),(26,[video.videoMode]),
    (27,[video.activePage]),(28,[video.textRows]),(29,[video.textCols]),(30,[video.cursorRow]),
    (31,[video.cursorCol])]) ++ [.send 32])

def recvSessionStart (now : UInt32) (t : SessionTable) : Reading ServerField SessionTable := do
  let sessionId ← be32 .id 18
  let srcMacAddr ← array .address 6 6
  pure (sessionMgrStart srcMacAddr sessionId now t).2

/-- The loop of `handle_inject_keystroke`. -/
def recvKeys (i : ℕ) : ℕ → Reading ServerField (List Keystroke)
  | 0 => pure []
  | n+1 => do
    let biosScanCode ← byte .keystroke i
    let asciiValue ← byte .keystroke (i+1)
    let low ← byte .keystroke (i+2)
    let high ← byte .keystroke (i+3)
    let keys ← recvKeys (i+4) n
    pure (⟨biosScanCode,asciiValue,low.toUInt16 ||| high.toUInt16 <<< 8⟩ :: keys)

def recvInjectKeystroke : Reading ServerField (List Keystroke) := do
  let payloadLen ← be16 .header 22
  recvKeys 26 (payloadLen.toNat/4)

/-! The handler of `file_transfer.c`. -/

def recvRememberClient (g : FileTransferState) : Reading ServerField FileTransferState := do
  let clientMac ← array .address 6 6
  let sessionId ← be32 .id 18
  pure { g with clientMac := clientMac, sessionId := sessionId }

def recvQueueAck (transferId : UInt32) (command : FileAckCommand) (status : FileAckStatus)
    (g : FileTransferState) : Reading ServerField FileTransferState := do
  if g.pendingOp ≠ .none then pure g
  else do
    let g ← recvRememberClient g
    pure { g with
      transferId := transferId, ackCommand := command, ackStatus := status
      ackOffset := g.expectedOffset, pendingOp := .ack }

/-- The cases of the `switch`, behind the check of the length that opens each of them. -/
def recvFilePayload (payloadLen : UInt16) (g : FileTransferState) :
    PktType → Reading ServerField FileTransferState
  | .filePutBegin => do
    let g ← recvRememberClient g
    let transferId ← be32 .id 26
    let size ← be32 .header 30
    let filename ← array .path 34 64
    pure { g with
      transferId := transferId, size := size, filename := Bytes.terminate filename
      pendingOp := .putBegin }
  | .filePutData => do
    let transferId ← be32 .id 26
    let count ← be16 .header 34
    let offset ← be32 .header 30
    if !g.active ∨ g.mode ≠ .put ∨ transferId ≠ g.transferId then pure g
    else if offset ≠ g.expectedOffset then recvQueueAck transferId .data .ok g
    else if 512 < count.toNat ∨ payloadLen.toNat < 10+count.toNat then
      recvQueueAck transferId .data .error g
    else do
      let g ← recvRememberClient g
      let data ← bytes .fileData 36 count.toNat
      pure { g with
        chunkOffset := offset, chunkCount := count, chunk := Bytes.overwrite g.chunk data
        pendingOp := .putData }
  | .filePutEnd => do
    let transferId ← be32 .id 26
    let size ← be32 .header 30
    if !g.active ∨ g.mode ≠ .put ∨ transferId ≠ g.transferId ∨ size ≠ g.size then pure g
    else do
      let g ← recvRememberClient g
      pure { g with pendingOp := .putEnd }
  | .fileGetBegin => do
    let g ← recvRememberClient g
    let transferId ← be32 .id 26
    let filename ← array .path 30 64
    pure { g with
      transferId := transferId, filename := Bytes.terminate filename, pendingOp := .getBegin }
  | .fileGetDataReq => do
    let transferId ← be32 .id 26
    let count ← be16 .header 34
    let offset ← be32 .header 30
    if !g.active ∨ g.mode ≠ .get ∨ transferId ≠ g.transferId then pure g
    else do
      let g ← recvRememberClient g
      pure { g with chunkOffset := offset, chunkCount := count, pendingOp := .getDataReq }
  | .fileGetEnd => do
    let transferId ← be32 .id 26
    if !g.active ∨ g.mode ≠ .get ∨ transferId ≠ g.transferId then pure g
    else do
      let g ← recvRememberClient g
      pure { g with pendingOp := .getEnd }
  | .dirListBegin => do
    let g ← recvRememberClient g
    let requestId ← be32 .id 26
    let path ← array .path 30 128
    pure { g with
      dirRequestId := requestId, dirPath := Bytes.terminate path, active := true, mode := .dir }
  | .dirListDataReq => do
    let requestId ← be32 .id 26
    if !g.active ∨ g.mode ≠ .dir ∨ requestId ≠ g.dirRequestId then pure g
    else do
      let g ← recvRememberClient g
      let startIndex ← be16 .header 30
      let maxEntries ← be16 .header 32
      pure { g with
        dirStartIndex := startIndex, dirMaxEntries := maxEntries, pendingOp := .dirListDataReq }
  | .dirListEnd => do
    let requestId ← be32 .id 26
    if requestId ≠ g.dirRequestId then pure g
    else pure { g with active := false, mode := .none, dirRequestId := 0 }
  | .fileMkdir => recvPathOp .mkdir g
  | .fileDelete => recvPathOp .delete g
  | .fileRename => recvTwoPathOp .rename g
  | .fileCopy => recvTwoPathOp .copy g
where
  recvPathOp (op : FileOp) (g : FileTransferState) : Reading ServerField FileTransferState := do
    let g ← recvRememberClient g
    let transferId ← be32 .id 26
    let flags ← be16 .header 30
    let path ← array .path 34 64
    pure { g with
      transferId := transferId, pathOpFlags := flags, filename := Bytes.terminate path
      pendingOp := op }
  recvTwoPathOp (op : FileOp) (g : FileTransferState) : Reading ServerField FileTransferState := do
    let g ← recvRememberClient g
    let transferId ← be32 .id 26
    let source ← array .path 30 64
    let target ← array .path 94 64
    pure { g with
      transferId := transferId, filename := Bytes.terminate source
      target := Bytes.terminate target, pendingOp := op }

/-- `file_transfer_handle_packet` for a buffer of the packet type. -/
def recvFilePacket (g : FileTransferState) (type : PktType) :
    Reading ServerField FileTransferState := do
  let payloadLen ← be16 .header 22
  if g.pendingOp ≠ .none then pure g
  else if payloadLen.toNat < Payload.structSize type then pure g
  else recvFilePayload payloadLen g type

/-- The file and directory members of `enum PKT_TYPE`. -/
def PktType.ofCode (code : UInt16) : Option PktType :=
  [.filePutBegin,.filePutData,.filePutEnd,.fileGetBegin,.fileGetDataReq,.fileGetEnd,
    .dirListBegin,.dirListDataReq,.dirListEnd,.fileMkdir,.fileDelete,.fileRename,.fileCopy].find?
    fun type => type.code = code.toUInt32

/-- What the handlers change: the sessions, the transfer record, the send buffer and the BIOS
keyboard buffer. -/
structure Processed where
  sessions : SessionTable
  file : FileTransferState
  sends : List SendOp
  keys : List Keystroke

/-- The body of the loop of `protocol_process`, for a buffer that received `received` bytes. -/
def protocolProcess (globals : PktdrvGlobals) (video : VideoState) (now : UInt32)
    (sessions : SessionTable) (file : FileTransferState) (received : ℕ) :
    Reading ServerField Processed := do
  let signature ← be32 .header 14
  if packetSignature ≠ signature then pure ⟨sessions,file,[],[]⟩
  else do
    let pktType ← be16 .header 24
    if pktType = 1 then do
      let sends ← recvPing globals received
      pure ⟨sessions,file,sends,[]⟩
    else if pktType = 3 then do
      let sends ← recvStatusReq globals video
      pure ⟨sessions,file,sends,[]⟩
    else if pktType = 5 then do
      let sessions ← recvSessionStart now sessions
      pure ⟨sessions,file,[],[]⟩
    else if pktType = 7 then do
      let keys ← recvInjectKeystroke
      pure ⟨sessions,file,[],keys⟩
    else match PktType.ofCode pktType with
      | some type => do
        let file ← recvFilePacket file type
        pure ⟨sessions,file,[],[]⟩
      | none => pure ⟨sessions,file,[],[]⟩

/-! The handlers on a packet in a buffer, as the other modules use them. -/

/-- The struct behind the protocol header. -/
def payloadAt (m : Mem) : PktType → Payload
  | .filePutBegin =>
    .filePutBegin (ntohl (slice m 26 4)) (ntohl (slice m 30 4)) (arrayAt m 34 64)
  | .filePutData =>
    .filePutData (ntohl (slice m 26 4)) (ntohl (slice m 30 4)) (ntohs (slice m 34 2))
      (slice m 36 (bufferMaxSize-36))
  | .filePutEnd => .filePutEnd (ntohl (slice m 26 4)) (ntohl (slice m 30 4))
  | .fileGetBegin => .fileGetBegin (ntohl (slice m 26 4)) (arrayAt m 30 64)
  | .fileGetDataReq =>
    .fileGetDataReq (ntohl (slice m 26 4)) (ntohl (slice m 30 4)) (ntohs (slice m 34 2))
  | .fileGetEnd => .fileGetEnd (ntohl (slice m 26 4))
  | .dirListBegin => .dirListBegin (ntohl (slice m 26 4)) (arrayAt m 30 128)
  | .dirListDataReq =>
    .dirListDataReq (ntohl (slice m 26 4)) (ntohs (slice m 30 2)) (ntohs (slice m 32 2))
  | .dirListEnd => .dirListEnd (ntohl (slice m 26 4))
  | .fileMkdir => .fileMkdir (ntohl (slice m 26 4)) (ntohs (slice m 30 2)) (arrayAt m 34 64)
  | .fileDelete => .fileDelete (ntohl (slice m 26 4)) (ntohs (slice m 30 2)) (arrayAt m 34 64)
  | .fileRename => .fileRename (ntohl (slice m 26 4)) (arrayAt m 30 64) (arrayAt m 94 64)
  | .fileCopy => .fileCopy (ntohl (slice m 26 4)) (arrayAt m 30 64) (arrayAt m 94 64)

def packetAt (m : Mem) (type : PktType) : Packet :=
  ⟨arrayAt m 6 6,ntohl (slice m 18 4),ntohs (slice m 22 2),payloadAt m type⟩

variable (m : Mem)

theorem run_recvPrepForReply (globals : PktdrvGlobals) :
    run m (recvPrepForReply globals) = prepForReply globals m := by
  rw [recvPrepForReply, run_bind, run_bind, run_bytes, run_bytes, run_pure, prepForReply]

theorem run_recvPing (globals : PktdrvGlobals) (received : ℕ) :
    run m (recvPing globals received) = handlePing globals m received := by
  simp only [recvPing, run_bind, run_be16, run_recvPrepForReply, run_bytes, run_pure, handlePing,
    pingLength]

theorem run_recvStatusReq (globals : PktdrvGlobals) (video : VideoState) :
    run m (recvStatusReq globals video) = handleStatusReq globals m video := by
  simp only [recvStatusReq, run_bind, run_recvPrepForReply, run_pure, handleStatusReq]

theorem run_recvSessionStart (now : UInt32) (t : SessionTable) :
    run m (recvSessionStart now t) =
      (sessionMgrStart (arrayAt m 6 6) (ntohl (slice m 18 4)) now t).2 := by
  simp [recvSessionStart]

theorem run_recvRememberClient (type : PktType) (g : FileTransferState) :
    run m (recvRememberClient g) = rememberClient (packetAt m type) g := by
  simp [recvRememberClient, rememberClient, packetAt]

theorem run_recvQueueAck (type : PktType) (transferId : UInt32) (command : FileAckCommand)
    (status : FileAckStatus) (g : FileTransferState) :
    run m (recvQueueAck transferId command status g) =
      queueAck (packetAt m type) transferId command status g := by
  rw [recvQueueAck, queueAck, run_ite]
  split
  next => rfl
  next => simp [run_recvRememberClient m type, rememberClient]

/-- The handler on the bytes is the handler on the packet that they hold. -/
theorem run_recvFilePacket (type : PktType) (g : FileTransferState) :
    run m (recvFilePacket g type) = fileTransferHandlePacket (packetAt m type) g := by
  have htype : (packetAt m type).payload.pktType = type := by cases type <;> rfl
  have hlen : (packetAt m type).payloadLen = ntohs (slice m 22 2) := rfl
  rw [recvFilePacket, run_bind, run_ite, run_ite, run_be16, fileTransferHandlePacket]
  simp only [Packet.LongEnough, htype, hlen, Nat.not_le, run_pure]
  split
  next => rfl
  split
  next => rfl
  have hclient := run_recvRememberClient m type g
  have hack := fun i c s => run_recvQueueAck m type i c s g
  cases type with
  | filePutData =>
    simp only [recvFilePayload, run_bind, run_ite, run_pure, run_be32, run_be16, run_bytes, hclient,
      hack]
    simp only [packetAt, payloadAt]
    -- the packet of the other modules holds the bytes up to the end of the buffer
    have hdata {n : ℕ} (hn : n ≤ 512) : (slice m 36 (bufferMaxSize-36)).take n = slice m 36 n :=
      take_slice (by simp only [bufferMaxSize]; omega)
    split_ifs
    next => rfl
    next => rfl
    next => rfl
    next hbad =>
      rw [not_or, not_lt] at hbad
      rw [hdata hbad.1]
      rfl
  | _ =>
    simp only [recvFilePayload, recvFilePayload.recvPathOp, recvFilePayload.recvTwoPathOp,
      run_bind, run_ite, run_pure, run_be32, run_be16, run_array, hclient]
    simp only [packetAt, payloadAt]

theorem ofCode_code (type : PktType) : PktType.ofCode type.code.toUInt16 = some type := by
  cases type <;> rfl

/-- The numbers of the file packets lie above those of the others. -/
theorem code_ne (type : PktType) {w : UInt16} (hw : w < 9) : ¬ type.code.toUInt16 = w := by
  have hge : ∀ type : PktType, 9 ≤ type.code.toUInt16 := fun type => by cases type <;> decide
  rintro rfl
  exact absurd (hge type) (by rwa [UInt16.not_le])

variable {m}

/-- What becomes of a buffer, in terms of the handlers of the other modules. -/
theorem run_protocolProcess (m : Mem) (globals : PktdrvGlobals) (video : VideoState) (now : UInt32)
    (sessions : SessionTable) (file : FileTransferState) (received : ℕ) :
    run m (protocolProcess globals video now sessions file received) =
      if packetSignature ≠ ntohl (slice m 14 4) then ⟨sessions,file,[],[]⟩
      else if ntohs (slice m 24 2) = 1 then ⟨sessions,file,handlePing globals m received,[]⟩
      else if ntohs (slice m 24 2) = 3 then ⟨sessions,file,handleStatusReq globals m video,[]⟩
      else if ntohs (slice m 24 2) = 5 then
        ⟨(sessionMgrStart (arrayAt m 6 6) (ntohl (slice m 18 4)) now sessions).2,file,[],[]⟩
      else if ntohs (slice m 24 2) = 7 then ⟨sessions,file,[],run m recvInjectKeystroke⟩
      else match PktType.ofCode (ntohs (slice m 24 2)) with
        | some type => ⟨sessions,fileTransferHandlePacket (packetAt m type) file,[],[]⟩
        | none => ⟨sessions,file,[],[]⟩ := by
  simp only [protocolProcess, run_bind, run_ite, run_be32, run_be16, run_pure, run_recvPing,
    run_recvStatusReq, run_recvSessionStart]
  cases PktType.ofCode (ntohs (slice m 24 2)) with
  | none => simp only [run_pure]
  | some type => simp only [run_bind, run_recvFilePacket, run_pure]

/-- A file packet reaches its handler. -/
theorem protocolProcess_file {type : PktType} (hsig : slice m 14 4 = htonl packetSignature)
    (htype : slice m 24 2 = htons type.code.toUInt16) (globals : PktdrvGlobals)
    (video : VideoState) (now : UInt32) (sessions : SessionTable) (file : FileTransferState)
    (received : ℕ) :
    run m (protocolProcess globals video now sessions file received) =
      ⟨sessions,fileTransferHandlePacket (packetAt m type) file,[],[]⟩ := by
  have h1 := code_ne type (show 1 < 9 by decide)
  have h3 := code_ne type (show 3 < 9 by decide)
  have h5 := code_ne type (show 5 < 9 by decide)
  have h7 := code_ne type (show 7 < 9 by decide)
  simp only [run_protocolProcess, hsig, htype, ntohl_htonl, ntohs_htons, ne_eq, not_true_eq_false,
    if_false, h1, h3, h5, h7, ofCode_code]

end RmtDos
