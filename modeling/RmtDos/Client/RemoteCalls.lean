import RmtDos.Client.FileTransfer
import RmtDos.Client.Paging

/-! The calls that the file client makes, and the frames that they send. All requests of a call
carry its id, which calls of one kind share. -/
namespace RmtDos
open Memory Reading Resumable Prog

inductive RemoteCall
  | put (localPath remotePath : Bytes.CString)
  | get (remotePath localPath : Bytes.CString)
  | mkdir (path : Bytes.CString)
  | delete (path : Bytes.CString) (isDir : Bool)
  | rename (source target : Bytes.CString)
  | copy (source target : Bytes.CString)
  | list (path : Bytes.CString)

namespace RemoteCall

/-- Calls of one kind have the same id in a session. -/
def salt : RemoteCall → UInt32
  | .put .. => 0x66554c45
  | .get .. => 0x47455421
  | .mkdir _ => 0x4f505031 ^^^ PktType.fileMkdir.code
  | .delete .. => 0x4f505031 ^^^ PktType.fileDelete.code
  | .rename .. => 0x4f505032 ^^^ PktType.fileRename.code
  | .copy .. => 0x4f505032 ^^^ PktType.fileCopy.code
  | .list _ => 0x44495221

def id (sock : RawSocket) (c : RemoteCall) : UInt32 := makeTransferId sock c.salt

/-- The call, with the entries of a listing, and none where it fails. -/
def run (sock : RawSocket) (ethertype : UInt16) (destMacAddr : MacAddr) (fuel : ℕ) :
    RemoteCall → Transfer (Option (List RemoteDirEntry))
  | .put localPath remotePath =>
    (fileTransferPut sock ethertype destMacAddr fuel localPath remotePath).bind reported
  | .get remotePath localPath =>
    (fileTransferGet sock ethertype destMacAddr fuel remotePath localPath).bind reported
  | .mkdir path => (overSocket (fileRemoteMkdir sock ethertype destMacAddr fuel path)).bind reported
  | .delete path isDir =>
    (overSocket (fileRemoteDelete sock ethertype destMacAddr fuel path isDir)).bind reported
  | .rename source target =>
    (overSocket (fileRemoteRename sock ethertype destMacAddr fuel source target)).bind reported
  | .copy source target =>
    (overSocket (fileRemoteCopy sock ethertype destMacAddr fuel source target)).bind reported
  | .list path =>
    overSocket (remoteDirFetch sock ethertype destMacAddr fuel remoteDirMaxEntries path)
where
  reported (ok : Bool) : Transfer (Option (List RemoteDirEntry)) :=
    .done (if ok then some [] else none)

/-- The packets that the call sends, by their type and payload. -/
def Request (sock : RawSocket) (c : RemoteCall) (type : PktType) (payload : List UInt8) : Prop :=
  let t := c.id sock
  match c with
  | .put .. => (type = .filePutBegin ∨ type = .filePutData ∨ type = .filePutEnd) ∧
      ∃ rest, payload = htonl t ++ rest
  | .get .. => (type = .fileGetBegin ∨ type = .fileGetDataReq ∨ type = .fileGetEnd) ∧
      ∃ rest, payload = htonl t ++ rest
  | .mkdir path => type = .fileMkdir ∧ payload = filePathOpBytes t filePathOpDirectory path
  | .delete path isDir =>
      type = .fileDelete ∧ payload = filePathOpBytes t (if isDir then filePathOpDirectory else 0) path
  | .rename source target => type = .fileRename ∧ payload = fileTwoPathOpBytes t source target
  | .copy source target => type = .fileCopy ∧ payload = fileTwoPathOpBytes t source target
  | .list path =>
      (type = .dirListBegin ∧ payload = dirListBeginBytes t path) ∨
        (type = .dirListDataReq ∨ type = .dirListEnd) ∧ ∃ rest, payload = htonl t ++ rest

/-- The frames that the call sends. -/
def Sends (sock : RawSocket) (ethertype : UInt16) (destMacAddr : MacAddr) (c : RemoteCall)
    (frame : List UInt8) : Prop :=
  ∃ type payload, c.Request sock type payload ∧
    frame = packetFrame sock ethertype destMacAddr type payload

end RemoteCall


variable {sock : RawSocket} {ethertype : UInt16} {destMacAddr : MacAddr} {m : Mem} {c : RemoteCall}
  {type : PktType} {payload frame : List UInt8}

/-! The frames of a call. -/

theorem RemoteCall.Request.id (h : c.Request sock type payload) :
    ∃ rest, payload = htonl (c.id sock) ++ rest := by
  cases c with
  | put => exact h.2
  | get => exact h.2
  | mkdir => exact ⟨_,by rw [h.2, filePathOpBytes, List.append_assoc, List.append_assoc]⟩
  | delete => exact ⟨_,by rw [h.2, filePathOpBytes, List.append_assoc, List.append_assoc]⟩
  | rename => exact ⟨_,by rw [h.2, fileTwoPathOpBytes, List.append_assoc]⟩
  | copy => exact ⟨_,by rw [h.2, fileTwoPathOpBytes, List.append_assoc]⟩
  | list =>
    obtain ⟨-,rfl⟩ | ⟨-,h⟩ := h
    · exact ⟨_,rfl⟩
    · exact h

/-- A frame with the id of the call. -/
def OfKind (sock : RawSocket) (c : RemoteCall) (frame : List UInt8) : Prop :=
  (frame.drop 26).take 4 = htonl (c.id sock)

theorem requestAt_id {t : UInt32} {rest : List UInt8} (h : RequestAt m sock type (htonl t ++ rest)) :
    slice m 26 4 = htonl t := by
  have hp := h.payload
  rw [List.length_append, length_htonl] at hp
  exact (slice_eq_append hp (length_htonl t)).1

theorem RemoteCall.Sends.id (h : c.Sends sock ethertype destMacAddr frame) (ha : Arrived frame m) :
    slice m 26 4 = htonl (c.id sock) := by
  obtain ⟨type,payload,hreq,rfl⟩ := h
  obtain ⟨rest,rfl⟩ := hreq.id
  exact requestAt_id (requestAt_arrived ha)

theorem RemoteCall.Sends.ofKind (h : c.Sends sock ethertype destMacAddr frame) :
    OfKind sock c frame := by
  have hid := h.id (arrived_getD frame)
  obtain ⟨type,payload,hreq,rfl⟩ := h
  obtain ⟨rest,rfl⟩ := hreq.id
  rw [OfKind, take_drop_getD]
  · exact hid
  · rw [length_packetFrame, List.length_append, length_htonl]
    omega

theorem ofKind_iff {c' : RemoteCall} (h : c.Sends sock ethertype destMacAddr frame) :
    OfKind sock c' frame ↔ c.salt = c'.salt := by
  have hkind : htonl (c.id sock) = htonl (c'.id sock) ↔ c.salt = c'.salt := by
    rw [RemoteCall.id, RemoteCall.id, makeTransferId, makeTransferId]
    constructor
    · intro heq
      have hid := congrArg ntohl heq
      rw [ntohl_htonl, ntohl_htonl] at hid
      exact (UInt32.xor_right_inj _).mp hid
    · intro heq
      rw [heq]
  rw [OfKind, h.ofKind, hkind]

/-! What the programs send. -/

def Sending (S : List UInt8 → Prop) : SocketCall → Prop
  | .send frame => S frame
  | .recv => True

def ClientSending (S : List UInt8 → Prop) : ClientCall → Prop
  | .socket c => Sending S c
  | .stdio _ => True

section
variable {S : List UInt8 → Prop} {α : Type}

theorem callsIn_sendPacket (h : S (packetFrame sock ethertype destMacAddr type payload)) :
    (sendPacket sock ethertype destMacAddr type payload).CallsIn (Sending S) := by
  refine ⟨fun _ => h,fun r => ?_⟩
  cases r <;> trivial

theorem callsIn_awaitFrame (body : ℕ → Reading FrameField (Received α)) (fuel : ℕ) :
    (awaitFrame body fuel).CallsIn (Sending S) := by
  induction fuel with
  | zero => trivial
  | succ fuel ih =>
    refine ⟨fun _ => trivial,fun r => ?_⟩
    cases r with
    | sent => trivial
    | timeout => trivial
    | received length buf =>
      simp only [done_bind]
      split
      · exact ih
      · trivial
      · trivial
      · trivial

theorem callsIn_sendAttempts {await : Remote (Option α)} (attempts : ℕ)
    (h : S (packetFrame sock ethertype destMacAddr type payload))
    (hawait : await.CallsIn (Sending S)) :
    (sendAttempts sock ethertype destMacAddr type payload await attempts).CallsIn (Sending S) := by
  induction attempts with
  | zero => trivial
  | succ attempts ih =>
    refine (callsIn_sendPacket h).bind fun ok => ?_
    cases ok with
    | false => trivial
    | true =>
      refine hawait.bind fun r => ?_
      cases r with
      | some a => trivial
      | none => exact ih

theorem callsIn_sendWithAck (fuel : ℕ) (t : UInt32) (command : FileAckCommand)
    (h : S (packetFrame sock ethertype destMacAddr type payload)) :
    (sendWithAck sock ethertype destMacAddr fuel type payload t command).CallsIn (Sending S) :=
  callsIn_sendAttempts _ h (callsIn_awaitFrame _ _)

theorem callsIn_overSocket {p : Remote α} (h : p.CallsIn (Sending S)) :
    (overSocket p).CallsIn (ClientSending S) :=
  CallsIn.mapCalls _ h

theorem callsIn_stdioCall (call : StdioCall) : (stdioCall call).CallsIn (ClientSending S) :=
  ⟨fun _ => trivial,fun _ => trivial⟩

theorem callsIn_stdioOk (call : StdioCall) : (stdioOk call).CallsIn (ClientSending S) := by
  refine (callsIn_stdioCall call).bind fun r => ?_
  split
  · trivial
  · trivial

theorem callsIn_closed (a : α) : ((stdioOk .fclose).bind fun _ => .done a).CallsIn (ClientSending S) :=
  (callsIn_stdioOk .fclose).bind fun _ => trivial

theorem callsIn_fread (count : ℕ) : (fread count).CallsIn (ClientSending S) := by
  refine (callsIn_stdioCall _).bind fun r => ?_
  split
  · trivial
  · trivial

theorem callsIn_ferror : ferror.CallsIn (ClientSending S) := by
  refine (callsIn_stdioCall _).bind fun r => ?_
  split
  · trivial
  · trivial

end

section
variable {localPath remotePath : Bytes.CString} {fuel : ℕ}

theorem sends_put {rest : List UInt8} (ht : type = .filePutBegin ∨ type = .filePutData ∨ type = .filePutEnd)
    (hp : payload = htonl (makeTransferId sock 0x66554c45) ++ rest) :
    (RemoteCall.put localPath remotePath).Sends sock ethertype destMacAddr
      (packetFrame sock ethertype destMacAddr type payload) :=
  ⟨type,payload,⟨ht,rest,hp⟩,rfl⟩

theorem sends_get {rest : List UInt8} (ht : type = .fileGetBegin ∨ type = .fileGetDataReq ∨ type = .fileGetEnd)
    (hp : payload = htonl (makeTransferId sock 0x47455421) ++ rest) :
    (RemoteCall.get remotePath localPath).Sends sock ethertype destMacAddr
      (packetFrame sock ethertype destMacAddr type payload) :=
  ⟨type,payload,⟨ht,rest,hp⟩,rfl⟩

theorem callsIn_putChunks (chunks : ℕ) (offset : UInt32) :
    (putChunks sock ethertype destMacAddr fuel (makeTransferId sock 0x66554c45) chunks offset).CallsIn
      (ClientSending ((RemoteCall.put localPath remotePath).Sends sock ethertype destMacAddr)) := by
  induction chunks generalizing offset with
  | zero => trivial
  | succ chunks ih =>
    refine (callsIn_fread _).bind fun bs => ?_
    simp only [pure_eq, bind_eq, callsIn_ite]
    refine ⟨fun _ => trivial,fun _ => ?_⟩
    have hp : filePutDataBytes (makeTransferId sock 0x66554c45) offset bs =
        htonl (makeTransferId sock 0x66554c45) ++
          (htonl offset ++ (htons (UInt16.ofNat bs.length) ++ bs)) := by
      rw [filePutDataBytes, List.append_assoc, List.append_assoc]
    refine (callsIn_overSocket (callsIn_sendWithAck fuel _ _
      (sends_put (.inr (.inl rfl)) hp))).bind fun ack => ?_
    cases ack with
    | none => exact callsIn_closed none
    | some ackOffset =>
      simp only [callsIn_ite]
      exact ⟨fun _ => ih ackOffset,fun _ => callsIn_closed none⟩

theorem callsIn_put : (fileTransferPut sock ethertype destMacAddr fuel localPath remotePath).CallsIn
    (ClientSending ((RemoteCall.put localPath remotePath).Sends sock ethertype destMacAddr)) := by
  have hbegin (size : UInt32) : filePutBeginBytes (makeTransferId sock 0x66554c45) size remotePath =
      htonl (makeTransferId sock 0x66554c45) ++
        (htonl size ++ (Bytes.snprintf 63 remotePath).toList) := by
    rw [filePutBeginBytes, List.append_assoc]
  have hopened (size : UInt32) : (putOpened sock ethertype destMacAddr fuel
      (makeTransferId sock 0x66554c45) size remotePath).CallsIn (ClientSending
        ((RemoteCall.put localPath remotePath).Sends sock ethertype destMacAddr)) := by
    refine (callsIn_overSocket (callsIn_sendWithAck fuel _ _
      (sends_put (.inl rfl) (hbegin size)))).bind fun ack => ?_
    split
    swap
    · exact callsIn_closed false
    refine (callsIn_putChunks fuel 0).bind fun ended => ?_
    cases ended with
    | none => trivial
    | some offset =>
      refine callsIn_ferror.bind fun failed => ?_
      cases failed with
      | true => exact callsIn_closed false
      | false =>
        refine (callsIn_stdioOk .fclose).bind fun _ => ?_
        refine (callsIn_overSocket (callsIn_sendWithAck fuel _ _
          (sends_put (.inr (.inr rfl)) rfl))).bind fun ack => ?_
        cases ack with
        | none => trivial
        | some ackOffset => trivial
  simp only [fileTransferPut, pure_eq, bind_eq, callsIn_ite]
  refine ⟨fun _ => trivial,fun _ => (callsIn_stdioCall _).bind fun r => ?_⟩
  split
  swap
  · trivial
  simp only [callsIn_ite]
  refine ⟨fun _ => trivial,fun _ => (callsIn_stdioOk _).bind fun ok => ?_⟩
  cases ok with
  | false => trivial
  | true => exact hopened _

theorem callsIn_getChunks (fileSize : UInt32) (chunks : ℕ) (offset : UInt32) :
    (getChunks sock ethertype destMacAddr fuel (makeTransferId sock 0x47455421) fileSize chunks
      offset).CallsIn
      (ClientSending ((RemoteCall.get remotePath localPath).Sends sock ethertype destMacAddr)) := by
  induction chunks generalizing offset with
  | zero => trivial
  | succ chunks ih =>
    simp only [getChunks, pure_eq, bind_eq, callsIn_ite]
    refine ⟨fun _ => trivial,fun _ => ?_⟩
    have hp (count : UInt16) : fileGetDataReqBytes (makeTransferId sock 0x47455421) offset count =
        htonl (makeTransferId sock 0x47455421) ++ (htonl offset ++ htons count) := by
      rw [fileGetDataReqBytes, List.append_assoc]
    refine (callsIn_overSocket (callsIn_sendAttempts _ (sends_get (.inr (.inl rfl)) (hp _))
      (callsIn_awaitFrame _ _))).bind fun r => ?_
    cases r with
    | none => exact callsIn_closed false
    | some chunk =>
      simp only [callsIn_ite]
      refine ⟨fun _ => callsIn_closed false,fun _ => (callsIn_stdioOk _).bind fun ok => ?_⟩
      cases ok with
      | false => exact callsIn_closed false
      | true => exact ih _

theorem callsIn_get : (fileTransferGet sock ethertype destMacAddr fuel remotePath localPath).CallsIn
    (ClientSending ((RemoteCall.get remotePath localPath).Sends sock ethertype destMacAddr)) := by
  simp only [fileTransferGet, pure_eq, bind_eq, callsIn_ite]
  refine ⟨fun _ => trivial,fun _ => (callsIn_overSocket (callsIn_sendWithAck fuel _ _
    (sends_get (.inl rfl) rfl))).bind fun size => ?_⟩
  cases size with
  | none => trivial
  | some fileSize =>
    refine (callsIn_stdioOk _).bind fun opened => ?_
    cases opened with
    | false => trivial
    | true =>
      refine (callsIn_getChunks fileSize fuel 0).bind fun got => ?_
      cases got with
      | false => trivial
      | true =>
        refine (callsIn_stdioOk _).bind fun closed => ?_
        cases closed with
        | false => trivial
        | true =>
          refine (callsIn_overSocket (callsIn_sendWithAck fuel _ _ (sends_get (.inr (.inr rfl))
            (List.append_nil _).symm))).bind fun ack => ?_
          cases ack with
          | none => trivial
          | some offset => trivial

theorem callsIn_pathOp {S : List UInt8 → Prop} {command : FileAckCommand} {flags : UInt16}
    (h : S (packetFrame sock ethertype destMacAddr type
      (filePathOpBytes (makeTransferId sock (0x4f505031 ^^^ type.code)) flags remotePath))) :
    (sendPathOp sock ethertype destMacAddr fuel type command remotePath flags).CallsIn (Sending S) := by
  simp only [sendPathOp, pure_eq, bind_eq, callsIn_ite]
  refine ⟨fun _ => trivial,fun _ => (callsIn_sendWithAck fuel _ _ h).bind fun ack => ?_⟩
  cases ack with
  | none => trivial
  | some offset => trivial

theorem callsIn_twoPathOp {S : List UInt8 → Prop} {command : FileAckCommand} {source target : Bytes.CString}
    (h : S (packetFrame sock ethertype destMacAddr type
      (fileTwoPathOpBytes (makeTransferId sock (0x4f505032 ^^^ type.code)) source target))) :
    (sendTwoPathOp sock ethertype destMacAddr fuel type command source target).CallsIn (Sending S) := by
  simp only [sendTwoPathOp, pure_eq, bind_eq, callsIn_ite]
  refine ⟨fun _ => trivial,fun _ => (callsIn_sendWithAck fuel _ _ h).bind fun ack => ?_⟩
  cases ack with
  | none => trivial
  | some offset => trivial

theorem callsIn_awaitDirPage {S : List UInt8 → Prop} (t : UInt32) (start : UInt16) (max : ℕ) :
    (awaitDirPage sock destMacAddr t start max fuel).CallsIn (Sending S) := by
  induction fuel with
  | zero => trivial
  | succ fuel ih =>
    refine ⟨fun _ => trivial,fun r => ?_⟩
    cases r with
    | sent => trivial
    | timeout => trivial
    | received length buf =>
      simp only [done_bind]
      split
      · exact ih
      · trivial
      · trivial
      · trivial

theorem callsIn_list {path : Bytes.CString} {maxEntries : ℕ} :
    (remoteDirFetch sock ethertype destMacAddr fuel maxEntries path).CallsIn
      (Sending ((RemoteCall.list path).Sends sock ethertype destMacAddr)) := by
  have hpage (start : UInt16) (max attempts : ℕ) :
      (fetchDirPage sock ethertype destMacAddr fuel start max attempts).CallsIn
        (Sending ((RemoteCall.list path).Sends sock ethertype destMacAddr)) := by
    induction attempts with
    | zero => trivial
    | succ attempts ih =>
      refine (callsIn_sendPacket ⟨_,_,.inr ⟨.inl rfl,_,List.append_assoc ..⟩,rfl⟩).bind fun ok => ?_
      cases ok with
      | false => trivial
      | true =>
        refine (callsIn_awaitDirPage _ _ _).bind fun r => ?_
        cases r with
        | none => exact ih
        | some entries => trivial
  have hpages (pages : ℕ) (entries : List RemoteDirEntry) :
      (fetchDirPages sock ethertype destMacAddr fuel maxEntries pages entries).CallsIn
        (Sending ((RemoteCall.list path).Sends sock ethertype destMacAddr)) := by
    induction pages generalizing entries with
    | zero => trivial
    | succ pages ih =>
      simp only [fetchDirPages, pure_eq, bind_eq, callsIn_ite]
      refine ⟨fun _ => (hpage _ _ _).bind fun r => ?_,fun _ => trivial⟩
      cases r with
      | none => trivial
      | some page =>
        simp only [callsIn_ite]
        exact ⟨fun _ => trivial,fun _ => ih _⟩
  refine (callsIn_sendPacket ⟨_,_,.inl ⟨rfl,rfl⟩,rfl⟩).bind fun ok => ?_
  cases ok with
  | false => trivial
  | true =>
    refine (hpages fuel []).bind fun r => ?_
    cases r with
    | none => trivial
    | some entries =>
      refine (callsIn_sendPacket ⟨_,_,.inr ⟨.inr rfl,[],(List.append_nil _).symm⟩,rfl⟩).bind fun _ => ?_
      trivial

/-- A call sends its own frames only. -/
theorem RemoteCall.callsIn_run (c : RemoteCall) : (c.run sock ethertype destMacAddr fuel).CallsIn
    (ClientSending (c.Sends sock ethertype destMacAddr)) := by
  cases c with
  | put localPath remotePath => exact callsIn_put.bind fun _ => trivial
  | get remotePath localPath => exact callsIn_get.bind fun _ => trivial
  | mkdir path =>
    exact (callsIn_overSocket (callsIn_pathOp ⟨_,_,⟨rfl,rfl⟩,rfl⟩)).bind fun _ => trivial
  | delete path isDir =>
    exact (callsIn_overSocket (callsIn_pathOp ⟨_,_,⟨rfl,rfl⟩,rfl⟩)).bind fun _ => trivial
  | rename source target =>
    exact (callsIn_overSocket (callsIn_twoPathOp ⟨_,_,⟨rfl,rfl⟩,rfl⟩)).bind fun _ => trivial
  | copy source target =>
    exact (callsIn_overSocket (callsIn_twoPathOp ⟨_,_,⟨rfl,rfl⟩,rfl⟩)).bind fun _ => trivial
  | list path => exact callsIn_overSocket callsIn_list

end

end RmtDos
