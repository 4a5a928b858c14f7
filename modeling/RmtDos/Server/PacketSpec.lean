import RmtDos.Server.FileTransfer

/-! What the packet handler does with one packet: a case for every way a packet changes the
record. Every later argument about the handler splits on these cases. -/
namespace RmtDos

/-- The packet passes the gate of the pending operation and the length check. -/
def Packet.Admitted (p : Packet) (g : FileTransferState) : Prop :=
  g.pendingOp = .none ∧ p.LongEnough

instance (p : Packet) (g : FileTransferState) : Decidable (p.Admitted g) :=
  inferInstanceAs (Decidable (_ ∧ _))

/-- The record `queue_ack` leaves when no operation is pending. -/
def ackQueued (p : Packet) (t : UInt32) (status : FileAckStatus) (g : FileTransferState) :
    FileTransferState :=
  { rememberClient p g with
    transferId := t, ackCommand := .data, ackStatus := status
    ackOffset := g.expectedOffset, pendingOp := .ack }

/-- The ways an admitted packet changes the record. -/
inductive Accepted (p : Packet) (g : FileTransferState) : FileTransferState → Prop
  | putBegin (t size : UInt32) (name : FileName) (hp : p.payload = .filePutBegin t size name) :
      Accepted p g { rememberClient p g with
        transferId := t, size := size, filename := Bytes.terminate name, pendingOp := .putBegin }
  | reAck (t offset : UInt32) (count : UInt16) (data : List UInt8)
      (hp : p.payload = .filePutData t offset count data)
      (ha : g.active = true) (hm : g.mode = .put) (ht : t = g.transferId)
      (ho : offset ≠ g.expectedOffset) : Accepted p g (ackQueued p t .ok g)
  | badChunk (t offset : UInt32) (count : UInt16) (data : List UInt8)
      (hp : p.payload = .filePutData t offset count data)
      (ha : g.active = true) (hm : g.mode = .put) (ht : t = g.transferId)
      (ho : offset = g.expectedOffset)
      (hc : 512 < count.toNat ∨ p.payloadLen.toNat < 10+count.toNat) :
      Accepted p g (ackQueued p t .error g)
  | putData (t offset : UInt32) (count : UInt16) (data : List UInt8)
      (hp : p.payload = .filePutData t offset count data)
      (ha : g.active = true) (hm : g.mode = .put) (ht : t = g.transferId)
      (ho : offset = g.expectedOffset)
      (hc : ¬ (512 < count.toNat ∨ p.payloadLen.toNat < 10+count.toNat)) :
      Accepted p g { rememberClient p g with
        chunkOffset := offset, chunkCount := count
        chunk := Bytes.overwrite g.chunk (data.take count.toNat), pendingOp := .putData }
  | putEnd (t size : UInt32) (hp : p.payload = .filePutEnd t size)
      (ha : g.active = true) (hm : g.mode = .put) (ht : t = g.transferId) (hs : size = g.size) :
      Accepted p g { rememberClient p g with pendingOp := .putEnd }
  | getBegin (t : UInt32) (name : FileName) (hp : p.payload = .fileGetBegin t name) :
      Accepted p g { rememberClient p g with
        transferId := t, filename := Bytes.terminate name, pendingOp := .getBegin }
  | getDataReq (t offset : UInt32) (count : UInt16) (hp : p.payload = .fileGetDataReq t offset count)
      (ha : g.active = true) (hm : g.mode = .get) (ht : t = g.transferId) :
      Accepted p g { rememberClient p g with
        chunkOffset := offset, chunkCount := count, pendingOp := .getDataReq }
  | getEnd (t : UInt32) (hp : p.payload = .fileGetEnd t)
      (ha : g.active = true) (hm : g.mode = .get) (ht : t = g.transferId) :
      Accepted p g { rememberClient p g with pendingOp := .getEnd }
  | dirListBegin (r : UInt32) (path : PathName) (hp : p.payload = .dirListBegin r path) :
      Accepted p g { rememberClient p g with
        dirRequestId := r, dirPath := Bytes.terminate path, active := true, mode := .dir }
  | dirListDataReq (r : UInt32) (start max : UInt16) (hp : p.payload = .dirListDataReq r start max)
      (ha : g.active = true) (hm : g.mode = .dir) (hr : r = g.dirRequestId) :
      Accepted p g { rememberClient p g with
        dirStartIndex := start, dirMaxEntries := max, pendingOp := .dirListDataReq }
  | dirListEnd (r : UInt32) (hp : p.payload = .dirListEnd r) (hr : r = g.dirRequestId) :
      Accepted p g { g with active := false, mode := .none, dirRequestId := 0 }
  | mkdir (t : UInt32) (flags : UInt16) (path : FileName) (hp : p.payload = .fileMkdir t flags path) :
      Accepted p g { rememberClient p g with
        transferId := t, pathOpFlags := flags, filename := Bytes.terminate path
        pendingOp := .mkdir }
  | delete (t : UInt32) (flags : UInt16) (path : FileName)
      (hp : p.payload = .fileDelete t flags path) :
      Accepted p g { rememberClient p g with
        transferId := t, pathOpFlags := flags, filename := Bytes.terminate path
        pendingOp := .delete }
  | rename (t : UInt32) (source target : FileName) (hp : p.payload = .fileRename t source target) :
      Accepted p g { rememberClient p g with
        transferId := t, filename := Bytes.terminate source, target := Bytes.terminate target
        pendingOp := .rename }
  | copy (t : UInt32) (source target : FileName) (hp : p.payload = .fileCopy t source target) :
      Accepted p g { rememberClient p g with
        transferId := t, filename := Bytes.terminate source, target := Bytes.terminate target
        pendingOp := .copy }

variable {p : Packet} {g : FileTransferState}

theorem handlePacket_of_not_admitted (h : ¬ p.Admitted g) : fileTransferHandlePacket p g = g := by
  simp only [Packet.Admitted, not_and_or] at h
  rcases h with h | h <;> simp [fileTransferHandlePacket, h]

theorem queueAck_of_none (h : g.pendingOp = .none) (t : UInt32) (status : FileAckStatus) :
    queueAck p t .data status g = ackQueued p t status g := by
  simp [queueAck, ackQueued, h]

theorem guard_iff {m : FileMode} {P : Prop} :
    ¬ ((!g.active) = true ∨ g.mode ≠ m ∨ P) ↔ g.active = true ∧ g.mode = m ∧ ¬ P := by
  simp [not_or]

/-- A packet is dropped, or it is admitted and accepted in one of the ways listed. -/
theorem handlePacket_cases (p : Packet) (g : FileTransferState) :
    fileTransferHandlePacket p g = g ∨
      (p.Admitted g ∧ Accepted p g (fileTransferHandlePacket p g)) := by
  by_cases h : p.Admitted g
  swap
  · exact .inl (handlePacket_of_not_admitted h)
  obtain ⟨hn,hl⟩ := h
  suffices hs : fileTransferHandlePacket p g = g ∨ Accepted p g (fileTransferHandlePacket p g) by
    exact hs.imp_right fun ha => ⟨⟨hn,hl⟩,ha⟩
  rw [fileTransferHandlePacket, if_neg (by simpa using hn), if_neg (by simpa using hl)]
  split
  case h_1 t size name hp => exact .inr (.putBegin t size name hp)
  case h_2 t offset count data hp =>
    split_ifs with hs ho hc
    · exact .inl rfl
    · obtain ⟨ha,hm,ht⟩ := guard_iff.mp hs
      rw [queueAck_of_none hn]
      exact .inr (.reAck t offset count data hp ha hm (not_not.mp ht) ho)
    · obtain ⟨ha,hm,ht⟩ := guard_iff.mp hs
      rw [queueAck_of_none hn]
      exact .inr (.badChunk t offset count data hp ha hm (not_not.mp ht) (not_not.mp ho) hc)
    · obtain ⟨ha,hm,ht⟩ := guard_iff.mp hs
      exact .inr (.putData t offset count data hp ha hm (not_not.mp ht) (not_not.mp ho) hc)
  case h_3 t size hp =>
    split_ifs with hs
    · exact .inl rfl
    · obtain ⟨ha,hm,hts⟩ := guard_iff.mp hs
      exact .inr (.putEnd t size hp ha hm (not_not.mp (not_or.mp hts).1) (not_not.mp (not_or.mp hts).2))
  case h_4 t name hp => exact .inr (.getBegin t name hp)
  case h_5 t offset count hp =>
    split_ifs with hs
    · exact .inl rfl
    · obtain ⟨ha,hm,ht⟩ := guard_iff.mp hs
      exact .inr (.getDataReq t offset count hp ha hm (not_not.mp ht))
  case h_6 t hp =>
    split_ifs with hs
    · exact .inl rfl
    · obtain ⟨ha,hm,ht⟩ := guard_iff.mp hs
      exact .inr (.getEnd t hp ha hm (not_not.mp ht))
  case h_7 r path hp => exact .inr (.dirListBegin r path hp)
  case h_8 r start max hp =>
    split_ifs with hs
    · exact .inl rfl
    · obtain ⟨ha,hm,ht⟩ := guard_iff.mp hs
      exact .inr (.dirListDataReq r start max hp ha hm (not_not.mp ht))
  case h_9 r hp =>
    split_ifs with hs
    · exact .inl rfl
    · exact .inr (.dirListEnd r hp (not_not.mp hs))
  case h_10 t flags path hp => exact .inr (.mkdir t flags path hp)
  case h_11 t flags path hp => exact .inr (.delete t flags path hp)
  case h_12 t source target hp => exact .inr (.rename t source target hp)
  case h_13 t source target hp => exact .inr (.copy t source target hp)

/-- A packet about a directory leaves the record in no transfer, and its id as it was. -/
structure DirPacket (g g' : FileTransferState) : Prop where
  transferId : g'.transferId = g.transferId
  queued : g'.pendingOp = .none ∨ g'.pendingOp = .dirListDataReq
  mode : g'.mode = .dir ∨ g'.mode = .none

/-- Any other packet that is accepted carries the id that the record then has. -/
theorem Accepted.transfer_or_dir {g' : FileTransferState} (hn : g.pendingOp = .none)
    (h : Accepted p g g') : p.payload.transferId? = some g'.transferId ∨ DirPacket g g' := by
  cases h with
  | putBegin t size name hp => exact .inl (by rw [hp, Payload.transferId?])
  | reAck t offset count data hp => exact .inl (by rw [hp, Payload.transferId?, ackQueued])
  | badChunk t offset count data hp => exact .inl (by rw [hp, Payload.transferId?, ackQueued])
  | putData t offset count data hp ha hm ht => exact .inl (by rw [hp, Payload.transferId?, ht]; rfl)
  | putEnd t size hp ha hm ht => exact .inl (by rw [hp, Payload.transferId?, ht]; rfl)
  | getBegin t name hp => exact .inl (by rw [hp, Payload.transferId?])
  | getDataReq t offset count hp ha hm ht => exact .inl (by rw [hp, Payload.transferId?, ht]; rfl)
  | getEnd t hp ha hm ht => exact .inl (by rw [hp, Payload.transferId?, ht]; rfl)
  | dirListBegin => exact .inr ⟨rfl,.inl hn,.inl rfl⟩
  | dirListDataReq r start max hp ha hm => exact .inr ⟨rfl,.inr rfl,.inl hm⟩
  | dirListEnd => exact .inr ⟨rfl,.inl hn,.inr rfl⟩
  | mkdir t flags path hp => exact .inl (by rw [hp, Payload.transferId?])
  | delete t flags path hp => exact .inl (by rw [hp, Payload.transferId?])
  | rename t source target hp => exact .inl (by rw [hp, Payload.transferId?])
  | copy t source target hp => exact .inl (by rw [hp, Payload.transferId?])

/-- A transfer of either direction is active. -/
def InTransfer (g : FileTransferState) : Prop := g.active = true ∧ (g.mode = .put ∨ g.mode = .get)

instance (g : FileTransferState) : Decidable (InTransfer g) :=
  inferInstanceAs (Decidable (_ ∧ _))

/-- Packets end transfers but never start one. -/
theorem inTransfer_of_handlePacket {p : Packet} {g : FileTransferState}
    (h : InTransfer (fileTransferHandlePacket p g)) : InTransfer g := by
  rcases handlePacket_cases p g with he | ⟨-,he⟩
  · rwa [he] at h
  · generalize fileTransferHandlePacket p g = g' at h he
    cases he with
    | dirListBegin r path hp => simp [InTransfer] at h
    | dirListEnd r hp hr => simp [InTransfer] at h
    | _ => exact h

/-- Packets never change the handle; only idle steps do. -/
theorem handlePacket_handle (p : Packet) (g : FileTransferState) :
    (fileTransferHandlePacket p g).handle = g.handle := by
  rcases handlePacket_cases p g with h | ⟨-,h⟩
  · rw [h]
  · generalize fileTransferHandlePacket p g = g' at h ⊢
    cases h <;> rfl

/-- A path of a packet as the handler stores it. -/
def nameOf (path : FileName) : List UInt8 := Bytes.cstr (Bytes.terminate path).toList

theorem nameOf_snprintf {p : Bytes.CString} (h : p.bytes.length ≤ 63) :
    nameOf (Bytes.snprintf 63 p) = p.bytes := by
  rw [nameOf, Bytes.terminate_snprintf 63 p h, Bytes.cstr_snprintf 63 p h]

end RmtDos
