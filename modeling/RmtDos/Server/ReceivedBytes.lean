import RmtDos.Server.Receive

/-! Which received packets the server handles without using bytes that it did not receive. No
handler compares the lengths of a packet with the length of the frame, so this is a condition on
the packet. -/
namespace RmtDos
open Memory Reading

/-- A read lies in the data array, and a read of anything but a header lies in the frame. -/
def InFrame (received : ℕ) (t : ServerField) (i : ℕ) : Prop :=
  i < bufferMaxSize ∧ (t ≠ .header → i < received)

/-- The end of the last byte of a file packet that its handler uses. -/
def filePacketEnd (p : Packet) (g : FileTransferState) : ℕ :=
  if g.pendingOp = .none ∧ p.LongEnough then
    match p.payload with
    | .filePutBegin .. | .fileMkdir .. | .fileDelete .. => 98
    | .fileGetBegin .. => 94
    | .dirListBegin .. | .fileRename .. | .fileCopy .. => 158
    | .filePutData transferId offset count _ =>
      if g.active ∧ g.mode = .put ∧ transferId = g.transferId ∧ offset = g.expectedOffset ∧
          0 < count.toNat ∧ count.toNat ≤ 512 ∧ 10+count.toNat ≤ p.payloadLen.toNat then
        36+count.toNat
      else 30
    | _ => 30
  else 0

/-- The end of the last byte that the server uses of the packet in the buffer. -/
def packetEnd (m : Mem) (file : FileTransferState) : ℕ :=
  let payloadLen := (ntohs (slice m 22 2)).toNat
  let pktType := ntohs (slice m 24 2)
  if packetSignature ≠ ntohl (slice m 14 4) then 0
  else if pktType = 1 then if payloadLen = 0 then 22 else 26+min 1488 payloadLen
  else if pktType = 3 ∨ pktType = 5 then 22
  else if pktType = 7 then if payloadLen/4 = 0 then 0 else 26+payloadLen/4*4
  else match PktType.ofCode pktType with
    | some type => filePacketEnd (packetAt m type) file
    | none => 0

variable {received : ℕ} {m : Mem}

theorem reads_header {i n : ℕ} (h : i+n ≤ bufferMaxSize) :
    Reads (InFrame received) m (bytes .header i n) := by
  rw [reads_bytes]
  intro j _ hu
  exact ⟨by omega,fun hne => absurd rfl hne⟩

section handlers
variable (hr : received ≤ bufferMaxSize)
include hr

theorem inFrame_used {t : ServerField} (ht : t ≠ .header) {i : ℕ} :
    InFrame received t i ↔ i < received := by
  constructor
  · intro h
    exact h.2 ht
  · intro h
    exact ⟨by omega,fun _ => h⟩

/-- A field that is used must end within the frame. -/
theorem reads_used {t : ServerField} (ht : t ≠ .header) {i n : ℕ} :
    Reads (InFrame received) m (bytes t i n) ↔ (0 < n → i+n ≤ received) := by
  simp only [reads_bytes, inFrame_used hr ht]
  constructor
  · intro h hn
    have := h (i+n-1) (by omega) (by omega)
    omega
  · intro h j _ hu
    omega

theorem reads_field {t : ServerField} (ht : t ≠ .header) {i n : ℕ} (hn : 0 < n) :
    Reads (InFrame received) m (bytes t i n) ↔ i+n ≤ received := by
  rw [reads_used hr ht, forall_prop_of_true hn]

theorem reads_prepForReply (globals : PktdrvGlobals) :
    Reads (InFrame received) m (recvPrepForReply globals) ↔ 22 ≤ received := by
  simp only [recvPrepForReply, reads_bind, reads_pure, and_true,
    reads_used hr (show ServerField.address ≠ .header by decide),
    reads_used hr (show ServerField.id ≠ .header by decide)]
  omega

theorem reads_ping (globals : PktdrvGlobals) :
    Reads (InFrame received) m (recvPing globals received) ↔
      (if (ntohs (slice m 22 2)).toNat = 0 then 22 else 26+min 1488 (ntohs (slice m 22 2)).toNat) ≤
        received := by
  have h22 : Reads (InFrame received) m (bytes .header 22 2) := reads_header (by decide)
  simp only [recvPing, reads_bind, reads_pure, reads_be16, h22, reads_prepForReply hr, run_be16,
    true_and, and_true, reads_used hr (show ServerField.echo ≠ .header by decide)]
  split <;> omega

theorem reads_statusReq (globals : PktdrvGlobals) (video : VideoState) :
    Reads (InFrame received) m (recvStatusReq globals video) ↔ 22 ≤ received := by
  rw [recvStatusReq, reads_bind, reads_prepForReply hr, and_iff_left (reads_pure _)]

theorem reads_sessionStart (now : UInt32) (t : SessionTable) :
    Reads (InFrame received) m (recvSessionStart now t) ↔ 22 ≤ received := by
  simp only [recvSessionStart, reads_bind, reads_pure, and_true, reads_be32, reads_array,
    reads_used hr (show ServerField.address ≠ .header by decide),
    reads_used hr (show ServerField.id ≠ .header by decide)]
  omega

theorem reads_keys (i n : ℕ) :
    Reads (InFrame received) m (recvKeys i n) ↔ (0 < n → i+n*4 ≤ received) := by
  induction n generalizing i with
  | zero => simp [recvKeys]
  | succ n ih =>
    simp only [recvKeys, reads_bind, reads_byte, reads_pure, ih,
      inFrame_used hr (show ServerField.keystroke ≠ .header by decide)]
    simp only [and_true, Nat.succ_pos, forall_const]
    omega

theorem reads_injectKeystroke :
    Reads (InFrame received) m recvInjectKeystroke ↔
      (if (ntohs (slice m 22 2)).toNat/4 = 0 then 0
        else 26+(ntohs (slice m 22 2)).toNat/4*4) ≤ received := by
  have h22 : Reads (InFrame received) m (bytes .header 22 2) := reads_header (by decide)
  simp only [recvInjectKeystroke, reads_bind, reads_be16, h22, true_and, run_be16, reads_keys hr]
  split <;> omega

theorem reads_rememberClient (g : FileTransferState) :
    Reads (InFrame received) m (recvRememberClient g) ↔ 22 ≤ received := by
  simp only [recvRememberClient, reads_bind, reads_pure, and_true, reads_be32, reads_array,
    reads_used hr (show ServerField.address ≠ .header by decide),
    reads_used hr (show ServerField.id ≠ .header by decide)]
  omega

theorem reads_queueAck (transferId : UInt32) (command : FileAckCommand) (status : FileAckStatus)
    (g : FileTransferState) (h : 22 ≤ received) :
    Reads (InFrame received) m (recvQueueAck transferId command status g) := by
  rw [recvQueueAck, reads_ite]
  split
  next => exact reads_pure _
  next => exact (reads_bind ..).mpr ⟨(reads_rememberClient hr g).mpr h,reads_pure _⟩

theorem reads_filePayload (type : PktType) (g : FileTransferState)
    (hp : g.pendingOp = .none) (hl : (packetAt m type).LongEnough) :
    Reads (InFrame received) m (recvFilePayload (packetAt m type).payloadLen g type) ↔
      filePacketEnd (packetAt m type) g ≤ received := by
  have h30 : Reads (InFrame received) m (bytes .header 30 4) := reads_header (by decide)
  have h30' : Reads (InFrame received) m (bytes .header 30 2) := reads_header (by decide)
  have h32 : Reads (InFrame received) m (bytes .header 32 2) := reads_header (by decide)
  have h34 : Reads (InFrame received) m (bytes .header 34 2) := reads_header (by decide)
  have hdata : ServerField.fileData ≠ .header := by decide
  have hpath : ServerField.path ≠ .header := by decide
  have hid : Reads (InFrame received) m (bytes .id 26 4) ↔ 30 ≤ received :=
    reads_field hr (by decide) (by decide)
  have hpay : (packetAt m type).payload = payloadAt m type := rfl
  rw [filePacketEnd, if_pos ⟨hp,hl⟩]
  cases type with
  | filePutData =>
    simp only [recvFilePayload, reads_bind, reads_pure, reads_be32, reads_be16, reads_ite, h30, h34,
      hid, run_be32, run_be16, hpay, payloadAt, reads_used hr hdata, true_and, and_true]
    constructor
    · rintro ⟨hi,h⟩
      split
      next hc =>
        obtain ⟨hact,hmode,ht,ho,hpos,hle,hfit⟩ := hc
        rw [if_neg (by simp [hact, hmode, ht]), if_neg (by simp [ho]), if_neg (by omega)] at h
        exact h.2 hpos
      next => exact hi
    · intro h
      have hi : 30 ≤ received := by
        split at h <;> omega
      refine ⟨hi,?_⟩
      split
      next => trivial
      next hc =>
      split
      next => exact reads_queueAck hr _ _ _ _ (by omega)
      next ho =>
      split
      next => exact reads_queueAck hr _ _ _ _ (by omega)
      next hfit =>
        simp only [not_or, Bool.not_eq_true', Bool.not_eq_false, not_not, not_lt] at hc ho hfit
        refine ⟨(reads_rememberClient hr g).mpr (by omega),fun hpos => ?_⟩
        rwa [if_pos ⟨hc.1,hc.2.1,hc.2.2,ho,hpos,hfit⟩] at h
  | filePutEnd | fileGetDataReq | fileGetEnd | dirListDataReq =>
    simp only [recvFilePayload, reads_bind, reads_pure, reads_be32, reads_be16, reads_ite,
      reads_rememberClient hr, h30, h30', h32, h34, hid, hpay, payloadAt, true_and, and_true]
    split
    next => rw [and_true]
    next => omega
  | dirListEnd =>
    simp only [recvFilePayload, reads_bind, reads_pure, reads_be32, reads_ite, hid, hpay, payloadAt,
      ite_self, and_true]
  | _ =>
    simp only [recvFilePayload, recvFilePayload.recvPathOp, recvFilePayload.recvTwoPathOp,
      reads_bind, reads_pure, reads_be32, reads_be16, reads_array, reads_rememberClient hr, h30,
      h30', hid, reads_used hr hpath, hpay, payloadAt, true_and, and_true, Nat.succ_pos, forall_const]
    omega

theorem reads_filePacket (type : PktType) (g : FileTransferState) :
    Reads (InFrame received) m (recvFilePacket g type) ↔
      filePacketEnd (packetAt m type) g ≤ received := by
  have h22 : Reads (InFrame received) m (bytes .header 22 2) := reads_header (by decide)
  have hlen : (packetAt m type).LongEnough ↔
      ¬ (ntohs (slice m 22 2)).toNat < Payload.structSize type := by
    rw [Nat.not_lt]
    cases type <;> rfl
  rw [recvFilePacket, reads_bind, reads_be16, and_iff_right h22, reads_ite, reads_ite, run_be16]
  split
  next hp => simp [filePacketEnd, hp]
  next hp =>
  split
  next hl => simp [filePacketEnd, hlen, hl]
  next hl => exact reads_filePayload hr type g (not_not.mp hp) (hlen.mpr hl)

end handlers

/-- The server reads within its buffer and uses received bytes only, exactly if the packet that
it takes the frame for ends within the frame. -/
theorem protocolProcess_inFrame_iff (globals : PktdrvGlobals) (video : VideoState) (now : UInt32)
    (sessions : SessionTable) (file : FileTransferState) (m : Mem) (received : ℕ)
    (hr : received ≤ bufferMaxSize) :
    Reads (InFrame received) m (protocolProcess globals video now sessions file received) ↔
      packetEnd m file ≤ received := by
  have h14 : Reads (InFrame received) m (bytes .header 14 4) := reads_header (by decide)
  have h22 : Reads (InFrame received) m (bytes .header 22 2) := reads_header (by decide)
  have h24 : Reads (InFrame received) m (bytes .header 24 2) := reads_header (by decide)
  simp only [protocolProcess, packetEnd, reads_bind, reads_be32, reads_be16, reads_ite, reads_pure,
    and_true, h14, h24, true_and, run_be32, run_be16, reads_ping hr, reads_statusReq hr,
    reads_sessionStart hr, reads_injectKeystroke hr]
  split
  next => simp
  split
  next => rfl
  split
  next h3 => simp [h3]
  split
  next h5 => simp [h5]
  next h3 h5 =>
  rw [if_neg (not_or.mpr ⟨h3,h5⟩)]
  split
  next => rfl
  cases PktType.ofCode (ntohs (slice m 24 2)) with
  | some type => simp only [reads_bind, reads_pure, and_true, reads_filePacket hr]
  | none => simp

/-! A frame of 60 bytes, with a ping that declares no payload and with one that declares the
longest. -/

def pingFrame (payloadLen : UInt16) : Mem :=
  stores (fun _ => 0) [(14,htonl packetSignature),(22,htons payloadLen),(24,htons 1)]

theorem protocolProcess_inFrame_iff_shortPing :
    Reads (InFrame 60) (pingFrame 0)
        (protocolProcess ⟨nullIfAddr,0⟩ ⟨3,0,25,80,0,0⟩ 0 sessionMgrInit fileTransferInit 60) ↔
      packetEnd (pingFrame 0) fileTransferInit ≤ 60 :=
  protocolProcess_inFrame_iff _ _ _ _ _ _ _ (by decide)

/-- The server echoes the 1428 bytes behind the frame, 10 of them from behind its buffer. -/
theorem longPing_notInFrame :
    ¬ Reads (InFrame 60) (pingFrame 1488)
      (protocolProcess ⟨nullIfAddr,0⟩ ⟨3,0,25,80,0,0⟩ 0 sessionMgrInit fileTransferInit 60) := by
  have hapart : Apart [(14,htonl packetSignature),(22,htons 1488),(24,htons 1)] := by
    simp [Apart]
  have hsig : slice (pingFrame 1488) 14 4 = htonl packetSignature :=
    slice_stores_mem _ hapart (.head _)
  have hlen : slice (pingFrame 1488) 22 2 = htons 1488 :=
    slice_stores_mem _ hapart (.tail _ (.head _))
  have htype : slice (pingFrame 1488) 24 2 = htons 1 :=
    slice_stores_mem _ hapart (.tail _ (.tail _ (.head _)))
  intro h
  rw [protocolProcess, reads_bind, run_be32, hsig, ntohl_htonl, if_neg (fun hne => hne rfl),
    reads_bind, run_be16, htype, ntohs_htons, if_pos rfl, reads_bind, reads_ping (by decide), hlen,
    ntohs_htons] at h
  exact absurd h.2.2.1 (by decide)

end RmtDos
