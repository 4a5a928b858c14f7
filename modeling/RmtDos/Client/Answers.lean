import RmtDos.Client.Responses
import RmtDos.Server.SendBuffer

/-! What an accepted answer says about the reply of the TSR that it came from. -/
namespace RmtDos
open Memory Reading

variable (globals : PktdrvGlobals)

/-- The frame of a reply, built over what the send buffer held. -/
def Reply.frame (r : Reply) (sendBuffer : Mem) : List UInt8 :=
  pktdrvFrame (Memory.stores sendBuffer (r.stores globals)) r.length

theorem apart_reply (r : Reply) : Apart (r.stores globals) := by
  obtain ⟨dest,src,sessionId,payloadLen,body⟩ := r
  cases body <;> simp [Apart, Reply.stores, ReplyBody.stores]

variable {globals} {r : Reply} {sock : RawSocket} {destMacAddr : MacAddr} {m sendBuffer : Mem}
  {received : ℕ} {t offset : UInt32}

/-- A field of the reply in the buffer of the client. -/
theorem Reply.field {i n : ℕ} {bs : List UInt8} (harr : Arrived (r.frame globals sendBuffer) m)
    (hs : (i,bs) ∈ r.stores globals) (hn : bs.length = n) (hi : i+n ≤ max r.length minEthFrameSize) :
    slice m i n = bs := by
  subst hn
  exact Arrived.store harr (apart_reply globals r) hs hi

/-- The fields at the front fit into every frame. -/
theorem Reply.front {i n : ℕ} {bs : List UInt8} (harr : Arrived (r.frame globals sendBuffer) m)
    (hs : (i,bs) ∈ r.stores globals) (hn : bs.length = n) (hi : i+n ≤ 60) : slice m i n = bs :=
  r.field harr hs hn (le_trans hi (le_max_right _ _))

/-- A frame that passes the header checks is a reply of this type to this client. -/
theorem fromServer_reply {pktType : UInt16} (harr : Arrived (r.frame globals sendBuffer) m)
    (h : run m (fromServer sock destMacAddr pktType) = true) :
    r.destMacAddr = sock.ifAddr ∧ r.sessionId = sock.sessionId ∧ r.body.pktType = pktType := by
  have hdest : slice m 0 6 = r.destMacAddr.toList :=
    r.front harr (by simp [Reply.stores]) (by simp) (by decide)
  have hsession : slice m 18 4 = htonl r.sessionId :=
    r.front harr (by simp [Reply.stores]) rfl (by decide)
  have htype : slice m 24 2 = htons r.body.pktType :=
    r.front harr (by simp [Reply.stores]) rfl (by decide)
  simp only [fromServer, run_bind, run_bytes, run_be32, run_be16, run_pure, hdest, hsession, htype,
    ntohl_htonl, ntohs_htons, decide_eq_true_eq] at h
  obtain ⟨-,hd,-,hs,ht⟩ := h
  exact ⟨Vector.toList_inj.mp hd,hs,ht⟩

theorem FileAckStatus.code_eq_zero {status : FileAckStatus} (h : status.code = 0) :
    status = .ok := by
  cases status <;> first | rfl | exact absurd h (by decide)

theorem FileAckCommand.code_inj {c c' : FileAckCommand} (h : c.code = c'.code) : c = c' := by
  cases c <;> cases c' <;> first | rfl | exact absurd h (by decide)

/-- An accepted acknowledgement is one of the transfer, with the command and a good status. -/
theorem recvFileAck_ok {command : FileAckCommand} (harr : Arrived (r.frame globals sendBuffer) m)
    (h : run m (recvFileAck sock destMacAddr t command.code received) = .ok offset) :
    r.destMacAddr = sock.ifAddr ∧ r.sessionId = sock.sessionId ∧
      r.body = .fileAck t command .ok offset := by
  simp only [recvFileAck, run_ite, run_bind, run_be32, run_be16, run_pure] at h
  split_ifs at h with hshort hmine hstatus
  simp only [not_or, Bool.not_eq_false, not_not] at hmine hstatus
  obtain ⟨hfrom,-,ht,hc⟩ := hmine
  obtain ⟨hdest,hsession,htype⟩ := fromServer_reply harr hfrom
  refine ⟨hdest,hsession,?_⟩
  obtain ⟨dest,src,sessionId,payloadLen,body⟩ := r
  cases body with
  | fileAck t' command' status offset' =>
    have h26 : slice m 26 4 = htonl t' :=
      Reply.front harr (by simp [Reply.stores, ReplyBody.stores]) rfl (by decide)
    have h30 : slice m 30 2 = htons command'.code :=
      Reply.front harr (by simp [Reply.stores, ReplyBody.stores]) rfl (by decide)
    have h32 : slice m 32 2 = htons status.code :=
      Reply.front harr (by simp [Reply.stores, ReplyBody.stores]) rfl (by decide)
    have h34 : slice m 34 4 = htonl offset' :=
      Reply.front harr (by simp [Reply.stores, ReplyBody.stores]) rfl (by decide)
    rw [h26, ntohl_htonl] at ht
    rw [h30, ntohs_htons] at hc
    rw [h32, ntohs_htons] at hstatus
    rw [h34, ntohl_htonl] at h
    rw [ht, FileAckCommand.code_inj hc, FileAckStatus.code_eq_zero hstatus, Received.ok.inj h]
  | fileGetData => cases htype
  | dirListData => cases htype

/-- The acknowledgement that the client waits for is accepted. -/
theorem recvFileAck_accepts {command : FileAckCommand} (hl : 38 ≤ received)
    (harr : Arrived (Reply.frame globals
      ⟨sock.ifAddr,destMacAddr,sock.sessionId,12,.fileAck t command .ok offset⟩ sendBuffer) m) :
    run m (recvFileAck sock destMacAddr t command.code received) = .ok offset := by
  have hfield {i n : ℕ} {bs : List UInt8} (hs : (i,bs) ∈ Reply.stores globals
      ⟨sock.ifAddr,destMacAddr,sock.sessionId,12,.fileAck t command .ok offset⟩)
      (hn : bs.length = n) (hi : i+n ≤ 60) : slice m i n = bs := Reply.front harr hs hn hi
  simp only [Reply.stores, ReplyBody.stores] at hfield
  have h0 : slice m 0 6 = sock.ifAddr.toList := hfield (by simp) (by simp) (by decide)
  have h6 : slice m 6 6 = destMacAddr.toList := hfield (by simp) (by simp) (by decide)
  have h14 : slice m 14 4 = htonl packetSignature := hfield (by simp) rfl (by decide)
  have h18 : slice m 18 4 = htonl sock.sessionId := hfield (by simp) rfl (by decide)
  have h22 : slice m 22 2 = htons 12 := hfield (by simp) rfl (by decide)
  have h24 : slice m 24 2 = htons 12 := hfield (by simp [ReplyBody.pktType]) rfl (by decide)
  have h26 : slice m 26 4 = htonl t := hfield (by simp) rfl (by decide)
  have h30 : slice m 30 2 = htons command.code := hfield (by simp) rfl (by decide)
  have h32 : slice m 32 2 = htons 0 := hfield (by simp [FileAckStatus.code]) rfl (by decide)
  have h34 : slice m 34 4 = htonl offset := hfield (by simp) rfl (by decide)
  simp [recvFileAck, fromServer, Nat.not_lt.mpr hl, h0, h6, h14, h18, h22, h24, h26, h30, h32, h34]

/-- The data of a data reply is all in its frame. -/
def Reply.Whole (r : Reply) : Prop :=
  ∀ t offset count status data, r.body = .fileGetData t offset count status data →
    data.length = count.toNat ∧ 12+count.toNat ≤ r.payloadLen.toNat

theorem Reply.whole_data {count : UInt16} {status : FileAckStatus} {data : List UInt8}
    (hb : r.body = .fileGetData t offset count status data)
    (h : data.length = count.toNat ∧ 12+count.toNat ≤ r.payloadLen.toNat) : r.Whole := by
  intro t' offset' count' status' data' hb'
  obtain ⟨-,-,rfl,-,rfl⟩ := ReplyBody.fileGetData.inj (hb.symm.trans hb')
  exact h

/-- Accepted data is that of a reply of the transfer, for the offset and with a good status. -/
theorem recvFileGetData_ok {data : List UInt8} (harr : Arrived (r.frame globals sendBuffer) m)
    (hwhole : r.sessionId = sock.sessionId → ∀ count data,
      r.body = .fileGetData t offset count .ok data → r.Whole)
    (h : run m (recvFileGetData sock destMacAddr t offset received) = .ok data) :
    r.destMacAddr = sock.ifAddr ∧ r.sessionId = sock.sessionId ∧
      ∃ count, r.body = .fileGetData t offset count .ok data := by
  simp only [recvFileGetData, run_ite, run_bind, run_be32, run_be16, run_bytes, run_pure] at h
  split_ifs at h with hshort hmine hstatus
  simp only [not_or, Bool.not_eq_false, not_not] at hmine hstatus
  obtain ⟨hfrom,-,ht,ho⟩ := hmine
  obtain ⟨hdest,hsession,htype⟩ := fromServer_reply harr hfrom
  refine ⟨hdest,hsession,?_⟩
  obtain ⟨dest,src,sessionId,payloadLen,body⟩ := r
  cases body with
  | fileGetData t' offset' count status data' =>
    have h26 : slice m 26 4 = htonl t' :=
      Reply.front harr (by simp [Reply.stores, ReplyBody.stores]) rfl (by decide)
    have h30 : slice m 30 4 = htonl offset' :=
      Reply.front harr (by simp [Reply.stores, ReplyBody.stores]) rfl (by decide)
    have h34 : slice m 34 2 = htons count :=
      Reply.front harr (by simp [Reply.stores, ReplyBody.stores]) rfl (by decide)
    have h36 : slice m 36 2 = htons status.code :=
      Reply.front harr (by simp [Reply.stores, ReplyBody.stores]) rfl (by decide)
    rw [h26, ntohl_htonl] at ht
    rw [h30, ntohl_htonl] at ho
    rw [h36, ntohs_htons] at hstatus
    have hok := FileAckStatus.code_eq_zero hstatus.1
    subst ht ho hok
    obtain ⟨hlen,hfit⟩ := hwhole hsession count data' rfl _ _ _ _ _ rfl
    have h38 : slice m 38 count.toNat = data' := by
      refine Reply.field harr (by simp [Reply.stores, ReplyBody.stores]) hlen ?_
      have hpayload : 12+count.toNat ≤ payloadLen.toNat := hfit
      simp only [Reply.length]
      omega
    rw [h34, ntohs_htons, h38] at h
    exact ⟨count,by rw [Received.ok.inj h]⟩
  | fileAck => cases htype
  | dirListData => cases htype

/-- Data that the client waits for is accepted. -/
theorem recvFileGetData_accepts {count : UInt16} {data : List UInt8} (hcount : count.toNat ≤ 512)
    (hdata : data.length = count.toNat) (hl : 38 ≤ received)
    (harr : Arrived (Reply.frame globals ⟨sock.ifAddr,destMacAddr,sock.sessionId,12+count,
      .fileGetData t offset count .ok data⟩ sendBuffer) m) :
    run m (recvFileGetData sock destMacAddr t offset received) = .ok data := by
  have hpayload : (12+count).toNat = 12+count.toNat := by
    rw [UInt16.toNat_add]
    have h12 : (12 : UInt16).toNat = 12 := rfl
    omega
  have hfield {i n : ℕ} {bs : List UInt8} (hs : (i,bs) ∈ Reply.stores globals
      ⟨sock.ifAddr,destMacAddr,sock.sessionId,12+count,.fileGetData t offset count .ok data⟩)
      (hn : bs.length = n) (hi : i+n ≤ 60) : slice m i n = bs := Reply.front harr hs hn hi
  have h38 : slice m 38 count.toNat = data := by
    refine Reply.field harr (by simp [Reply.stores, ReplyBody.stores]) hdata ?_
    simp only [Reply.length, hpayload]
    omega
  simp only [Reply.stores, ReplyBody.stores] at hfield
  have h0 : slice m 0 6 = sock.ifAddr.toList := hfield (by simp) (by simp) (by decide)
  have h6 : slice m 6 6 = destMacAddr.toList := hfield (by simp) (by simp) (by decide)
  have h14 : slice m 14 4 = htonl packetSignature := hfield (by simp) rfl (by decide)
  have h18 : slice m 18 4 = htonl sock.sessionId := hfield (by simp) rfl (by decide)
  have h22 : slice m 22 2 = htons (12+count) := hfield (by simp) rfl (by decide)
  have h24 : slice m 24 2 = htons 15 := hfield (by simp [ReplyBody.pktType]) rfl (by decide)
  have h26 : slice m 26 4 = htonl t := hfield (by simp) rfl (by decide)
  have h30 : slice m 30 4 = htonl offset := hfield (by simp) rfl (by decide)
  have h34 : slice m 34 2 = htons count := hfield (by simp) rfl (by decide)
  have h36 : slice m 36 2 = htons 0 := hfield (by simp [FileAckStatus.code]) rfl (by decide)
  have hshort : ¬ 12+count < 12 := by
    rw [UInt16.not_lt, UInt16.le_iff_toNat_le, hpayload]
    exact Nat.le_add_right _ _
  simp [recvFileGetData, fromServer, Nat.not_lt.mpr hl, h0, h6, h14, h18, h22, h24, h26, h30, h34,
    h36, h38, hshort, hpayload, Nat.not_lt.mpr hcount]

end RmtDos
