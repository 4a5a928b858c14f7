import RmtDos.Server.SendBuffer

/-! What earlier traffic leaves in the send buffer. The pong and the status response clear the
buffer; every other frame is padded by old contents unless its payload reaches the least length
of a frame. -/
namespace RmtDos
open Memory

/-- A frame the server builds, with everything the builder reads outside the send buffer. -/
inductive Outgoing
  | pong (buffer : Mem) (bytes : ℕ)
  | statusResp (buffer : Mem) (video : VideoState)
  | fileAck (g : FileTransferState) (command : FileAckCommand) (status : FileAckStatus)
      (offset : UInt32)
  | fileGetData (g : FileTransferState) (status : FileAckStatus)
  | dirListData (g : FileTransferState) (status : FileAckStatus) (count : UInt16)
  | screen (sessions : SessionTable) (payloadLen : UInt16) (body : ScreenBody)
      (data : List UInt8)

variable (globals : PktdrvGlobals)

def Outgoing.ops : Outgoing → List SendOp
  | .pong buffer bytes => handlePing globals buffer bytes
  | .statusResp buffer video => handleStatusReq globals buffer video
  | .fileAck g command status offset =>
    sendReply globals (ackOf globals.macAddr g command status offset)
  | .fileGetData g status =>
    sendReply globals (dataOf globals.macAddr (if status = .ok then g else noChunk g) status)
  | .dirListData g status count => sendReply globals (pageOf globals.macAddr g status count)
  | .screen sessions payloadLen body data =>
    sendScreens globals (sendToSessions sessions payloadLen body data)

/-- The sizes that the callers of the builders keep to. -/
def Outgoing.Proper : Outgoing → Prop
  | .pong _ bytes => bytes ≤ 1504
  | .fileGetData g _ => g.chunkCount.toNat ≤ 512
  | .dirListData _ _ count => count.toNat ≤ 16
  | .screen _ payloadLen body data => payloadLen.toNat = body.structSize+data.length
  | _ => True

/-- The frame clears the buffer, or its payload has at least 34 bytes. -/
def Outgoing.Fills : Outgoing → Prop
  | .pong .. | .statusResp .. => True
  | .fileAck .. => False
  | .fileGetData g status => status = .ok ∧ 22 ≤ g.chunkCount.toNat
  | .dirListData _ status count => status = .ok ∧ 0 < count.toNat
  | .screen sessions payloadLen _ _ =>
    sessions.toList.any Session.inUse → 34 ≤ payloadLen.toNat

/-- The send buffer after the frames of a history; nothing else depends on it. -/
def bufferAfter (history : List Outgoing) : Mem :=
  history.foldl (fun m o => (runSends (o.ops globals) m).2) fun _ => 0

/-- The frame carries nothing of what was sent before it. -/
def NothingLeft (o : Outgoing) : Prop :=
  ∀ history history' : List Outgoing,
    (runSends (o.ops globals) (bufferAfter globals history)).1 =
      (runSends (o.ops globals) (bufferAfter globals history')).1

/-- It is sent as over a blank buffer: what its builder stores, the header and the payload, and
zeros. -/
theorem NothingLeft.blank {o : Outgoing} (h : NothingLeft globals o) (history : List Outgoing) :
    (runSends (o.ops globals) (bufferAfter globals history)).1 =
      (runSends (o.ops globals) fun _ => 0).1 :=
  h history []

/-! Sends from two buffers. -/

theorem runSends_agree {n : ℕ} {m m' : Mem} {ops : List SendOp} (h : AgreeBelow n m m')
    (hops : ∀ length, .send length ∈ ops → max length minEthFrameSize ≤ n) :
    (runSends ops m).1 = (runSends ops m').1 := by
  induction ops generalizing m m' with
  | nil => rfl
  | cons op ops ih =>
    cases op with
    | store i bs =>
      exact ih (h.store bs) fun length hl => hops length (List.mem_cons_of_mem _ hl)
    | send length =>
      have hle := hops length List.mem_cons_self
      have hframe : pktdrvFrame m length = pktdrvFrame m' length := h.slice (by omega)
      have htail := ih h fun length hl => hops length (List.mem_cons_of_mem _ hl)
      rw [runSends_send, runSends_send, hframe, htail]

/-- Stores that cover every byte to be sent leave nothing of the buffer. -/
theorem runSends_covered {n : ℕ} {ss : List (ℕ × List UInt8)} {ops : List SendOp}
    (hc : ∀ j < n, Covered ss j)
    (hops : ∀ length, .send length ∈ ops → max length minEthFrameSize ≤ n) (m m' : Mem) :
    (runSends (storeOps ss ++ ops) m).1 = (runSends (storeOps ss ++ ops) m').1 := by
  rw [runSends_storeOps, runSends_storeOps]
  exact runSends_agree (fun j hj => stores_covered m m' (hc j hj)) hops

/-- The last byte of the least frame shows what was there before, if no store covers it. -/
theorem runSends_uncovered {ss : List (ℕ × List UInt8)} {ops : List SendOp} {length : ℕ}
    (hc : ¬ Covered ss 59) {m m' : Mem} (hm : m 59 ≠ m' 59) :
    (runSends (storeOps ss ++ .send length :: ops) m).1 ≠
      (runSends (storeOps ss ++ .send length :: ops) m').1 := by
  intro h
  simp only [runSends_storeOps, runSends_send, List.cons.injEq, pktdrvFrame] at h
  have hbyte := slice_eq_iff.mp h.1 59 (Nat.zero_le 59) (by simp only [minEthFrameSize]; omega)
  rw [stores_uncovered m hc, stores_uncovered m' hc] at hbyte
  exact hm hbyte

/-! Two histories that differ in the old byte: a ping is echoed into the buffer. -/

def pingOf (b : UInt8) : Mem :=
  stores (fun _ => 0) [(14,htonl packetSignature),(22,htons 34),(24,htons 1),
    (26,List.replicate 34 b)]

theorem bufferAfter_ping (b : UInt8) : bufferAfter globals [.pong (pingOf b) 60] 59 = b := by
  have hlen : pingLength (pingOf b) = 34 := by
    have h22 : slice (pingOf b) 22 2 = htons 34 := by
      simp only [pingOf, stores_cons, stores_nil]
      rw [slice_store_outside (by simp), slice_store_outside (by simp)]
      exact slice_store_self _ 22 (htons 34)
    rw [pingLength, h22, ntohs_htons]
    rfl
  have h59 : (slice (pingOf b) 26 34)[33]? = some b := by
    rw [List.getElem?_eq_getElem (by simp), getElem_slice]
    simp only [pingOf, stores_cons, stores_nil]
    rw [store_inside (by simp)]
    simp
  have hbuf : (runSends (handlePing globals (pingOf b) 60) (fun _ => 0)).2 =
      stores (fun _ => 0) _ := congrArg Prod.snd (runSends_one _ _ _)
  rw [bufferAfter, List.foldl_cons, List.foldl_nil, Outgoing.ops, hbuf, stores_append, hlen]
  simp only [stores_cons, stores_nil]
  have hk : (33 : ℕ) < (slice (pingOf b) 26 34).length := by simp
  have hin := @store_inside (store (store (stores (fun _ => 0) (prepForReply globals (pingOf b))) 24
    (htons 2)) 22 (htons (UInt16.ofNat 34))) 26 33 (slice (pingOf b) 26 34) hk
  refine hin.trans ?_
  rw [List.getElem?_eq_getElem hk] at h59
  exact Option.some.inj h59

/-- A frame whose first send leaves its last byte uncovered carries old contents. -/
theorem not_nothingLeft {o : Outgoing} {ss : List (ℕ × List UInt8)} {length : ℕ}
    {ops : List SendOp} (ho : o.ops globals = storeOps ss ++ .send length :: ops)
    (hc : ¬ Covered ss 59) : ¬ NothingLeft globals o := by
  intro h
  have h' := h [.pong (pingOf 0) 60] [.pong (pingOf 1) 60]
  rw [ho] at h'
  refine runSends_uncovered hc ?_ h'
  rw [bufferAfter_ping, bufferAfter_ping]
  decide

/-! What each builder covers. -/

def ReplyBody.size : ReplyBody → ℕ
  | .fileAck .. => 12
  | .fileGetData _ _ _ _ data => 12+data.length
  | .dirListData _ _ _ _ entries => 10+74*entries.length

theorem covered_reply (r : Reply) (j : ℕ) :
    Covered (r.stores globals) j ↔ j < 26+r.body.size := by
  obtain ⟨dest,src,sessionId,payloadLen,body⟩ := r
  cases body <;>
  · simp only [Reply.stores, ReplyBody.stores, ReplyBody.size, List.cons_append, List.nil_append,
      covered_cons, covered_nil, Vector.length_toList, length_htons, length_htonl,
      length_entryBytes, or_false]
    omega

/-- A reply to a request clears the buffer up to its payload length and type. -/
theorem covered_request (buffer : Mem) {j : ℕ} (h : j < 1514) (n type : UInt16)
    (ss : List (ℕ × List UInt8)) (hn : (22,htons n) ∈ ss) (ht : (24,htons type) ∈ ss) :
    Covered (prepForReply globals buffer ++ ss) j := by
  rw [covered_append]
  by_cases h22 : 22 ≤ j ∧ j < 24
  · exact .inr ⟨_,hn,by simpa using h22⟩
  by_cases h24 : 24 ≤ j ∧ j < 26
  · exact .inr ⟨_,ht,by simpa using h24⟩
  left
  simp only [prepForReply, covered_cons, covered_nil, length_slice, Vector.length_toList,
    length_htons, length_htonl, List.length_replicate, or_false]
  omega

/-- One frame built in the buffer carries nothing else exactly if all its bytes are stored. -/
theorem nothingLeft_one {o : Outgoing} {ss : List (ℕ × List UInt8)} {length n : ℕ}
    (ho : o.ops globals = storeOps ss ++ [.send length]) (hc : ∀ j, Covered ss j ↔ j < n)
    (hn : length = n) : NothingLeft globals o ↔ 60 ≤ n := by
  subst hn
  constructor
  · intro h
    by_contra hlt
    exact not_nothingLeft globals ho (fun hcov => by have := (hc 59).mp hcov; omega) h
  · intro h60 history history'
    rw [ho]
    refine runSends_covered (fun j hj => (hc j).mpr hj) (fun k hk => ?_) _ _
    obtain rfl : k = length := by simpa using hk
    simp only [minEthFrameSize]
    omega

theorem nothingLeft_request {o : Outgoing} {buffer : Mem} {ss : List (ℕ × List UInt8)}
    {length : ℕ} (n type : UInt16)
    (ho : o.ops globals = storeOps (prepForReply globals buffer ++ ss) ++ [.send length])
    (hn : (22,htons n) ∈ ss) (ht : (24,htons type) ∈ ss) (hl : length ≤ 1504) :
    NothingLeft globals o := by
  intro history history'
  rw [ho]
  refine runSends_covered (fun j hj => covered_request globals buffer hj n type ss hn ht)
    (fun k hk => ?_) _ _
  obtain rfl : k = length := by simpa using hk
  simp only [minEthFrameSize]
  omega

theorem nothingLeft_reply {o : Outgoing} {r : Reply} (ho : o.ops globals = sendReply globals r)
    (hr : r.payloadLen.toNat = r.body.size) : NothingLeft globals o ↔ 34 ≤ r.body.size := by
  rw [nothingLeft_one globals ho (covered_reply globals r) (by rw [Reply.length, hr])]
  omega

theorem nothingLeft_screen (sessions : SessionTable) {payloadLen : UInt16} {body : ScreenBody}
    {data : List UInt8} (hlen : payloadLen.toNat = body.structSize+data.length) :
    NothingLeft globals (.screen sessions payloadLen body data) ↔
      (sessions.toList.any Session.inUse → 34 ≤ payloadLen.toNat) := by
  cases hs : sessions.toList.filter Session.inUse with
  | nil =>
    have hnone : ¬ sessions.toList.any Session.inUse = true := by
      intro h
      obtain ⟨s,hm,hu⟩ := List.any_eq_true.mp h
      exact List.filter_eq_nil_iff.mp hs s hm hu
    have hops : Outgoing.ops globals (.screen sessions payloadLen body data) = [] := by
      simp [Outgoing.ops, sendToSessions, hs, sendScreens]
    exact iff_of_true (fun _ _ => by rw [hops]; rfl) fun h => absurd h hnone
  | cons s rest =>
    have hsome : sessions.toList.any Session.inUse = true := by
      obtain ⟨hm,hu⟩ := List.mem_filter.mp (hs ▸ List.mem_cons_self : s ∈ _)
      exact List.any_eq_true.mpr ⟨s,hm,hu⟩
    let frame (s : Session) : ScreenFrame := ⟨s.macAddr,s.sessionId,payloadLen,body,data⟩
    let ops := (rest.map frame).flatMap fun f => storeOps f.addrStores ++ [.send f.length]
    have hops : Outgoing.ops globals (.screen sessions payloadLen body data) =
        storeOps ((frame s).headStores globals ++ (frame s).addrStores) ++
          .send (26+payloadLen.toNat) :: ops := by
      simp [Outgoing.ops, sendToSessions, hs, sendScreens, storeOps, ops, frame,
        ScreenFrame.length]
    have hc (j : ℕ) : Covered ((frame s).headStores globals ++ (frame s).addrStores) j ↔
        j < 26+payloadLen.toNat := by
      refine (covered_screen globals (frame s) j).trans ?_
      rw [hlen]
      simp only [frame]
      omega
    simp only [hsome, true_implies]
    constructor
    · intro h
      by_contra hlt
      exact not_nothingLeft globals hops (fun hcov => by have := (hc 59).mp hcov; omega) h
    · intro h34 history history'
      rw [hops]
      refine runSends_covered (fun j hj => (hc j).mpr hj) (fun k hk => ?_) _ _
      have hk' : k = 26+payloadLen.toNat := by
        simp only [ops, List.mem_cons, SendOp.send.injEq, List.mem_flatMap, List.mem_map,
          List.mem_append, storeOps, reduceCtorEq, and_false, exists_false, false_or,
          List.not_mem_nil, or_false] at hk
        obtain rfl | ⟨f,⟨s',-,rfl⟩,rfl⟩ := hk
        · rfl
        · rfl
      simp only [minEthFrameSize]
      omega

/-- A frame carries nothing of earlier traffic exactly if its builder clears the buffer or its
payload fills the least frame. -/
theorem nothingLeft_iff (o : Outgoing) (ho : o.Proper) : NothingLeft globals o ↔ o.Fills := by
  cases o with
  | pong buffer bytes =>
    exact iff_of_true (nothingLeft_request globals _ 2 rfl
      (List.mem_cons_of_mem _ List.mem_cons_self) List.mem_cons_self ho) trivial
  | statusResp buffer video =>
    exact iff_of_true (nothingLeft_request globals 6 4 rfl
      (List.mem_cons_of_mem _ List.mem_cons_self) List.mem_cons_self (by decide)) trivial
  | fileAck g command status offset =>
    refine (nothingLeft_reply globals rfl rfl).trans (iff_of_false ?_ id)
    simp [ackOf, ReplyBody.size]
  | fileGetData g status =>
    obtain ⟨g',hg'⟩ : ∃ g', (if status = .ok then g else noChunk g) = g' := ⟨_,rfl⟩
    have hcount : g'.chunkCount.toNat = if status = .ok then g.chunkCount.toNat else 0 := by
      rw [← hg']
      split
      next => rfl
      next => rfl
    have hle : g'.chunkCount.toNat ≤ 512 := by
      have hmax : g.chunkCount.toNat ≤ 512 := ho
      rw [hcount]
      split
      next => exact hmax
      next => exact Nat.zero_le 512
    have hsize : (dataOf globals.macAddr g' status).body.size = 12+g'.chunkCount.toNat := by
      simp only [dataOf, ReplyBody.size, List.length_take, Vector.length_toList]
      omega
    have hlen : (dataOf globals.macAddr g' status).payloadLen.toNat = 12+g'.chunkCount.toNat := by
      simp only [dataOf, UInt16.toNat_add, UInt16.reduceToNat]
      omega
    have hops : Outgoing.ops globals (.fileGetData g status) =
        sendReply globals (dataOf globals.macAddr g' status) := by
      rw [Outgoing.ops, hg']
    refine (nothingLeft_reply globals hops (hlen.trans hsize.symm)).trans ?_
    rw [hsize, hcount]
    simp only [Outgoing.Fills]
    split
    next h =>
      simp only [h, true_and]
      omega
    next h =>
      simp only [h, false_and, iff_false]
      omega
  | dirListData g status count =>
    have hle : count.toNat ≤ 16 := ho
    have hsize : (pageOf globals.macAddr g status count).body.size =
        if status = .ok then 10+74*count.toNat else 10 := by
      simp only [pageOf, ReplyBody.size]
      split
      · simp
        omega
      · simp
    have hlen : (pageOf globals.macAddr g status count).payloadLen.toNat =
        if status = .ok then 10+74*count.toNat else 10 := by
      simp only [pageOf]
      split
      · simp only [UInt16.toNat_add, UInt16.toNat_mul, UInt16.reduceToNat]
        omega
      · rfl
    refine (nothingLeft_reply globals rfl (hlen.trans hsize.symm)).trans ?_
    rw [hsize]
    simp only [Outgoing.Fills]
    split
    next h =>
      simp only [h, true_and]
      omega
    next h =>
      simp only [h, false_and, iff_false]
      omega
  | screen sessions payloadLen body data => exact nothingLeft_screen globals sessions ho

/-! A chunk after a ping, and an acknowledgement after two pings of different content. -/

def zeroGlobals : PktdrvGlobals := ⟨nullIfAddr,0⟩

def chunkReply : Outgoing := .fileGetData { fileTransferInit with chunkCount := 22 } .ok

theorem nothingLeft_iff_chunk :
    (runSends (chunkReply.ops zeroGlobals) (bufferAfter zeroGlobals [.pong (pingOf 1) 60])).1 =
      (runSends (chunkReply.ops zeroGlobals) fun _ => 0).1 :=
  NothingLeft.blank zeroGlobals ((nothingLeft_iff zeroGlobals chunkReply
    (show 22 ≤ 512 by decide)).mpr ⟨rfl,(show 22 ≤ 22 by decide)⟩) [.pong (pingOf 1) 60]

/-- The acknowledgement ends with bytes of the ping before it. -/
theorem ack_carries_ping :
    (runSends (Outgoing.ops zeroGlobals (.fileAck fileTransferInit .begin .ok 0))
        (bufferAfter zeroGlobals [.pong (pingOf 0) 60])).1 ≠
      (runSends (Outgoing.ops zeroGlobals (.fileAck fileTransferInit .begin .ok 0))
        (bufferAfter zeroGlobals [.pong (pingOf 1) 60])).1 := by
  refine runSends_uncovered (fun hc => ?_) ?_
  · have := (covered_reply zeroGlobals _ 59).mp hc
    simp [ackOf, ReplyBody.size] at this
  · rw [bufferAfter_ping, bufferAfter_ping]
    decide

end RmtDos
