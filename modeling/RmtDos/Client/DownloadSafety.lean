import RmtDos.Client.Paging
import RmtDos.Client.Wire
import RmtDos.Server.Download

/-! `file_transfer_get` on a network that loses, repeats, delays and reorders frames. Every reply of
the download in flight is true of the remote file, whichever request it answers. -/
namespace RmtDos
open Memory Reading Resumable Prog Dos

variable {sock : RawSocket} {ethertype : UInt16} {destMacAddr : MacAddr} {m : Mem}
  {g : FileTransferState} {globals : PktdrvGlobals}

/-! The requests of the download in the buffers of the server. -/

/-- The frames that `file_transfer_get` sends. -/
inductive Download.Frame (u : Download) (sock : RawSocket) (ethertype : UInt16)
    (destMacAddr : MacAddr) (begun : Bool) : List UInt8 → Prop
  | begin (name : Bytes.CString) (hn : u.filename = Bytes.snprintf 63 name) :
      Frame u sock ethertype destMacAddr begun (packetFrame sock ethertype destMacAddr .fileGetBegin
        (fileGetBeginBytes u.transferId name))
  | data (offset : UInt32) (count : UInt16) (hb : begun = true) :
      Frame u sock ethertype destMacAddr begun (packetFrame sock ethertype destMacAddr
        .fileGetDataReq (fileGetDataReqBytes u.transferId offset count))
  | end (hb : begun = true) :
      Frame u sock ethertype destMacAddr begun (packetFrame sock ethertype destMacAddr .fileGetEnd
        (htonl u.transferId))

theorem Download.Frame.mono {u : Download} {begun : Bool} {frame : List UInt8}
    (h : u.Frame sock ethertype destMacAddr begun frame) :
    u.Frame sock ethertype destMacAddr true frame := by
  cases h with
  | begin name hn => exact .begin name hn
  | data offset count => exact .data offset count rfl
  | «end» => exact .end rfl

theorem payloadAt_getBegin {t : UInt32} {name : Bytes.CString}
    (h : RequestAt m sock .fileGetBegin (fileGetBeginBytes t name)) :
    payloadAt m .fileGetBegin = .fileGetBegin t (Bytes.snprintf 63 name) := by
  have hpay := h.payload
  have hlen : (fileGetBeginBytes t name).length = 4+64 := by
    simp [fileGetBeginBytes]
  rw [hlen, fileGetBeginBytes] at hpay
  obtain ⟨hid,hname⟩ := slice_eq_append hpay (by simp)
  rw [payloadAt, hid, arrayAt_eq hname, ntohl_htonl]

theorem payloadAt_getDataReq {t offset : UInt32} {count : UInt16}
    (h : RequestAt m sock .fileGetDataReq (fileGetDataReqBytes t offset count)) :
    payloadAt m .fileGetDataReq = .fileGetDataReq t offset count := by
  have hpay := h.payload
  have hlen : (fileGetDataReqBytes t offset count).length = 4+4+2 := by
    simp [fileGetDataReqBytes]
  rw [hlen, fileGetDataReqBytes] at hpay
  obtain ⟨hpay,hcount⟩ := slice_eq_append hpay (by simp)
  obtain ⟨hid,hoffset⟩ := slice_eq_append hpay (by simp)
  rw [payloadAt, hid, hoffset, hcount, ntohl_htonl, ntohl_htonl, ntohs_htons]

theorem payloadAt_getEnd {t : UInt32} (h : RequestAt m sock .fileGetEnd (htonl t)) :
    payloadAt m .fileGetEnd = .fileGetEnd t := by
  have hpay := h.payload
  have hlen : (htonl t).length = 4 := by
    simp
  rw [hlen] at hpay
  rw [payloadAt, hpay, ntohl_htonl]

/-- A frame of the download is handled as a packet of the download. -/
theorem Download.Frame.handled {u : Download} {begun : Bool} {frame : List UInt8}
    (h : u.Frame sock ethertype destMacAddr begun frame) (ha : Arrived frame m) (video : VideoState)
    (now : UInt32) (sessions : SessionTable) (received : ℕ) :
    ∃ p, (run m (protocolProcess globals video now sessions g received)).file =
      fileTransferHandlePacket p g ∧ u.Request begun p.payload := by
  cases h with
  | begin name hn =>
    have hreq := requestAt_arrived ha
    refine ⟨_,by rw [hreq.handled]; rfl,?_⟩
    dsimp only
    rw [payloadAt_getBegin hreq]
    exact ⟨rfl,hn.symm⟩
  | data offset count hb =>
    have hreq := requestAt_arrived ha
    refine ⟨_,by rw [hreq.handled]; rfl,?_⟩
    dsimp only
    rw [payloadAt_getDataReq hreq]
    exact ⟨hb,rfl⟩
  | «end» hb =>
    have hreq := requestAt_arrived ha
    refine ⟨_,by rw [hreq.handled]; rfl,?_⟩
    dsimp only
    rw [payloadAt_getEnd hreq]
    exact ⟨hb,rfl⟩

/-! The invariant of the network. -/

variable {F : Type} [DecidableEq F] {resolve : List UInt8 → F} {others : Others F} {u : Download}
  {begun : Bool} {w w' : Wire F}

variable (resolve) in
/-- The others send no packets of the download, and their operations leave its file alone. -/
structure Others.Spare (others : Others F) (u : Download) : Prop where
  packet : ∀ p, others.packet p → p.payload.transferId? ≠ some u.transferId
  effect : ∀ g d d', g.transferId ≠ u.transferId → others.effect g d d' →
    d'.content (u.file resolve) = d.content (u.file resolve)

variable (resolve sock ethertype destMacAddr) in
/-- The requests in flight are of the download, and the replies to it are true. Before it has begun,
none of them tells the client that it has. -/
structure Download.Tracked (u : Download) (begun : Bool) (w : Wire F) : Prop where
  frames : ∀ frame ∈ w.toServer, u.Frame sock ethertype destMacAddr begun frame
  content : w.dos.content (u.file resolve) = u.content
  record : u.Tracks resolve true w.file w.dos ∨
    begun = false ∧ u.Tracks resolve false w.file w.dos ∧
      ∀ e ∈ w.toClient, e.reply.sessionId = sock.sessionId →
        ∀ offset, e.reply.body ≠ .fileAck u.transferId .begin .ok offset
  replies : ∀ e ∈ w.toClient, e.reply.sessionId = sock.sessionId → u.Truthful e.reply

omit [DecidableEq F] in
theorem Download.Tracked.packet {p : Packet}
    (h : u.Tracked sock ethertype destMacAddr resolve begun w)
    (hp : u.Request begun p.payload ∨ p.payload.transferId? ≠ some u.transferId) :
    u.Tracked sock ethertype destMacAddr resolve begun
      { w with file := fileTransferHandlePacket p w.file } := by
  refine ⟨h.frames,h.content,?_,h.replies⟩
  obtain htrue | ⟨rfl,hfalse,hno⟩ := h.record
  · refine .inl (htrue.packet (hp.imp_left fun hreq => ?_))
    cases begun with
    | true => exact hreq
    | false =>
      generalize p.payload = payload at hreq
      cases payload with
      | fileGetBegin => exact hreq
      | fileGetDataReq => exact absurd hreq.1 (by decide)
      | fileGetEnd => exact absurd hreq.1 (by decide)
      | _ => exact hreq
  · exact .inr ⟨rfl,hfalse.packet hp,hno⟩

theorem Download.Tracked.idle (h : u.Tracked sock ethertype destMacAddr resolve begun w)
    (hothers : others.Spare resolve u) {mac : MacAddr} {sent : List Reply}
    {file : FileTransferState} {dos : Files F}
    (hs : TsrStep (LooseStep resolve) mac (w.file,w.dos) (.idle sent) (file,dos))
    (he : others.effect w.file w.dos dos) :
    u.Tracked sock ethertype destMacAddr resolve begun { w with
      file := file
      dos := dos
      toClient := w.toClient ++ sentFrames globals w.file.pendingOp dos sent m } := by
  by_cases hop : w.file.pendingOp = .none
  · obtain ⟨rfl,hsame⟩ := (tsrIdle_none hop).mp hs
    obtain ⟨rfl,rfl⟩ := Prod.mk.inj hsame
    rw [sentFrames, List.append_nil]
    exact h
  obtain ⟨fuel,hx⟩ := (tsrIdle_op hop).mp hs
  -- what either state of the record says of the step
  obtain ⟨hrecord,hcontent,htrue⟩ :
      (u.Tracks resolve true file dos ∨ begun = false ∧ u.Tracks resolve false file dos ∧
        ∀ e ∈ w.toClient ++ sentFrames globals w.file.pendingOp dos sent m,
          e.reply.sessionId = sock.sessionId →
            ∀ offset, e.reply.body ≠ .fileAck u.transferId .begin .ok offset) ∧
      (w.file.transferId = u.transferId → dos.content = w.dos.content) ∧
        ∀ a ∈ sent, u.Truthful a := by
    obtain htrue | ⟨rfl,hfalse,hno⟩ := h.record
    · obtain ⟨htracks,hrest⟩ := htrue.idle hop hx h.content
      exact ⟨.inl htracks,hrest⟩
    · obtain ⟨htracks | ⟨htracks,hsent⟩,hrest⟩ := hfalse.waiting hop hx h.content
      · exact ⟨.inl htracks,hrest⟩
      · refine ⟨.inr ⟨rfl,htracks,fun e he hsession => ?_⟩,hrest⟩
        obtain he | he := List.mem_append.mp he
        · exact hno e he hsession
        · exact hsent e.reply (mem_sentFrames he).2.2
  refine ⟨h.frames,?_,hrecord,fun e he hsession => ?_⟩
  · rw [← h.content]
    by_cases ht : w.file.transferId = u.transferId
    · rw [hcontent ht]
    · exact hothers.effect _ _ _ ht he
  · obtain he | he := List.mem_append.mp he
    · exact h.replies e he hsession
    · exact htrue e.reply (mem_sentFrames he).2.2

/-- What happens between two calls keeps the invariant. -/
theorem Download.tracked_stable (hothers : others.Spare resolve u) :
    Stable globals (LooseStep resolve) others
      (u.Tracked sock ethertype destMacAddr resolve begun) where
  between s s' h hstep := by
    cases hstep with
    | deliver frame buffer video now sessions received hf ha =>
      obtain ⟨p,heq,hreq⟩ := (h.frames frame hf).handled ha video now sessions received
      rw [heq]
      exact h.packet (.inl hreq)
    | packet p hp => exact h.packet (.inr (hothers.packet p hp))
    | idle sent sendBuffer file dos hs he => exact h.idle hothers hs he
  read s e h := ⟨h.frames,h.content,h.record,h.replies⟩

omit [DecidableEq F] in
theorem Download.Tracked.send {frame : List UInt8}
    (h : u.Tracked sock ethertype destMacAddr resolve begun w)
    (hf : u.Frame sock ethertype destMacAddr begun frame) :
    u.Tracked sock ethertype destMacAddr resolve begun
      { w with toServer := frame :: w.toServer } :=
  ⟨List.forall_mem_cons.mpr ⟨hf,h.frames⟩,h.content,h.record,h.replies⟩

/-! The client. -/

/-- Sending a request of the download until it is acknowledged. -/
theorem Download.Tracked.sendWithAck {pktType : PktType} {payload : List UInt8}
    {command : FileAckCommand} {fuel : ℕ} {result : Option UInt32} {os : List Empty}
    (hothers : others.Spare resolve u)
    (hw : u.Tracked sock ethertype destMacAddr resolve begun w)
    (hf : u.Frame sock ethertype destMacAddr begun
      (packetFrame sock ethertype destMacAddr pktType payload))
    (h : Exec (wireCall globals (LooseStep resolve) others)
      (sendWithAck sock ethertype destMacAddr fuel pktType payload u.transferId command) () w os
      result () w') :
    u.Tracked sock ethertype destMacAddr resolve begun w' ∧
      ∀ offset, result = some offset → ∃ e ∈ w'.toClient, w'.read = some e ∧
        e.reply.sessionId = sock.sessionId ∧
        e.reply.body = .fileAck u.transferId command .ok offset :=
  sendWithAck_stable (Download.tracked_stable hothers) (fun _ hs => hs.send hf) hw h

omit [DecidableEq F] in
/-- Once the client is told that the download has begun, it has, and the client has the size. -/
theorem Download.Tracked.begin (h : u.Tracked sock ethertype destMacAddr resolve begun w)
    {e : Sent F} {offset : UInt32} (he : e ∈ w.toClient)
    (hsession : e.reply.sessionId = sock.sessionId)
    (hbody : e.reply.body = .fileAck u.transferId .begin .ok offset) :
    u.Tracked sock ethertype destMacAddr resolve true w ∧ offset.toNat = u.content.length := by
  refine ⟨⟨fun frame hf => (h.frames frame hf).mono,h.content,.inl ?_,h.replies⟩,?_⟩
  · obtain htrue | ⟨-,-,hno⟩ := h.record
    · exact htrue
    · exact absurd hbody (hno e he hsession offset)
  · have htrue := h.replies e he hsession
    rw [Download.Truthful, hbody] at htrue
    exact htrue rfl rfl rfl

omit [DecidableEq F] in
/-- Data of the download in flight is what the file has at its offset. -/
theorem Download.Tracked.data (h : u.Tracked sock ethertype destMacAddr resolve begun w)
    {e : Sent F} {offset : UInt32} {count : UInt16} {data : List UInt8} (he : e ∈ w.toClient)
    (hsession : e.reply.sessionId = sock.sessionId)
    (hbody : e.reply.body = .fileGetData u.transferId offset count .ok data) :
    data <+: u.content.drop offset.toNat ∧ e.reply.Whole := by
  have htrue := h.replies e he hsession
  rw [Download.Truthful, hbody] at htrue
  obtain ⟨hpre,hwhole⟩ := htrue rfl rfl
  exact ⟨hpre,Reply.whole_data hbody hwhole⟩

/-- Asking for data until some comes. -/
theorem Download.Tracked.sendWithDataResponse {offset : UInt32} {count : UInt16} {fuel : ℕ}
    {result : Option (List UInt8)} {os : List Empty} (hothers : others.Spare resolve u)
    (hw : u.Tracked sock ethertype destMacAddr resolve true w)
    (h : Exec (wireCall globals (LooseStep resolve) others)
      (sendWithDataResponse sock ethertype destMacAddr fuel u.transferId offset count) () w os
      result () w') :
    u.Tracked sock ethertype destMacAddr resolve true w' ∧
      ∀ data, result = some data → data <+: u.content.drop offset.toNat := by
  obtain ⟨hw',hdata⟩ := sendWithDataResponse_stable (Download.tracked_stable hothers)
    (fun _ hs => hs.send (.data offset count rfl))
    (fun _ hs _ he hsession _ _ hbody => (hs.data he hsession hbody).2) hw h
  refine ⟨hw',fun data hr => ?_⟩
  obtain ⟨e,he,-,hsession,count,hbody⟩ := hdata data hr
  exact (hw'.data he hsession hbody).1

variable {fuel : ℕ} {x y : LocalFiles × Wire F} {os : List Empty}

/-- The local file has the front of the remote one, and at the end of the loop all of it. -/
theorem getChunks_tracked {chunks : ℕ} {fileSize offset : UInt32}
    (hothers : others.Spare resolve u)
    (hw : u.Tracked sock ethertype destMacAddr resolve true x.2)
    (hsize : fileSize.toNat = u.content.length)
    (hlocal : x.1.content x.1.path = u.content.take offset.toNat)
    (hle : offset.toNat ≤ u.content.length)
    (h : Exec (clientCall globals (LooseStep resolve) others)
      (getChunks sock ethertype destMacAddr fuel u.transferId fileSize chunks offset) () x os true
      () y) :
    u.Tracked sock ethertype destMacAddr resolve true y.2 ∧ y.1.path = x.1.path ∧
      y.1.content x.1.path = u.content := by
  induction chunks generalizing x offset os with
  | zero => exact h.elim
  | succ chunks ih =>
    rw [getChunks] at h
    split_ifs at h with hend
    · obtain ⟨-,-,-,rfl⟩ := h
      refine ⟨hw,rfl,?_⟩
      rw [UInt32.le_iff_toNat_le] at hend
      rw [hlocal, List.take_of_length_le (hsize ▸ hend)]
    have hfail {z : LocalFiles × Wire F} {os : List Empty} (h : Exec (clientCall globals
        (LooseStep resolve) others) (stdioOk .fclose >>= fun _ => pure false) () z os true () y) :
        False := by
      obtain ⟨_,_,_,_,_,h⟩ := exec_stdioOk h
      obtain ⟨-,hfalse,-⟩ := h
      cases hfalse
    obtain ⟨_,r,_,z,_,hask,h,-⟩ := exec_bind.mp h
    obtain ⟨hsame,hask⟩ := exec_overSocket.mp hask
    obtain ⟨hz,hdata⟩ := hw.sendWithDataResponse hothers hask
    cases r with
    | none => exact (hfail h).elim
    | some chunk =>
      have hpre := hdata chunk rfl
      dsimp only at h
      split_ifs at h with hbad
      · exact (hfail h).elim
      obtain ⟨r,l,ok,hwrite,hok,h⟩ := exec_stdioOk h
      cases ok with
      | false => exact (hfail h).elim
      | true =>
        obtain rfl := hok rfl
        obtain ⟨bs,-,hl,hr | ⟨-,rfl⟩⟩ := hwrite
        · cases hr
        rw [if_pos rfl] at h
        rw [not_or, Nat.not_lt] at hbad
        rw [UInt32.le_iff_toNat_le, Nat.not_le] at hend
        have hremaining : (fileSize-offset).toNat = fileSize.toNat-offset.toNat :=
          UInt32.toNat_sub_of_le _ _ (UInt32.le_iff_toNat_le.mpr hend.le)
        have hnext : (offset+UInt32.ofNat bs.length).toNat = offset.toNat+bs.length := by
          have hlt := fileSize.toNat_lt
          rw [UInt32.toNat_add, UInt32.toNat_ofNat']
          omega
        have hpath : l.path = x.1.path := by rw [hl, hsame]
        have happ : l.content l.path = u.content.take (offset+UInt32.ofNat bs.length).toNat := by
          rw [hnext, ← take_append_next hpre, ← hlocal, hl, hsame]
          exact Function.update_self _ _ _
        have hfit : (offset+UInt32.ofNat bs.length).toNat ≤ u.content.length := by
          rw [hnext]
          omega
        have hrest := ih (x := (l,z.2)) hz happ hfit h
        dsimp only at hrest
        rwa [hpath] at hrest

/-- If the download succeeds, the local file is the remote one, whatever happened to the frames,
however short the reads were and whatever the others sent. -/
theorem fileTransferGet_safe (sock : RawSocket) (ethertype : UInt16) (destMacAddr : MacAddr)
    (globals : PktdrvGlobals) (resolve : List UInt8 → F) (others : Others F) (fuel : ℕ)
    (remotePath localPath : Bytes.CString) (x y : LocalFiles × Wire F) (os : List Empty)
    (hothers : ∀ p, others.packet p → p.payload.transferId? ≠ some (makeTransferId sock 0x47455421))
    (heffect : ∀ g d d', g.transferId ≠ makeTransferId sock 0x47455421 → others.effect g d d' →
      d'.content (resolve remotePath.bytes) = d.content (resolve remotePath.bytes))
    (hidle : x.2.file.pendingOp = .none) (hserver : x.2.toServer = [])
    (hclient : ∀ e ∈ x.2.toClient, e.reply.sessionId ≠ sock.sessionId)
    (h : Exec (clientCall globals (LooseStep resolve) others)
      (fileTransferGet sock ethertype destMacAddr fuel remotePath localPath) () x os true () y) :
    y.1.content localPath = x.2.dos.content (resolve remotePath.bytes) ∧
      y.2.dos.content (resolve remotePath.bytes) = x.2.dos.content (resolve remotePath.bytes) := by
  rw [fileTransferGet] at h
  by_cases hvalid : validateRemoteName remotePath = true
  swap
  · rw [if_pos (by simpa using hvalid)] at h
    obtain ⟨-,hfalse,-⟩ := h
    cases hfalse
  rw [if_neg (by simpa using hvalid)] at h
  let u : Download := ⟨makeTransferId sock 0x47455421,Bytes.snprintf 63 remotePath,
    x.2.dos.content (resolve remotePath.bytes)⟩
  have hname : u.file resolve = resolve remotePath.bytes := by
    rw [Download.file, nameOf_snprintf (validateRemoteName_eq.mp hvalid).2.1]
  have hspare : others.Spare resolve u := ⟨hothers,by rw [hname]; exact heffect⟩
  have hstart : u.Tracked sock ethertype destMacAddr resolve false x.2 := by
    refine ⟨by simp [hserver],by rw [hname],.inr ⟨rfl,?_,?_⟩,?_⟩
    · intro _
      rw [if_neg (by decide), hidle]
      trivial
    · exact fun e he hsession => absurd hsession (hclient e he)
    · exact fun e he hsession => absurd hsession (hclient e he)
  obtain ⟨_,r,_,z,_,hack,h,-⟩ := exec_bind.mp h
  obtain ⟨hsame,hack⟩ := exec_overSocket.mp hack
  obtain ⟨hz,haccepted⟩ := hstart.sendWithAck hspare (.begin remotePath rfl) hack
  cases r with
  | none =>
    obtain ⟨-,hfalse,-⟩ := h
    cases hfalse
  | some fileSize =>
    obtain ⟨e,he,-,hsession,hbody⟩ := haccepted fileSize rfl
    obtain ⟨hbegun,hsize⟩ := hz.begin he hsession hbody
    obtain ⟨r,l,ok,hopen,hok,h⟩ := exec_stdioOk h
    cases ok with
    | false =>
      obtain ⟨-,hfalse,-⟩ := h
      cases hfalse
    | true =>
      obtain rfl := hok rfl
      obtain ⟨hr,-⟩ | ⟨-,rfl⟩ := hopen
      · cases hr
      obtain ⟨_,done,_,z₁,_,hchunks,h,-⟩ := exec_bind.mp h
      cases done with
      | false =>
        obtain ⟨-,hfalse,-⟩ := h
        cases hfalse
      | true =>
        obtain ⟨hz₁,-,hcopied⟩ := getChunks_tracked
          (x := (⟨Function.update z.1.content localPath [],localPath,0,false,true⟩,z.2))
          hspare hbegun hsize (Function.update_self _ _ _) (Nat.zero_le _) hchunks
        obtain ⟨r,l,ok,hclose,hok,h⟩ := exec_stdioOk h
        cases ok with
        | false =>
          obtain ⟨-,hfalse,-⟩ := h
          cases hfalse
        | true =>
          obtain rfl := hok rfl
          obtain ⟨-,rfl⟩ | ⟨hr,-⟩ := hclose
          swap
          · cases hr
          obtain ⟨_,r,_,z₂,_,hend,h,-⟩ := exec_bind.mp h
          obtain ⟨hlocal,hend⟩ := exec_overSocket.mp hend
          obtain ⟨hz₂,-⟩ := hz₁.sendWithAck hspare (.end rfl) hend
          have hcontent := hz₂.content
          cases r with
          | none =>
            obtain ⟨-,hfalse,-⟩ := h
            cases hfalse
          | some _ =>
            obtain ⟨-,-,-,rfl⟩ := h
            rw [hname] at hcontent
            refine ⟨?_,hcontent⟩
            rw [hlocal]
            exact hcopied

/-! A download of which nothing is lost. -/

/-- The low and the high half of a position, as a seek returns it. -/
theorem positionOf_halves (offset : UInt32) :
    positionOf ⟨false,offset.toUInt16,0,(offset >>> 16).toUInt16,0,[]⟩ = offset := by
  have hlt := offset.toNat_lt
  have hlow : offset.toNat % 2^16 < 2^16 := Nat.mod_lt _ (by decide)
  have hhigh : (offset.toNat >>> 16) % 2^16 = offset.toNat / 2^16 := by
    rw [Nat.shiftRight_eq_div_pow]
    omega
  have hshift : (offset.toNat / 2^16) <<< 16 % 2^32 = (offset.toNat / 2^16) <<< 16 := by
    rw [Nat.shiftLeft_eq]
    omega
  rw [positionOf, if_neg Bool.false_ne_true]
  apply UInt32.toNat_inj.mp
  calc
    _ = ((offset.toNat >>> 16) % 2^16) <<< 16 % 2^32 ||| offset.toNat % 2^16 := by
      simp
    _ = (offset.toNat / 2^16) <<< 16 + offset.toNat % 2^16 := by
      rw [hhigh, hshift, Nat.shiftLeft_add_eq_or_of_lt hlow]
    _ = offset.toNat := by
      rw [Nat.shiftLeft_eq]
      omega

/-- The download of a file that is open behind handle `k`, and no request is pending. -/
structure DownloadOf (t size : UInt32) (k : UInt16) (content : List UInt8) (g : FileTransferState)
    (d : Files F) : Prop where
  idle : g.pendingOp = .none
  transferId : g.transferId = t
  size : g.size = size
  active : g.active = true
  mode : g.mode = .get
  handle : g.handle.toUInt16 = k
  nonneg : ¬ g.handle < 0
  file : ∃ f pos, d.handles k = some (f,pos) ∧ d.content f = content

variable {t size : UInt32} {k : UInt16} {content : List UInt8} {fuel : ℕ}

section accepted
variable (sock ethertype globals resolve fuel)

/-- The server opens the file and finds its size. -/
theorem exec_getBegin_accepted {remotePath : Bytes.CString} {found : DosRegs}
    (hothers : ∀ g d d', d'.content = d.content → others.effect g d d')
    (hidle : w.file.pendingOp = .none)
    (hactive : w.file.active = false) (hk : k < 0x8000) (hfree : w.dos.handles k = none)
    (hname : hasWildcard (nameOf (Bytes.snprintf 63 remotePath)) = false)
    (hcarry : found.carry = false) (hfound : found.data.length = 43)
    (hcontent : w.dos.content (resolve (nameOf (Bytes.snprintf 63 remotePath))) = content)
    (hentry : entrySize found.data = size.toNat) (hsize : content.length = size.toNat)
    (hlt : size ≠ 0xffffffff) :
    ∃ w', Exec (wireCall globals (LooseStep resolve) others)
      (sendWithAck sock ethertype globals.macAddr (fuel+1) .fileGetBegin
        (fileGetBeginBytes t remotePath) t .begin) () w [] (some size) () w' ∧
      DownloadOf t size k content w'.file w'.dos := by
  have hlen : (fileGetBeginBytes t remotePath).length = 68 := by simp [fileGetBeginBytes]
  let g : FileTransferState :=
    { w.file with
      clientMac := sock.ifAddr, sessionId := sock.sessionId, transferId := t
      filename := Bytes.terminate (Bytes.snprintf 63 remotePath), pendingOp := .getBegin }
  have hhandled (buffer : Mem) (ha : Arrived (packetFrame sock ethertype globals.macAddr
      .fileGetBegin (fileGetBeginBytes t remotePath)) buffer) :
      (run buffer (protocolProcess globals ⟨0,0,0,0,0,0⟩ 0 sessionMgrInit w.file 0)).file = g := by
    have hreq := requestAt_arrived ha
    rw [hreq.handled]
    dsimp only
    rw [handled, payloadAt_getBegin hreq, hlen, fileTransferHandlePacket, if_neg (by simp [hidle]),
      if_neg (by simp [Packet.LongEnough, Payload.structSize, Payload.pktType])]
    rfl
  let r : DosRegs := ⟨false,k,0,0,0,[]⟩
  let d' : Files F :=
    { w.dos with handles := Function.update w.dos.handles k (some (resolve (filenameStr g),0)) }
  have hopen : LooseStep resolve w.dos (.openRead (filenameStr g)) r d' :=
    .inl (.openRead _ _ rfl hk hfree hname)
  have hfind : LooseStep resolve d' (.findFirst (filenameStr g)) found d' := by
    refine .inl (.findFirst _ _ hcarry hfound fun _ => ?_)
    change entrySize found.data = (w.dos.content (resolve (nameOf (Bytes.snprintf 63 remotePath)))).length
    rw [hcontent, hentry, hsize]
  have hquery : SizeQuery (LooseStep resolve) (filenameStr g) d' found d' :=
    ⟨⟨false,0,0,0,0,[]⟩,d',⟨false,0,0,0,0,[]⟩,d',d',⟨false,0,0,0,0,[]⟩,.inl (.getDta _),
      .inl (.setDta _),hfind,.inl (.restoreDta _ _ _)⟩
  have hfoundSize : sizeFound found g.taken = size := by
    apply UInt32.toNat_inj.mp
    rw [Download.sizeFound_toNat hcarry hfound, hentry]
  have hclosed : Closed (LooseStep resolve) g.taken.active g.taken.handle w.dos w.dos := by
    have hg : g.taken.active = false := hactive
    rw [Closed, hg, if_neg (by simp)]
  let g' : FileTransferState := getOpened (handleOf r) size (storeDta found g.taken)
  have hstep : TsrStep (LooseStep resolve) globals.macAddr (g,w.dos)
      (.idle [⟨sock.ifAddr,globals.macAddr,sock.sessionId,12,.fileAck t .begin .ok size⟩]) (g',d') := by
    have hop : g.pendingOp ≠ .none := by simp [g]
    refine ⟨0,exec_idle.mpr (.inr ⟨hop,exec_getBegin.mpr ⟨w.dos,r,d',hclosed,hopen,
      .inr ⟨handleOf_nonneg rfl hk,found,d',hquery,.inl ⟨?_,rfl,?_,?_⟩⟩⟩⟩)⟩
    · rw [hfoundSize]
      exact hlt
    · rw [hfoundSize]
    · rw [hfoundSize]
      simp [ackOf, g', g, getOpened, storeDta, hcarry, FileTransferState.taken]
  obtain ⟨w',hx,hfile,hdos⟩ := exec_acknowledged hhandled hstep (hothers _ _ _ rfl)
  refine ⟨w',hx,?_⟩
  rw [hfile, hdos]
  have hstored : (storeDta found g.taken).pendingOp = .none ∧
      (storeDta found g.taken).transferId = t := by
    simp [storeDta, hcarry, g, FileTransferState.taken]
  exact ⟨hstored.1,hstored.2,rfl,rfl,rfl,toUInt16_handleOf rfl,handleOf_nonneg rfl hk,_,0,
    Function.update_self _ _ _,hcontent⟩

/-- It reads the bytes asked for. -/
theorem exec_getData_accepted {offset : UInt32} {count : UInt16}
    (hothers : ∀ g d d', d'.content = d.content → others.effect g d d')
    (h : DownloadOf t size k content w.file w.dos) (hsize : content.length = size.toNat)
    (hlt : size ≠ 0xffffffff) (hcount : count.toNat ≤ 512)
    (hle : offset.toNat+count.toNat ≤ content.length) :
    ∃ w', Exec (wireCall globals (LooseStep resolve) others)
      (sendWithDataResponse sock ethertype globals.macAddr (fuel+1) t offset count) () w []
      (some ((content.drop offset.toNat).take count.toNat)) () w' ∧
      DownloadOf t size k content w'.file w'.dos := by
  have hlen : (fileGetDataReqBytes t offset count).length = 10 := by simp [fileGetDataReqBytes]
  let g : FileTransferState :=
    { w.file with
      clientMac := sock.ifAddr, sessionId := sock.sessionId, chunkOffset := offset
      chunkCount := count, pendingOp := .getDataReq }
  have hhandled (buffer : Mem) (ha : Arrived (packetFrame sock ethertype globals.macAddr
      .fileGetDataReq (fileGetDataReqBytes t offset count)) buffer) :
      (run buffer (protocolProcess globals ⟨0,0,0,0,0,0⟩ 0 sessionMgrInit w.file 0)).file = g := by
    have hreq := requestAt_arrived ha
    rw [hreq.handled]
    dsimp only
    rw [handled, payloadAt_getDataReq hreq, hlen, fileTransferHandlePacket, if_neg (by simp [h.idle]),
      if_neg (by simp [Packet.LongEnough, Payload.structSize, Payload.pktType])]
    dsimp only
    rw [if_neg (by simp [h.active, h.mode, h.transferId])]
    rfl
  obtain ⟨bs,hbs⟩ : ∃ bs, (content.drop offset.toNat).take count.toNat = bs := ⟨_,rfl⟩
  have hlenbs : bs.length = count.toNat := by
    rw [← hbs, List.length_take, List.length_drop]
    omega
  obtain ⟨f,pos,hfile,hcontent⟩ := h.file
  let seek : DosRegs := ⟨false,offset.toUInt16,0,(offset >>> 16).toUInt16,0,[]⟩
  let q : DosRegs := ⟨false,count,0,0,0,bs⟩
  let d₁ : Files F :=
    { w.dos with handles := Function.update w.dos.handles k (some (f,offset.toNat)) }
  let d' : Files F :=
    { d₁ with handles := Function.update d₁.handles k (some (f,offset.toNat+count.toNat)) }
  have hopen : d₁.handles k = some (f,offset.toNat) := Function.update_self _ _ _
  have hseek : LooseStep resolve w.dos (.seek g.taken.handle.toUInt16 0 offset) seek d₁ := by
    rw [show g.taken.handle.toUInt16 = k from h.handle]
    exact .inl (.seek _ _ _ f pos hfile (positionOf_halves offset))
  have hread : LooseStep resolve d₁ (.read g.taken.handle.toUInt16 count) q d' := by
    rw [show g.taken.handle.toUInt16 = k from h.handle]
    refine .inl (.read _ _ _ f offset.toNat hopen rfl ?_ hlenbs (UInt16.le_refl _))
    have hprefix : bs <+: content.drop offset.toNat := hbs ▸ List.take_prefix _ _
    rwa [show d₁.content f = content from hcontent]
  have hsmall : count < 0x8000 := by
    rw [UInt16.lt_iff_toNat_lt]
    exact hcount.trans_lt (by decide)
  have hpos : positionOf seek ≠ 0xffffffff := by
    rw [positionOf_halves]
    intro he
    apply hlt
    apply UInt32.toNat_inj.mp
    have hoffset : offset.toNat = 0xffffffff := by rw [he]; rfl
    have hmax := size.toNat_lt
    change size.toNat = 0xffffffff
    omega
  have hrefused : getRefused g.taken = false := by
    have hcount' : ¬ 512 < count := by
      rw [UInt16.lt_iff_toNat_lt]
      exact Nat.not_lt.mpr hcount
    have hoffset : ¬ size < offset := by
      rw [UInt32.lt_iff_toNat_lt]
      omega
    change (!w.file.active || decide (w.file.mode ≠ .get) || decide (512 < count) ||
      decide (w.file.size < offset)) = false
    simp [h.active, h.mode, h.size, hcount', hoffset]
  let g' : FileTransferState := chunkRead count (storeChunk q g.taken)
  have hstep : TsrStep (LooseStep resolve) globals.macAddr (g,w.dos)
      (.idle [⟨sock.ifAddr,globals.macAddr,sock.sessionId,12+count,
        .fileGetData t offset count .ok bs⟩]) (g',d') := by
    have hop : g.pendingOp ≠ .none := by simp [g]
    refine ⟨0,exec_idle.mpr (.inr ⟨hop,exec_getDataReq.mpr (.inr ⟨hrefused,seek,d₁,hseek,
      .inr ⟨hpos,q,hread,.inr ⟨handleOf_nonneg rfl hsmall,?_,?_⟩⟩⟩)⟩)⟩
    · rw [toUInt16_handleOf rfl]
    · have hchunk : (Bytes.overwrite w.file.chunk bs).toList.take count.toNat = bs := by
        rw [← hlenbs]
        exact Bytes.take_overwrite _ _ (hlenbs ▸ hcount)
      have ht : w.file.transferId = t := h.transferId
      rw [← ht, ← hchunk]
      rfl
  obtain ⟨w',hx,hfile',hdos⟩ := exec_data hcount hlenbs hhandled hstep (hothers _ _ _ rfl)
  refine ⟨w',hbs ▸ hx,?_⟩
  rw [hfile', hdos]
  exact ⟨rfl,h.transferId,h.size,h.active,h.mode,h.handle,h.nonneg,f,_,Function.update_self _ _ _,
    hcontent⟩

/-- It closes the file. -/
theorem exec_getEnd_accepted (hothers : ∀ g d d', d'.content = d.content → others.effect g d d')
    (h : DownloadOf t size k content w.file w.dos) :
    ∃ offset w', Exec (wireCall globals (LooseStep resolve) others)
      (sendWithAck sock ethertype globals.macAddr (fuel+1) .fileGetEnd (htonl t) t .end) () w []
      (some offset) () w' := by
  have hlen : (htonl t).length = 4 := by simp
  let g : FileTransferState :=
    { w.file with clientMac := sock.ifAddr, sessionId := sock.sessionId, pendingOp := .getEnd }
  have hhandled (buffer : Mem) (ha : Arrived (packetFrame sock ethertype globals.macAddr
      .fileGetEnd (htonl t)) buffer) :
      (run buffer (protocolProcess globals ⟨0,0,0,0,0,0⟩ 0 sessionMgrInit w.file 0)).file = g := by
    have hreq := requestAt_arrived ha
    rw [hreq.handled]
    dsimp only
    rw [handled, payloadAt_getEnd hreq, hlen, fileTransferHandlePacket, if_neg (by simp [h.idle]),
      if_neg (by simp [Packet.LongEnough, Payload.structSize, Payload.pktType])]
    dsimp only
    rw [if_neg (by simp [h.active, h.mode, h.transferId])]
    rfl
  let d' : Files F :=
    { w.dos with handles := Function.update w.dos.handles g.taken.handle.toUInt16 none }
  have hclose : LooseStep resolve w.dos (.close g.taken.handle.toUInt16) ⟨false,0,0,0,0,[]⟩ d' :=
    .inl (.close _ _)
  have hclosed : Closed (LooseStep resolve) true g.taken.handle w.dos d' := by
    rw [Closed, if_pos ⟨rfl,h.nonneg⟩]
    exact ⟨_,hclose⟩
  have hstep : TsrStep (LooseStep resolve) globals.macAddr (g,w.dos)
      (.idle [⟨sock.ifAddr,globals.macAddr,sock.sessionId,12,
        .fileAck t .end .ok w.file.expectedOffset⟩])
      ({ g.taken with handle := -1, active := false, mode := .none },d') := by
    have hop : g.pendingOp ≠ .none := by simp [g]
    refine ⟨0,exec_idle.mpr (.inr ⟨hop,exec_getEnd.mpr ⟨hclosed,rfl,?_⟩⟩)⟩
    simp [ackOf, g, FileTransferState.taken, h.transferId]
  obtain ⟨w',hx,-⟩ := exec_acknowledged hhandled hstep (hothers _ _ _ rfl)
  exact ⟨_,w',hx⟩

end accepted

/-- The loop over the chunks gets to the end of the file. -/
theorem exec_getChunks_completes {l : LocalFiles} {chunks : ℕ} {offset : UInt32}
    (hothers : ∀ g d d', d'.content = d.content → others.effect g d d')
    (h : DownloadOf t size k content w.file w.dos) (hsize : content.length = size.toNat)
    (hlt : size ≠ 0xffffffff) (hle : offset.toNat ≤ content.length)
    (hchunks : content.length ≤ offset.toNat+chunks*512) :
    ∃ l' w', Exec (clientCall globals (LooseStep resolve) others)
      (getChunks sock ethertype globals.macAddr (fuel+1) t size (chunks+1) offset) () (l,w) [] true
      () (l',w') ∧ DownloadOf t size k content w'.file w'.dos := by
  have hdone (chunks : ℕ) (l : LocalFiles) (w : Wire F) (offset : UInt32)
      (hend : size.toNat ≤ offset.toNat) : Exec (clientCall globals (LooseStep resolve) others)
      (getChunks sock ethertype globals.macAddr (fuel+1) t size (chunks+1) offset) () (l,w) [] true
      () (l,w) := by
    rw [getChunks, if_pos (UInt32.le_iff_toNat_le.mpr hend)]
    exact ⟨rfl,rfl,rfl,rfl⟩
  induction chunks generalizing l w offset with
  | zero => exact ⟨l,w,hdone _ _ _ _ (by omega),h⟩
  | succ chunks ih =>
    by_cases hend : size.toNat ≤ offset.toNat
    · exact ⟨l,w,hdone _ _ _ _ hend,h⟩
    have hremaining : (size-offset).toNat = size.toNat-offset.toNat :=
      UInt32.toNat_sub_of_le _ _ (UInt32.le_iff_toNat_le.mpr (Nat.le_of_not_le hend))
    obtain ⟨count,hcounteq⟩ : ∃ count : UInt16,
        (if 512 < size-offset then 512 else (size-offset).toUInt16) = count := ⟨_,rfl⟩
    have hcount : count.toNat = min 512 (size.toNat-offset.toNat) := by
      rw [← hcounteq, ← hremaining]
      split_ifs with hbig
      · rw [UInt32.lt_iff_toNat_lt] at hbig
        exact (Nat.min_eq_left hbig.le).symm
      · rw [UInt32.lt_iff_toNat_lt, Nat.not_lt] at hbig
        have hsmall : (size-offset).toNat ≤ 512 := hbig
        rw [UInt32.toNat_toUInt16]
        omega
    obtain ⟨bs,hbs⟩ : ∃ bs, (content.drop offset.toNat).take count.toNat = bs := ⟨_,rfl⟩
    have hlen : bs.length = count.toNat := by
      rw [← hbs, List.length_take, List.length_drop]
      omega
    have hcount512 : count.toNat ≤ 512 := by omega
    have hwithin : offset.toNat+count.toNat ≤ content.length := by omega
    obtain ⟨w₁,hx,hof⟩ := exec_getData_accepted sock ethertype globals resolve fuel hothers h hsize
      hlt hcount512 hwithin
    have hnext : (offset+UInt32.ofNat bs.length).toNat = offset.toNat+bs.length := by
      have hmax := size.toNat_lt
      rw [UInt32.toNat_add, UInt32.toNat_ofNat']
      omega
    let l₁ : LocalFiles :=
      { l with content := Function.update l.content l.path (l.content l.path ++ bs) }
    obtain ⟨l₂,w₂,hy,hlast⟩ := @ih w₁ l₁ (offset+UInt32.ofNat bs.length) hof (by omega) (by omega)
    refine ⟨l₂,w₂,?_,hlast⟩
    have hne : bs ≠ [] := by
      rw [← List.length_pos_iff]
      omega
    have hwrite : l.step (.fwrite bs) .ok l₁ := ⟨bs,List.prefix_refl _,rfl,.inr ⟨rfl,rfl⟩⟩
    rw [hbs] at hx
    rw [getChunks, if_neg (by rwa [UInt32.le_iff_toNat_le])]
    dsimp only
    rw [hcounteq]
    apply exec_overSocket_of hx
    dsimp only
    rw [if_neg (not_or.mpr ⟨hne,by omega⟩)]
    apply exec_stdioOk_of hwrite
    rw [if_pos rfl]
    exact hy

/-- If nothing is lost and no call fails, the download of any file succeeds; `found` is the directory
entry of the file. -/
theorem fileTransferGet_completes {remotePath localPath : Bytes.CString} {found : DosRegs}
    {l : LocalFiles} {chunks : ℕ} (hothers : ∀ g d d', d'.content = d.content → others.effect g d d')
    (hvalid : validateRemoteName remotePath = true) (hname : hasWildcard remotePath.bytes = false)
    (hidle : w.file.pendingOp = .none) (hactive : w.file.active = false) (hk : k < 0x8000)
    (hfree : w.dos.handles k = none) (hcarry : found.carry = false) (hfound : found.data.length = 43)
    (hentry : entrySize found.data = (w.dos.content (resolve remotePath.bytes)).length)
    (hfits : (w.dos.content (resolve remotePath.bytes)).length < 0xffffffff)
    (hchunks : (w.dos.content (resolve remotePath.bytes)).length ≤ chunks*512) :
    ∃ y, Exec (clientCall globals (LooseStep resolve) others)
      (fileTransferGet sock ethertype globals.macAddr (chunks+1) remotePath localPath) () (l,w) []
      true () y := by
  obtain ⟨size,hsize⟩ : ∃ size : UInt32,
      (w.dos.content (resolve remotePath.bytes)).length = size.toNat := by
    refine ⟨UInt32.ofNat (w.dos.content (resolve remotePath.bytes)).length,?_⟩
    rw [UInt32.toNat_ofNat']
    omega
  have hlt : size ≠ 0xffffffff := by
    intro he
    have hmax : size.toNat = 0xffffffff := by rw [he]; rfl
    omega
  have hpath : nameOf (Bytes.snprintf 63 remotePath) = remotePath.bytes :=
    nameOf_snprintf (validateRemoteName_eq.mp hvalid).2.1
  obtain ⟨w₁,hx₁,hof⟩ : ∃ w', Exec (wireCall globals (LooseStep resolve) others)
      (sendWithAck sock ethertype globals.macAddr (chunks+1) .fileGetBegin
        (fileGetBeginBytes (makeTransferId sock 0x47455421) remotePath)
        (makeTransferId sock 0x47455421) .begin) () w [] (some size) () w' ∧
      DownloadOf (makeTransferId sock 0x47455421) size k
        (w.dos.content (resolve remotePath.bytes)) w'.file w'.dos :=
    exec_getBegin_accepted sock ethertype globals resolve chunks hothers hidle hactive hk hfree
      (by rw [hpath]; exact hname) hcarry hfound (by rw [hpath]) (hentry.trans hsize) hsize hlt
  let l₁ : LocalFiles := ⟨Function.update l.content localPath [],localPath,0,false,true⟩
  obtain ⟨l₂,w₂,hx₂,hof₂⟩ : ∃ l' w', Exec (clientCall globals (LooseStep resolve) others)
      (getChunks sock ethertype globals.macAddr (chunks+1) (makeTransferId sock 0x47455421) size
        (chunks+1) 0) () (l₁,w₁) [] true () (l',w') ∧ _ :=
    exec_getChunks_completes hothers hof hsize hlt (Nat.zero_le _) (by
      rw [UInt32.toNat_zero]
      omega)
  obtain ⟨offset,w₃,hx₃⟩ := exec_getEnd_accepted sock ethertype globals resolve chunks hothers hof₂
  have hopen : l.step (.fopenWrite localPath) .ok l₁ := .inr ⟨rfl,rfl⟩
  have hclose : l₂.step .fclose .ok l₂ := .inl ⟨rfl,rfl⟩
  refine ⟨(l₂,w₃),?_⟩
  rw [fileTransferGet, if_neg (by simp [hvalid])]
  apply exec_overSocket_of hx₁
  apply exec_stdioOk_of hopen
  rw [if_pos rfl]
  refine exec_bind.mpr ⟨[],true,(),(l₂,w₂),[],hx₂,?_,rfl⟩
  rw [if_pos rfl]
  apply exec_stdioOk_of hclose
  rw [if_pos rfl]
  apply exec_overSocket_of hx₃
  exact ⟨rfl,rfl,rfl,rfl⟩

/-! The download of 600 bytes, which takes two chunks. -/

def longEntry : DosRegs :=
  ⟨false,0,0,0,0,List.replicate 26 0 ++ [0x58,2] ++ List.replicate 15 0⟩

/-- The server before the download, and no local file. -/
def longDownload : LocalFiles × Wire Unit :=
  (⟨fun _ => [],⟨[66],by decide⟩,0,false,false⟩,
    ⟨fileTransferInit,⟨fun _ => List.replicate 600 7,fun _ => none⟩,[],[],none⟩)

/-- Others that do nothing. -/
def stillOthers : Others Unit := ⟨fun _ => False,fun _ d d' => d'.content = d.content⟩

theorem fileTransferGet_safe_twoChunks : ∃ y : LocalFiles × Wire Unit,
    y.1.content longDownload.1.path = List.replicate 600 7 ∧
      y.2.dos.content () = List.replicate 600 7 := by
  have hlen : (longDownload.2.dos.content ()).length = 600 := List.length_replicate
  have hentry : entrySize longEntry.data = (longDownload.2.dos.content ()).length := by
    rw [hlen]
    decide
  obtain ⟨y,hx⟩ : ∃ y, Exec (clientCall loneGlobals (LooseStep fun _ => ()) stillOthers)
      (fileTransferGet loneSocket 0 (Vector.replicate 6 0) 3 longDownload.1.path
        longDownload.1.path) () longDownload [] true () y :=
    fileTransferGet_completes (k := 5) (fun _ _ _ h => h) (by decide)
      (by decide) rfl rfl (by decide) rfl rfl (by decide) hentry (hlen.trans_lt (by decide))
      (hlen.trans_le (by decide))
  exact ⟨y,fileTransferGet_safe loneSocket 0 (Vector.replicate 6 0) loneGlobals (fun _ => ())
    stillOthers 3 longDownload.1.path longDownload.1.path longDownload y [] (fun _ => False.elim)
    (fun _ _ _ _ h => congrFun h ()) rfl rfl (List.forall_mem_nil _) hx⟩

end RmtDos
