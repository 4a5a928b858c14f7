import RmtDos.Client.Paging
import RmtDos.Client.Wire
import RmtDos.Server.Upload

/-! `file_transfer_put` on a network that loses, repeats, delays and reorders frames. What the
record of the server says of the file holds whatever request of the upload is in flight. -/
namespace RmtDos
open Memory Reading Resumable Prog Dos

variable {sock : RawSocket} {ethertype : UInt16} {destMacAddr : MacAddr} {m : Mem}
  {g : FileTransferState} {globals : PktdrvGlobals}

/-! The requests of the upload in the buffers of the server. -/

/-- The frames that `file_transfer_put` sends. -/
inductive Upload.Frame (u : Upload) (sock : RawSocket) (ethertype : UInt16) (destMacAddr : MacAddr)
    (begun : Bool) : List UInt8 → Prop
  | begin (name : Bytes.CString) (hn : u.filename = Bytes.snprintf 63 name) :
      Frame u sock ethertype destMacAddr begun (packetFrame sock ethertype destMacAddr .filePutBegin
        (filePutBeginBytes u.transferId u.size name))
  | data (offset : UInt32) (bs : List UInt8) (hb : begun = true) (hl : bs.length ≤ 512)
      (hbs : bs <+: u.content.drop offset.toNat) (ho : offset.toNat ≤ u.content.length) :
      Frame u sock ethertype destMacAddr begun (packetFrame sock ethertype destMacAddr .filePutData
        (filePutDataBytes u.transferId offset bs))
  | end (hb : begun = true) :
      Frame u sock ethertype destMacAddr begun (packetFrame sock ethertype destMacAddr .filePutEnd
        (filePutEndBytes u.transferId u.size))

theorem Upload.Frame.mono {u : Upload} {begun : Bool} {frame : List UInt8}
    (h : u.Frame sock ethertype destMacAddr begun frame) :
    u.Frame sock ethertype destMacAddr true frame := by
  cases h with
  | begin name hn => exact .begin name hn
  | data offset bs hb hl hbs ho => exact .data offset bs rfl hl hbs ho
  | «end» hb => exact .end rfl

theorem payloadAt_putBegin {t size : UInt32} {name : Bytes.CString}
    (h : RequestAt m sock .filePutBegin (filePutBeginBytes t size name)) :
    payloadAt m .filePutBegin = .filePutBegin t size (Bytes.snprintf 63 name) := by
  have hpay := h.payload
  have hlen : (filePutBeginBytes t size name).length = 4+4+64 := by
    simp [filePutBeginBytes]
  rw [hlen, filePutBeginBytes] at hpay
  obtain ⟨hpay,hname⟩ := slice_eq_append hpay (by simp)
  obtain ⟨hid,hsize⟩ := slice_eq_append hpay (by simp)
  rw [payloadAt, hid, hsize, arrayAt_eq hname, ntohl_htonl, ntohl_htonl]

theorem payloadAt_putData {t offset : UInt32} {bs : List UInt8} (hl : bs.length ≤ 512)
    (h : RequestAt m sock .filePutData (filePutDataBytes t offset bs)) :
    ∃ data, payloadAt m .filePutData = .filePutData t offset (UInt16.ofNat bs.length) data ∧
      data.take bs.length = bs := by
  have hpay := h.payload
  have hlen : (filePutDataBytes t offset bs).length = 4+4+2+bs.length := by
    simp [filePutDataBytes]
    omega
  rw [hlen, filePutDataBytes] at hpay
  obtain ⟨hpay,hdata⟩ := slice_eq_append hpay (by simp)
  obtain ⟨hpay,hcount⟩ := slice_eq_append hpay (by simp)
  obtain ⟨hid,hoffset⟩ := slice_eq_append hpay (by simp)
  refine ⟨_,by rw [payloadAt, hid, hoffset, hcount, ntohl_htonl, ntohl_htonl, ntohs_htons],?_⟩
  rw [take_slice (by simp only [bufferMaxSize]; omega)]
  exact hdata

theorem payloadAt_putEnd {t size : UInt32}
    (h : RequestAt m sock .filePutEnd (filePutEndBytes t size)) :
    payloadAt m .filePutEnd = .filePutEnd t size := by
  have hpay := h.payload
  have hlen : (filePutEndBytes t size).length = 4+4 := by
    simp [filePutEndBytes]
  rw [hlen, filePutEndBytes] at hpay
  obtain ⟨hid,hsize⟩ := slice_eq_append hpay (by simp)
  rw [payloadAt, hid, hsize, ntohl_htonl, ntohl_htonl]

/-- A frame of the upload is handled as a packet of the upload. -/
theorem Upload.Frame.handled {u : Upload} {begun : Bool} {frame : List UInt8}
    (h : u.Frame sock ethertype destMacAddr begun frame) (ha : Arrived frame m) (video : VideoState)
    (now : UInt32) (sessions : SessionTable) (received : ℕ) :
    ∃ p, (run m (protocolProcess globals video now sessions g received)).file =
      fileTransferHandlePacket p g ∧ u.Request begun p.payload := by
  cases h with
  | begin name hn =>
    have hreq := requestAt_arrived ha
    refine ⟨_,by rw [hreq.handled]; rfl,?_⟩
    dsimp only
    rw [payloadAt_putBegin hreq]
    exact ⟨rfl,rfl,hn.symm⟩
  | data offset bs hb hl hbs ho =>
    have hreq := requestAt_arrived ha
    obtain ⟨data,hpay,htake⟩ := payloadAt_putData hl hreq
    refine ⟨_,by rw [hreq.handled]; rfl,?_⟩
    dsimp only
    rw [hpay]
    have hcount : (UInt16.ofNat bs.length).toNat = bs.length := by
      rw [UInt16.toNat_ofNat']
      omega
    have hfit := hbs.length_le
    rw [List.length_drop] at hfit
    refine ⟨hb,rfl,?_,?_⟩
    · rw [hcount]
      omega
    · rw [hcount, htake]
      exact List.prefix_iff_eq_take.mp hbs
  | «end» hb =>
    have hreq := requestAt_arrived ha
    refine ⟨_,by rw [hreq.handled]; rfl,?_⟩
    dsimp only
    rw [payloadAt_putEnd hreq]
    exact ⟨hb,rfl,rfl⟩

/-! The invariant of the network. -/

variable {F : Type} [DecidableEq F] {resolve : List UInt8 → F} {others : Others F} {u : Upload}
  {begun : Bool} {w w' : Wire F}

variable (resolve sock ethertype destMacAddr) in
/-- The requests in flight are of the upload, and the record is in step with the file; before it has
begun, only once the client is told so. An accepted end comes from an idle step that left the whole
file. -/
structure Upload.Tracked (u : Upload) (begun : Bool) (w : Wire F) : Prop where
  frames : ∀ frame ∈ w.toServer, u.Frame sock ethertype destMacAddr begun frame
  record : u.Tracks resolve true w.file w.dos ∨
    begun = false ∧ u.Tracks resolve false w.file w.dos ∧
      ∀ e ∈ w.toClient, e.reply.sessionId = sock.sessionId →
        ∀ offset, e.reply.body ≠ .fileAck u.transferId .begin .ok offset
  ended : ∀ e ∈ w.toClient, e.reply.sessionId = sock.sessionId →
    ∀ offset, e.reply.body = .fileAck u.transferId .end .ok offset →
      e.op = .putEnd ∧ e.dos.content (u.file resolve) = u.content

omit [DecidableEq F] in
theorem Upload.Tracked.packet {p : Packet}
    (h : u.Tracked sock ethertype destMacAddr resolve begun w)
    (hp : u.Request begun p.payload ∨ p.payload.transferId? ≠ some u.transferId) :
    u.Tracked sock ethertype destMacAddr resolve begun
      { w with file := fileTransferHandlePacket p w.file } := by
  refine ⟨h.frames,?_,h.ended⟩
  obtain htrue | ⟨rfl,hfalse,hno⟩ := h.record
  · refine .inl (htrue.packet (hp.imp_left fun hreq => ?_))
    cases begun with
    | true => exact hreq
    | false =>
      generalize p.payload = payload at hreq
      cases payload with
      | filePutBegin => exact hreq
      | filePutData => exact absurd hreq.1 nofun
      | filePutEnd => exact absurd hreq.1 nofun
      | _ => exact hreq
  · exact .inr ⟨rfl,hfalse.packet hp,hno⟩

theorem Upload.Tracked.idle (h : u.Tracked sock ethertype destMacAddr resolve begun w)
    {mac : MacAddr} {sent : List Reply} {file : FileTransferState} {dos : Files F}
    (hs : TsrStep (WholeStep resolve) mac (w.file,w.dos) (.idle sent) (file,dos)) :
    u.Tracked sock ethertype destMacAddr resolve begun { w with
      file := file
      dos := dos
      toClient := w.toClient ++ sentFrames globals w.file.pendingOp dos sent m } := by
  by_cases hop : w.file.pendingOp = .none
  · obtain ⟨rfl,hsame⟩ := (tsrIdle_none hop).mp hs
    obtain ⟨rfl,rfl⟩ := Prod.mk.inj hsame
    rw [sentFrames, List.append_nil]
    exact h
  obtain ⟨fuel,hx⟩ := (tsrIdle_op hop).mp hs
  have hdisk := hx.mono fun d c r d₁ hd => hd.1
  refine ⟨h.frames,?_,?_⟩
  · obtain htrue | ⟨rfl,hfalse,hno⟩ := h.record
    · exact .inl (htrue.idle hop hdisk fun heq => heq ▸ hx).1
    · obtain ⟨htrue | ⟨hfalse,hsent⟩,-⟩ := hfalse.waiting hop hdisk
      · exact .inl htrue
      · refine .inr ⟨rfl,hfalse,fun e he hsession => ?_⟩
        obtain he | he := List.mem_append.mp he
        · exact hno e he hsession
        · exact hsent e.reply (mem_sentFrames he).2.2
  · intro e he hsession offset hbody
    obtain he | he := List.mem_append.mp he
    · exact h.ended e he hsession offset hbody
    obtain ⟨hop',hdos,hmem⟩ := mem_sentFrames he
    rw [hop', hdos]
    obtain htrue | ⟨-,hfalse,-⟩ := h.record
    · exact ⟨htrue.ended hop hx e.reply hmem offset hbody,
        (htrue.idle hop hdisk fun heq => heq ▸ hx).2 e.reply hmem offset hbody⟩
    · exact absurd hbody ((hfalse.waiting hop hdisk).2 e.reply hmem offset)

/-- What happens between two calls keeps the invariant. -/
theorem Upload.tracked_stable
    (hothers : ∀ p, others.packet p → p.payload.transferId? ≠ some u.transferId) :
    Stable globals (WholeStep resolve) others
      (u.Tracked sock ethertype destMacAddr resolve begun) where
  between s s' h hstep := by
    cases hstep with
    | deliver frame buffer video now sessions received hf ha =>
      obtain ⟨p,heq,hreq⟩ := (h.frames frame hf).handled ha video now sessions received
      rw [heq]
      exact h.packet (.inl hreq)
    | packet p hp => exact h.packet (.inr (hothers p hp))
    | idle sent sendBuffer file dos hs he => exact h.idle hs
  read s e h := ⟨h.frames,h.record,h.ended⟩

omit [DecidableEq F] in
theorem Upload.Tracked.send {frame : List UInt8}
    (h : u.Tracked sock ethertype destMacAddr resolve begun w)
    (hf : u.Frame sock ethertype destMacAddr begun frame) :
    u.Tracked sock ethertype destMacAddr resolve begun
      { w with toServer := frame :: w.toServer } :=
  ⟨List.forall_mem_cons.mpr ⟨hf,h.frames⟩,h.record,h.ended⟩

/-! The client. -/

/-- Sending a request of the upload until it is acknowledged. -/
theorem Upload.Tracked.sendWithAck {pktType : PktType} {payload : List UInt8}
    {command : FileAckCommand} {fuel : ℕ} {result : Option UInt32} {os : List Empty}
    (hothers : ∀ p, others.packet p → p.payload.transferId? ≠ some u.transferId)
    (hw : u.Tracked sock ethertype destMacAddr resolve begun w)
    (hf : u.Frame sock ethertype destMacAddr begun
      (packetFrame sock ethertype destMacAddr pktType payload))
    (h : Exec (wireCall globals (WholeStep resolve) others)
      (sendWithAck sock ethertype destMacAddr fuel pktType payload u.transferId command) () w os
      result () w') :
    u.Tracked sock ethertype destMacAddr resolve begun w' ∧
      ∀ offset, result = some offset → ∃ e ∈ w'.toClient, w'.read = some e ∧
        e.reply.sessionId = sock.sessionId ∧
        e.reply.body = .fileAck u.transferId command .ok offset :=
  sendWithAck_stable (Upload.tracked_stable hothers) (fun _ hs => hs.send hf) hw h

omit [DecidableEq F] in
/-- Once the client is told that the upload has begun, it has. -/
theorem Upload.Tracked.begin (h : u.Tracked sock ethertype destMacAddr resolve begun w) {e : Sent F}
    {offset : UInt32} (he : e ∈ w.toClient) (hsession : e.reply.sessionId = sock.sessionId)
    (hbody : e.reply.body = .fileAck u.transferId .begin .ok offset) :
    u.Tracked sock ethertype destMacAddr resolve true w := by
  refine ⟨fun frame hf => (h.frames frame hf).mono,.inl ?_,h.ended⟩
  obtain htrue | ⟨-,-,hno⟩ := h.record
  · exact htrue
  · exact absurd hbody (hno e he hsession offset)

variable {fuel : ℕ} {x y : LocalFiles × Wire F} {os : List Empty}

theorem putChunks_tracked {chunks : ℕ} {offset last : UInt32}
    (hothers : ∀ p, others.packet p → p.payload.transferId? ≠ some u.transferId)
    (hw : u.Tracked sock ethertype destMacAddr resolve true x.2)
    (hlocal : x.1.content x.1.path = u.content) (hpos : x.1.pos = offset.toNat)
    (hle : offset.toNat ≤ u.content.length)
    (h : Exec (clientCall globals (WholeStep resolve) others)
      (putChunks sock ethertype destMacAddr fuel u.transferId chunks offset) () x os (some last)
      () y) :
    u.Tracked sock ethertype destMacAddr resolve true y.2 := by
  induction chunks generalizing x offset os with
  | zero => exact h.elim
  | succ chunks ih =>
    rw [putChunks] at h
    obtain ⟨bs,error,hbs,-,h⟩ := exec_fread h
    split_ifs at h with hend
    · obtain ⟨-,-,-,rfl⟩ := h
      exact hw
    obtain ⟨_,r,_,z,_,hack,h,-⟩ := exec_bind.mp h
    obtain ⟨hsame,hack⟩ := exec_overSocket.mp hack
    rw [hlocal, hpos] at hbs
    have hchunk : bs <+: u.content.drop offset.toNat := hbs.trans (List.take_prefix _ _)
    have hlen : bs.length ≤ 512 := hbs.length_le.trans (List.length_take_le _ _)
    have hfit := hchunk.length_le
    rw [List.length_drop] at hfit
    have hz := (hw.sendWithAck hothers (.data offset bs rfl hlen hchunk hle) hack).1
    cases r with
    | none =>
      obtain ⟨_,_,_,_,_,h⟩ := exec_stdioOk h
      obtain ⟨-,hnone,-⟩ := h
      cases hnone
    | some ackOffset =>
      dsimp only at h
      split_ifs at h with hoffset
      · refine ih hz ?_ ?_ ?_ h
        · rw [hsame]
          exact hlocal
        · rw [hsame, hoffset]
          exact congrArg (· + bs.length) hpos
        · rw [hoffset]
          omega
      · obtain ⟨_,_,_,_,_,h⟩ := exec_stdioOk h
        obtain ⟨-,hnone,-⟩ := h
        cases hnone

theorem putOpened_tracked {size : UInt32} {remotePath : Bytes.CString}
    (hothers : ∀ p, others.packet p → p.payload.transferId? ≠ some u.transferId)
    (hw : u.Tracked sock ethertype destMacAddr resolve false x.2)
    (hname : u.filename = Bytes.snprintf 63 remotePath) (hsize : size = u.size)
    (hlocal : x.1.content x.1.path = u.content) (hpos : x.1.pos = 0)
    (h : Exec (clientCall globals (WholeStep resolve) others)
      (putOpened sock ethertype destMacAddr fuel u.transferId size remotePath) () x os true () y) :
    ∃ e ∈ y.2.toClient, y.2.read = some e ∧ e.op = .putEnd ∧
      e.dos.content (u.file resolve) = u.content := by
  subst hsize
  rw [putOpened] at h
  obtain ⟨_,r,_,z,_,hack,h,-⟩ := exec_bind.mp h
  obtain ⟨hsame,hack⟩ := exec_overSocket.mp hack
  obtain ⟨hz,haccepted⟩ := hw.sendWithAck hothers (.begin remotePath hname) hack
  have hfail {z : LocalFiles × Wire F} {os : List Empty} (h : Exec (clientCall globals
      (WholeStep resolve) others) (stdioOk .fclose >>= fun _ => pure false) () z os true () y) :
      False := by
    obtain ⟨_,_,_,_,_,h⟩ := exec_stdioOk h
    exact nomatch h.2.1
  cases r with
  | none => exact (hfail h).elim
  | some ackOffset =>
    obtain ⟨e,he,-,hsession,hbody⟩ := haccepted ackOffset rfl
    have hbegun := hz.begin he hsession hbody
    by_cases hzero : ackOffset = 0
    · subst hzero
      obtain ⟨_,last,_,z₁,_,hchunks,h,-⟩ := exec_bind.mp h
      cases last with
      | none => exact nomatch h.2.1
      | some last =>
        have hz₁ := putChunks_tracked hothers hbegun (by rw [hsame]; exact hlocal)
          (by rw [hsame]; exact hpos) (Nat.zero_le _) hchunks
        have h := exec_ferror h
        split_ifs at h
        · exact (hfail h).elim
        obtain ⟨_,_,_,_,_,h⟩ := exec_stdioOk h
        obtain ⟨_,r,_,z₂,_,hend,h,-⟩ := exec_bind.mp h
        obtain ⟨-,hend⟩ := exec_overSocket.mp hend
        obtain ⟨hz₂,haccepted⟩ := hz₁.sendWithAck hothers (.end rfl) hend
        cases r with
        | none => exact nomatch h.2.1
        | some ackOffset =>
          obtain ⟨-,-,-,rfl⟩ := h
          obtain ⟨e,he,hread,hsession,hbody⟩ := haccepted ackOffset rfl
          exact ⟨e,he,hread,hz₂.ended e he hsession ackOffset hbody⟩
    · exact (hfail (by simpa [hzero] using h)).elim

/-- If the upload succeeds, the end that the client accepted comes from an idle step that left the
local file under that name, whatever happened to the frames and whatever the others sent. -/
theorem fileTransferPut_safe (sock : RawSocket) (ethertype : UInt16) (destMacAddr : MacAddr)
    (globals : PktdrvGlobals) (resolve : List UInt8 → F) (others : Others F) (fuel : ℕ)
    (localPath remotePath : Bytes.CString) (x y : LocalFiles × Wire F) (os : List Empty)
    (hothers : ∀ p, others.packet p → p.payload.transferId? ≠ some (makeTransferId sock 0x66554c45))
    (hidle : x.2.file.pendingOp = .none) (hserver : x.2.toServer = [])
    (hclient : ∀ e ∈ x.2.toClient, e.reply.sessionId ≠ sock.sessionId)
    (h : Exec (clientCall globals (WholeStep resolve) others)
      (fileTransferPut sock ethertype destMacAddr fuel localPath remotePath) () x os true () y) :
    ∃ e ∈ y.2.toClient, y.2.read = some e ∧ e.op = .putEnd ∧
      e.dos.content (resolve remotePath.bytes) = x.1.content localPath := by
  rw [fileTransferPut] at h
  by_cases hvalid : validateRemoteName remotePath = true
  swap
  · rw [if_pos (by simpa using hvalid)] at h
    exact nomatch h.2.1
  rw [if_neg (by simpa using hvalid)] at h
  obtain ⟨r,l,⟨hr,rfl⟩,h⟩ := exec_stdioCall h
  obtain rfl | rfl := hr
  · exact nomatch h.2.1
  dsimp only at h
  split_ifs at h with hsize
  · exact nomatch h.2.1
  obtain ⟨r,l,ok,hopen,hok,h⟩ := exec_stdioOk h
  cases ok with
  | false => exact nomatch h.2.1
  | true =>
    obtain rfl := hok rfl
    obtain ⟨hr,-⟩ | ⟨-,rfl⟩ := hopen
    · exact nomatch hr
    rw [not_or, Int.not_lt, Int.not_lt] at hsize
    have hfits : (x.1.content localPath).length < 2^32 := by omega
    let u : Upload := ⟨makeTransferId sock 0x66554c45,Bytes.snprintf 63 remotePath,_,hfits⟩
    have hname : u.file resolve = resolve remotePath.bytes := by
      rw [Upload.file, nameOf_snprintf (validateRemoteName_eq.mp hvalid).2.1]
    have hstart : u.Tracked sock ethertype destMacAddr resolve false x.2 := by
      refine ⟨by simp [hserver],.inr ⟨rfl,?_,?_⟩,?_⟩
      · intro _
        rw [if_neg nofun, hidle]
        trivial
      · exact fun e he hsession => absurd hsession (hclient e he)
      · exact fun e he hsession => absurd hsession (hclient e he)
    have hsize : UInt32.ofInt (x.1.content localPath).length = u.size := by
      have hmod : (((x.1.content localPath).length : ℤ) % 2^32).toNat =
          (x.1.content localPath).length := by omega
      rw [UInt32.ofInt, hmod, Upload.size]
    rw [if_pos rfl] at h
    have hend := putOpened_tracked (x := (⟨x.1.content,localPath,0,false,false⟩,x.2)) hothers hstart
      rfl hsize rfl rfl h
    rwa [hname] at hend

/-! An upload of which nothing is lost. -/

/-- The upload is at position `n` of a file behind handle `k`, and no request is pending. -/
structure UploadAt (t size : UInt32) (k : UInt16) (n : ℕ) (g : FileTransferState) (d : Files F) :
    Prop where
  idle : g.pendingOp = .none
  transferId : g.transferId = t
  size : g.size = size
  active : g.active = true
  mode : g.mode = .put
  handle : g.handle.toUInt16 = k
  nonneg : ¬ g.handle < 0
  expected : g.expectedOffset = UInt32.ofNat n
  file : ∃ f, d.handles k = some (f,n)

variable {t size : UInt32} {k : UInt16} {n fuel : ℕ}

section accepted
variable (sock ethertype globals resolve fuel)

/-- The server creates the file. -/
theorem exec_putBegin_accepted {remotePath : Bytes.CString}
    (hothers : ∀ g d d', others.effect g d d') (hidle : w.file.pendingOp = .none)
    (hactive : w.file.active = false) (hk : k < 0x8000) (hfree : w.dos.handles k = none)
    (hname : hasWildcard (nameOf (Bytes.snprintf 63 remotePath)) = false) :
    ∃ w', Exec (wireCall globals (WholeStep resolve) others)
      (sendWithAck sock ethertype globals.macAddr (fuel+1) .filePutBegin
        (filePutBeginBytes t size remotePath) t .begin) () w [] (some 0) () w' ∧
      UploadAt t size k 0 w'.file w'.dos := by
  have hlen : (filePutBeginBytes t size remotePath).length = 72 := by simp [filePutBeginBytes]
  let g : FileTransferState :=
    { w.file with
      clientMac := sock.ifAddr, sessionId := sock.sessionId, transferId := t, size := size
      filename := Bytes.terminate (Bytes.snprintf 63 remotePath), pendingOp := .putBegin }
  have hhandled (buffer : Mem) (ha : Arrived (packetFrame sock ethertype globals.macAddr
      .filePutBegin (filePutBeginBytes t size remotePath)) buffer) :
      (run buffer (protocolProcess globals ⟨0,0,0,0,0,0⟩ 0 sessionMgrInit w.file 0)).file = g := by
    have hreq := requestAt_arrived ha
    rw [hreq.handled]
    dsimp only
    rw [handled, payloadAt_putBegin hreq, hlen, fileTransferHandlePacket, if_neg (by simp [hidle]),
      if_neg (by simp [Packet.LongEnough, Payload.structSize, Payload.pktType])]
    rfl
  let r : DosRegs := ⟨false,k,0,0,0,[]⟩
  have hnonneg : 0 ≤ handleOf r := Int16.not_lt.mp (handleOf_nonneg rfl hk)
  let d' : Files F := ⟨Function.update w.dos.content (resolve (filenameStr g)) [],
    Function.update w.dos.handles k (some (resolve (filenameStr g),0))⟩
  have hcreate : WholeStep resolve w.dos (.create (filenameStr g)) r d' :=
    ⟨.full (.create _ _ rfl hk hfree hname) trivial,id⟩
  have hclosed : Closed (WholeStep resolve) g.taken.active g.taken.handle w.dos w.dos := by
    have hg : g.taken.active = false := hactive
    rw [Closed, hg, if_neg (by simp)]
  let g' : FileTransferState :=
    { g.taken with handle := handleOf r, expectedOffset := 0, active := true, mode := .put }
  have hput : TsrStep (WholeStep resolve) globals.macAddr (g,w.dos)
      (.idle [⟨sock.ifAddr,globals.macAddr,sock.sessionId,12,.fileAck t .begin .ok 0⟩]) (g',d') := by
    have hop : g.pendingOp ≠ .none := by simp [g]
    refine ⟨0,exec_idle.mpr (.inr ⟨hop,exec_putBegin.mpr ⟨w.dos,r,hclosed,hcreate,?_,?_⟩⟩)⟩
    · simp [g', hnonneg]
    · simp [ackOf, statusOf, hnonneg, g', g, FileTransferState.taken]
  obtain ⟨w',hx,hfile,hdos⟩ := exec_acknowledged hhandled hput (hothers _ _ _)
  refine ⟨w',hx,?_⟩
  rw [hfile, hdos]
  exact ⟨rfl,rfl,rfl,rfl,rfl,toUInt16_handleOf rfl,handleOf_nonneg rfl hk,rfl,_,
    Function.update_self _ _ _⟩

/-- It writes the next chunk. -/
theorem exec_putData_accepted {bs : List UInt8} (hothers : ∀ g d d', others.effect g d d')
    (h : UploadAt t size k n w.file w.dos) (hl : bs.length ≤ 512) :
    ∃ w', Exec (wireCall globals (WholeStep resolve) others)
      (sendWithAck sock ethertype globals.macAddr (fuel+1) .filePutData
        (filePutDataBytes t (UInt32.ofNat n) bs) t .data) () w []
        (some (UInt32.ofNat (n+bs.length))) () w' ∧
      UploadAt t size k (n+bs.length) w'.file w'.dos := by
  have hlen : (filePutDataBytes t (UInt32.ofNat n) bs).length = 10+bs.length := by
    simp [filePutDataBytes]
    omega
  let g : FileTransferState :=
    { w.file with
      clientMac := sock.ifAddr, sessionId := sock.sessionId, chunkOffset := UInt32.ofNat n
      chunkCount := UInt16.ofNat bs.length, chunk := Bytes.overwrite w.file.chunk bs
      pendingOp := .putData }
  have hcount : (UInt16.ofNat bs.length).toNat = bs.length := by
    rw [UInt16.toNat_ofNat']
    omega
  have hhandled (buffer : Mem) (ha : Arrived (packetFrame sock ethertype globals.macAddr
      .filePutData (filePutDataBytes t (UInt32.ofNat n) bs)) buffer) :
      (run buffer (protocolProcess globals ⟨0,0,0,0,0,0⟩ 0 sessionMgrInit w.file 0)).file = g := by
    have hreq := requestAt_arrived ha
    obtain ⟨data,hpay,htake⟩ := payloadAt_putData hl hreq
    rw [hreq.handled]
    dsimp only
    have hpayload : (UInt16.ofNat (10+bs.length)).toNat = 10+bs.length := by
      rw [UInt16.toNat_ofNat']
      omega
    have hlong : Packet.LongEnough ⟨sock.ifAddr,sock.sessionId,UInt16.ofNat (10+bs.length),
        .filePutData t (UInt32.ofNat n) (UInt16.ofNat bs.length) data⟩ := by
      change 10 ≤ (UInt16.ofNat (10+bs.length)).toNat
      omega
    rw [handled, hpay, hlen, fileTransferHandlePacket, if_neg (by simp [h.idle]),
      if_neg (not_not.mpr hlong)]
    dsimp only
    rw [if_neg (by simp [h.active, h.mode, h.transferId]), if_neg (by simp [h.expected]),
      if_neg (by rw [hpayload, hcount]; omega), hcount, htake]
    rfl
  obtain ⟨f,hfile⟩ := h.file
  let r : DosRegs := ⟨false,UInt16.ofNat bs.length,0,0,0,[]⟩
  let d' : Files F := ⟨Function.update w.dos.content f (writeAt (w.dos.content f) n bs),
    Function.update w.dos.handles k (some (f,n+bs.length))⟩
  have hwrite : WholeStep resolve w.dos (.write g.taken.handle.toUInt16
      (g.taken.chunk.toList.take g.taken.chunkCount.toNat)) r d' := by
    have hchunk : g.taken.chunk.toList.take g.taken.chunkCount.toNat = bs := by
      change (Bytes.overwrite w.file.chunk bs).toList.take (UInt16.ofNat bs.length).toNat = bs
      rw [hcount]
      exact Bytes.take_overwrite _ _ hl
    have hhandle : g.taken.handle.toUInt16 = k := h.handle
    rw [hchunk, hhandle]
    refine ⟨.full (.write _ _ _ _ _ hfile rfl hcount) (.inr hcount),?_⟩
    rintro ⟨-,-,hlt⟩
    exact absurd hlt (by rw [hcount]; exact lt_irrefl _)
  let g' : FileTransferState := { g.taken with expectedOffset := UInt32.ofNat (n+bs.length) }
  have hput : TsrStep (WholeStep resolve) globals.macAddr (g,w.dos)
      (.idle [⟨sock.ifAddr,globals.macAddr,sock.sessionId,12,
        .fileAck t .data .ok (UInt32.ofNat (n+bs.length))⟩]) (g',d') := by
    have hop : g.pendingOp ≠ .none := by simp [g]
    have hoffset : g.taken.expectedOffset+g.taken.chunkCount.toUInt32 =
        UInt32.ofNat (n+bs.length) := by
      change w.file.expectedOffset+(UInt16.ofNat bs.length).toUInt32 = _
      apply UInt32.toNat_inj.mp
      rw [h.expected, UInt32.toNat_add, UInt16.toNat_toUInt32, hcount, UInt32.toNat_ofNat',
        UInt32.toNat_ofNat']
      omega
    refine ⟨0,exec_idle.mpr (.inr ⟨hop,exec_putData.mpr (.inr ⟨?_,r,hwrite,.inl ⟨?_,?_,?_⟩⟩)⟩)⟩
    · exact h.expected.symm
    · simp [writeOk, r, g, FileTransferState.taken]
    · rw [hoffset]
    · rw [hoffset]
      simp [ackOf, g, FileTransferState.taken, h.transferId]
  obtain ⟨w',hx,hfile',hdos⟩ := exec_acknowledged hhandled hput (hothers _ _ _)
  refine ⟨w',hx,?_⟩
  rw [hfile', hdos]
  exact ⟨rfl,h.transferId,h.size,h.active,h.mode,h.handle,h.nonneg,rfl,f,Function.update_self _ _ _⟩

/-- It closes the file. -/
theorem exec_putEnd_accepted (hothers : ∀ g d d', others.effect g d d')
    (h : UploadAt t size k size.toNat w.file w.dos) :
    ∃ w', Exec (wireCall globals (WholeStep resolve) others)
      (sendWithAck sock ethertype globals.macAddr (fuel+1) .filePutEnd (filePutEndBytes t size) t
        .end) () w [] (some size) () w' := by
  have hlen : (filePutEndBytes t size).length = 8 := by simp [filePutEndBytes]
  let g : FileTransferState :=
    { w.file with clientMac := sock.ifAddr, sessionId := sock.sessionId, pendingOp := .putEnd }
  have hhandled (buffer : Mem) (ha : Arrived (packetFrame sock ethertype globals.macAddr
      .filePutEnd (filePutEndBytes t size)) buffer) :
      (run buffer (protocolProcess globals ⟨0,0,0,0,0,0⟩ 0 sessionMgrInit w.file 0)).file = g := by
    have hreq := requestAt_arrived ha
    rw [hreq.handled]
    dsimp only
    rw [handled, payloadAt_putEnd hreq, hlen, fileTransferHandlePacket, if_neg (by simp [h.idle]),
      if_neg (by simp [Packet.LongEnough, Payload.structSize, Payload.pktType])]
    dsimp only
    rw [if_neg (by simp [h.active, h.mode, h.transferId, h.size])]
    rfl
  let d' : Files F := ⟨w.dos.content,Function.update w.dos.handles g.taken.handle.toUInt16 none⟩
  have hclose : WholeStep resolve w.dos (.close g.taken.handle.toUInt16) ⟨false,0,0,0,0,[]⟩ d' :=
    ⟨.full (.close _ _) trivial,id⟩
  have hclosed : Closed (WholeStep resolve) true g.taken.handle w.dos d' := by
    rw [Closed, if_pos ⟨rfl,h.nonneg⟩]
    exact ⟨_,hclose⟩
  have hput : TsrStep (WholeStep resolve) globals.macAddr (g,w.dos)
      (.idle [⟨sock.ifAddr,globals.macAddr,sock.sessionId,12,.fileAck t .end .ok size⟩])
      ({ g.taken with handle := -1, active := false, mode := .none },d') := by
    have hop : g.pendingOp ≠ .none := by simp [g]
    have hexpected : w.file.expectedOffset = size := by rw [h.expected, UInt32.ofNat_toNat]
    refine ⟨0,exec_idle.mpr (.inr ⟨hop,exec_putEnd.mpr ⟨hclosed,rfl,?_⟩⟩)⟩
    simp [ackOf, g, FileTransferState.taken, h.transferId, h.size, hexpected]
  obtain ⟨w',hx,-⟩ := exec_acknowledged hhandled hput (hothers _ _ _)
  exact ⟨w',hx⟩

end accepted

/-- At the end of the file the loop over the chunks is done. -/
theorem exec_putChunks_end {l : LocalFiles} {chunks : ℕ}
    (hend : (l.content l.path).length ≤ l.pos) :
    Exec (clientCall globals (WholeStep resolve) others)
      (putChunks sock ethertype destMacAddr fuel t (chunks+1) (UInt32.ofNat l.pos)) () (l,w) []
      (some (UInt32.ofNat l.pos)) () (l,w) := by
  have hempty : ((l.content l.path).drop l.pos).take fileTransferChunkBytes = [] := by
    rw [List.drop_eq_nil_of_le hend, List.take_nil]
  rw [putChunks]
  apply exec_fread_of hempty
  rw [if_pos rfl]
  exact ⟨rfl,rfl,rfl,rfl⟩

/-- The loop over the chunks gets to the end of the file. -/
theorem exec_putChunks_completes {l : LocalFiles} {chunks : ℕ}
    (hothers : ∀ g d d', others.effect g d d') (h : UploadAt t size k l.pos w.file w.dos)
    (hfits : (l.content l.path).length < 2^32) (hpos : l.pos ≤ (l.content l.path).length)
    (hchunks : (l.content l.path).length ≤ l.pos+chunks*512) :
    ∃ w', Exec (clientCall globals (WholeStep resolve) others)
      (putChunks sock ethertype globals.macAddr (fuel+1) t (chunks+1) (UInt32.ofNat l.pos)) ()
      (l,w) [] (some (UInt32.ofNat (l.content l.path).length)) ()
      ({ l with pos := (l.content l.path).length },w') ∧
      UploadAt t size k (l.content l.path).length w'.file w'.dos := by
  induction chunks generalizing l w with
  | zero =>
    have hend : l.pos = (l.content l.path).length := by omega
    rw [← hend]
    exact ⟨w,exec_putChunks_end hend.ge,h⟩
  | succ chunks ih =>
    by_cases hend : l.pos = (l.content l.path).length
    · rw [← hend]
      exact ⟨w,exec_putChunks_end hend.ge,h⟩
    obtain ⟨bs,hbs⟩ : ∃ bs, ((l.content l.path).drop l.pos).take fileTransferChunkBytes = bs :=
      ⟨_,rfl⟩
    have hlen : bs.length = min 512 ((l.content l.path).length-l.pos) := by
      rw [← hbs, List.length_take, List.length_drop, fileTransferChunkBytes]
    have hne : bs ≠ [] := by
      rw [← List.length_pos_iff]
      omega
    have hl : bs.length ≤ 512 := by omega
    obtain ⟨w₁,hx,hat⟩ := exec_putData_accepted sock ethertype globals resolve fuel hothers h hl
    let l₁ : LocalFiles := { l with pos := l.pos+bs.length }
    have hpos₁ : l₁.pos ≤ (l₁.content l₁.path).length := by
      change l.pos+bs.length ≤ (l.content l.path).length
      omega
    have hchunks₁ : (l₁.content l₁.path).length ≤ l₁.pos+chunks*512 := by
      change (l.content l.path).length ≤ l.pos+bs.length+chunks*512
      omega
    obtain ⟨w₂,hy,hlast⟩ := @ih w₁ l₁ hat hfits hpos₁ hchunks₁
    have hack : (UInt32.ofNat (l.pos+bs.length)).toNat = (UInt32.ofNat l.pos).toNat+bs.length := by
      rw [UInt32.toNat_ofNat', UInt32.toNat_ofNat']
      omega
    refine ⟨w₂,?_,hlast⟩
    rw [putChunks]
    apply exec_fread_of hbs
    rw [if_neg hne]
    apply exec_overSocket_of hx
    dsimp only
    rw [if_pos hack]
    exact hy

theorem exec_putOpened_completes {remotePath : Bytes.CString} {l : LocalFiles} {chunks : ℕ}
    (hothers : ∀ g d d', others.effect g d d')
    (hname : hasWildcard (nameOf (Bytes.snprintf 63 remotePath)) = false)
    (hidle : w.file.pendingOp = .none) (hactive : w.file.active = false) (hk : k < 0x8000)
    (hfree : w.dos.handles k = none) (hsize : size.toNat = (l.content l.path).length)
    (hpos : l.pos = 0) (herror : l.error = false)
    (hchunks : (l.content l.path).length ≤ chunks*512) :
    ∃ y, Exec (clientCall globals (WholeStep resolve) others)
      (putOpened sock ethertype globals.macAddr (chunks+1) t size remotePath) () (l,w) [] true () y := by
  obtain ⟨w₁,hx₁,hat⟩ : ∃ w', Exec (wireCall globals (WholeStep resolve) others)
      (sendWithAck sock ethertype globals.macAddr (chunks+1) .filePutBegin
        (filePutBeginBytes t size remotePath) t .begin) () w [] (some 0) () w' ∧
      UploadAt t size k 0 w'.file w'.dos :=
    exec_putBegin_accepted sock ethertype globals resolve chunks hothers hidle hactive hk hfree hname
  have hfits : (l.content l.path).length < 2^32 := hsize ▸ size.toNat_lt
  rw [← hpos] at hat
  obtain ⟨w₂,hx₂,hend⟩ : ∃ w₂, Exec (clientCall globals (WholeStep resolve) others)
      (putChunks sock ethertype globals.macAddr (chunks+1) t (chunks+1) (UInt32.ofNat l.pos)) ()
      (l,w₁) [] (some (UInt32.ofNat (l.content l.path).length)) ()
      ({ l with pos := (l.content l.path).length },w₂) ∧
      UploadAt t size k (l.content l.path).length w₂.file w₂.dos :=
    exec_putChunks_completes hothers hat hfits (by omega) (by omega)
  rw [hpos] at hx₂
  rw [← hsize] at hend
  obtain ⟨w₃,hx₃⟩ := exec_putEnd_accepted sock ethertype globals resolve chunks hothers hend
  let l₂ : LocalFiles := { l with pos := (l.content l.path).length }
  refine ⟨(l₂,w₃),?_⟩
  rw [putOpened]
  apply exec_overSocket_of hx₁
  refine exec_bind.mpr ⟨[],_,(),(l₂,w₂),[],hx₂,?_,rfl⟩
  have hflag : l₂.step .ferror (.flag false) l₂ := ⟨by rw [← herror],rfl⟩
  have hclose : l₂.step .fclose .ok l₂ := .inl ⟨rfl,rfl⟩
  refine ⟨.stdio (.flag false),(l₂,w₂),⟨hflag,rfl⟩,?_⟩
  apply exec_stdioOk_of hclose
  apply exec_overSocket_of hx₃
  exact ⟨rfl,by simp,rfl,rfl⟩

/-- If nothing is lost and no call fails, the upload of any file succeeds. -/
theorem fileTransferPut_completes {localPath remotePath : Bytes.CString} {l : LocalFiles} {chunks : ℕ}
    (hothers : ∀ g d d', others.effect g d d') (hvalid : validateRemoteName remotePath = true)
    (hname : hasWildcard remotePath.bytes = false) (hfits : (l.content localPath).length < 2^32)
    (hidle : w.file.pendingOp = .none) (hactive : w.file.active = false) (hk : k < 0x8000)
    (hfree : w.dos.handles k = none) (hchunks : (l.content localPath).length ≤ chunks*512) :
    ∃ y, Exec (clientCall globals (WholeStep resolve) others)
      (fileTransferPut sock ethertype globals.macAddr (chunks+1) localPath remotePath) () (l,w) []
      true () y := by
  let l₁ : LocalFiles := ⟨l.content,localPath,0,false,false⟩
  have hwild : hasWildcard (nameOf (Bytes.snprintf 63 remotePath)) = false := by
    rwa [nameOf_snprintf (validateRemoteName_eq.mp hvalid).2.1]
  have hsize : (UInt32.ofInt (l.content localPath).length).toNat = (l₁.content l₁.path).length := by
    have hmod : (((l.content localPath).length : ℤ) % 2^32).toNat = (l.content localPath).length := by
      omega
    rw [UInt32.ofInt, hmod, UInt32.toNat_ofNat']
    exact Nat.mod_eq_of_lt hfits
  obtain ⟨y,hx⟩ : ∃ y, Exec (clientCall globals (WholeStep resolve) others)
      (putOpened sock ethertype globals.macAddr (chunks+1) (makeTransferId sock 0x66554c45)
        (UInt32.ofInt (l.content localPath).length) remotePath) () (l₁,w) [] true () y :=
    exec_putOpened_completes hothers hwild hidle hactive hk hfree hsize rfl rfl hchunks
  refine ⟨y,?_⟩
  have hfits' : ¬ (((l.content localPath).length : ℤ) < 0 ∨
      0xffffffff < ((l.content localPath).length : ℤ)) := by omega
  have hstat : l.step (.stat localPath) (.size (l.content localPath).length) l := ⟨.inr rfl,rfl⟩
  have hopen : l.step (.fopenRead localPath) .ok l₁ := .inr ⟨rfl,rfl⟩
  rw [fileTransferPut, if_neg (by simp [hvalid])]
  apply exec_stdioCall_of hstat
  dsimp only
  rw [if_neg hfits']
  apply exec_stdioOk_of hopen
  rw [if_pos rfl]
  exact hx

/-! The upload of 600 bytes, which takes two chunks. -/

def longName : Bytes.CString := ⟨[65],by decide⟩

/-- The server before the upload, and a local file of 600 bytes. -/
def longStart : LocalFiles × Wire Unit :=
  (⟨fun _ => List.replicate 600 7,longName,0,false,false⟩,
    ⟨fileTransferInit,⟨fun _ => [],fun _ => none⟩,[],[],none⟩)

theorem fileTransferPut_safe_twoChunks : ∃ y : LocalFiles × Wire Unit, ∃ e ∈ y.2.toClient,
    y.2.read = some e ∧ e.op = .putEnd ∧ e.dos.content () = List.replicate 600 7 := by
  have hlen : (longStart.1.content longName).length = 600 := List.length_replicate
  have hfits : (longStart.1.content longName).length < 2^32 := by omega
  have hchunks : (longStart.1.content longName).length ≤ 2*512 := by omega
  obtain ⟨y,hx⟩ : ∃ y, Exec (clientCall loneGlobals (WholeStep fun _ => ()) noOthers)
      (fileTransferPut loneSocket 0 (Vector.replicate 6 0) 3 longName longName) () longStart []
      true () y :=
    fileTransferPut_completes (k := 5) (fun _ _ _ => trivial) (by decide) (by decide) hfits rfl rfl
      (by decide) rfl hchunks
  exact ⟨y,fileTransferPut_safe loneSocket 0 (Vector.replicate 6 0) loneGlobals (fun _ => ())
    noOthers 3 longName longName longStart y [] (fun _ => False.elim) rfl rfl
    (List.forall_mem_nil _) hx⟩

end RmtDos
