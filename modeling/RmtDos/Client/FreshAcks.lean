import RmtDos.Client.Traffic
import RmtDos.Client.Wire
import RmtDos.Lib.Runs

/-! A file operation that the client reports as done was executed for the paths of that call: the
acknowledgement that it accepts answers a frame that the call itself has sent, if nothing of an
earlier call of its kind was left over when it began. -/
namespace RmtDos
open Memory Reading Resumable Prog Relation

variable {D : Type} {globals : PktdrvGlobals} {env : D → DosCall → DosRegs → D → Prop}
  {sock : RawSocket} {ethertype : UInt16} {destMacAddr : MacAddr} {m : Mem} {c : RemoteCall}
  {type : PktType} {payload frame : List UInt8}
/-! A call among the others. -/

variable (globals env sock) in
/-- `log` was sent before the call, which sends frames that meet `S`; the requests in flight are at
places that meet `Q`. -/
structure During (Q : ℕ → Prop) (log : List (List UInt8)) (S : List UInt8 → Prop) (s : Traffic D) :
    Prop where
  accounted : Accounted globals env sock s
  askers : Askers Q s
  log : ∃ new, s.log = log ++ new ∧ ∀ frame ∈ new, S frame

variable {Q : ℕ → Prop} {log : List (List UInt8)} {S : List UInt8 → Prop} {s s' y : Traffic D}

theorem During.kept (hQ : ∀ n, log.length ≤ n → Q n) :
    Preserved globals env sock S (During globals env sock Q log S) where
  move s s' h hs := by
    refine ⟨h.accounted.move hs,h.askers.move hs,?_⟩
    rw [moves_log hs]
    exact h.log
  sent s frame h hf := by
    obtain ⟨new,hnew,hall⟩ := h.log
    refine ⟨h.accounted.sent frame,h.askers.sent (hQ _ ?_),new ++ [frame],?_,fun f hmem => ?_⟩
    · rw [hnew, List.length_append]
      exact Nat.le_add_right ..
    · rw [Traffic.sent, hnew, List.append_assoc]
    · obtain hmem | hmem := List.mem_append.mp hmem
      · exact hall f hmem
      · rw [List.mem_singleton.mp hmem]
        exact hf
  read s e h := ⟨⟨h.accounted.pending,h.accounted.answers⟩,
    ⟨h.askers.requests,h.askers.pending,h.askers.answers⟩,h.log⟩

variable (globals env sock) in
/-- An answer as it was in flight. -/
structure Heard (Q : ℕ → Prop) (log : List (List UInt8)) (e : Answer D) : Prop where
  made : e.Made globals env
  record : RecordOf sock log e.record e.asker
  asker : ∀ n, e.asker = some n → Q n

theorem During.heard (h : During globals env sock Q log S s) {e : Answer D} (he : e ∈ s.toClient) :
    Heard globals env sock Q s.log e :=
  ⟨(h.accounted.answers e he).1,(h.accounted.answers e he).2,h.askers.answers e he⟩

/-- What comes of no server is ignored. -/
theorem recvFileAck_noAnswer {t : UInt32} {command : UInt16} {length : ℕ} {offset : UInt32}
    (h : NoAnswer sock destMacAddr m) :
    run m (recvFileAck sock destMacAddr t command length) ≠ .ok offset := by
  have hmine := h 12 (.inl rfl)
  simp only [recvFileAck, run_ite, run_bind, run_pure, hmine, true_or, if_true]
  split_ifs <;> simp

/-- An accepted acknowledgement of the session. -/
theorem sendWithAck_heard {t : UInt32} {command : FileAckCommand} {fuel : ℕ}
    {result : Option UInt32} {os : List Empty} (hQ : ∀ n, log.length ≤ n → Q n)
    (hsend : S (packetFrame sock ethertype destMacAddr type payload))
    (hs : During globals env sock Q log S s)
    (h : Exec (trafficCall globals env sock destMacAddr)
      (sendWithAck sock ethertype destMacAddr fuel type payload t command) () s os result () s') :
    During globals env sock Q log S s' ∧ ∀ offset, result = some offset →
      ∃ e, s'.read = some e ∧ Heard globals env sock Q s'.log e ∧
        e.reply.sessionId = sock.sessionId ∧ e.reply.body = .fileAck t command .ok offset :=
  (During.kept hQ).attempts (P := fun offset e => e.reply.sessionId = sock.sessionId ∧
      e.reply.body = .fileAck t command .ok offset) (fun _ _ hd he => hd.heard he) hsend
    (fun _ _ _ hbuf => recvFileAck_noAnswer hbuf)
    (fun _ _ _ _ _ harr hrun => (recvFileAck_ok harr hrun).2) hs h

/-! Which request an accepted acknowledgement is for. -/

theorem transferId_payloadAt {t : UInt32} (h : (payloadAt m type).transferId? = some t) :
    ntohl (slice m 26 4) = t := by
  cases type <;> first | exact Option.some.inj h | cases h

/-- The transfer id of the pending operation is that of the request. -/
theorem HoldsRequest.transferId {n : ℕ} {g : FileTransferState} (h : HoldsRequest log n g)
    (hp : g.pendingOp ≠ .none) (hd : g.pendingOp ≠ .dirListDataReq) :
    ∃ frame buffer, log[n]? = some frame ∧ Arrived frame buffer ∧
      ntohl (slice buffer 26 4) = g.transferId := by
  obtain ⟨frame,buffer,type,g₀,hn,ha,htype,hnone,rfl⟩ := h
  refine ⟨frame,buffer,hn,ha,?_⟩
  obtain heq | ⟨-,hacc⟩ := handlePacket_cases (packetAt buffer type) g₀
  · rw [heq] at hp
    exact absurd hnone hp
  · obtain ht | hdir := hacc.transfer_or_dir hnone
    · exact transferId_payloadAt ht
    · exact (hdir.queued.elim hp hd).elim

/-- An acknowledgement is for an operation of the transfer. -/
theorem Answer.Made.ack {e : Answer D} {t offset : UInt32} {command : FileAckCommand}
    {status : FileAckStatus} (h : e.Made globals env)
    (hb : e.reply.body = .fileAck t command status offset) :
    e.reply.sessionId = e.record.sessionId ∧ e.record.transferId = t ∧
      ackCommandOf e.record e.record.pendingOp = some command := by
  obtain ⟨hop,fuel,g',hx⟩ := h
  obtain ⟨-,payloadLen,body,hreply,hbody⟩ := idleOp_answer hop hx
  have hreply := List.singleton_inj.mp hreply
  rw [hreply] at hb ⊢
  have hb' : body = .fileAck t command status offset := hb
  subst hb'
  cases hbody with
  | ack hc => exact ⟨rfl,rfl,hc⟩

/-- A request with the id of the call, at a place that no earlier request of this kind has, is one of
the call itself. -/
theorem sends_of_id {n : ℕ} {new : List (List UInt8)}
    (hQ : ∀ frame, log[n]? = some frame → ¬ OfKind sock c frame)
    (hlog : ∀ frame ∈ log, ∃ c' : RemoteCall, c'.Sends sock ethertype destMacAddr frame)
    (hnew : ∀ frame ∈ new, c.Sends sock ethertype destMacAddr frame)
    (hn : (log ++ new)[n]? = some frame) (ha : Arrived frame m)
    (hid : ntohl (slice m 26 4) = c.id sock) :
    log.length ≤ n ∧ c.Sends sock ethertype destMacAddr frame := by
  have hlate : ¬ n < log.length := by
    intro hlt
    rw [List.getElem?_append_left hlt] at hn
    obtain ⟨c',hsends⟩ := hlog frame (List.mem_of_getElem? hn)
    rw [hsends.id ha, ntohl_htonl] at hid
    have hkind := hsends.ofKind
    rw [OfKind, hid] at hkind
    exact hQ frame hn hkind
  refine ⟨not_lt.mp hlate,?_⟩
  rw [List.getElem?_append_right (not_lt.mp hlate)] at hn
  exact hnew frame (List.mem_of_getElem? hn)

/-- The frames of the calls before, and of the call itself. -/
theorem Heard.asked {e : Answer D} {offset : UInt32} {command : FileAckCommand}
    {new : List (List UInt8)}
    (h : Heard globals env sock (fun n => ∀ frame, log[n]? = some frame → ¬ OfKind sock c frame)
      (log ++ new) e)
    (hlog : ∀ frame ∈ log, ∃ c' : RemoteCall, c'.Sends sock ethertype destMacAddr frame)
    (hnew : ∀ frame ∈ new, c.Sends sock ethertype destMacAddr frame)
    (hsession : e.reply.sessionId = sock.sessionId)
    (hbody : e.reply.body = .fileAck (c.id sock) command .ok offset) :
    ∃ n frame, e.asker = some n ∧ log.length ≤ n ∧ (log ++ new)[n]? = some frame ∧
      c.Sends sock ethertype destMacAddr frame ∧ HoldsRequest (log ++ new) n e.record := by
  obtain ⟨hmine,hid,hcommand⟩ := h.made.ack hbody
  have hrecord := h.record
  cases hasker : e.asker with
  | none =>
    rw [hasker] at hrecord
    exact absurd (hmine.symm.trans hsession) hrecord
  | some n =>
    rw [hasker] at hrecord
    have hdir : e.record.pendingOp ≠ .dirListDataReq := by
      intro heq
      rw [heq] at hcommand
      cases hcommand
    obtain ⟨frame,buffer,hn,ha,ht⟩ := hrecord.transferId h.made.1 hdir
    obtain ⟨hlate,hsends⟩ := sends_of_id (h.asker n hasker) hlog hnew hn ha (ht.trans hid)
    exact ⟨n,frame,rfl,hlate,hn,hsends,hrecord⟩

/-! The operations on paths. -/

/-- The command that acknowledges an operation on paths. -/
def RemoteCall.command : RemoteCall → Option FileAckCommand
  | .mkdir _ => some .mkdir
  | .delete .. => some .delete
  | .rename .. => some .rename
  | .copy .. => some .copy
  | .put .. | .get .. | .list _ => none

/-- What the idle step of the answer did to DOS. -/
def RemoteCall.Executed (env : D → DosCall → DosRegs → D → Prop) (e : Answer D) : RemoteCall → Prop
  | .mkdir path => ∃ r, env e.before (.mkdir path.bytes) r e.after ∧ r.carry = false
  | .delete path isDir => ∃ r,
      env e.before (if isDir then .rmdir path.bytes else .unlink path.bytes) r e.after ∧
        r.carry = false
  | .rename source target =>
      (dosPathEqual source.bytes target.bytes = true ∧ e.after = e.before) ∨
        ∃ r, env e.before (.rename source.bytes target.bytes) r e.after ∧ r.carry = false
  | .copy source target => dosPathEqual source.bytes target.bytes = false ∧ ∃ fuel g g' count,
      filenameStr g = source.bytes ∧ targetStr g = target.bytes ∧
        Exec env (dosCopyFile fuel) g e.before [] (true,count) g' e.after
  | .put .. | .get .. | .list _ => False

theorem exec_remote {α : Type} {p : Remote α} {os : List Empty} {a : α} :
    Exec (trafficClient globals env sock destMacAddr) (overSocket p) () s os a () y ↔
      Exec (trafficCall globals env sock destMacAddr) p () s os a () y := by
  rw [overSocket, exec_mapCalls]
  constructor
  · refine fun h => h.mono ?_
    rintro d c r d₁ ⟨r',rfl,hcall⟩
    cases r' with
    | socket r' => exact hcall
    | stdio r' => exact hcall.elim
  · exact fun h => h.mono fun d c r d₁ hcall => ⟨.socket r,rfl,hcall⟩

theorem exec_reported {p : Transfer Bool} {os : List Empty} {entries : List RemoteDirEntry}
    (h : Exec (trafficClient globals env sock destMacAddr) (p.bind RemoteCall.run.reported) () s os
      (some entries) () y) :
    ∃ os, Exec (trafficClient globals env sock destMacAddr) p () s os true () y := by
  obtain ⟨os₁,ok,_,_,_,hp,⟨-,hok,-,rfl⟩,-⟩ := exec_bind.mp h
  cases ok with
  | false => cases hok
  | true => exact ⟨os₁,hp⟩

theorem exec_pathOp {command : FileAckCommand} {flags : UInt16} {path : Bytes.CString} {fuel : ℕ}
    {os : List Empty} (h : Exec (trafficCall globals env sock destMacAddr)
      (sendPathOp sock ethertype destMacAddr fuel type command path flags) () s os true () y) :
    validateRemoteName path = true ∧ ∃ os offset, Exec (trafficCall globals env sock destMacAddr)
      (sendWithAck sock ethertype destMacAddr fuel type (filePathOpBytes
        (makeTransferId sock (0x4f505031 ^^^ type.code)) flags path)
        (makeTransferId sock (0x4f505031 ^^^ type.code)) command) () s os (some offset) () y := by
  simp only [sendPathOp, pure_eq, bind_eq, exec_ite, exec_done, Bool.not_eq_true',
    Bool.not_eq_false] at h
  obtain ⟨-,-,h,-⟩ | ⟨hvalid,h⟩ := h
  · cases h
  · obtain ⟨os₁,ack,_,_,_,hx,hk,-⟩ := exec_bind.mp h
    cases ack with
    | none => cases hk.2.1
    | some offset =>
      obtain ⟨-,-,-,rfl⟩ := hk
      exact ⟨hvalid,os₁,offset,hx⟩

theorem exec_twoPathOp {command : FileAckCommand} {source target : Bytes.CString} {fuel : ℕ}
    {os : List Empty} (h : Exec (trafficCall globals env sock destMacAddr)
      (sendTwoPathOp sock ethertype destMacAddr fuel type command source target) () s os true () y) :
    (validateRemoteName source = true ∧ validateRemoteName target = true) ∧
      ∃ os offset, Exec (trafficCall globals env sock destMacAddr)
        (sendWithAck sock ethertype destMacAddr fuel type (fileTwoPathOpBytes
          (makeTransferId sock (0x4f505032 ^^^ type.code)) source target)
          (makeTransferId sock (0x4f505032 ^^^ type.code)) command) () s os (some offset) () y := by
  simp only [sendTwoPathOp, pure_eq, bind_eq, exec_ite, exec_done, Bool.or_eq_true,
    Bool.not_eq_true', not_or, Bool.not_eq_false] at h
  obtain ⟨-,-,h,-⟩ | ⟨hvalid,h⟩ := h
  · cases h
  · obtain ⟨os₁,ack,_,_,_,hx,hk,-⟩ := exec_bind.mp h
    cases ack with
    | none => cases hk.2.1
    | some offset =>
      obtain ⟨-,-,-,rfl⟩ := hk
      exact ⟨hvalid,os₁,offset,hx⟩

/-- The names that the call lets through. -/
def RemoteCall.Valid : RemoteCall → Prop
  | .mkdir path | .delete path _ => validateRemoteName path = true
  | .rename source target | .copy source target =>
    validateRemoteName source = true ∧ validateRemoteName target = true
  | .put .. | .get .. | .list _ => True

/-- An operation on paths that succeeds got its acknowledgement. -/
theorem exec_acked {command : FileAckCommand} {fuel : ℕ} {os : List Empty}
    {entries : List RemoteDirEntry} (hc : c.command = some command)
    (h : Exec (trafficClient globals env sock destMacAddr) (c.run sock ethertype destMacAddr fuel) ()
      s os (some entries) () y) :
    c.Valid ∧ ∃ type payload os offset, c.Request sock type payload ∧
      Exec (trafficCall globals env sock destMacAddr)
        (sendWithAck sock ethertype destMacAddr fuel type payload (c.id sock) command) () s os
        (some offset) () y := by
  cases c with
  | put => cases hc
  | get => cases hc
  | list => cases hc
  | mkdir path =>
    cases hc
    obtain ⟨os,h⟩ := exec_reported h
    obtain ⟨hvalid,os,offset,h⟩ := exec_pathOp (exec_remote.mp h)
    exact ⟨hvalid,_,_,os,offset,⟨rfl,rfl⟩,h⟩
  | delete path isDir =>
    cases hc
    obtain ⟨os,h⟩ := exec_reported h
    obtain ⟨hvalid,os,offset,h⟩ := exec_pathOp (exec_remote.mp h)
    exact ⟨hvalid,_,_,os,offset,⟨rfl,rfl⟩,h⟩
  | rename source target =>
    cases hc
    obtain ⟨os,h⟩ := exec_reported h
    obtain ⟨hvalid,os,offset,h⟩ := exec_twoPathOp (exec_remote.mp h)
    exact ⟨hvalid,_,_,os,offset,⟨rfl,rfl⟩,h⟩
  | copy source target =>
    cases hc
    obtain ⟨os,h⟩ := exec_reported h
    obtain ⟨hvalid,os,offset,h⟩ := exec_twoPathOp (exec_remote.mp h)
    exact ⟨hvalid,_,_,os,offset,⟨rfl,rfl⟩,h⟩

/-! The requests of the operations in the buffers of the server. -/

theorem pathOp_slices {t : UInt32} {flags : UInt16} {path : Bytes.CString}
    (h : RequestAt m sock type (filePathOpBytes t flags path)) :
    slice m 26 4 = htonl t ∧ slice m 30 2 = htons flags ∧
      arrayAt m 34 64 = Bytes.snprintf 63 path := by
  have hpay := h.payload
  have hlen : (filePathOpBytes t flags path).length = 4+2+2+64 := by
    simp [filePathOpBytes]
  rw [hlen, filePathOpBytes] at hpay
  obtain ⟨hpay,hpath⟩ := slice_eq_append hpay (by simp)
  obtain ⟨hpay,-⟩ := slice_eq_append hpay (by simp)
  obtain ⟨hid,hflags⟩ := slice_eq_append hpay (by simp)
  exact ⟨hid,hflags,arrayAt_eq hpath⟩

theorem twoPathOp_slices {t : UInt32} {source target : Bytes.CString}
    (h : RequestAt m sock type (fileTwoPathOpBytes t source target)) :
    slice m 26 4 = htonl t ∧ arrayAt m 30 64 = Bytes.snprintf 63 source ∧
      arrayAt m 94 64 = Bytes.snprintf 63 target := by
  have hpay := h.payload
  have hlen : (fileTwoPathOpBytes t source target).length = 4+64+64 := by
    simp [fileTwoPathOpBytes]
  rw [hlen, fileTwoPathOpBytes] at hpay
  obtain ⟨hpay,htarget⟩ := slice_eq_append hpay (by simp)
  obtain ⟨hid,hsource⟩ := slice_eq_append hpay (by simp)
  exact ⟨hid,arrayAt_eq hsource,arrayAt_eq htarget⟩

/-- The request at a place is the packet that the frame there was built from. -/
theorem HoldsRequest.packet {n : ℕ} {g : FileTransferState} (h : HoldsRequest log n g)
    (hn : log[n]? = some (packetFrame sock ethertype destMacAddr type payload))
    (hp : g.pendingOp ≠ .none) :
    ∃ buffer g₀, RequestAt buffer sock type payload ∧ (packetAt buffer type).Admitted g₀ ∧
      g = fileTransferHandlePacket (packetAt buffer type) g₀ := by
  obtain ⟨frame,buffer,type',g₀,hn',ha,htype,hnone,rfl⟩ := h
  obtain rfl := Option.some.inj (hn.symm.trans hn')
  have hreq := requestAt_arrived ha
  rw [hreq.type, ntohs_htons, ofCode_code] at htype
  obtain rfl := Option.some.inj htype
  obtain heq | ⟨hadmitted,-⟩ := handlePacket_cases (packetAt buffer type) g₀
  · rw [heq] at hp
    exact absurd hnone hp
  · exact ⟨buffer,g₀,hreq,hadmitted,rfl⟩

theorem statusOf_ok {b : Bool} (h : statusOf b = .ok) : b = true := by
  cases b with
  | true => rfl
  | false => cases h

theorem validateRemoteName_le {path : Bytes.CString} (h : validateRemoteName path = true) :
    path.bytes.length ≤ 63 := (validateRemoteName_eq.mp h).2.1

theorem pathOp_frame {n : ℕ} {g : FileTransferState} {t : UInt32} {flags : UInt16}
    {path : Bytes.CString} (ht : type = .fileMkdir ∨ type = .fileDelete)
    (hvalid : validateRemoteName path = true) (h : HoldsRequest log n g)
    (hn : log[n]? = some (packetFrame sock ethertype destMacAddr type (filePathOpBytes t flags path)))
    (hp : g.pendingOp ≠ .none) :
    g.pendingOp = (if type = .fileMkdir then .mkdir else .delete) ∧
      filenameStr g = path.bytes ∧ g.pathOpFlags = flags := by
  obtain ⟨buffer,g₀,hreq,⟨hnone,hlong⟩,rfl⟩ := h.packet hn hp
  obtain ⟨-,hflags,hpath⟩ := pathOp_slices hreq
  have hname := nameOf_snprintf (validateRemoteName_le hvalid)
  rw [fileTransferHandlePacket, if_neg (not_not.mpr hnone), if_neg (not_not.mpr hlong)]
  obtain rfl | rfl := ht
  · simp only [packetAt, payloadAt, hflags, hpath, ntohs_htons]
    exact ⟨rfl,hname,trivial⟩
  · simp only [packetAt, payloadAt, hflags, hpath, ntohs_htons]
    exact ⟨rfl,hname,trivial⟩

theorem twoPathOp_frame {n : ℕ} {g : FileTransferState} {t : UInt32} {source target : Bytes.CString}
    (ht : type = .fileRename ∨ type = .fileCopy)
    (hvalid : validateRemoteName source = true ∧ validateRemoteName target = true)
    (h : HoldsRequest log n g)
    (hn : log[n]? = some (packetFrame sock ethertype destMacAddr type (fileTwoPathOpBytes t source target)))
    (hp : g.pendingOp ≠ .none) :
    g.pendingOp = (if type = .fileRename then .rename else .copy) ∧
      filenameStr g = source.bytes ∧ targetStr g = target.bytes := by
  obtain ⟨buffer,g₀,hreq,⟨hnone,hlong⟩,rfl⟩ := h.packet hn hp
  obtain ⟨-,hsource,htarget⟩ := twoPathOp_slices hreq
  have hname := nameOf_snprintf (validateRemoteName_le hvalid.1)
  have hname' := nameOf_snprintf (validateRemoteName_le hvalid.2)
  rw [fileTransferHandlePacket, if_neg (not_not.mpr hnone), if_neg (not_not.mpr hlong)]
  obtain rfl | rfl := ht
  · simp only [packetAt, payloadAt, hsource, htarget]
    exact ⟨rfl,hname,hname'⟩
  · simp only [packetAt, payloadAt, hsource, htarget]
    exact ⟨rfl,hname,hname'⟩

/-- A good acknowledgement of the call's own request means that the operation succeeded. -/
theorem executed_of_ack {e : Answer D} {n : ℕ} {t offset : UInt32} {command : FileAckCommand}
    (hc : c.command = some command) (hvalid : c.Valid)
    (hsends : c.Sends sock ethertype destMacAddr frame) (hn : log[n]? = some frame)
    (hrecord : HoldsRequest log n e.record) (hmade : e.Made globals env)
    (hbody : e.reply.body = .fileAck t command .ok offset) : c.Executed env e := by
  obtain ⟨hop,fuel,g',hx⟩ := hmade
  obtain ⟨type,payload,hreq,rfl⟩ := hsends
  cases c with
  | put => cases hc
  | get => cases hc
  | list => cases hc
  | mkdir path =>
    obtain ⟨rfl,rfl⟩ := hreq
    obtain ⟨hmkdir,hname,-⟩ := pathOp_frame (.inl rfl) hvalid hrecord hn hop
    rw [hmkdir, if_pos rfl] at hx
    obtain ⟨r,hcall,-,hreply⟩ := exec_mkdir.mp hx
    rw [List.singleton_inj.mp hreply] at hbody
    injection hbody with _ _ hstatus
    exact ⟨r,hname ▸ hcall,by simpa using statusOf_ok hstatus⟩
  | delete path isDir =>
    obtain ⟨rfl,rfl⟩ := hreq
    obtain ⟨hdelete,hname,hflags⟩ := pathOp_frame (.inr rfl) hvalid hrecord hn hop
    rw [hdelete, if_neg (by decide)] at hx
    obtain ⟨r,hcall,-,hreply⟩ := exec_delete.mp hx
    rw [List.singleton_inj.mp hreply] at hbody
    injection hbody with _ _ hstatus
    refine ⟨r,?_,by simpa using statusOf_ok hstatus⟩
    have hsame : filenameStr e.record.taken = path.bytes := hname
    have hflag : e.record.taken.pathOpFlags = if isDir then filePathOpDirectory else 0 := hflags
    rw [deleteCall, hsame, hflag] at hcall
    cases isDir with
    | true => exact hcall
    | false => exact hcall
  | rename source target =>
    obtain ⟨rfl,rfl⟩ := hreq
    obtain ⟨hrename,hsource,htarget⟩ := twoPathOp_frame (.inl rfl) hvalid hrecord hn hop
    rw [hrename, if_pos rfl] at hx
    have hs : filenameStr e.record.taken = source.bytes := hsource
    have ht : targetStr e.record.taken = target.bytes := htarget
    obtain ⟨hequal,hafter,-⟩ | ⟨-,r,hcall,-,hreply⟩ := exec_rename.mp hx
    · rw [hs, ht] at hequal
      exact .inl ⟨hequal,hafter⟩
    · rw [hs, ht] at hcall
      rw [List.singleton_inj.mp hreply] at hbody
      injection hbody with _ _ hstatus
      exact .inr ⟨r,hcall,by simpa using statusOf_ok hstatus⟩
  | copy source target =>
    obtain ⟨rfl,rfl⟩ := hreq
    obtain ⟨hcopy,hsource,htarget⟩ := twoPathOp_frame (.inr rfl) hvalid hrecord hn hop
    rw [hcopy, if_neg (by decide)] at hx
    have hs : filenameStr e.record.taken = source.bytes := hsource
    have ht : targetStr e.record.taken = target.bytes := htarget
    obtain ⟨-,-,-,hreply⟩ | ⟨hdiffer,result,g₁,hcall,-,hreply⟩ := exec_copy.mp hx
    · rw [List.singleton_inj.mp hreply] at hbody
      injection hbody with _ _ hstatus
      cases hstatus
    · rw [List.singleton_inj.mp hreply] at hbody
      injection hbody with _ _ hstatus
      rw [hs, ht] at hdiffer
      refine ⟨hdiffer,fuel,_,g₁,result.2,hs,ht,?_⟩
      rw [← statusOf_ok hstatus]
      exact hcall

/-! Whole sessions. -/

variable (globals env sock ethertype destMacAddr) in
/-- A call of the session, with its result. -/
def CallStep (s : Traffic D) (x : RemoteCall × Option (List RemoteDirEntry)) (s' : Traffic D) :
    Prop :=
  ∃ fuel os, Exec (trafficClient globals env sock destMacAddr)
    (x.1.run sock ethertype destMacAddr fuel) () s os x.2 () s'

/-- The server has nothing to do for the client, and nothing is in flight. -/
structure NothingPending (sock : RawSocket) (s : Traffic D) : Prop where
  log : s.log = []
  toServer : s.toServer = []
  toClient : s.toClient = []
  pending : s.file.pendingOp ≠ .none → s.asker = none ∧ s.file.sessionId ≠ sock.sessionId

/-- No request of this kind is in flight, pending or answered in flight. -/
def Drained (sock : RawSocket) (c : RemoteCall) (s : Traffic D) : Prop :=
  Askers (fun n => ∀ frame, s.log[n]? = some frame → ¬ OfKind sock c frame) s

theorem NothingPending.accounted (h : NothingPending sock s) : Accounted globals env sock s := by
  refine ⟨fun hp => ?_,by simp [h.toClient]⟩
  obtain ⟨hasker,hsession⟩ := h.pending hp
  rw [hasker]
  exact hsession

theorem Accounted.call {x : RemoteCall × Option (List RemoteDirEntry)}
    (h : Accounted globals env sock s)
    (hs : CallStep globals env sock ethertype destMacAddr s x s') :
    During globals env sock (fun _ => True) s.log (x.1.Sends sock ethertype destMacAddr) s' := by
  obtain ⟨fuel,os,hx⟩ := hs
  have hstart : During globals env sock (fun _ => True) s.log
      (x.1.Sends sock ethertype destMacAddr) s :=
    ⟨h,⟨fun _ _ => trivial,fun _ _ _ => trivial,fun _ _ _ _ => trivial⟩,[],by simp,by simp⟩
  exact (During.kept fun _ _ => trivial).run x.1.callsIn_run hx hstart

/-- All frames of a session come from its calls. -/
theorem session_log {tr : List ((RemoteCall × Option (List RemoteDirEntry)) × Traffic D)}
    (h : Runs.Run (CallStep globals env sock ethertype destMacAddr) s tr)
    (hs : Accounted globals env sock s) :
    Accounted globals env sock (Runs.final s tr) ∧ ∀ frame ∈ (Runs.final s tr).log,
      frame ∈ s.log ∨ ∃ x ∈ tr, x.1.1.Sends sock ethertype destMacAddr frame := by
  induction h with
  | nil => exact ⟨hs,fun frame hf => .inl hf⟩
  | cons hstep _ ih =>
    have hcall := hs.call hstep
    obtain ⟨new,hnew,hall⟩ := hcall.log
    obtain ⟨hacc,hlog⟩ := ih hcall.accounted
    refine ⟨hacc,fun frame hf => ?_⟩
    obtain hf | ⟨x,hx,hsends⟩ := hlog frame hf
    · rw [hnew] at hf
      refine (List.mem_append.mp hf).imp id fun hf => ?_
      exact ⟨_,List.mem_cons_self,hall frame hf⟩
    · exact .inr ⟨x,List.mem_cons_of_mem _ hx,hsends⟩

/-- An operation on paths that is reported as done was executed for the paths of the call, by an idle
step that took up a frame of this call. -/
theorem session_fresh {before after : List ((RemoteCall × Option (List RemoteDirEntry)) × Traffic D)}
    {command : FileAckCommand} {entries : List RemoteDirEntry} (hs : NothingPending sock s)
    (hc : c.command = some command)
    (h : Runs.Run (CallStep globals env sock ethertype destMacAddr) s
      (before ++ ((c,some entries),y) :: after))
    (hd : (∀ x ∈ before, x.1.1.salt ≠ c.salt) ∨ Drained sock c (Runs.final s before)) :
    ∃ e n frame, y.read = some e ∧ e.asker = some n ∧ (Runs.final s before).log.length ≤ n ∧
      y.log[n]? = some frame ∧ c.Sends sock ethertype destMacAddr frame ∧
      HoldsRequest y.log n e.record ∧ e.Made globals env ∧ c.Executed env e := by
  obtain ⟨hbefore,hrest⟩ := h.of_append
  obtain ⟨hacc,hlog⟩ := session_log hbefore hs.accounted
  generalize hfinal : Runs.final s before = s₀ at *
  have hsent : ∀ frame ∈ s₀.log, ∃ x ∈ before, x.1.1.Sends sock ethertype destMacAddr frame := by
    intro frame hf
    refine (hlog frame hf).resolve_left ?_
    rw [hs.log]
    exact List.not_mem_nil
  have hdrained : Drained sock c s₀ := by
    refine hd.elim (fun hfirst => ?_) id
    have hall (n : ℕ) (frame : List UInt8) (hn : s₀.log[n]? = some frame) :
        ¬ OfKind sock c frame := by
      obtain ⟨x,hx,hsends⟩ := hsent frame (List.mem_of_getElem? hn)
      rw [ofKind_iff hsends]
      exact hfirst x hx
    exact ⟨fun n _ => hall n,fun _ n _ => hall n,fun _ _ n _ => hall n⟩
  cases hrest with
  | cons hstep _ =>
    obtain ⟨fuel,os,hx⟩ := hstep
    obtain ⟨hvalid,type,payload,os,offset,hreq,hx⟩ := exec_acked hc hx
    have hlate (n : ℕ) (hn : s₀.log.length ≤ n) (frame : List UInt8)
        (hf : s₀.log[n]? = some frame) : ¬ OfKind sock c frame := by
      rw [List.getElem?_eq_none hn] at hf
      cases hf
    have hstart : During globals env sock _ s₀.log (c.Sends sock ethertype destMacAddr) s₀ :=
      ⟨hacc,hdrained,[],by simp,by simp⟩
    obtain ⟨hduring,hread⟩ := sendWithAck_heard hlate ⟨type,payload,hreq,rfl⟩ hstart hx
    obtain ⟨e,he,hheard,hsession,hbody⟩ := hread offset rfl
    obtain ⟨new,hnew,hall⟩ := hduring.log
    rw [hnew] at hheard
    obtain ⟨n,frame,hasker,hn,hframe,hsends,hrecord⟩ := hheard.asked
      (fun f hf => (hsent f hf).elim fun x hx => ⟨x.1.1,hx.2⟩) hall hsession hbody
    rw [hnew]
    exact ⟨e,n,frame,he,hasker,hn,hframe,hsends,hrecord,hheard.made,
      executed_of_ack hc hvalid hsends hframe hrecord hheard.made hbody⟩

/-! A session of one call, which makes a directory. -/

theorem handled_mkdir {t : UInt32} {flags : UInt16} {path : Bytes.CString} {g : FileTransferState}
    (hn : g.pendingOp = .none) (h : RequestAt m sock .fileMkdir (filePathOpBytes t flags path)) :
    handled sock .fileMkdir (filePathOpBytes t flags path) m g = { g with
      clientMac := sock.ifAddr, sessionId := sock.sessionId, transferId := t, pathOpFlags := flags
      filename := Bytes.terminate (Bytes.snprintf 63 path), pendingOp := .mkdir } := by
  obtain ⟨hid,hflags,hpath⟩ := pathOp_slices h
  have hlen : (filePathOpBytes t flags path).length = 72 := by
    simp [filePathOpBytes]
  have hlong : 72 ≤ (UInt16.ofNat 72).toNat := by decide
  rw [handled, hlen, payloadAt, hid, hflags, hpath, ntohl_htonl, ntohs_htons,
    fileTransferHandlePacket, if_neg (not_not.mpr hn), if_neg (fun hn => hn hlong)]
  rfl

/-- The server takes the request up, DOS makes the directory, and the answer arrives. -/
theorem session_mkdir {path : Bytes.CString} {r : DosRegs} {d : D}
    (hvalid : validateRemoteName path = true) (hn : s.file.pendingOp = .none)
    (hdos : env s.dos (.mkdir path.bytes) r d) (hr : r.carry = false) :
    ∃ y, CallStep globals env sock ethertype globals.macAddr s (.mkdir path,some []) y := by
  let t := makeTransferId sock (0x4f505031 ^^^ PktType.fileMkdir.code)
  let payload := filePathOpBytes t filePathOpDirectory path
  let frame := packetFrame sock ethertype globals.macAddr .fileMkdir payload
  let buffer : Mem := fun j => frame.getD j 0
  let g : FileTransferState := { s.file with
    clientMac := sock.ifAddr, sessionId := sock.sessionId, transferId := t
    pathOpFlags := filePathOpDirectory, filename := Bytes.terminate (Bytes.snprintf 63 path)
    pendingOp := .mkdir }
  let reply := ackOf globals.macAddr g.taken .mkdir .ok g.expectedOffset
  let e : Answer D := ⟨some s.log.length,g,s.dos,d,reply,fun _ => 0⟩
  let s₂ : Traffic D := { s.sent frame with file := g, asker := some s.log.length }
  let s₃ : Traffic D := { s₂ with file := g.taken, dos := d, toClient := s.toClient ++ [e] }
  have hreq : RequestAt buffer sock .fileMkdir payload := requestAt_arrived (arrived_getD frame)
  have hdeliver : Moves globals env sock (s.sent frame) s₂ := by
    have h : Moves globals env sock (s.sent frame) _ := .deliver s.log.length frame buffer
      ⟨0,0,0,0,0,0⟩ 0 sessionMgrInit 0 (by simp [Traffic.sent]) (by simp [Traffic.sent])
      (arrived_getD frame)
    have hfile : (s.sent frame).file = s.file := rfl
    rw [hreq.handled, hfile, handled_mkdir hn hreq, if_pos hn] at h
    exact h
  have hidle : Moves globals env sock s₂ s₃ := by
    refine .idle [reply] (fun _ => 0) g.taken d ((tsrIdle_op (by simp [s₂, g])).mpr ⟨0,?_⟩)
    have hname : filenameStr g.taken = path.bytes := nameOf_snprintf (validateRemoteName_le hvalid)
    refine exec_mkdir.mpr ⟨r,?_,rfl,?_⟩
    · rw [hname]
      exact hdos
    · rw [hr]
      rfl
  have harr := arrived_getD (e.frame globals)
  have haccept : run (fun j => (e.frame globals).getD j 0) (recvFileAck sock globals.macAddr t
      FileAckCommand.mkdir.code (e.frame globals).length) = .ok g.expectedOffset :=
    recvFileAck_accepts (Reply.length_frame _ _) harr
  refine ⟨{ s₃ with read := some e },1,[],?_⟩
  refine exec_bind.mpr ⟨[],true,(),{ s₃ with read := some e },[],?_,⟨rfl,rfl,rfl,rfl⟩,rfl⟩
  rw [exec_remote, fileRemoteMkdir, sendPathOp, hvalid]
  refine exec_bind.mpr ⟨[],some g.expectedOffset,(),{ s₃ with read := some e },[],?_,
    ⟨rfl,rfl,rfl,rfl⟩,rfl⟩
  have hrecv : trafficCall globals env sock globals.macAddr (s.sent frame) .recv
      (.received (e.frame globals).length fun j => (e.frame globals).getD j 0)
      { s₃ with read := some e } :=
    ⟨s₃,.tail (.single hdeliver) hidle,.inr (.inr ⟨e,by simp [s₃],_,harr,rfl,rfl⟩)⟩
  have hawait : Exec (trafficCall globals env sock globals.macAddr)
      (awaitFileAck sock globals.macAddr t .mkdir 1) () (s.sent frame) [] (some g.expectedOffset) ()
      { s₃ with read := some e } := by
    refine ⟨_,_,hrecv,?_⟩
    simp only [done_bind, haccept]
    exact ⟨rfl,rfl,rfl,rfl⟩
  refine ⟨.sent true,s.sent frame,⟨s,.refl,.inr ⟨rfl,rfl⟩⟩,?_⟩
  exact (exec_bind (p := awaitFileAck sock globals.macAddr t .mkdir 1)).mpr
    ⟨[],_,(),_,[],hawait,⟨rfl,rfl,rfl,rfl⟩,rfl⟩

/-- Nothing has happened yet. -/
def quietTraffic : Traffic Unit := ⟨fileTransferInit,(),none,[],[],[],none⟩

def directoryD : Bytes.CString := ⟨[0x44],by decide⟩

theorem session_fresh_mkdir : ∃ y : Traffic Unit, ∃ e n frame, y.read = some e ∧ e.asker = some n ∧
    0 ≤ n ∧ y.log[n]? = some frame ∧
    (RemoteCall.mkdir directoryD).Sends ⟨nullIfAddr,0⟩ 0 nullIfAddr frame ∧
    HoldsRequest y.log n e.record ∧ e.Made ⟨nullIfAddr,0⟩ (fun _ _ r _ => r.carry = false) ∧
    (RemoteCall.mkdir directoryD).Executed (fun _ _ r _ => r.carry = false) e := by
  obtain ⟨y,hy⟩ := @session_mkdir Unit ⟨nullIfAddr,0⟩ (fun _ _ r _ => r.carry = false)
    ⟨nullIfAddr,0⟩ 0 quietTraffic directoryD ⟨false,0,0,0,0,[]⟩ () (by decide) rfl rfl rfl
  have hrun : Runs.Run (CallStep ⟨nullIfAddr,0⟩ (fun _ _ r _ => r.carry = false) ⟨nullIfAddr,0⟩ 0
      nullIfAddr) quietTraffic ([] ++ ((RemoteCall.mkdir directoryD,some []),y) :: []) :=
    .cons hy (.nil y)
  exact ⟨y,session_fresh ⟨rfl,rfl,rfl,by decide⟩ rfl hrun (.inl (by simp))⟩

end RmtDos
