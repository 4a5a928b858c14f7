import RmtDos.Client.FreshAcks
import RmtDos.Server.PageSource

/-! A listing that the client gets is of the directory that it asked for: each entry was found by a
search for the path of that call, if the server was not still listing another directory for the
client and nothing of an earlier listing was left over. -/
namespace RmtDos
open Memory Reading Resumable Prog Relation

variable {D : Type} {globals : PktdrvGlobals} {env : D → DosCall → DosRegs → D → Prop}
  {sock : RawSocket} {ethertype : UInt16} {destMacAddr : MacAddr} {m : Mem} {mac : MacAddr}
  {g g' : FileTransferState} {p : Packet} {log : List (List UInt8)} {Q : ℕ → Prop} {fuel : ℕ}

/-! What the server lists. -/

/-- The server lists a directory for the client. -/
structure Listing (sock : RawSocket) (g : FileTransferState) : Prop where
  active : g.active = true
  mode : g.mode = .dir
  request : g.dirRequestId = makeRequestId sock

/-- The path is that of a request at a place that meets `Q`. -/
def ListingFrom (sock : RawSocket) (Q : ℕ → Prop) (log : List (List UInt8)) (g : FileTransferState) :
    Prop :=
  Listing sock g → ∃ n frame buffer, Q n ∧ log[n]? = some frame ∧ Arrived frame buffer ∧
    PktType.ofCode (ntohs (slice buffer 24 2)) = some .dirListBegin ∧
    ntohl (slice buffer 26 4) = g.dirRequestId ∧ g.dirPath = Bytes.terminate (arrayAt buffer 30 128)

theorem ListingFrom.append (h : ListingFrom sock Q log g) (new : List (List UInt8)) :
    ListingFrom sock Q (log ++ new) g := by
  intro hl
  obtain ⟨n,frame,buffer,hQ,hn,hrest⟩ := h hl
  refine ⟨n,frame,buffer,hQ,?_,hrest⟩
  rw [List.getElem?_append_left (List.getElem?_eq_some_iff.mp hn).1, hn]

/-- A record that lists nothing new. -/
structure SameListing (g g' : FileTransferState) : Prop where
  listing : g'.active = true → g'.mode = .dir → g.active = true ∧ g.mode = .dir
  request : g'.dirRequestId = g.dirRequestId
  path : g'.dirPath = g.dirPath

theorem ListingFrom.same (h : ListingFrom sock Q log g) (hs : SameListing g g') :
    ListingFrom sock Q log g' := by
  intro hl
  obtain ⟨ha,hm⟩ := hs.listing hl.active hl.mode
  rw [hs.path, hs.request]
  exact h ⟨ha,hm,hs.request ▸ hl.request⟩

theorem SameListing.of_eq (ha : g'.active = g.active) (hm : g'.mode = g.mode)
    (hr : g'.dirRequestId = g.dirRequestId) (hp : g'.dirPath = g.dirPath) : SameListing g g' :=
  ⟨fun hl hd => ⟨ha ▸ hl,hm ▸ hd⟩,hr,hp⟩

/-- A packet begins a listing, ends all, or changes nothing about it. -/
theorem handlePacket_listing (p : Packet) (g : FileTransferState) :
    SameListing g (fileTransferHandlePacket p g) ∨ (fileTransferHandlePacket p g).active = false ∨
      ∃ r path, p.payload = .dirListBegin r path ∧
        (fileTransferHandlePacket p g).dirRequestId = r ∧
        (fileTransferHandlePacket p g).dirPath = Bytes.terminate path := by
  obtain heq | ⟨-,ha⟩ := handlePacket_cases p g
  · rw [heq]
    exact .inl (.of_eq rfl rfl rfl rfl)
  · generalize fileTransferHandlePacket p g = g' at ha
    cases ha with
    | dirListBegin r path hp => exact .inr (.inr ⟨r,path,hp,rfl,rfl⟩)
    | dirListEnd => exact .inr (.inl rfl)
    | _ => exact .inl (.of_eq rfl rfl rfl rfl)

/-- No idle step begins a listing. -/
theorem idleOp_listing {op : FileOp} {d d' : D} {os : List Reply}
    (h : Exec env (idleOp mac fuel op) g d os () g' d') : SameListing g g' := by
  by_cases hop : op = .none
  · subst hop
    obtain ⟨-,-,rfl,-⟩ := h
    exact .of_eq rfl rfl rfl rfl
  obtain ⟨hlast,-⟩ := idleOp_answer hop h
  have hrequest : g'.dirRequestId = g.dirRequestId := congrArg (fun x => x.2.2.2.2.1) hlast
  have hpath : g'.dirPath = g.dirPath := congrArg (fun x => x.2.2.2.2.2) hlast
  refine ⟨fun ha hm => ?_,hrequest,hpath⟩
  cases op with
  | none => exact absurd rfl hop
  | putBegin =>
    obtain ⟨_,_,-,-,rfl,-⟩ := exec_putBegin.mp h
    simp only at hm
    split at hm <;> cases hm
  | putData =>
    obtain ⟨-,-,rfl,-⟩ | ⟨-,-,-,⟨-,rfl,-⟩ | ⟨-,rfl,-⟩⟩ := exec_putData.mp h
    · exact ⟨ha,hm⟩
    · exact ⟨ha,hm⟩
    · exact ⟨ha,hm⟩
  | putEnd =>
    obtain ⟨-,rfl,-⟩ := exec_putEnd.mp h
    cases ha
  | ack =>
    obtain ⟨-,rfl,-⟩ := exec_ack.mp h
    exact ⟨ha,hm⟩
  | getBegin =>
    obtain ⟨_,_,_,-,-,⟨-,-,rfl,-⟩ | ⟨-,_,_,-,⟨-,-,rfl,-⟩ | ⟨-,-,rfl,-⟩⟩⟩ := exec_getBegin.mp h
    · cases ha
    · cases hm
    · cases ha
  | getDataReq =>
    obtain ⟨chunk,count,offset,rfl⟩ := getDataReq_record h
    exact ⟨ha,hm⟩
  | getEnd =>
    obtain ⟨-,rfl,-⟩ := exec_getEnd.mp h
    cases ha
  | dirListDataReq =>
    obtain ⟨result,hs,-⟩ := exec_dirListDataReq.mp h
    rw [eq_of_sansDir (hs.keeps collectDirEntries_keeps)] at ha hm
    exact ⟨ha,hm⟩
  | mkdir =>
    obtain ⟨-,-,rfl,-⟩ := exec_mkdir.mp h
    exact ⟨ha,hm⟩
  | delete =>
    obtain ⟨-,-,rfl,-⟩ := exec_delete.mp h
    exact ⟨ha,hm⟩
  | rename =>
    obtain ⟨-,-,rfl,-⟩ | ⟨-,-,-,rfl,-⟩ := exec_rename.mp h
    · exact ⟨ha,hm⟩
    · exact ⟨ha,hm⟩
  | copy =>
    obtain ⟨-,-,rfl,-⟩ | ⟨-,result,g₁,hs,rfl,-⟩ := exec_copy.mp h
    · exact ⟨ha,hm⟩
    · have hkeep := eq_of_sansChunk (hs.keeps dosCopyFile_keeps)
      rw [hkeep] at ha hm
      exact ⟨ha,hm⟩

/-! The invariant. -/

/-- An answer to a request for a page, for the client. -/
def Answer.OfPage (sock : RawSocket) (e : Answer D) : Prop :=
  e.record.pendingOp = .dirListDataReq ∧ e.record.sessionId = sock.sessionId

variable (sock) in
/-- The listing under way and the pages in flight are for requests at places that meet `Q`. -/
structure Listed (Q : ℕ → Prop) (s : Traffic D) : Prop where
  record : ListingFrom sock Q s.log s.file
  pages : ∀ e ∈ s.toClient, e.OfPage sock → ListingFrom sock Q s.log e.record

variable {s s' : Traffic D} {S : List UInt8 → Prop}

theorem Listed.move (h : Listed sock Q s) (ha : Askers Q s) (hs : Moves globals env sock s s') :
    Listed sock Q s' := by
  cases hs with
  | network toServer toClient hs hc => exact ⟨h.record,fun e he => h.pages e (hc he)⟩
  | deliver n frame buffer video now sessions received hn hf harr =>
    refine ⟨?_,h.pages⟩
    obtain heq | ⟨type,htype,heq⟩ :=
      @protocolProcess_record s.file buffer globals video now sessions received
    · rw [heq]
      exact h.record
    · rw [heq]
      obtain hsame | hnone | ⟨r,path,hp,hr,hpath⟩ :=
        handlePacket_listing (packetAt buffer type) s.file
      · exact h.record.same hsame
      · exact fun hl => absurd hl.active (by rw [hnone]; decide)
      · intro _
        cases type with
        | dirListBegin =>
          injection hp with hr' hpath'
          refine ⟨n,frame,buffer,ha.requests n hn,hf,harr,htype,?_,?_⟩
          · rw [hr, hr']
          · rw [hpath, hpath']
        | _ => cases hp
  | packet p hp =>
    refine ⟨?_,h.pages⟩
    obtain hsame | hnone | ⟨r,path,hpay,hr,-⟩ := handlePacket_listing p s.file
    · exact h.record.same hsame
    · exact fun hl => absurd hl.active (by rw [hnone]; decide)
    · exact fun hl => absurd (hr.symm.trans hl.request) (hp.2 r path hpay)
  | idle sent sendBuffer file dos hidle =>
    obtain ⟨-,hnew⟩ := @idle_answers _ globals env s sent sendBuffer file dos hidle
    constructor
    · by_cases hop : s.file.pendingOp = .none
      · obtain ⟨-,heq⟩ := (tsrIdle_none hop).mp hidle
        obtain ⟨rfl,-⟩ := Prod.mk.inj heq
        exact h.record
      · obtain ⟨fuel,hx⟩ := (tsrIdle_op hop).mp hidle
        have htaken : ListingFrom sock Q s.log s.file.taken :=
          h.record.same (.of_eq rfl rfl rfl rfl)
        exact htaken.same (idleOp_listing hx)
    · intro e he hpage
      obtain he | he := List.mem_append.mp he
      · exact h.pages e he hpage
      · rw [(hnew e he).2.1]
        exact h.record

variable (globals env sock) in
/-- A call, with what is listed meanwhile. -/
structure DuringListing (Q : ℕ → Prop) (log : List (List UInt8)) (S : List UInt8 → Prop)
    (s : Traffic D) : Prop where
  during : During globals env sock Q log S s
  listed : Listed sock Q s

theorem DuringListing.kept (hQ : ∀ n, log.length ≤ n → Q n) :
    Preserved globals env sock S (DuringListing globals env sock Q log S) where
  move s s' h hs := ⟨(During.kept hQ).move s s' h.during hs,h.listed.move h.during.askers hs⟩
  sent s frame h hf := ⟨(During.kept hQ).sent s frame h.during hf,h.listed.record.append _,
    fun e he hpage => (h.listed.pages e he hpage).append _⟩
  read s e h := ⟨(During.kept hQ).read s e h.during,h.listed.record,h.listed.pages⟩

/-! The pages that the client accepts. -/

theorem awaitDirPage_await (t : UInt32) (start : UInt16) (max : ℕ) :
    awaitDirPage sock destMacAddr t start max fuel =
      awaitFrame (recvDirPage sock destMacAddr t start max 1514) fuel := by
  induction fuel with
  | zero => rfl
  | succ fuel ih =>
    rw [awaitDirPage, awaitFrame, ih]
    refine congrArg (Prog.call (fun _ => SocketCall.recv) fun _ s => s) (funext fun r => ?_)
    cases r with
    | sent => rfl
    | timeout => rfl
    | received length buf =>
      simp only [done_bind]
      cases run buf (recvDirPage sock destMacAddr t start max 1514 length) <;> rfl

theorem fetchDirPage_eq (start : UInt16) (max attempts : ℕ) :
    fetchDirPage sock ethertype destMacAddr fuel start max attempts =
      sendAttempts sock ethertype destMacAddr .dirListDataReq
        (dirListDataReqBytes (makeRequestId sock) start (UInt16.ofNat remoteDirPageEntries))
        (awaitFrame (recvDirPage sock destMacAddr (makeRequestId sock) start max 1514) fuel)
        attempts := by
  induction attempts with
  | zero => rfl
  | succ attempts ih =>
    rw [fetchDirPage, sendAttempts, ih, awaitDirPage_await]
    refine congrArg (Prog.bind _) (funext fun ok => ?_)
    cases ok with
    | false => rfl
    | true =>
      refine congrArg (Prog.bind _) (funext fun r => ?_)
      cases r <;> rfl

theorem recvDirPage_noAnswer {t : UInt32} {start : UInt16} {max mapped length : ℕ}
    {entries : List RemoteDirEntry} (h : NoAnswer sock destMacAddr m) :
    run m (recvDirPage sock destMacAddr t start max mapped length) ≠ .ok entries := by
  have hmine := h 19 (.inr (.inr rfl))
  simp only [recvDirPage, run_ite, run_bind, run_pure, hmine, true_or, if_true]
  split_ifs <;> simp

/-- An accepted page is of the session and the request, and holds what a search for the path of the
record has found. -/
theorem recvDirPage_found {e : Answer D} {t : UInt32} {start : UInt16} {max length : ℕ}
    {entries : List RemoteDirEntry} (hmade : e.Made globals env)
    (harr : Arrived (e.frame globals) m)
    (h : run m (recvDirPage sock destMacAddr t start max 1514 length) = .ok entries) :
    e.OfPage sock ∧ e.record.dirRequestId = t ∧ ∃ pattern l,
      buildDirPattern 133 (dirPathStr e.record) = some pattern ∧ AllFound env pattern e.before l ∧
      entries = l.map remoteDirEntry := by
  simp only [recvDirPage, run_ite, run_bind, run_be32, run_be16, run_pure] at h
  split_ifs at h with hshort hmine hbad
  simp only [not_or, Bool.not_eq_false, not_not] at hmine hbad
  obtain ⟨hfrom,-,hrequest,-⟩ := hmine
  obtain ⟨-,hsession,htype⟩ := fromServer_reply harr hfrom
  obtain ⟨hop,fuel,g',hx⟩ := hmade
  obtain ⟨-,payloadLen,body,hreply,hbody⟩ := idleOp_answer hop hx
  have hreply := List.singleton_inj.mp hreply
  rw [hreply] at hsession htype
  cases hbody with
  | ack => cases htype
  | data => cases htype
  | page hpage count status es =>
    rw [hpage] at hx
    obtain herror | ⟨pattern,l,hpattern,hfound,hl,hgood⟩ := idle_found hx
    · -- an error is not accepted
      have herror := List.singleton_inj.mp herror
      have h34 : slice m 34 2 = htons 2 := by
        refine Reply.front harr ?_ rfl (by decide)
        rw [herror]
        simp [pageOf, Reply.stores, ReplyBody.stores, FileAckStatus.code]
      rw [h34, ntohs_htons] at hbad
      exact absurd hbad.1 (by decide)
    · have hgood := List.singleton_inj.mp hgood
      have harr' : Arrived (Reply.frame globals (pageReply globals.macAddr e.record.taken
          (l.map dtaEntry)) e.sendBuffer) m := by
        rw [← hgood]
        exact harr
      have hat := pageAt_arrived globals e.record.taken l hl harr'
      have hcount : (UInt16.ofNat l.length).toNat = l.length := by
        rw [UInt16.toNat_ofNat']
        omega
      have hread := @run_readDirEntries m 36 1514 l hat.entries (by omega)
      rw [hat.count, ntohs_htons, hcount, hread] at h
      rw [hat.request, ntohl_htonl] at hrequest
      exact ⟨⟨hpage,hsession⟩,hrequest,pattern,l,hpattern,hfound,(Received.ok.inj h).symm⟩

/-- A pending request for a page was taken up by a server that lists a directory. -/
theorem HoldsRequest.page {n : ℕ} (h : HoldsRequest log n g) (hp : g.pendingOp = .dirListDataReq) :
    g.active = true ∧ g.mode = .dir ∧ ∃ frame buffer, log[n]? = some frame ∧ Arrived frame buffer ∧
      ntohl (slice buffer 26 4) = g.dirRequestId := by
  obtain ⟨frame,buffer,type,g₀,hn,ha,-,hnone,rfl⟩ := h
  obtain heq | ⟨-,hacc⟩ := handlePacket_cases (packetAt buffer type) g₀
  · rw [heq, hnone] at hp
    cases hp
  · generalize fileTransferHandlePacket (packetAt buffer type) g₀ = g' at hp hacc ⊢
    cases hacc with
    | dirListDataReq r start max hpay hactive hmode hr =>
      refine ⟨hactive,hmode,frame,buffer,hn,ha,?_⟩
      cases type with
      | dirListDataReq =>
        injection hpay with hr'
        exact hr'.trans hr
      | _ => cases hpay
    | dirListBegin => exact absurd (hnone.symm.trans hp) (by decide)
    | dirListEnd => exact absurd (hnone.symm.trans hp) (by decide)
    | _ => cases hp

theorem Request.path {path : Bytes.CString} {payload : List UInt8}
    (h : (RemoteCall.list path).Request sock .dirListBegin payload)
    (hreq : RequestAt m sock .dirListBegin payload) :
    Bytes.cstr (Bytes.terminate (arrayAt m 30 128)).toList = path.bytes.take 127 := by
  obtain ⟨-,rfl⟩ | ⟨h | h,-⟩ := h
  rotate_left
  · cases h
  · cases h
  have hlen : (dirListBeginBytes (RemoteCall.id sock (.list path)) path).length = 4+128 := by
    simp [dirListBeginBytes]
  have hpay := hreq.payload
  rw [hlen, dirListBeginBytes] at hpay
  rw [arrayAt_eq (slice_eq_append hpay (by simp)).2, cstr_terminate_snprintf]

variable (globals env sock ethertype destMacAddr) in
/-- The entry was found by a search for the path, in an idle step that took up a frame that the call
sent behind `start` others. -/
def FoundFor (path : Bytes.CString) (start : ℕ) (log : List (List UInt8)) (x : RemoteDirEntry) :
    Prop :=
  ∃ (e : Answer D) (n : ℕ) (frame : List UInt8) (l : List (Vector UInt8 43)), e.asker = some n ∧
    start ≤ n ∧ log[n]? = some frame ∧
    (RemoteCall.list path).Sends sock ethertype destMacAddr frame ∧ HoldsRequest log n e.record ∧
    e.Made globals env ∧ dirPathStr e.record = path.bytes.take 127 ∧
    AllFound env (dirPattern path) e.before l ∧ x ∈ l.map remoteDirEntry

theorem FoundFor.mono {path : Bytes.CString} {start : ℕ} {log' : List (List UInt8)}
    {x : RemoteDirEntry} (h : FoundFor globals env sock ethertype destMacAddr path start log x)
    (hlog : log <+: log') : FoundFor globals env sock ethertype destMacAddr path start log' x := by
  obtain ⟨new,rfl⟩ := hlog
  obtain ⟨e,n,frame,l,hasker,hstart,hn,hsends,hrecord,hrest⟩ := h
  refine ⟨e,n,frame,l,hasker,hstart,?_,hsends,?_,hrest⟩
  · rw [List.getElem?_append_left (List.getElem?_eq_some_iff.mp hn).1, hn]
  · have hof : RecordOf sock log e.record (some n) := hrecord
    exact hof.append new

/-- What is known of an answer in flight during a listing. -/
structure HeardPage (globals : PktdrvGlobals) (env : D → DosCall → DosRegs → D → Prop)
    (sock : RawSocket) (Q : ℕ → Prop) (log : List (List UInt8)) (e : Answer D) : Prop where
  heard : Heard globals env sock Q log e
  listing : e.OfPage sock → ListingFrom sock Q log e.record

/-- The entries of an accepted page were found for the call. -/
theorem HeardPage.found {e : Answer D} {path : Bytes.CString} {new : List (List UInt8)}
    {pattern : List UInt8} {l : List (Vector UInt8 43)} {x : RemoteDirEntry}
    (h : HeardPage globals env sock
      (fun n => ∀ frame, log[n]? = some frame → ¬ OfKind sock (.list path) frame) (log ++ new) e)
    (hlog : ∀ frame ∈ log, ∃ c' : RemoteCall, c'.Sends sock ethertype destMacAddr frame)
    (hnew : ∀ frame ∈ new, (RemoteCall.list path).Sends sock ethertype destMacAddr frame)
    (hpage : e.OfPage sock) (hrequest : e.record.dirRequestId = makeRequestId sock)
    (hpattern : buildDirPattern 133 (dirPathStr e.record) = some pattern)
    (hfound : AllFound env pattern e.before l) (hx : x ∈ l.map remoteDirEntry) :
    FoundFor globals env sock ethertype destMacAddr path log.length (log ++ new) x := by
  have hrecord := h.heard.record
  cases hasker : e.asker with
  | none =>
    rw [hasker] at hrecord
    exact absurd hpage.2 hrecord
  | some n =>
    rw [hasker] at hrecord
    obtain ⟨hactive,hmode,frame,buffer,hn,ha,hid⟩ := hrecord.page hpage.1
    obtain ⟨hlate,hsends⟩ :=
      sends_of_id (h.heard.asker n hasker) hlog hnew hn ha (hid.trans hrequest)
    obtain ⟨k,begin,buffer',hQ,hk,ha',htype,hid',hpath⟩ := h.listing hpage ⟨hactive,hmode,hrequest⟩
    obtain ⟨-,type,payload,hreq,rfl⟩ := sends_of_id hQ hlog hnew hk ha' (hid'.trans hrequest)
    have hat := requestAt_arrived ha'
    rw [hat.type, ntohs_htons, ofCode_code] at htype
    obtain rfl := Option.some.inj htype
    have hstr : dirPathStr e.record = path.bytes.take 127 := by
      rw [dirPathStr, hpath]
      exact Request.path hreq hat
    rw [hstr, buildDirPattern_dirPattern] at hpattern
    obtain rfl := Option.some.inj hpattern
    exact ⟨e,n,frame,l,hasker,hlate,hn,hsends,hrecord,h.heard.made,hstr,hfound,hx⟩

/-! A listing. -/

section
variable {path : Bytes.CString} {y : Traffic D} {os : List Empty}

variable (globals env sock ethertype destMacAddr) in
/-- `log` was sent before the listing, by calls. -/
structure InListing (path : Bytes.CString) (log : List (List UInt8)) (s : Traffic D) : Prop where
  during : DuringListing globals env sock
    (fun n => ∀ frame, log[n]? = some frame → ¬ OfKind sock (.list path) frame) log
    ((RemoteCall.list path).Sends sock ethertype destMacAddr) s
  log : ∀ frame ∈ log, ∃ c' : RemoteCall, c'.Sends sock ethertype destMacAddr frame

theorem InListing.preserved : Preserved globals env sock
    ((RemoteCall.list path).Sends sock ethertype destMacAddr)
    (InListing globals env sock ethertype destMacAddr path log) := by
  have hlate (n : ℕ) (hn : log.length ≤ n) (frame : List UInt8) (hf : log[n]? = some frame) :
      ¬ OfKind sock (.list path) frame := by
    rw [List.getElem?_eq_none hn] at hf
    cases hf
  have hkept := @DuringListing.kept D globals env sock log _
    ((RemoteCall.list path).Sends sock ethertype destMacAddr) hlate
  exact ⟨fun s s' h hs => ⟨hkept.move s s' h.during hs,h.log⟩,
    fun s frame h hf => ⟨hkept.sent s frame h.during hf,h.log⟩,
    fun s e h => ⟨hkept.read s e h.during,h.log⟩⟩

variable (globals env sock ethertype destMacAddr) in
/-- An answer in flight during a listing, and what was sent by then. -/
def HeardListing (path : Bytes.CString) (log now : List (List UInt8)) (e : Answer D) : Prop :=
  HeardPage globals env sock
      (fun n => ∀ frame, log[n]? = some frame → ¬ OfKind sock (.list path) frame) now e ∧
    ∃ new, now = log ++ new ∧
      (∀ frame ∈ new, (RemoteCall.list path).Sends sock ethertype destMacAddr frame) ∧
      ∀ frame ∈ log, ∃ c' : RemoteCall, c'.Sends sock ethertype destMacAddr frame

theorem InListing.heard (h : InListing globals env sock ethertype destMacAddr path log s)
    {e : Answer D} (he : e ∈ s.toClient) :
    HeardListing globals env sock ethertype destMacAddr path log s.log e := by
  obtain ⟨new,hnew,hall⟩ := h.during.during.log
  exact ⟨⟨h.during.during.heard he,h.during.listed.pages e he⟩,new,hnew,hall,h.log⟩

theorem fetchDirPage_found {start : UInt16} {max attempts : ℕ} {page : List RemoteDirEntry}
    (hs : InListing globals env sock ethertype destMacAddr path log s)
    (h : Exec (trafficCall globals env sock destMacAddr)
      (fetchDirPage sock ethertype destMacAddr fuel start max attempts) () s os (some page) () y) :
    InListing globals env sock ethertype destMacAddr path log y ∧ s.log <+: y.log ∧
      ∀ x ∈ page, FoundFor globals env sock ethertype destMacAddr path log.length y.log x := by
  rw [fetchDirPage_eq] at h
  have hsend : (RemoteCall.list path).Sends sock ethertype destMacAddr (packetFrame sock ethertype
      destMacAddr .dirListDataReq
      (dirListDataReqBytes (makeRequestId sock) start (UInt16.ofNat remoteDirPageEntries))) :=
    ⟨_,_,.inr ⟨.inl rfl,_,List.append_assoc ..⟩,rfl⟩
  have hrule := (InListing.preserved.and (preserved_log s.log)).attempts
    (J := HeardListing globals env sock ethertype destMacAddr path log)
    (P := fun page e => e.OfPage sock ∧ e.record.dirRequestId = makeRequestId sock ∧
      ∃ pattern l, buildDirPattern 133 (dirPathStr e.record) = some pattern ∧
        AllFound env pattern e.before l ∧ page = l.map remoteDirEntry)
    (fun x e hx he => hx.1.heard he) hsend (fun _ _ _ hbuf => recvDirPage_noAnswer hbuf)
    (fun e _ _ _ he harr hrun => recvDirPage_found he.1.heard.made harr hrun)
    ⟨hs,List.prefix_refl _⟩ h
  obtain ⟨⟨hy,hgrown⟩,hread⟩ := hrule
  obtain ⟨e,-,⟨hheard,new,hnew,hall,hlog⟩,hpage,hrequest,pattern,l,hpattern,hfound,rfl⟩ :=
    hread page rfl
  refine ⟨hy,hgrown,fun x hx => ?_⟩
  rw [hnew] at hheard ⊢
  exact hheard.found hlog hall hpage hrequest hpattern hfound hx

theorem fetchDirPages_found {maxEntries pages : ℕ} {had entries : List RemoteDirEntry}
    (hs : InListing globals env sock ethertype destMacAddr path log s)
    (hhad : ∀ x ∈ had, FoundFor globals env sock ethertype destMacAddr path log.length s.log x)
    (h : Exec (trafficCall globals env sock destMacAddr)
      (fetchDirPages sock ethertype destMacAddr fuel maxEntries pages had) () s os (some entries) ()
      y) :
    InListing globals env sock ethertype destMacAddr path log y ∧
      ∀ x ∈ entries, FoundFor globals env sock ethertype destMacAddr path log.length y.log x := by
  induction pages generalizing s os had with
  | zero => exact h.elim
  | succ pages ih =>
    simp only [fetchDirPages, bind_eq, pure_eq, exec_ite, exec_done] at h
    obtain ⟨-,h⟩ | ⟨-,-,hsome,-,rfl⟩ := h
    · obtain ⟨_,r,_,s₁,_,hpage,hk,-⟩ := exec_bind.mp h
      cases r with
      | none => cases hk.2.1
      | some page =>
        obtain ⟨hs₁,hgrown,hfound⟩ := fetchDirPage_found hs hpage
        have hall : ∀ x ∈ had ++ page,
            FoundFor globals env sock ethertype destMacAddr path log.length s₁.log x := by
          intro x hx
          obtain hx | hx := List.mem_append.mp hx
          · exact (hhad x hx).mono hgrown
          · exact hfound x hx
        simp only [exec_ite, exec_done] at hk
        obtain ⟨-,-,hsome,-,rfl⟩ | ⟨-,hk⟩ := hk
        · rw [Option.some.inj hsome]
          exact ⟨hs₁,hall⟩
        · exact ih hs₁ hall hk
    · rw [Option.some.inj hsome]
      exact ⟨hs,hhad⟩

/-- All entries of a listing were found for it. -/
theorem remoteDirFetch_found {maxEntries : ℕ} {entries : List RemoteDirEntry}
    (hs : InListing globals env sock ethertype destMacAddr path log s)
    (h : Exec (trafficCall globals env sock destMacAddr)
      (remoteDirFetch sock ethertype destMacAddr fuel maxEntries path) () s os (some entries) () y) :
    ∀ x ∈ entries, FoundFor globals env sock ethertype destMacAddr path log.length y.log x := by
  obtain ⟨_,ok,_,s₁,_,hbegin,hk,-⟩ := exec_bind.mp h
  have hs₁ := InListing.preserved.send ⟨_,_,.inl ⟨rfl,rfl⟩,rfl⟩ hs hbegin
  cases ok with
  | false => cases hk.2.1
  | true =>
    obtain ⟨_,r,_,s₂,_,hpages,hk,-⟩ := exec_bind.mp hk
    cases r with
    | none => cases hk.2.1
    | some es =>
      obtain ⟨hs₂,hfound⟩ := fetchDirPages_found hs₁ (by simp) hpages
      obtain ⟨_,ok,_,s₃,_,hend,hk,-⟩ := exec_bind.mp hk
      obtain ⟨-,hsome,-,rfl⟩ := hk
      have hgrown := (preserved_log s₂.log).send (S := fun _ => True) trivial (List.prefix_refl _) hend
      rw [Option.some.inj hsome]
      exact fun x hx => (hfound x hx).mono hgrown

end

/-! Whole sessions. -/

theorem ListingFrom.imp {Q' : ℕ → Prop} (h : ListingFrom sock Q log g) (hQ : ∀ n, Q n → Q' n) :
    ListingFrom sock Q' log g := by
  intro hl
  obtain ⟨n,frame,buffer,hn,hrest⟩ := h hl
  exact ⟨n,frame,buffer,hQ n hn,hrest⟩

theorem session_listed {tr : List ((RemoteCall × Option (List RemoteDirEntry)) × Traffic D)}
    (h : Runs.Run (CallStep globals env sock ethertype destMacAddr) s tr)
    (hs : Accounted globals env sock s) (hl : Listed sock (fun _ => True) s) :
    Listed sock (fun _ => True) (Runs.final s tr) := by
  induction h with
  | nil => exact hl
  | @cons s s' x tr hstep _ ih =>
    have hcall := hs.call hstep
    obtain ⟨fuel,os,hx⟩ := hstep
    have hstart : DuringListing globals env sock (fun _ => True) s.log
        (x.1.Sends sock ethertype destMacAddr) s :=
      ⟨⟨hs,⟨fun _ _ => trivial,fun _ _ _ => trivial,fun _ _ _ _ => trivial⟩,[],by simp,by simp⟩,hl⟩
    have hend := (DuringListing.kept fun _ _ => trivial).run x.1.callsIn_run hx hstart
    exact ih hcall.accounted hend.listed

/-- What a listing returns was found for its own path, by idle steps that took up frames of this
call, if it is the first of the session, or nothing of an earlier one is left. -/
theorem session_listing {before after : List ((RemoteCall × Option (List RemoteDirEntry)) × Traffic D)}
    {path : Bytes.CString} {entries : List RemoteDirEntry} {y : Traffic D} (hs : NothingPending sock s)
    (hl : ¬ Listing sock s.file)
    (h : Runs.Run (CallStep globals env sock ethertype destMacAddr) s
      (before ++ ((.list path,some entries),y) :: after))
    (hd : (∀ x ∈ before, x.1.1.salt ≠ (RemoteCall.list path).salt) ∨
      Drained sock (.list path) (Runs.final s before) ∧ ¬ Listing sock (Runs.final s before).file) :
    ∀ x ∈ entries, FoundFor globals env sock ethertype destMacAddr path
      (Runs.final s before).log.length y.log x := by
  obtain ⟨hbefore,hrest⟩ := h.of_append
  obtain ⟨hacc,hlog⟩ := session_log hbefore hs.accounted
  have hlisted := session_listed hbefore hs.accounted
    ⟨fun h => absurd h hl,by simp [hs.toClient]⟩
  generalize hfinal : Runs.final s before = s₀ at *
  have hsent : ∀ frame ∈ s₀.log, ∃ x ∈ before, x.1.1.Sends sock ethertype destMacAddr frame := by
    intro frame hf
    refine (hlog frame hf).resolve_left ?_
    rw [hs.log]
    exact List.not_mem_nil
  have hstart : Askers (fun n => ∀ frame, s₀.log[n]? = some frame → ¬ OfKind sock (.list path) frame)
      s₀ ∧ Listed sock (fun n => ∀ frame, s₀.log[n]? = some frame →
        ¬ OfKind sock (.list path) frame) s₀ := by
    obtain hfirst | ⟨hdrained,hidle⟩ := hd
    · have hall (n : ℕ) (frame : List UInt8) (hn : s₀.log[n]? = some frame) :
          ¬ OfKind sock (.list path) frame := by
        obtain ⟨x,hx,hsends⟩ := hsent frame (List.mem_of_getElem? hn)
        rw [ofKind_iff hsends]
        exact hfirst x hx
      exact ⟨⟨fun n _ => hall n,fun _ n _ => hall n,fun _ _ n _ => hall n⟩,
        hlisted.record.imp fun n _ => hall n,fun e he hp => (hlisted.pages e he hp).imp fun n _ => hall n⟩
    · refine ⟨hdrained,fun h => absurd h hidle,fun e he hpage hle => ?_⟩
      -- a page of an earlier listing would still be in flight
      exfalso
      have hrecord := (hacc.answers e he).2
      cases hasker : e.asker with
      | none =>
        rw [hasker] at hrecord
        exact hrecord hpage.2
      | some n =>
        rw [hasker] at hrecord
        obtain ⟨-,-,frame,buffer,hn,ha,hid⟩ := hrecord.page hpage.1
        obtain ⟨x,-,hsends⟩ := hsent frame (List.mem_of_getElem? hn)
        rw [hsends.id ha, ntohl_htonl] at hid
        have hkind := hsends.ofKind
        rw [OfKind, hid, hle.request] at hkind
        exact hdrained.answers e he n hasker frame hn hkind
  cases hrest with
  | cons hstep _ =>
    obtain ⟨fuel,os,hx⟩ := hstep
    have hin : InListing globals env sock ethertype destMacAddr path s₀.log s₀ :=
      ⟨⟨⟨hacc,hstart.1,[],by simp,by simp⟩,hstart.2⟩,
        fun frame hf => (hsent frame hf).elim fun x hx => ⟨x.1.1,hx.2⟩⟩
    exact remoteDirFetch_found hin (exec_remote.mp hx)

/-! A link that loses nothing is one way for the traffic to go. -/

theorem map_frame_answers (asker : Option ℕ) (record : FileTransferState) (before after : D)
    (sent : List Reply) (m : Mem) :
    (answers globals asker record before after sent m).map (Answer.frame globals) =
      (runSends (sent.flatMap (sendReply globals)) m).1 := by
  induction sent generalizing m with
  | nil => rfl
  | cons r sent ih =>
    rw [List.flatMap_cons, sendReply, List.append_assoc, runSends_storeOps, List.singleton_append,
      runSends_send, answers, List.map_cons, ih]
    rfl

section link
open Dos

variable {resolve : List UInt8 → Path} {listing : Volume → List UInt8 → List (Vector UInt8 43)}

variable (resolve listing globals sock) in
/-- The traffic can come to what the link holds. -/
def Follows (l : Link) (t : Traffic Machine) : Prop :=
  ∃ t₁, ReflTransGen (Moves globals (machine resolve listing) sock) t t₁ ∧ t₁.file = l.file ∧
    t₁.dos = l.dos ∧ t₁.toClient.map (Answer.frame globals) = l.toClient

/-- The traffic follows each call of the client. -/
theorem Follows.call {l l' : Link} {t : Traffic Machine} {c : SocketCall} {r : SocketReply}
    (hc : Sending (fun frame => ∃ type payload,
      frame = packetFrame sock ethertype globals.macAddr type payload) c)
    (h : Follows globals sock resolve listing l t) (hcall : linkCall resolve listing globals l c r l') :
    ∃ t', trafficCall globals (machine resolve listing) sock globals.macAddr t c r t' ∧
      Follows globals sock resolve listing l' t' := by
  obtain ⟨t₁,hreach,hfile,hdos,hframes⟩ := h
  cases c with
  | send frame =>
    obtain ⟨type,payload,rfl⟩ := hc
    obtain ⟨rfl,hex⟩ := hcall
    obtain ⟨m,sent,sendBuffer,harr,hidle,hclient,-⟩ := exchanged_request.mp hex
    have hreq := requestAt_arrived harr
    let frame := packetFrame sock ethertype globals.macAddr type payload
    refine ⟨t₁.sent frame,⟨t₁,hreach,.inr ⟨rfl,rfl⟩⟩,?_⟩
    have hdeliver : Moves globals (machine resolve listing) sock (t₁.sent frame) _ :=
      .deliver t₁.log.length frame m ⟨0,0,0,0,0,0⟩ 0 sessionMgrInit 0 (by simp [Traffic.sent])
        (by simp [Traffic.sent]) harr
    have hsame : (t₁.sent frame).file = l.file := hfile
    rw [hreq.handled, hsame] at hdeliver
    rw [← hdos] at hidle
    exact ⟨_,.tail (.single hdeliver) (.idle sent sendBuffer l'.file l'.dos hidle),rfl,rfl,by
      rw [hclient, ← hframes, List.map_append, map_frame_answers]
      rfl⟩
  | recv =>
    rw [linkCall] at hcall
    cases hl : l.toClient with
    | nil =>
      rw [hl] at hcall
      obtain ⟨rfl,rfl⟩ := hcall
      exact ⟨t₁,⟨t₁,hreach,.inl ⟨rfl,rfl⟩⟩,t₁,.refl,hfile,hdos,hframes⟩
    | cons bs rest =>
      rw [hl] at hcall hframes
      obtain ⟨buf,harr,rfl,rfl⟩ := hcall
      obtain ⟨e,es,hes,rfl,hrest⟩ := List.map_eq_cons_iff.mp hframes
      have he : e ∈ t₁.toClient := by
        rw [hes]
        exact List.mem_cons_self
      have hread : Moves globals (machine resolve listing) sock { t₁ with read := some e }
          { t₁ with toServer := t₁.toServer, toClient := es, read := some e } := by
        refine .network t₁.toServer es (fun _ h => h) ?_
        show es ⊆ t₁.toClient
        rw [hes]
        exact List.subset_cons_self e es
      exact ⟨{ t₁ with read := some e },⟨t₁,hreach,.inr (.inr ⟨e,he,buf,harr,rfl,rfl⟩)⟩,_,
        .single hread,hfile,hdos,hrest⟩

/-- A call over the link is one over the traffic, with the same result. -/
theorem Follows.run {α : Type} {p : Remote α} {l l' : Link} {t : Traffic Machine} {os : List Empty}
    {a : α} (hp : p.CallsIn (Sending fun frame => ∃ type payload,
      frame = packetFrame sock ethertype globals.macAddr type payload))
    (h : Follows globals sock resolve listing l t)
    (hx : Exec (linkCall resolve listing globals) p () l os a () l') :
    ∃ t', Exec (trafficCall globals (machine resolve listing) sock globals.macAddr) p () t os a () t' := by
  have h' : ∃ t', Exec (trafficCall globals (machine resolve listing) sock globals.macAddr) p () t os
      a () t' ∧ Follows globals sock resolve listing l' t' :=
    hx.simulate _ hp (fun _ _ _ _ _ hc hs hcall => hs.call hc hcall) h
  exact h'.imp fun _ h => h.1

end link

/-! The first listing of a session, of a directory with one entry. -/

section
open Dos

def rootDirectory : Bytes.CString := ⟨[0x5c],by decide⟩

theorem oneEntry_listed : ∃ os l', Exec
    (linkCall (fun _ => []) (fun _ _ => [Vector.replicate 43 0]) ⟨nullIfAddr,0⟩)
    (remoteDirFetch ⟨nullIfAddr,0⟩ 0 nullIfAddr 17 remoteDirMaxEntries rootDirectory) ()
    ⟨fileTransferInit,emptyMachine,[],[]⟩ os (some [remoteDirEntry (Vector.replicate 43 0)]) ()
    l' := by
  let listing : Volume → List UInt8 → List (Vector UInt8 43) := fun _ _ => [Vector.replicate 43 0]
  let sock : RawSocket := ⟨nullIfAddr,0⟩
  have hbegin := @exchanged_quiet (fun _ => []) listing ⟨nullIfAddr,0⟩ sock 0 nullIfAddr
    ⟨fileTransferInit,emptyMachine,[],[]⟩ (ListingFor sock rootDirectory) .dirListBegin
    (dirListBeginBytes (makeRequestId sock) rootDirectory) (by simp [dirListBeginBytes]) fun m hm =>
      have hlisting := handle_begin rootDirectory rfl hm
      ⟨hlisting.idle,hlisting⟩
  have hall : Ensures (linkCall (fun _ => []) listing ⟨nullIfAddr,0⟩)
      (remoteDirFetch sock 0 nullIfAddr 17 remoteDirMaxEntries rootDirectory) ()
      ⟨fileTransferInit,emptyMachine,[],[]⟩ fun _ result _ _ =>
        result = some [remoteDirEntry (Vector.replicate 43 0)] := by
    apply Ensures.bind (ensures_sendPacket hbegin)
    rintro _ _ _ l₁ ⟨rfl,hl₁,hdos₁,hclient₁,-⟩
    have hs₁ : Fetching sock rootDirectory emptyMachine.volume l₁ :=
      ⟨hl₁,congrArg Machine.volume hdos₁,hclient₁⟩
    apply Ensures.bind (@ensures_fetchDirPages (fun _ => []) listing ⟨nullIfAddr,0⟩ sock 0 l₁ 17 17 0
      rootDirectory _ _ rfl hs₁ (by decide) (by decide) (by decide) (Nat.zero_le _))
    rintro _ _ _ l₂ ⟨rfl,hs₂,-⟩
    have hend := @exchanged_quiet (fun _ => []) listing ⟨nullIfAddr,0⟩ sock 0 nullIfAddr l₂
      (fun _ => True) .dirListEnd (htonl (makeRequestId sock)) (by simp) fun m _ =>
        ⟨handle_end hs₂.listing.idle,trivial⟩
    apply Ensures.bind (ensures_sendPacket hend)
    rintro _ _ _ l₃ -
    exact ensures_done rfl
  obtain ⟨⟨os,r,_,l',hx⟩,hpost⟩ := hall
  obtain rfl := hpost _ _ _ _ hx
  exact ⟨os,l',hx⟩

def quietMachine : Traffic Machine := ⟨fileTransferInit,emptyMachine,none,[],[],[],none⟩

theorem session_listing_oneEntry : ∃ y : Traffic Machine,
    ∀ x ∈ [remoteDirEntry (Vector.replicate 43 0)], FoundFor ⟨nullIfAddr,0⟩
      (machine (fun _ => []) fun _ _ => [Vector.replicate 43 0]) ⟨nullIfAddr,0⟩ 0 nullIfAddr
      rootDirectory 0 y.log x := by
  obtain ⟨os,l',hx⟩ := oneEntry_listed
  have hfollows : Follows ⟨nullIfAddr,0⟩ ⟨nullIfAddr,0⟩ (fun _ => [])
      (fun _ _ => [Vector.replicate 43 0]) ⟨fileTransferInit,emptyMachine,[],[]⟩ quietMachine :=
    ⟨quietMachine,.refl,rfl,rfl,rfl⟩
  have hcalls := @callsIn_list ⟨nullIfAddr,0⟩ 0 nullIfAddr 17 rootDirectory remoteDirMaxEntries
  obtain ⟨y,hy⟩ := @Follows.run ⟨nullIfAddr,0⟩ ⟨nullIfAddr,0⟩ 0 (fun _ => [])
    (fun _ _ => [Vector.replicate 43 0]) _ _ _ _ _ _ _ (hcalls.imp fun c hc => by
      cases c with
      | send frame =>
        obtain ⟨type,payload,-,hframe⟩ := hc
        exact ⟨type,payload,hframe⟩
      | recv => trivial) hfollows hx
  have hrun : Runs.Run (CallStep ⟨nullIfAddr,0⟩
      (machine (fun _ => []) fun _ _ => [Vector.replicate 43 0]) ⟨nullIfAddr,0⟩ 0 nullIfAddr)
      quietMachine ([] ++ ((RemoteCall.list rootDirectory,
        some [remoteDirEntry (Vector.replicate 43 0)]),y) :: []) :=
    .cons ⟨17,os,exec_remote.mpr hy⟩ (.nil y)
  have hquiet : ¬ Listing ⟨nullIfAddr,0⟩ quietMachine.file :=
    fun h => absurd h.active (by decide)
  exact ⟨y,session_listing ⟨rfl,rfl,rfl,by decide⟩ hquiet hrun (.inl (by simp))⟩

end

end RmtDos
