import Mathlib.Logic.Relation
import RmtDos.Client.Answers
import RmtDos.Client.FileTransfer
import RmtDos.Dos.Files
import RmtDos.Server.Receive

/-! A client on a network that loses, repeats, delays and reorders frames. A frame that was sent
can arrive at any time and any number of times. Between two calls of the client the server handles
packets, of this client and of others, and does idle steps, in any order. -/
namespace RmtDos
open Memory Reading Resumable Prog Dos Relation

/-- A frame of the server, with the operation of the idle step that sent it, what this step left of
DOS, and the send buffer it was built in. -/
structure Sent (F : Type) where
  op : FileOp
  dos : Files F
  reply : Reply
  sendBuffer : Mem

/-- The server, all frames sent so far, and the frame that the client read last. -/
structure Wire (F : Type) where
  file : FileTransferState
  dos : Files F
  toServer : List (List UInt8)
  toClient : List (Sent F)
  read : Option (Sent F)

/-- What the other clients do: their packets, and what the operations on a record may do to the
files. -/
structure Others (F : Type) where
  packet : Packet → Prop
  effect : FileTransferState → Files F → Files F → Prop

section
variable {F : Type} (globals : PktdrvGlobals)

def Sent.frame (e : Sent F) : List UInt8 := e.reply.frame globals e.sendBuffer

/-- The frames of an idle step, each built over what the one before it left in the send buffer. -/
def sentFrames (op : FileOp) (dos : Files F) : List Reply → Mem → List (Sent F)
  | [], _ => []
  | r::sent, m => ⟨op,dos,r,m⟩ :: sentFrames op dos sent (stores m (r.stores globals))

variable (env : Files F → DosCall → DosRegs → Files F → Prop) (others : Others F)

inductive Between : Wire F → Wire F → Prop
  | deliver {s : Wire F} (frame : List UInt8) (buffer : Mem) (video : VideoState) (now : UInt32)
      (sessions : SessionTable) (received : ℕ) (hf : frame ∈ s.toServer)
      (ha : Arrived frame buffer) :
      Between s { s with
        file := (run buffer (protocolProcess globals video now sessions s.file received)).file }
  | packet {s : Wire F} (p : Packet) (hp : others.packet p) :
      Between s { s with file := fileTransferHandlePacket p s.file }
  | idle {s : Wire F} (sent : List Reply) (sendBuffer : Mem) (file : FileTransferState)
      (dos : Files F) (h : TsrStep env globals.macAddr (s.file,s.dos) (.idle sent) (file,dos))
      (he : others.effect s.file s.dos dos) :
      Between s { s with
        file := file
        dos := dos
        toClient := s.toClient ++ sentFrames globals s.file.pendingOp dos sent sendBuffer }

/-- The socket of the client. -/
def wireCall (s : Wire F) (c : SocketCall) (r : SocketReply) (s' : Wire F) : Prop :=
  ∃ s₁, ReflTransGen (Between globals env others) s s₁ ∧
    match c with
    | .send frame =>
      (r = .sent false ∧ s' = s₁) ∨
        (r = .sent true ∧ s' = { s₁ with toServer := frame :: s₁.toServer })
    | .recv =>
      (r = .timeout ∧ s' = s₁) ∨ ∃ e ∈ s₁.toClient, ∃ buf, Arrived (e.frame globals) buf ∧
        r = .received (e.frame globals).length buf ∧ s' = { s₁ with read := some e }

end

/-! The local files. -/

/-- The local files, and the open stream: its file, its position, its error flag and its mode. -/
structure LocalFiles where
  content : Bytes.CString → List UInt8
  path : Bytes.CString
  pos : ℕ
  error : Bool
  writing : Bool

/-- A read is short only at the end of the file, or with the error flag set. -/
def LocalFiles.step (d : LocalFiles) : StdioCall → StdioReply → LocalFiles → Prop
  | .stat path, r, d' => (r = .failed ∨ r = .size (d.content path).length) ∧ d' = d
  | .fopenRead path, r, d' =>
    (r = .failed ∧ d' = d) ∨ (r = .ok ∧ d' = ⟨d.content,path,0,false,false⟩)
  | .fopenWrite path, r, d' =>
    (r = .failed ∧ d' = d) ∨
      (r = .ok ∧ d' = ⟨Function.update d.content path [],path,0,false,true⟩)
  | .fread count, r, d' => ∃ bs, bs <+: ((d.content d.path).drop d.pos).take count ∧
    r = .data bs ∧ ∃ error, d' = { d with pos := d.pos+bs.length, error := error } ∧
      (error = true ∨ error = d.error ∧ bs = ((d.content d.path).drop d.pos).take count)
  | .fwrite data, r, d' => ∃ bs, bs <+: data ∧
    d' = { d with content := Function.update d.content d.path (d.content d.path ++ bs) } ∧
    (r = .failed ∨ r = .ok ∧ bs = data)
  | .ferror, r, d' => r = .flag d.error ∧ d' = d
  | .fclose, r, d' => (r = .ok ∧ d' = d) ∨
    (r = .failed ∧ (d' = d ∨ d.writing = true ∧
      ∃ bs, d' = { d with content := Function.update d.content d.path bs }))

/-- The client's machine: its calls go to the network or to the local files. -/
def clientCall {F : Type} (globals : PktdrvGlobals)
    (env : Files F → DosCall → DosRegs → Files F → Prop) (others : Others F)
    (s : LocalFiles × Wire F) : ClientCall → ClientReply → LocalFiles × Wire F → Prop
  | .socket c, .socket r, s' => wireCall globals env others s.2 c r s'.2 ∧ s'.1 = s.1
  | .stdio c, .stdio r, s' => s.1.step c r s'.1 ∧ s'.2 = s.2
  | _, _, _ => False

variable {F : Type} {globals : PktdrvGlobals}
  {env : Files F → DosCall → DosRegs → Files F → Prop} {others : Others F} {sock : RawSocket}
  {ethertype : UInt16} {destMacAddr : MacAddr} {I : Wire F → Prop} {s s' : Wire F}

/-- What is done over the socket leaves the local files alone. -/
theorem exec_overSocket {α : Type} {p : Remote α} {x y : LocalFiles × Wire F} {os : List Empty}
    {a : α} : Exec (clientCall globals env others) (overSocket p) () x os a () y ↔
      y.1 = x.1 ∧ Exec (wireCall globals env others) p () x.2 os a () y.2 := by
  rw [overSocket, exec_mapCalls, ← exec_on_snd]
  constructor
  · refine fun h => h.mono ?_
    rintro d c r d₁ ⟨r',rfl,hcall⟩
    cases r' with
    | socket r' => exact hcall
    | stdio r' => exact hcall.elim
  · exact fun h => h.mono fun d c r d₁ hcall => ⟨.socket r,rfl,hcall⟩

theorem exec_stdioCall {α : Type} {c : StdioCall} {k : StdioReply → Transfer α}
    {x y : LocalFiles × Wire F} {os : List Empty} {a : α}
    (h : Exec (clientCall globals env others) ((stdioCall c).bind k) () x os a () y) :
    ∃ r l, x.1.step c r l ∧ Exec (clientCall globals env others) (k r) () (l,x.2) os a () y := by
  obtain ⟨r,z,hcall,h⟩ := h
  cases r with
  | socket r => exact hcall.elim
  | stdio r =>
    obtain ⟨hstep,hw⟩ := hcall
    refine ⟨r,z.1,hstep,?_⟩
    rw [← hw]
    exact h

theorem exec_fread {α : Type} {count : ℕ} {k : List UInt8 → Transfer α}
    {x y : LocalFiles × Wire F} {os : List Empty} {a : α}
    (h : Exec (clientCall globals env others) ((fread count).bind k) () x os a () y) :
    ∃ bs error, bs <+: ((x.1.content x.1.path).drop x.1.pos).take count ∧
      (error = true ∨
        error = x.1.error ∧ bs = ((x.1.content x.1.path).drop x.1.pos).take count) ∧
      Exec (clientCall globals env others) (k bs) ()
        ({ x.1 with pos := x.1.pos+bs.length, error := error },x.2) os a () y := by
  rw [fread, bind_eq, bind_assoc] at h
  obtain ⟨r,l,⟨bs,hbs,rfl,error,rfl,herror⟩,h⟩ := exec_stdioCall h
  exact ⟨bs,error,hbs,herror,h⟩

theorem exec_stdioOk {α : Type} {c : StdioCall} {k : Bool → Transfer α}
    {x y : LocalFiles × Wire F} {os : List Empty} {a : α}
    (h : Exec (clientCall globals env others) ((stdioOk c).bind k) () x os a () y) :
    ∃ r l ok, x.1.step c r l ∧ (ok = true → r = .ok) ∧
      Exec (clientCall globals env others) (k ok) () (l,x.2) os a () y := by
  rw [stdioOk, bind_eq, bind_assoc] at h
  obtain ⟨r,l,hstep,h⟩ := exec_stdioCall h
  cases r with
  | ok => exact ⟨.ok,l,true,hstep,fun _ => rfl,h⟩
  | _ => exact ⟨_,l,false,hstep,nofun,h⟩

theorem exec_ferror {α : Type} {k : Bool → Transfer α} {x y : LocalFiles × Wire F}
    {os : List Empty} {a : α}
    (h : Exec (clientCall globals env others) (RmtDos.ferror.bind k) () x os a () y) :
    Exec (clientCall globals env others) (k x.1.error) () x os a () y := by
  rw [ferror, bind_eq, bind_assoc] at h
  obtain ⟨r,l,⟨rfl,rfl⟩,h⟩ := exec_stdioCall h
  exact h

/-! Calls that go well. -/

section calls
variable {α : Type} {l l' : LocalFiles} {y : LocalFiles × Wire F} {os : List Empty} {a : α}

theorem exec_stdioCall_of {c : StdioCall} {r : StdioReply} {f : StdioReply → Transfer α}
    (hs : l.step c r l')
    (h : Exec (clientCall globals env others) (f r) () (l',s) os a () y) :
    Exec (clientCall globals env others) ((stdioCall c).bind f) () (l,s) os a () y :=
  ⟨.stdio r,(l',s),⟨hs,rfl⟩,h⟩

theorem exec_stdioOk_of {c : StdioCall} {f : Bool → Transfer α} (hs : l.step c .ok l')
    (h : Exec (clientCall globals env others) (f true) () (l',s) os a () y) :
    Exec (clientCall globals env others) ((stdioOk c).bind f) () (l,s) os a () y :=
  ⟨.stdio .ok,(l',s),⟨hs,rfl⟩,h⟩

/-- A read of all that is left, up to `count` bytes. -/
theorem exec_fread_of {count : ℕ} {f : List UInt8 → Transfer α} {bs : List UInt8}
    (hbs : ((l.content l.path).drop l.pos).take count = bs)
    (h : Exec (clientCall globals env others) (f bs) ()
      ({ l with pos := l.pos+bs.length },s) os a () y) :
    Exec (clientCall globals env others) ((fread count).bind f) () (l,s) os a () y := by
  have hread : l.step (.fread count) (.data bs) { l with pos := l.pos+bs.length } :=
    ⟨bs,hbs ▸ List.prefix_refl _,rfl,l.error,rfl,.inr ⟨rfl,hbs.symm⟩⟩
  exact ⟨.stdio (.data bs),({ l with pos := l.pos+bs.length },s),⟨hread,rfl⟩,h⟩

theorem exec_overSocket_of {p : Remote α} {β : Type} {b : β} {f : α → Transfer β}
    (hp : Exec (wireCall globals env others) p () s [] a () s')
    (h : Exec (clientCall globals env others) (f a) () (l,s') os b () y) :
    Exec (clientCall globals env others) ((overSocket p).bind f) () (l,s) os b () y :=
  exec_bind.mpr ⟨[],a,(),(l,s'),os,exec_overSocket.mpr ⟨rfl,hp⟩,h,rfl⟩

end calls

theorem mem_sentFrames {op : FileOp} {dos : Files F} {sent : List Reply} {m : Mem} {e : Sent F}
    (h : e ∈ sentFrames globals op dos sent m) : e.op = op ∧ e.dos = dos ∧ e.reply ∈ sent := by
  induction sent generalizing m with
  | nil => exact absurd h List.not_mem_nil
  | cons r sent ih =>
    rw [sentFrames, List.mem_cons] at h
    obtain rfl | h := h
    · exact ⟨rfl,rfl,List.mem_cons_self⟩
    · obtain ⟨hop,hdos,hmem⟩ := ih h
      exact ⟨hop,hdos,List.mem_cons_of_mem _ hmem⟩

/-! What holds along a run of the client. -/

/-- What happens between two calls keeps `I`, and so does reading a frame. -/
structure Stable (globals : PktdrvGlobals) (env : Files F → DosCall → DosRegs → Files F → Prop)
    (others : Others F) (I : Wire F → Prop) : Prop where
  between : ∀ s s', I s → Between globals env others s s' → I s'
  read : ∀ s e, I s → I { s with read := some e }

theorem Stable.reach (hI : Stable globals env others I)
    (h : ReflTransGen (Between globals env others) s s') (hs : I s) : I s' := by
  induction h with
  | refl => exact hs
  | tail _ h ih => exact hI.between _ _ ih h

/-- Sending keeps the invariant if the frame may be sent. -/
theorem sendPacket_stable {pktType : PktType} {payload : List UInt8} {ok : Bool} {os : List Empty}
    (hI : Stable globals env others I)
    (hsend : ∀ s, I s → I { s with
      toServer := packetFrame sock ethertype destMacAddr pktType payload :: s.toServer })
    (hs : I s)
    (h : Exec (wireCall globals env others)
      (sendPacket sock ethertype destMacAddr pktType payload) () s os ok () s') : I s' := by
  obtain ⟨r,s₁,⟨s₀,hreach,hcall⟩,hk⟩ := h
  have hs₀ := hI.reach hreach hs
  obtain ⟨rfl,rfl⟩ | ⟨rfl,rfl⟩ := hcall
  · obtain ⟨-,-,-,rfl⟩ := hk
    exact hs₀
  · obtain ⟨-,-,-,rfl⟩ := hk
    exact hsend _ hs₀

/-- A receive loop returns what its body makes of the frame read last. -/
theorem awaitFrame_stable {α : Type} {body : ℕ → Reading FrameField (Received α)}
    {P : α → Sent F → Prop} {fuel : ℕ} {result : Option α} {os : List Empty}
    (hI : Stable globals env others I)
    (hbody : ∀ s, I s → ∀ e ∈ s.toClient, ∀ buf, Arrived (e.frame globals) buf →
      ∀ a, run buf (body (e.frame globals).length) = .ok a → P a e)
    (hs : I s)
    (h : Exec (wireCall globals env others) (awaitFrame body fuel) () s os result () s') :
    I s' ∧ ∀ a, result = some a → ∃ e ∈ s'.toClient, s'.read = some e ∧ P a e := by
  induction fuel generalizing s os with
  | zero => exact h.elim
  | succ fuel ih =>
    obtain ⟨r,s₁,⟨s₀,hreach,hcall⟩,hk⟩ := h
    have hs₀ := hI.reach hreach hs
    obtain ⟨rfl,rfl⟩ | ⟨e,he,buf,harr,rfl,rfl⟩ := hcall
    · obtain ⟨-,rfl,-,rfl⟩ := hk
      exact ⟨hs₀,nofun⟩
    · have hs₁ := hI.read _ e hs₀
      simp only [done_bind] at hk
      cases hrun : run buf (body (e.frame globals).length) with
      | ignored =>
        rw [hrun] at hk
        exact ih hs₁ hk
      | failed =>
        rw [hrun] at hk
        obtain ⟨-,rfl,-,rfl⟩ := hk
        exact ⟨hs₁,nofun⟩
      | ok a =>
        rw [hrun] at hk
        obtain ⟨-,rfl,-,rfl⟩ := hk
        refine ⟨hs₁,fun b hb => ⟨e,he,rfl,?_⟩⟩
        obtain rfl := Option.some.inj hb
        exact hbody _ hs₀ e he buf harr _ hrun
      | trapped =>
        rw [hrun] at hk
        exact hk.elim

/-- So does a loop of attempts around it. -/
theorem sendAttempts_stable {α : Type} {body : ℕ → Reading FrameField (Received α)}
    {P : α → Sent F → Prop} {pktType : PktType} {payload : List UInt8} {fuel attempts : ℕ}
    {result : Option α} {os : List Empty} (hI : Stable globals env others I)
    (hsend : ∀ s, I s → I { s with
      toServer := packetFrame sock ethertype destMacAddr pktType payload :: s.toServer })
    (hbody : ∀ s, I s → ∀ e ∈ s.toClient, ∀ buf, Arrived (e.frame globals) buf →
      ∀ a, run buf (body (e.frame globals).length) = .ok a → P a e)
    (hs : I s)
    (h : Exec (wireCall globals env others)
      (sendAttempts sock ethertype destMacAddr pktType payload (awaitFrame body fuel) attempts)
      () s os result () s') :
    I s' ∧ ∀ a, result = some a → ∃ e ∈ s'.toClient, s'.read = some e ∧ P a e := by
  induction attempts generalizing s os with
  | zero =>
    obtain ⟨-,rfl,-,rfl⟩ := h
    exact ⟨hs,nofun⟩
  | succ attempts ih =>
    obtain ⟨_,ok,_,s₁,_,hsent,hk,-⟩ := exec_bind.mp h
    have hs₁ := sendPacket_stable hI hsend hs hsent
    cases ok with
    | false =>
      obtain ⟨-,rfl,-,rfl⟩ := hk
      exact ⟨hs₁,nofun⟩
    | true =>
      obtain ⟨_,r,_,s₂,_,hr,hk,-⟩ := exec_bind.mp hk
      obtain ⟨hs₂,hread⟩ := awaitFrame_stable hI hbody hs₁ hr
      cases r with
      | some a =>
        obtain ⟨-,rfl,-,rfl⟩ := hk
        exact ⟨hs₂,hread⟩
      | none => exact ih hs₂ hk

/-- An accepted acknowledgement is one of the session, in a frame of the server. -/
theorem sendWithAck_stable {pktType : PktType} {payload : List UInt8} {t : UInt32}
    {command : FileAckCommand} {fuel : ℕ} {result : Option UInt32} {os : List Empty}
    (hI : Stable globals env others I)
    (hsend : ∀ s, I s → I { s with
      toServer := packetFrame sock ethertype destMacAddr pktType payload :: s.toServer })
    (hs : I s)
    (h : Exec (wireCall globals env others)
      (sendWithAck sock ethertype destMacAddr fuel pktType payload t command) () s os result () s') :
    I s' ∧ ∀ offset, result = some offset → ∃ e ∈ s'.toClient, s'.read = some e ∧
      e.reply.sessionId = sock.sessionId ∧ e.reply.body = .fileAck t command .ok offset := by
  refine sendAttempts_stable (P := fun offset e => e.reply.sessionId = sock.sessionId ∧
    e.reply.body = .fileAck t command .ok offset) hI hsend ?_ hs h
  intro s hs e he buf harr offset hrun
  exact (recvFileAck_ok harr hrun).2

/-- So is accepted data, if the data in flight is all in its frames. -/
theorem sendWithDataResponse_stable {t offset : UInt32} {count : UInt16} {fuel : ℕ}
    {result : Option (List UInt8)} {os : List Empty} (hI : Stable globals env others I)
    (hsend : ∀ s, I s → I { s with
      toServer := packetFrame sock ethertype destMacAddr .fileGetDataReq
        (fileGetDataReqBytes t offset count) :: s.toServer })
    (hwhole : ∀ s, I s → ∀ e ∈ s.toClient, e.reply.sessionId = sock.sessionId → ∀ count data,
      e.reply.body = .fileGetData t offset count .ok data → e.reply.Whole)
    (hs : I s)
    (h : Exec (wireCall globals env others)
      (sendWithDataResponse sock ethertype destMacAddr fuel t offset count) () s os result () s') :
    I s' ∧ ∀ data, result = some data → ∃ e ∈ s'.toClient, s'.read = some e ∧
      e.reply.sessionId = sock.sessionId ∧
      ∃ count, e.reply.body = .fileGetData t offset count .ok data := by
  refine sendAttempts_stable (P := fun data e => e.reply.sessionId = sock.sessionId ∧
    ∃ count, e.reply.body = .fileGetData t offset count .ok data) hI hsend ?_ hs h
  intro s hs e he buf harr data hrun
  exact (recvFileGetData_ok harr (hwhole s hs e he) hrun).2

/-- The server takes the request up and answers it, and nothing is lost. -/
theorem exec_answered {α : Type} {body : ℕ → Reading FrameField (Received α)} {pktType : PktType}
    {payload : List UInt8} {a : α} {fuel attempts : ℕ} {g g' : FileTransferState} {d' : Files F}
    {r : Reply} {video : VideoState} {now : UInt32} {sessions : SessionTable} {received : ℕ}
    (hpacket : ∀ buffer, Arrived (packetFrame sock ethertype destMacAddr pktType payload) buffer →
      (run buffer (protocolProcess globals video now sessions s.file received)).file = g)
    (hidle : TsrStep env globals.macAddr (g,s.dos) (.idle [r]) (g',d'))
    (heffect : others.effect g s.dos d')
    (haccept : ∀ buf, Arrived (r.frame globals fun _ => 0) buf →
      run buf (body (r.frame globals fun _ => 0).length) = .ok a) :
    ∃ s', Exec (wireCall globals env others)
      (sendAttempts sock ethertype destMacAddr pktType payload (awaitFrame body (fuel+1))
        (attempts+1)) () s [] (some a) () s' ∧ s'.file = g' ∧ s'.dos = d' := by
  let frame := packetFrame sock ethertype destMacAddr pktType payload
  let s₁ : Wire F := { s with toServer := frame :: s.toServer }
  have hdeliver : Between globals env others s₁ { s₁ with file := g } := by
    have h : Between globals env others s₁ _ := .deliver frame (fun j => frame.getD j 0) video now
      sessions received List.mem_cons_self (arrived_getD _)
    rwa [hpacket _ (arrived_getD _)] at h
  let e : Sent F := ⟨g.pendingOp,d',r,fun _ => 0⟩
  let s₂ : Wire F := { s₁ with file := g', dos := d', toClient := s₁.toClient ++ [e] }
  have hanswer : Between globals env others { s₁ with file := g } s₂ :=
    .idle [r] (fun _ => 0) g' d' hidle heffect
  have harr := arrived_getD (e.frame globals)
  have hsend : wireCall globals env others s (.send frame) (.sent true) s₁ :=
    ⟨s,.refl,.inr ⟨rfl,rfl⟩⟩
  have hrecv : wireCall globals env others s₁ .recv (.received (e.frame globals).length
      fun j => (e.frame globals).getD j 0) { s₂ with read := some e } :=
    ⟨s₂,.tail (.single hdeliver) hanswer,.inr ⟨e,by simp [s₂],_,harr,rfl,rfl⟩⟩
  have hawait : Exec (wireCall globals env others) (awaitFrame body (fuel+1)) () s₁ [] (some a) ()
      { s₂ with read := some e } := by
    refine ⟨_,_,hrecv,?_⟩
    have hrun : run (fun j => (e.frame globals).getD j 0) (body (e.frame globals).length) = .ok a :=
      haccept _ harr
    simp only [done_bind, hrun]
    exact ⟨rfl,rfl,rfl,rfl⟩
  refine ⟨{ s₂ with read := some e },⟨.sent true,s₁,hsend,?_⟩,rfl,rfl⟩
  exact (exec_bind (p := awaitFrame body (fuel+1))).mpr ⟨[],some a,(),_,[],hawait,⟨rfl,rfl,rfl,rfl⟩,rfl⟩

/-- A reply with a payload of 12 bytes has all the fields of its struct. -/
theorem Reply.length_frame (r : Reply) (sendBuffer : Mem) : 38 ≤ (r.frame globals sendBuffer).length := by
  rw [Reply.frame, pktdrvFrame, length_slice]
  exact le_trans (by decide) (le_max_right _ _)

theorem exec_acknowledged {pktType : PktType} {payload : List UInt8} {t offset : UInt32}
    {command : FileAckCommand} {fuel : ℕ} {g g' : FileTransferState} {d' : Files F}
    {video : VideoState} {now : UInt32} {sessions : SessionTable} {received : ℕ}
    (hpacket : ∀ buffer, Arrived (packetFrame sock ethertype destMacAddr pktType payload) buffer →
      (run buffer (protocolProcess globals video now sessions s.file received)).file = g)
    (hidle : TsrStep env globals.macAddr (g,s.dos) (.idle
      [⟨sock.ifAddr,destMacAddr,sock.sessionId,12,.fileAck t command .ok offset⟩]) (g',d'))
    (heffect : others.effect g s.dos d') :
    ∃ s', Exec (wireCall globals env others)
      (sendWithAck sock ethertype destMacAddr (fuel+1) pktType payload t command) () s []
      (some offset) () s' ∧ s'.file = g' ∧ s'.dos = d' :=
  exec_answered hpacket hidle heffect fun _ harr => recvFileAck_accepts (Reply.length_frame _ _) harr

theorem exec_data {t offset : UInt32} {count count' : UInt16} {data : List UInt8} {fuel : ℕ}
    {g g' : FileTransferState} {d' : Files F} {video : VideoState} {now : UInt32}
    {sessions : SessionTable} {received : ℕ} (hcount : count'.toNat ≤ 512)
    (hdata : data.length = count'.toNat)
    (hpacket : ∀ buffer, Arrived (packetFrame sock ethertype destMacAddr .fileGetDataReq
        (fileGetDataReqBytes t offset count)) buffer →
      (run buffer (protocolProcess globals video now sessions s.file received)).file = g)
    (hidle : TsrStep env globals.macAddr (g,s.dos) (.idle [⟨sock.ifAddr,destMacAddr,sock.sessionId,
      12+count',.fileGetData t offset count' .ok data⟩]) (g',d'))
    (heffect : others.effect g s.dos d') :
    ∃ s', Exec (wireCall globals env others)
      (sendWithDataResponse sock ethertype destMacAddr (fuel+1) t offset count) () s []
      (some data) () s' ∧ s'.file = g' ∧ s'.dos = d' :=
  exec_answered hpacket hidle heffect fun _ harr =>
    recvFileGetData_accepts hcount hdata (Reply.length_frame _ _) harr

/-! A client alone on the network. -/

def loneSocket : RawSocket := ⟨Vector.replicate 6 0,0⟩

def loneGlobals : PktdrvGlobals := ⟨Vector.replicate 6 0,0⟩

def noOthers : Others Unit := ⟨fun _ => False,fun _ _ _ => True⟩

end RmtDos
