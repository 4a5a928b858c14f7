import Mathlib.Logic.Relation
import RmtDos.Client.Answers
import RmtDos.Client.RemoteCalls
import RmtDos.Server.Answer
import RmtDos.Server.Atomic

/-! A client on a network that loses, repeats, delays and reorders frames, with a note of which
request each operation and each answer of the server is for. A request is known by its place in the
log of all frames that the client has sent. Other clients send what they like, under sessions and
for listings of their own. No packet is handled during an idle step. -/
namespace RmtDos
open Memory Reading Resumable Prog Relation

/-- An answer of the server: the place of the request that it is for, or none where another client
asked, the record and DOS as the idle step found them, and DOS as it left it. -/
structure Answer (D : Type) where
  asker : Option ℕ
  record : FileTransferState
  before : D
  after : D
  reply : Reply
  sendBuffer : Mem

/-- The server, whose pending operation `asker` wants, and what is in flight. -/
structure Traffic (D : Type) where
  file : FileTransferState
  dos : D
  asker : Option ℕ
  log : List (List UInt8)
  toServer : List ℕ
  toClient : List (Answer D)
  read : Option (Answer D)

section
variable {D : Type} (globals : PktdrvGlobals)

def Answer.frame (e : Answer D) : List UInt8 := e.reply.frame globals e.sendBuffer

/-- The answers of an idle step, each built over what the one before it left in the send buffer. -/
def answers (asker : Option ℕ) (record : FileTransferState) (before after : D) :
    List Reply → Mem → List (Answer D)
  | [], _ => []
  | r::sent, m =>
    ⟨asker,record,before,after,r,m⟩ ::
      answers asker record before after sent (stores m (r.stores globals))

variable (env : D → DosCall → DosRegs → D → Prop) (sock : RawSocket) (destMacAddr : MacAddr)

/-- A packet of another client. -/
def Foreign (p : Packet) : Prop :=
  p.sessionId ≠ sock.sessionId ∧
    ∀ r path, p.payload = .dirListBegin r path → r ≠ makeRequestId sock

/-- What the network, the server and the other clients do. An idle step is atomic: the timer
interrupt, which handles packets, does not come between its DOS calls. -/
inductive Moves : Traffic D → Traffic D → Prop
  | network {s : Traffic D} (toServer : List ℕ) (toClient : List (Answer D))
      (hs : toServer ⊆ s.toServer) (hc : toClient ⊆ s.toClient) :
      Moves s { s with toServer := toServer, toClient := toClient }
  | deliver {s : Traffic D} (n : ℕ) (frame : List UInt8) (buffer : Mem) (video : VideoState)
      (now : UInt32) (sessions : SessionTable) (received : ℕ) (hn : n ∈ s.toServer)
      (hf : s.log[n]? = some frame) (ha : Arrived frame buffer) :
      Moves s { s with
        file := (run buffer (protocolProcess globals video now sessions s.file received)).file
        asker := if s.file.pendingOp = .none then some n else s.asker }
  | packet {s : Traffic D} (p : Packet) (hp : Foreign sock p) :
      Moves s { s with
        file := fileTransferHandlePacket p s.file
        asker := if s.file.pendingOp = .none then none else s.asker }
  | idle {s : Traffic D} (sent : List Reply) (sendBuffer : Mem) (file : FileTransferState)
      (dos : D) (h : TsrStep env globals.macAddr (s.file,s.dos) (.idle sent) (file,dos)) :
      Moves s { s with
        file := file
        dos := dos
        toClient := s.toClient ++ answers globals s.asker s.file s.dos dos sent sendBuffer }

/-- A frame of another host, or one that answers no request of files or directories. -/
def NoAnswer (buf : Mem) : Prop :=
  ∀ pktType : UInt16, pktType = 12 ∨ pktType = 15 ∨ pktType = 19 →
    run buf (fromServer sock destMacAddr pktType) = false

def Traffic.sent (s : Traffic D) (frame : List UInt8) : Traffic D :=
  { s with log := s.log ++ [frame], toServer := s.toServer ++ [s.log.length] }

/-- The socket of the client. -/
def trafficCall (s : Traffic D) (c : SocketCall) (r : SocketReply) (s' : Traffic D) : Prop :=
  ∃ s₁, ReflTransGen (Moves globals env sock) s s₁ ∧
    match c with
    | .send frame => (r = .sent false ∧ s' = s₁) ∨ (r = .sent true ∧ s' = s₁.sent frame)
    | .recv =>
      (r = .timeout ∧ s' = s₁) ∨
        (∃ length buf, NoAnswer sock destMacAddr buf ∧ r = .received length buf ∧ s' = s₁) ∨
        ∃ e ∈ s₁.toClient, ∃ buf, Arrived (e.frame globals) buf ∧
          r = .received (e.frame globals).length buf ∧ s' = { s₁ with read := some e }

/-- The client's calls; its local files answer as they like. -/
def trafficClient (s : Traffic D) : ClientCall → ClientReply → Traffic D → Prop
  | .socket c, .socket r, s' => trafficCall globals env sock destMacAddr s c r s'
  | .stdio _, .stdio _, s' => s' = s
  | _, _, _ => False

end

/-! Which request an operation is for. -/

/-- The record comes from the request at place `n`, which was handled while nothing was pending. -/
def HoldsRequest (log : List (List UInt8)) (n : ℕ) (g : FileTransferState) : Prop :=
  ∃ frame buffer type g₀, log[n]? = some frame ∧ Arrived frame buffer ∧
    PktType.ofCode (ntohs (slice buffer 24 2)) = some type ∧ g₀.pendingOp = .none ∧
    g = fileTransferHandlePacket (packetAt buffer type) g₀

/-- The record is for the request at this place, or for another client. -/
def RecordOf (sock : RawSocket) (log : List (List UInt8)) (g : FileTransferState) :
    Option ℕ → Prop
  | some n => HoldsRequest log n g
  | none => g.sessionId ≠ sock.sessionId

section
variable {D : Type} {globals : PktdrvGlobals} {env : D → DosCall → DosRegs → D → Prop}
  {sock : RawSocket} {destMacAddr : MacAddr}

/-- The idle step that sent the answer. -/
def Answer.Made (globals : PktdrvGlobals) (env : D → DosCall → DosRegs → D → Prop) (e : Answer D) :
    Prop :=
  e.record.pendingOp ≠ .none ∧ ∃ fuel g',
    Exec env (idleOp globals.macAddr fuel e.record.pendingOp) e.record.taken e.before [e.reply] ()
      g' e.after

variable (globals env sock) in
/-- The pending operation and all answers in flight are for the requests noted for them. -/
structure Accounted (s : Traffic D) : Prop where
  pending : s.file.pendingOp ≠ .none → RecordOf sock s.log s.file s.asker
  answers : ∀ e ∈ s.toClient, e.Made globals env ∧ RecordOf sock s.log e.record e.asker

/-- The requests in flight, the pending one and the answered ones are at places that meet `Q`. -/
structure Askers (Q : ℕ → Prop) (s : Traffic D) : Prop where
  requests : ∀ n ∈ s.toServer, Q n
  pending : s.file.pendingOp ≠ .none → ∀ n, s.asker = some n → Q n
  answers : ∀ e ∈ s.toClient, ∀ n, e.asker = some n → Q n

variable {log : List (List UInt8)} {g : FileTransferState} {asker : Option ℕ} {p : Packet} {m : Mem}

theorem RecordOf.append (h : RecordOf sock log g asker) (new : List (List UInt8)) :
    RecordOf sock (log ++ new) g asker := by
  cases asker with
  | none => exact h
  | some n =>
    obtain ⟨frame,buffer,type,g₀,hn,hrest⟩ := h
    refine ⟨frame,buffer,type,g₀,?_,hrest⟩
    rw [List.getElem?_append_left (List.getElem?_eq_some_iff.mp hn).1, hn]

/-- A buffer is handled as a file packet of its type, or leaves the record alone. -/
theorem protocolProcess_record (globals : PktdrvGlobals) (video : VideoState) (now : UInt32)
    (sessions : SessionTable) (received : ℕ) :
    (run m (protocolProcess globals video now sessions g received)).file = g ∨
      ∃ type, PktType.ofCode (ntohs (slice m 24 2)) = some type ∧
        (run m (protocolProcess globals video now sessions g received)).file =
          fileTransferHandlePacket (packetAt m type) g := by
  rw [run_protocolProcess]
  split_ifs
  any_goals exact .inl rfl
  cases PktType.ofCode (ntohs (slice m 24 2)) with
  | none => exact .inl rfl
  | some type => exact .inr ⟨type,rfl,rfl⟩

/-- Whoever made an operation pending is the client of the record. -/
theorem sessionId_of_pending (hn : g.pendingOp = .none)
    (h : (fileTransferHandlePacket p g).pendingOp ≠ .none) :
    (fileTransferHandlePacket p g).sessionId = p.sessionId := by
  obtain heq | ⟨-,ha⟩ := handlePacket_cases p g
  · rw [heq] at h
    exact absurd hn h
  · generalize fileTransferHandlePacket p g = g' at h ha ⊢
    cases ha with
    | dirListEnd => exact absurd hn h
    | _ => rfl

theorem handlePacket_of_pending (h : g.pendingOp ≠ .none) : fileTransferHandlePacket p g = g :=
  handlePacket_of_not_admitted fun ha => h ha.1

theorem protocolProcess_of_pending (h : g.pendingOp ≠ .none) (video : VideoState) (now : UInt32)
    (sessions : SessionTable) (received : ℕ) :
    (run m (protocolProcess globals video now sessions g received)).file = g := by
  obtain heq | ⟨type,-,heq⟩ := @protocolProcess_record g m globals video now sessions received
  · exact heq
  · rw [heq, handlePacket_of_pending h]

/-- An answer of an idle step has the request and the record of the step. -/
theorem mem_answers {record : FileTransferState} {before after : D} {sent : List Reply}
    {e : Answer D} (h : e ∈ answers globals asker record before after sent m) :
    e.asker = asker ∧ e.record = record ∧ e.before = before ∧ e.after = after ∧
      e.reply ∈ sent := by
  induction sent generalizing m with
  | nil => exact absurd h List.not_mem_nil
  | cons r sent ih =>
    rw [answers, List.mem_cons] at h
    obtain rfl | h := h
    · exact ⟨rfl,rfl,rfl,rfl,List.mem_cons_self⟩
    · obtain ⟨ha,hr,hb,hd,hmem⟩ := ih h
      exact ⟨ha,hr,hb,hd,List.mem_cons_of_mem _ hmem⟩

variable {s s' : Traffic D} {Q : ℕ → Prop}

/-- What an idle step does to the traffic. -/
theorem idle_answers {sent : List Reply} {sendBuffer : Mem} {file : FileTransferState} {dos : D}
    (h : TsrStep env globals.macAddr (s.file,s.dos) (.idle sent) (file,dos)) :
    (file.pendingOp ≠ .none → False) ∧
      ∀ e ∈ answers globals s.asker s.file s.dos dos sent sendBuffer,
        e.Made globals env ∧ e.record = s.file ∧ e.asker = s.asker := by
  by_cases hop : s.file.pendingOp = .none
  · obtain ⟨rfl,heq⟩ := (tsrIdle_none hop).mp h
    obtain ⟨rfl,rfl⟩ := Prod.mk.inj heq
    exact ⟨fun hne => hne hop,by simp [answers]⟩
  · obtain ⟨fuel,hx⟩ := (tsrIdle_op hop).mp h
    obtain ⟨hlast,payloadLen,body,rfl,-⟩ := idleOp_answer hop hx
    refine ⟨fun hne => hne (congrArg (fun x => x.2.1) hlast),fun e he => ?_⟩
    obtain ⟨ha,hr,hb,hd,hmem⟩ := mem_answers he
    have hreply := List.mem_singleton.mp hmem
    refine ⟨⟨by rwa [hr],fuel,file,?_⟩,hr,ha⟩
    rw [hr, hb, hd, hreply]
    exact hx

theorem Accounted.move (h : Accounted globals env sock s) (hs : Moves globals env sock s s') :
    Accounted globals env sock s' := by
  cases hs with
  | network toServer toClient hs hc => exact ⟨h.pending,fun e he => h.answers e (hc he)⟩
  | deliver n frame buffer video now sessions received hn hf ha =>
    refine ⟨fun hp => ?_,h.answers⟩
    by_cases hop : s.file.pendingOp = .none
    · obtain heq | ⟨type,htype,heq⟩ :=
        @protocolProcess_record s.file buffer globals video now sessions received
      · rw [heq] at hp
        exact absurd hop hp
      · rw [heq, if_pos hop]
        exact ⟨frame,buffer,type,s.file,hf,ha,htype,hop,rfl⟩
    · rw [protocolProcess_of_pending hop, if_neg hop]
      exact h.pending hop
  | packet p hp =>
    refine ⟨fun hpend => ?_,h.answers⟩
    by_cases hop : s.file.pendingOp = .none
    · rw [if_pos hop]
      show (fileTransferHandlePacket p s.file).sessionId ≠ sock.sessionId
      rw [sessionId_of_pending hop hpend]
      exact hp.1
    · rw [handlePacket_of_pending hop, if_neg hop]
      exact h.pending hop
  | idle sent sendBuffer file dos hidle =>
    obtain ⟨hnone,hnew⟩ := @idle_answers _ globals env s sent sendBuffer file dos hidle
    refine ⟨fun hp => absurd hp hnone,fun e he => ?_⟩
    obtain he | he := List.mem_append.mp he
    · exact h.answers e he
    · obtain ⟨hmade,hrecord,hasker⟩ := hnew e he
      refine ⟨hmade,?_⟩
      rw [hrecord, hasker]
      exact h.pending (hrecord ▸ hmade.1)

theorem Askers.move (h : Askers Q s) (hs : Moves globals env sock s s') : Askers Q s' := by
  cases hs with
  | network toServer toClient hs hc =>
    exact ⟨fun n hn => h.requests n (hs hn),h.pending,fun e he => h.answers e (hc he)⟩
  | deliver n frame buffer video now sessions received hn hf ha =>
    refine ⟨h.requests,fun hp k hk => ?_,h.answers⟩
    by_cases hop : s.file.pendingOp = .none
    · rw [if_pos hop] at hk
      exact Option.some.inj hk ▸ h.requests n hn
    · rw [if_neg hop] at hk
      exact h.pending hop k hk
  | packet p hp =>
    refine ⟨h.requests,fun hpend k hk => ?_,h.answers⟩
    by_cases hop : s.file.pendingOp = .none
    · rw [if_pos hop] at hk
      cases hk
    · rw [if_neg hop] at hk
      exact h.pending hop k hk
  | idle sent sendBuffer file dos hidle =>
    obtain ⟨hnone,hnew⟩ := @idle_answers _ globals env s sent sendBuffer file dos hidle
    refine ⟨h.requests,fun hp => absurd hp hnone,fun e he => ?_⟩
    obtain he | he := List.mem_append.mp he
    · exact h.answers e he
    · obtain ⟨hmade,hrecord,hasker⟩ := hnew e he
      intro n hn
      exact h.pending (hrecord ▸ hmade.1) n (hasker ▸ hn)

theorem Accounted.sent (h : Accounted globals env sock s) (frame : List UInt8) :
    Accounted globals env sock (s.sent frame) :=
  ⟨fun hp => (h.pending hp).append _,fun e he => ⟨(h.answers e he).1,(h.answers e he).2.append _⟩⟩

theorem Askers.sent (h : Askers Q s) {frame : List UInt8} (hq : Q s.log.length) :
    Askers Q (s.sent frame) := by
  refine ⟨fun n hn => ?_,h.pending,h.answers⟩
  obtain hn | hn := List.mem_append.mp hn
  · exact h.requests n hn
  · rw [List.mem_singleton.mp hn]
    exact hq

theorem moves_log (hs : Moves globals env sock s s') : s'.log = s.log := by
  cases hs <;> rfl

/-! What holds along a program. -/

variable (globals env sock) in
/-- The traffic, the frames that meet `S` and reading keep `I`. -/
structure Preserved (S : List UInt8 → Prop) (I : Traffic D → Prop) : Prop where
  move : ∀ s s', I s → Moves globals env sock s s' → I s'
  sent : ∀ s frame, I s → S frame → I (s.sent frame)
  read : ∀ s e, I s → I { s with read := some e }

variable {S : List UInt8 → Prop} {I : Traffic D → Prop} {ethertype : UInt16} {type : PktType}
  {payload : List UInt8}

theorem Preserved.and {I' : Traffic D → Prop} (hI : Preserved globals env sock S I)
    (hI' : Preserved globals env sock S I') : Preserved globals env sock S fun s => I s ∧ I' s where
  move s s' h hs := ⟨hI.move s s' h.1 hs,hI'.move s s' h.2 hs⟩
  sent s frame h hf := ⟨hI.sent s frame h.1 hf,hI'.sent s frame h.2 hf⟩
  read s e h := ⟨hI.read s e h.1,hI'.read s e h.2⟩

/-- The log only grows. -/
theorem preserved_log (old : List (List UInt8)) : Preserved globals env sock S fun s => old <+: s.log where
  move s s' h hs := by rwa [moves_log hs]
  sent s frame h _ := h.trans (List.prefix_append ..)
  read s e h := h

theorem Preserved.reach (hI : Preserved globals env sock S I) (hs : I s)
    (h : ReflTransGen (Moves globals env sock) s s') : I s' := by
  induction h with
  | refl => exact hs
  | tail _ h ih => exact hI.move _ _ ih h

theorem Preserved.call {call : ClientCall} {r : ClientReply} (hI : Preserved globals env sock S I)
    (hsend : ClientSending S call) (h : trafficClient globals env sock destMacAddr s call r s')
    (hs : I s) : I s' := by
  cases call with
  | stdio c =>
    cases r with
    | socket r => exact h.elim
    | stdio r => exact h ▸ hs
  | socket c =>
    cases r with
    | stdio r => exact h.elim
    | socket r =>
      obtain ⟨s₁,hreach,hcall⟩ := h
      have h₁ := hI.reach hs hreach
      cases c with
      | send frame =>
        obtain ⟨-,rfl⟩ | ⟨-,rfl⟩ := hcall
        · exact h₁
        · exact hI.sent _ _ h₁ hsend
      | recv =>
        obtain ⟨-,rfl⟩ | ⟨-,-,-,-,rfl⟩ | ⟨e,-,-,-,-,rfl⟩ := hcall
        · exact h₁
        · exact h₁
        · exact hI.read _ e h₁

theorem Preserved.run {α : Type} {p : Transfer α} {os : List Empty} {a : α}
    (hI : Preserved globals env sock S I) (hp : p.CallsIn (ClientSending S))
    (h : Exec (trafficClient globals env sock destMacAddr) p () s os a () s') (hs : I s) : I s' :=
  h.invariant I hp (fun _ _ _ _ hc hcall hd => hI.call hc hcall hd) hs

theorem Preserved.send {ok : Bool} {os : List Empty} (hI : Preserved globals env sock S I)
    (hsend : S (packetFrame sock ethertype destMacAddr type payload)) (hs : I s)
    (h : Exec (trafficCall globals env sock destMacAddr)
      (sendPacket sock ethertype destMacAddr type payload) () s os ok () s') : I s' := by
  obtain ⟨r,s₁,⟨s₀,hreach,hcall⟩,hk⟩ := h
  have hs₀ := hI.reach hs hreach
  obtain ⟨rfl,rfl⟩ | ⟨rfl,rfl⟩ := hcall
  · obtain ⟨-,-,-,rfl⟩ := hk
    exact hs₀
  · obtain ⟨-,-,-,rfl⟩ := hk
    exact hI.sent _ _ hs₀ hsend

/-- A receive loop returns what its body makes of the answer read last. -/
theorem Preserved.await {α : Type} {body : ℕ → Reading FrameField (Received α)}
    {J : List (List UInt8) → Answer D → Prop} {P : α → Answer D → Prop} {fuel : ℕ}
    {result : Option α} {os : List Empty} (hI : Preserved globals env sock S I)
    (hJ : ∀ s e, I s → e ∈ s.toClient → J s.log e)
    (hnoise : ∀ length buf a, NoAnswer sock destMacAddr buf → Reading.run buf (body length) ≠ .ok a)
    (hbody : ∀ e log buf a, J log e → Arrived (e.frame globals) buf →
      Reading.run buf (body (e.frame globals).length) = .ok a → P a e) (hs : I s)
    (h : Exec (trafficCall globals env sock destMacAddr) (awaitFrame body fuel) () s os result () s') :
    I s' ∧ ∀ a, result = some a → ∃ e, s'.read = some e ∧ J s'.log e ∧ P a e := by
  induction fuel generalizing s os with
  | zero => exact h.elim
  | succ fuel ih =>
    obtain ⟨r,s₁,⟨s₀,hreach,hcall⟩,hk⟩ := h
    have hs₀ := hI.reach hs hreach
    obtain ⟨rfl,rfl⟩ | ⟨length,buf,hbuf,rfl,rfl⟩ | ⟨e,he,buf,harr,rfl,rfl⟩ := hcall
    · obtain ⟨-,rfl,-,rfl⟩ := hk
      exact ⟨hs₀,by simp⟩
    · simp only [done_bind] at hk
      cases hrun : Reading.run buf (body length) with
      | ignored =>
        rw [hrun] at hk
        exact ih hs₀ hk
      | failed =>
        rw [hrun] at hk
        obtain ⟨-,rfl,-,rfl⟩ := hk
        exact ⟨hs₀,by simp⟩
      | ok a => exact absurd hrun (hnoise length buf a hbuf)
      | trapped =>
        rw [hrun] at hk
        exact hk.elim
    · have hs₁ := hI.read _ e hs₀
      have hheard := hJ _ e hs₀ he
      simp only [done_bind] at hk
      cases hrun : Reading.run buf (body (e.frame globals).length) with
      | ignored =>
        rw [hrun] at hk
        exact ih hs₁ hk
      | failed =>
        rw [hrun] at hk
        obtain ⟨-,rfl,-,rfl⟩ := hk
        exact ⟨hs₁,by simp⟩
      | ok a =>
        rw [hrun] at hk
        obtain ⟨-,rfl,-,rfl⟩ := hk
        refine ⟨hs₁,fun b hb => ⟨e,rfl,hheard,?_⟩⟩
        obtain rfl := Option.some.inj hb
        exact hbody e _ buf _ hheard harr hrun
      | trapped =>
        rw [hrun] at hk
        exact hk.elim

/-- So does a loop of attempts around it. -/
theorem Preserved.attempts {α : Type} {body : ℕ → Reading FrameField (Received α)}
    {J : List (List UInt8) → Answer D → Prop} {P : α → Answer D → Prop} {fuel attempts : ℕ}
    {result : Option α} {os : List Empty} (hI : Preserved globals env sock S I)
    (hJ : ∀ s e, I s → e ∈ s.toClient → J s.log e)
    (hsend : S (packetFrame sock ethertype destMacAddr type payload))
    (hnoise : ∀ length buf a, NoAnswer sock destMacAddr buf → Reading.run buf (body length) ≠ .ok a)
    (hbody : ∀ e log buf a, J log e → Arrived (e.frame globals) buf →
      Reading.run buf (body (e.frame globals).length) = .ok a → P a e) (hs : I s)
    (h : Exec (trafficCall globals env sock destMacAddr)
      (sendAttempts sock ethertype destMacAddr type payload (awaitFrame body fuel) attempts) () s os
      result () s') :
    I s' ∧ ∀ a, result = some a → ∃ e, s'.read = some e ∧ J s'.log e ∧ P a e := by
  induction attempts generalizing s os with
  | zero =>
    obtain ⟨-,rfl,-,rfl⟩ := h
    exact ⟨hs,by simp⟩
  | succ attempts ih =>
    obtain ⟨_,ok,_,s₁,_,hsent,hk,-⟩ := exec_bind.mp h
    have hs₁ := hI.send hsend hs hsent
    cases ok with
    | false =>
      obtain ⟨-,rfl,-,rfl⟩ := hk
      exact ⟨hs₁,by simp⟩
    | true =>
      obtain ⟨_,r,_,s₂,_,hr,hk,-⟩ := exec_bind.mp hk
      obtain ⟨hs₂,hread⟩ := hI.await hJ hnoise hbody hs₁ hr
      cases r with
      | some a =>
        obtain ⟨-,rfl,-,rfl⟩ := hk
        exact ⟨hs₂,hread⟩
      | none => exact ih hs₂ hk

end

end RmtDos
