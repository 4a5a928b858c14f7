import RmtDos.Client.FileTransfer

/-! The waits of the file client against a clock. The input is a list of frames with their arrival
times, and `select` and `recv` are functions of it; every wait of a receive loop starts anew. -/
namespace RmtDos
open Memory Reading Resumable Prog

/-- Two seconds, counted in microseconds. -/
def ackTimeout : ℕ := 2000000

/-- A frame in the buffer of `recv`. -/
structure Arrival where
  time : ℕ
  length : ℕ
  buf : Mem

/-- A socket with the frames it has not delivered yet, and what was sent through it when. -/
structure TimedSocket where
  now : ℕ
  arrivals : List Arrival
  sent : List (ℕ × List UInt8)

def TimedSocket.InOrder (d : TimedSocket) : Prop :=
  d.arrivals.Pairwise fun f g => f.time ≤ g.time

/-- `select` with the timeout of the client, and `recv`. -/
def TimedSocket.recv (d : TimedSocket) : SocketReply × TimedSocket :=
  match d.arrivals with
  | [] => (.timeout,{ d with now := d.now+ackTimeout })
  | f :: rest =>
    if d.now+ackTimeout < f.time then (.timeout,{ d with now := d.now+ackTimeout })
    else (.received f.length f.buf,{ d with now := max d.now f.time, arrivals := rest })

def TimedSocket.send (d : TimedSocket) (frame : List UInt8) : TimedSocket :=
  { d with sent := d.sent ++ [(d.now,frame)] }

/-- The calls of the client on the socket. -/
def timedCall (d : TimedSocket) : SocketCall → SocketReply → TimedSocket → Prop
  | .send frame, r, d' => ∃ ok, r = .sent ok ∧ d' = d.send frame
  | .recv, r, d' => d.recv = (r,d')

/-- The calls where every send succeeds. -/
def sentCall (d : TimedSocket) (c : SocketCall) (r : SocketReply) (d' : TimedSocket) : Prop :=
  timedCall d c r d' ∧ r ≠ .sent false

variable {α : Type} {body : ℕ → Reading FrameField (Received α)}

/-- The receive loop does not skip the frame. -/
def Matches (body : ℕ → Reading FrameField (Received α)) (f : Arrival) : Prop :=
  run f.buf (body f.length) ≠ .ignored

/-- A matching frame arrives by the timeout. -/
def TimedSocket.Answered (body : ℕ → Reading FrameField (Received α)) (d : TimedSocket) : Prop :=
  ∃ f ∈ d.arrivals, f.time ≤ d.now+ackTimeout ∧ Matches body f

/-- A receive loop returns -1 by its timeout if no matching frame arrives by then. -/
def GivesUpInTime (loop : ℕ → Remote (Option α)) (body : ℕ → Reading FrameField (Received α))
    (d : TimedSocket) : Prop :=
  ¬ d.Answered body → ∀ fuel, d.arrivals.length < fuel →
    Ensures timedCall (loop fuel) () d fun _ a _ d' => a = none ∧ d'.now ≤ d.now+ackTimeout

/-- A matching frame arrives by the timeout, or no frame does that is not already there. -/
def WaitUndisturbed (body : ℕ → Reading FrameField (Received α)) (d : TimedSocket) : Prop :=
  d.Answered body ∨ ∀ f ∈ d.arrivals, f.time ≤ d.now ∨ d.now+ackTimeout < f.time

/-- A receive loop on its input: its result, and the time and the frames left when it returns. There
is no result where it traps. -/
def awaitInput (body : ℕ → Reading FrameField (Received α)) :
    ℕ → List Arrival → Option (Option α × ℕ × List Arrival)
  | now, [] => some (none,now+ackTimeout,[])
  | now, f :: rest =>
    if now+ackTimeout < f.time then some (none,now+ackTimeout,f :: rest)
    else
      match run f.buf (body f.length) with
      | .ignored => awaitInput body (max now f.time) rest
      | .failed => some (none,max now f.time,rest)
      | .ok a => some (some a,max now f.time,rest)
      | .trapped => none

theorem TimedSocket.recv_late {now : ℕ} {f : Arrival} {rest : List Arrival}
    {sent : List (ℕ × List UInt8)} (h : now+ackTimeout < f.time) :
    TimedSocket.recv ⟨now,f :: rest,sent⟩ = (.timeout,⟨now+ackTimeout,f :: rest,sent⟩) :=
  if_pos h

theorem TimedSocket.recv_due {now : ℕ} {f : Arrival} {rest : List Arrival}
    {sent : List (ℕ × List UInt8)} (h : ¬ now+ackTimeout < f.time) :
    TimedSocket.recv ⟨now,f :: rest,sent⟩ =
      (.received f.length f.buf,⟨max now f.time,rest,sent⟩) :=
  if_neg h

theorem exec_recv {k : SocketReply → Remote α} {d d' : TimedSocket} {os : List Empty} {a : α} :
    Exec timedCall ((socketCall .recv).bind k) () d os a () d' ↔
      Exec timedCall (k d.recv.1) () d.recv.2 os a () d' := by
  constructor
  · rintro ⟨r,d₁,hcall,h⟩
    change d.recv = (r,d₁) at hcall
    rw [hcall]
    exact h
  · intro h
    exact ⟨d.recv.1,d.recv.2,rfl,h⟩

/-- With fuel for every frame the program computes the function. -/
theorem exec_awaitFrame {fuel : ℕ} {d d' : TimedSocket} {os : List Empty} {a : Option α}
    (hfuel : d.arrivals.length < fuel) :
    Exec timedCall (awaitFrame body fuel) () d os a () d' ↔
      os = [] ∧ ∃ now rest, awaitInput body d.now d.arrivals = some (a,now,rest) ∧
        d' = { d with now := now, arrivals := rest } := by
  obtain ⟨now,arrivals,sent⟩ := d
  induction fuel generalizing now arrivals with
  | zero => exact absurd hfuel (Nat.not_lt_zero _)
  | succ fuel ih =>
    rw [awaitFrame]
    refine exec_recv.trans ?_
    cases arrivals with
    | nil => simp [TimedSocket.recv, awaitInput, eq_comm]
    | cons f rest =>
      have hrest : rest.length < fuel := Nat.lt_of_succ_lt_succ hfuel
      by_cases hlate : now+ackTimeout < f.time
      · rw [TimedSocket.recv_late hlate, awaitInput, if_pos hlate]
        simp [eq_comm]
      · rw [TimedSocket.recv_due hlate, awaitInput, if_neg hlate]
        cases hf : run f.buf (body f.length) with
        | ignored => simp [hf, ih _ _ hrest]
        | failed => simp [hf, eq_comm]
        | ok b => simp [hf, eq_comm]
        | trapped => simp [hf]

/-- The receive loop of a page is one of these. -/
theorem awaitDirPage_eq (sock : RawSocket) (destMacAddr : MacAddr) (requestId : UInt32)
    (startIndex : UInt16) (maxEntries fuel : ℕ) :
    awaitDirPage sock destMacAddr requestId startIndex maxEntries fuel =
      awaitFrame (recvDirPage sock destMacAddr requestId startIndex maxEntries 1514) fuel := by
  induction fuel with
  | zero => rfl
  | succ fuel ih =>
    rw [awaitDirPage, awaitFrame, ih]
    refine congrArg (socketCall .recv).bind (funext fun r => ?_)
    cases r with
    | sent ok => rfl
    | timeout => rfl
    | received length buf =>
      cases h : run buf (recvDirPage sock destMacAddr requestId startIndex maxEntries 1514 length)
        with
      | ignored => simp only [h]
      | failed => simp only [h]
      | ok page => simp only [h]
      | trapped => simp only [h]

/-! When a receive loop returns. -/

variable {now deadline : ℕ} {arrivals : List Arrival}

/-- Nothing arrives while it waits: it returns at its timeout. -/
theorem awaitInput_quiet (hno : ∀ f ∈ arrivals, f.time ≤ now+ackTimeout → ¬ Matches body f)
    (hquiet : ∀ f ∈ arrivals, f.time ≤ now ∨ now+ackTimeout < f.time) :
    ∃ rest, awaitInput body now arrivals = some (none,now+ackTimeout,rest) := by
  induction arrivals with
  | nil => exact ⟨[],rfl⟩
  | cons f rest ih =>
    rw [List.forall_mem_cons] at hno hquiet
    rw [awaitInput]
    split_ifs with hlate
    · exact ⟨_,rfl⟩
    · have hpending : f.time ≤ now := hquiet.1.resolve_right hlate
      have hignored := not_not.mp (hno.1 (Nat.not_lt.mp hlate))
      simp only [hignored, Nat.max_eq_left hpending]
      exact ih hno.2 hquiet.2

/-- A loop whose wait started anew does not return by the first timeout. -/
theorem awaitInput_restarted {a : Option α} {t : ℕ} {rest : List Arrival}
    (hno : ∀ f ∈ arrivals, f.time ≤ deadline → ¬ Matches body f) (hnew : deadline < now+ackTimeout)
    (h : awaitInput body now arrivals = some (a,t,rest)) : deadline < t := by
  induction arrivals generalizing now with
  | nil =>
    cases h
    exact hnew
  | cons f tail ih =>
    rw [List.forall_mem_cons] at hno
    rw [awaitInput] at h
    -- a frame that is not skipped matches, so it is later than the first timeout
    have hmatch (hm : Matches body f) : deadline < max now f.time :=
      (Nat.not_le.mp fun hle => hno.1 hle hm).trans_le (Nat.le_max_right _ _)
    split_ifs at h with hlate
    · cases h
      exact hnew
    · cases hf : run f.buf (body f.length) with
      | ignored =>
        rw [hf] at h
        exact ih hno.2 (hnew.trans_le (Nat.add_le_add_right (Nat.le_max_left _ _) _)) h
      | failed =>
        rw [hf] at h
        cases h
        exact hmatch (by simp [Matches, hf])
      | ok b =>
        rw [hf] at h
        cases h
        exact hmatch (by simp [Matches, hf])
      | trapped =>
        rw [hf] at h
        cases h

/-- A frame that arrives while the loop waits and does not match makes it late. -/
theorem awaitInput_disturbed {a : Option α} {t : ℕ} {rest : List Arrival}
    (horder : arrivals.Pairwise fun f g => f.time ≤ g.time)
    (hno : ∀ f ∈ arrivals, f.time ≤ now+ackTimeout → ¬ Matches body f)
    (hmid : ∃ f ∈ arrivals, now < f.time ∧ f.time ≤ now+ackTimeout)
    (h : awaitInput body now arrivals = some (a,t,rest)) : now+ackTimeout < t := by
  induction arrivals with
  | nil => simp at hmid
  | cons f tail ih =>
    obtain ⟨g,hg,hlt,hle⟩ := hmid
    rw [List.forall_mem_cons] at hno
    rw [List.pairwise_cons] at horder
    have hfg : f.time ≤ g.time := by
      rcases List.mem_cons.mp hg with rfl | hg
      · exact le_rfl
      · exact horder.1 g hg
    have hignored := not_not.mp (hno.1 (hfg.trans hle))
    simp only [awaitInput, if_neg (Nat.not_lt.mpr (hfg.trans hle)), hignored] at h
    by_cases hpending : f.time ≤ now
    · rw [Nat.max_eq_left hpending] at h
      have hne : g ≠ f := by
        rintro rfl
        exact absurd hpending (Nat.not_le.mpr hlt)
      exact ih horder.2 hno.2 ⟨g,(List.mem_cons.mp hg).resolve_left hne,hlt,hle⟩ h
    · rw [Nat.max_eq_right (Nat.le_of_not_le hpending)] at h
      exact awaitInput_restarted hno.2 (by omega) h

/-- A matching frame in time is read in time. -/
theorem awaitInput_answered {a : Option α} {t : ℕ} {rest : List Arrival}
    (horder : arrivals.Pairwise fun f g => f.time ≤ g.time)
    (hnow : now ≤ deadline) (hwait : deadline ≤ now+ackTimeout)
    (hmatch : ∃ f ∈ arrivals, f.time ≤ deadline ∧ Matches body f)
    (h : awaitInput body now arrivals = some (a,t,rest)) : t ≤ deadline := by
  induction arrivals generalizing now with
  | nil => simp at hmatch
  | cons f tail ih =>
    obtain ⟨g,hg,hle,hm⟩ := hmatch
    rw [List.pairwise_cons] at horder
    have hfg : f.time ≤ g.time := by
      rcases List.mem_cons.mp hg with rfl | hg
      · exact le_rfl
      · exact horder.1 g hg
    have hread : max now f.time ≤ deadline := Nat.max_le.mpr ⟨hnow,hfg.trans hle⟩
    rw [awaitInput, if_neg (by omega)] at h
    cases hf : run f.buf (body f.length) with
    | ignored =>
      rw [hf] at h
      have hne : g ≠ f := by
        rintro rfl
        exact hm hf
      exact ih horder.2 hread (hwait.trans (Nat.add_le_add_right (Nat.le_max_left _ _) _))
        ⟨g,(List.mem_cons.mp hg).resolve_left hne,hle,hm⟩ h
    | failed =>
      rw [hf] at h
      cases h
      exact hread
    | ok b =>
      rw [hf] at h
      cases h
      exact hread
    | trapped =>
      rw [hf] at h
      cases h

theorem givesUpInTime_iff {d : TimedSocket} (horder : d.InOrder) :
    GivesUpInTime (awaitFrame body) body d ↔ WaitUndisturbed body d := by
  by_cases hans : d.Answered body
  · exact iff_of_true (fun h => absurd hans h) (.inl hans)
  have hno : ∀ f ∈ d.arrivals, f.time ≤ d.now+ackTimeout → ¬ Matches body f :=
    fun f hf hle hm => hans ⟨f,hf,hle,hm⟩
  constructor
  · intro h
    refine .inr fun f hf => ?_
    obtain ⟨⟨os,a,_,d',hexec⟩,hall⟩ := h hans _ (Nat.lt_succ_self _)
    obtain ⟨-,htime⟩ := hall os a () d' hexec
    obtain ⟨-,t,rest,hawait,rfl⟩ := (exec_awaitFrame (Nat.lt_succ_self _)).mp hexec
    by_contra hmid
    rw [not_or, Nat.not_le, Nat.not_lt] at hmid
    exact absurd htime (Nat.not_le.mpr (awaitInput_disturbed horder hno ⟨f,hf,hmid⟩ hawait))
  · rintro hquiet - fuel hfuel
    obtain ⟨rest,hawait⟩ := awaitInput_quiet hno (hquiet.resolve_left hans)
    refine ⟨⟨[],none,(),_,(exec_awaitFrame hfuel).mpr ⟨rfl,_,_,hawait,rfl⟩⟩,?_⟩
    intro os a _ d' hexec
    obtain ⟨-,t,rest',hawait',rfl⟩ := (exec_awaitFrame hfuel).mp hexec
    rw [hawait] at hawait'
    cases hawait'
    exact ⟨rfl,le_rfl⟩

/-! The attempts of a request. -/

/-- The socket when each attempt of `sendAttempts` enters its receive loop, if every send succeeds. -/
def attemptStates (body : ℕ → Reading FrameField (Received α)) (frame : List UInt8) :
    ℕ → TimedSocket → List TimedSocket
  | 0, _ => []
  | n+1, d => d.send frame ::
    match awaitInput body d.now d.arrivals with
    | some (none,now,rest) => attemptStates body frame n ⟨now,rest,(d.send frame).sent⟩
    | _ => []

theorem length_attemptStates (frame : List UInt8) (n : ℕ) (d : TimedSocket) :
    (attemptStates body frame n d).length ≤ n := by
  induction n generalizing d with
  | zero => exact le_rfl
  | succ n ih =>
    rw [attemptStates, List.length_cons]
    refine Nat.succ_le_succ ?_
    split
    · exact ih _
    · exact Nat.zero_le n

theorem awaitInput_suffix {a : Option α} {t : ℕ} {rest : List Arrival}
    (h : awaitInput body now arrivals = some (a,t,rest)) : rest <:+ arrivals := by
  induction arrivals generalizing now with
  | nil =>
    cases h
    exact List.suffix_rfl
  | cons f tail ih =>
    rw [awaitInput] at h
    have htail : tail <:+ f :: tail := List.suffix_cons f tail
    split_ifs at h with hlate
    · cases h
      exact List.suffix_rfl
    · cases hf : run f.buf (body f.length) with
      | ignored =>
        rw [hf] at h
        exact (ih h).trans htail
      | failed =>
        rw [hf] at h
        cases h
        exact htail
      | ok b =>
        rw [hf] at h
        cases h
        exact htail
      | trapped =>
        rw [hf] at h
        cases h

theorem attemptStates_inOrder {frame : List UInt8} {n : ℕ} {d : TimedSocket} (h : d.InOrder) :
    ∀ e ∈ attemptStates body frame n d, e.InOrder := by
  induction n generalizing d with
  | zero => simp [attemptStates]
  | succ n ih =>
    rw [attemptStates, List.forall_mem_cons]
    refine ⟨h,?_⟩
    split
    · next now rest hawait => exact ih (h.sublist (awaitInput_suffix hawait).sublist)
    · simp

/-- An attempt that is not disturbed returns by its timeout. -/
theorem awaitInput_undisturbed {d : TimedSocket} {a : Option α} {t : ℕ} {rest : List Arrival}
    (horder : d.InOrder) (h : WaitUndisturbed body d)
    (hawait : awaitInput body d.now d.arrivals = some (a,t,rest)) : t ≤ d.now+ackTimeout := by
  by_cases hans : d.Answered body
  · exact awaitInput_answered horder (Nat.le_add_right _ _) le_rfl hans hawait
  · obtain ⟨rest',hquiet⟩ := awaitInput_quiet (fun f hf hle hm => hans ⟨f,hf,hle,hm⟩)
      (h.resolve_left hans)
    rw [hquiet] at hawait
    cases hawait
    exact le_rfl

/-- The sends of undisturbed attempts are at most a timeout apart. -/
theorem attemptStates_chain {frame : List UInt8} {n : ℕ} {d : TimedSocket} (h : d.InOrder)
    (hall : ∀ e ∈ attemptStates body frame n d, WaitUndisturbed body e) :
    (attemptStates body frame n d).IsChain fun e e' => e'.now ≤ e.now+ackTimeout := by
  induction n generalizing d with
  | zero => exact .nil
  | succ n ih =>
    rw [attemptStates] at hall ⊢
    rw [List.forall_mem_cons] at hall
    obtain ⟨hfirst,hrest⟩ := hall
    split at hrest
    · next now rest hawait =>
      have hnext := awaitInput_undisturbed (d := d.send frame) h hfirst hawait
      have horder : rest.Pairwise fun f g => f.time ≤ g.time :=
        h.sublist (awaitInput_suffix hawait).sublist
      refine List.isChain_cons.mpr ⟨?_,ih horder hrest⟩
      intro e he
      cases n with
      | zero => simp [attemptStates] at he
      | succ n =>
        cases he
        exact hnext
    · exact .singleton _

variable {sock : RawSocket} {ethertype : UInt16} {destMacAddr : MacAddr}

/-- The program sends at the attempts, up to a send that fails. -/
theorem exec_sendAttempts {pktType : PktType} {payload : List UInt8} {fuel n : ℕ}
    {d d' : TimedSocket} {os : List Empty} {a : Option α} (hfuel : d.arrivals.length < fuel)
    (h : Exec timedCall (sendAttempts sock ethertype destMacAddr pktType payload
      (awaitFrame body fuel) n) () d os a () d') :
    ∃ made, made <+: attemptStates body (packetFrame sock ethertype destMacAddr pktType payload) n d ∧
      d'.sent = d.sent ++ made.map fun e =>
        (e.now,packetFrame sock ethertype destMacAddr pktType payload) := by
  induction n generalizing d os with
  | zero =>
    obtain ⟨-,-,-,rfl⟩ := h
    exact ⟨[],List.nil_prefix,by simp⟩
  | succ n ih =>
    obtain ⟨r,d₁,⟨ok,rfl,rfl⟩,h⟩ := h
    cases ok with
    | false =>
      obtain ⟨-,-,-,rfl⟩ := h
      exact ⟨[_],List.prefix_cons_inj _ |>.mpr List.nil_prefix,rfl⟩
    | true =>
      change Exec timedCall ((awaitFrame body fuel).bind _) () _ os a () d' at h
      obtain ⟨os₁,b,_,d₂,os₂,hawait,h,-⟩ := exec_bind.mp h
      have hfuel' : (d.send (packetFrame sock ethertype destMacAddr pktType payload)).arrivals.length <
          fuel := hfuel
      obtain ⟨-,now,rest,hinput,rfl⟩ := (exec_awaitFrame hfuel').mp hawait
      rw [attemptStates]
      cases b with
      | some b =>
        obtain ⟨-,-,-,rfl⟩ := h
        exact ⟨[_],List.prefix_cons_inj _ |>.mpr List.nil_prefix,rfl⟩
      | none =>
        have hleft : rest.length < fuel :=
          (awaitInput_suffix hinput).length_le.trans_lt hfuel
        obtain ⟨made,hmade,hsent⟩ := ih hleft h
        change awaitInput body d.now d.arrivals = _ at hinput
        rw [hinput]
        refine ⟨_ :: made,List.prefix_cons_inj _ |>.mpr hmade,?_⟩
        rw [hsent, List.map_cons]
        simp [TimedSocket.send]

/-! What becomes of a request whose sends succeed. -/

theorem awaitFrame_callsIn (fuel : ℕ) : (awaitFrame body fuel).CallsIn (· = .recv) := by
  induction fuel with
  | zero => trivial
  | succ fuel ih =>
    refine ⟨fun _ => rfl,fun r => ?_⟩
    cases r with
    | sent ok => trivial
    | timeout => trivial
    | received length buf =>
      simp only [done_bind]
      cases run buf (body length) with
      | ignored => exact ih
      | _ => trivial

theorem TimedSocket.recv_ne_sent (d : TimedSocket) (ok : Bool) : d.recv.1 ≠ .sent ok := by
  unfold TimedSocket.recv
  split
  · simp
  · split <;> simp

/-- A receive loop does not send, so it is the same whether sends succeed or not. -/
theorem exec_awaitFrame_sent {fuel : ℕ} {d d' : TimedSocket} {os : List Empty} {a : Option α} :
    Exec sentCall (awaitFrame body fuel) () d os a () d' ↔
      Exec timedCall (awaitFrame body fuel) () d os a () d' := by
  constructor
  · exact fun h => h.mono fun _ _ _ _ hc => hc.1
  · intro h
    have hrecv (d e : TimedSocket) (c : SocketCall) (r : SocketReply) (d₁ : TimedSocket)
        (hc : c = .recv) (he : d = e) (hs : timedCall d c r d₁) :
        ∃ e₁, sentCall e c r e₁ ∧ d₁ = e₁ := by
      subst hc he
      refine ⟨d₁,⟨hs,?_⟩,rfl⟩
      have hr : d.recv.1 = r := congrArg Prod.fst hs
      exact hr ▸ d.recv_ne_sent false
    obtain ⟨_,hx,rfl⟩ := h.simulate Eq (awaitFrame_callsIn fuel) hrecv rfl
    exact hx

/-- The receive loop comes to an end on every input. -/
theorem awaitInput_total (hbody : ∀ m n, run m (body n) ≠ .trapped) (now : ℕ)
    (arrivals : List Arrival) : ∃ a t rest, awaitInput body now arrivals = some (a,t,rest) := by
  induction arrivals generalizing now with
  | nil => exact ⟨_,_,_,rfl⟩
  | cons f rest ih =>
    rw [awaitInput]
    split_ifs with hlate
    · exact ⟨_,_,_,rfl⟩
    · cases hf : run f.buf (body f.length) with
      | ignored => exact ih _
      | failed => exact ⟨_,_,_,rfl⟩
      | ok a => exact ⟨_,_,_,rfl⟩
      | trapped => exact absurd hf (hbody _ _)

theorem ensures_awaitFrame (hbody : ∀ m n, run m (body n) ≠ .trapped) {fuel : ℕ} {d : TimedSocket}
    (hfuel : d.arrivals.length < fuel) :
    Ensures sentCall (awaitFrame body fuel) () d fun _ a _ d' =>
      ∃ now rest, awaitInput body d.now d.arrivals = some (a,now,rest) ∧
        d' = { d with now := now, arrivals := rest } := by
  obtain ⟨a,now,rest,h⟩ := awaitInput_total hbody d.now d.arrivals
  constructor
  · have hx := (exec_awaitFrame hfuel).mpr ⟨rfl,now,rest,h,rfl⟩
    exact ⟨[],a,(),_,exec_awaitFrame_sent.mpr hx⟩
  · intro os b _ d' hx
    exact ((exec_awaitFrame hfuel).mp (exec_awaitFrame_sent.mp hx)).2

/-- A frame that the loop returns on matches. -/
theorem awaitInput_some {a : α} {t : ℕ} {rest : List Arrival}
    (h : awaitInput body now arrivals = some (some a,t,rest)) : ∃ f ∈ arrivals, Matches body f := by
  induction arrivals generalizing now with
  | nil => simp [awaitInput] at h
  | cons f tail ih =>
    rw [awaitInput] at h
    split_ifs at h with hlate
    · simp at h
    · cases hf : run f.buf (body f.length) with
      | ignored =>
        rw [hf] at h
        obtain ⟨g,hg,hm⟩ := ih h
        exact ⟨g,List.mem_cons_of_mem _ hg,hm⟩
      | _ => exact ⟨f,List.mem_cons_self,by simp [Matches, hf]⟩

/-- What `sendAttempts` comes to with `n` attempts left: it has sent at every attempt, it gives up
after `n` of them only, and it does give up where no answer reaches it. -/
structure Attempted (body : ℕ → Reading FrameField (Received α)) (frame : List UInt8) (n : ℕ)
    (d : TimedSocket) (a : Option α) (d' : TimedSocket) : Prop where
  sent : d'.sent = d.sent ++ (attemptStates body frame n d).map fun e => (e.now,frame)
  all : a = none → (attemptStates body frame n d).length = n
  unanswered : (∀ e ∈ attemptStates body frame n d, WaitUndisturbed body e ∧ ¬ e.Answered body) →
    a = none ∧ d'.now = d.now+n*ackTimeout
  unmatched : (∀ f ∈ d.arrivals, ¬ Matches body f) → a = none

/-- The attempts that are left behind one that is not answered. -/
theorem attemptStates_none {frame : List UInt8} {n : ℕ} {d : TimedSocket} {rest : List Arrival}
    (h : awaitInput body d.now d.arrivals = some (none,now,rest)) :
    attemptStates body frame (n+1) d =
      d.send frame :: attemptStates body frame n ⟨now,rest,(d.send frame).sent⟩ := by
  rw [attemptStates, h]

theorem attemptStates_last {frame : List UInt8} {n : ℕ} {d : TimedSocket}
    (h : ∀ now rest, awaitInput body d.now d.arrivals ≠ some (none,now,rest)) :
    attemptStates body frame (n+1) d = [d.send frame] := by
  rw [attemptStates]
  split
  · next now rest hnone => exact absurd hnone (h now rest)
  · rfl

/-- An attempt whose answer is accepted was answered, or disturbed. -/
theorem answered_of_some {d : TimedSocket} {a : α} {rest : List Arrival}
    (h : awaitInput body d.now d.arrivals = some (some a,now,rest)) :
    ¬ (WaitUndisturbed body d ∧ ¬ d.Answered body) := by
  rintro ⟨hquiet,hans⟩
  obtain ⟨_,hnone⟩ := awaitInput_quiet (fun f hf hle hm => hans ⟨f,hf,hle,hm⟩)
    (hquiet.resolve_left hans)
  rw [hnone] at h
  cases h

/-- An attempt that is neither answered nor disturbed ends at its timeout. -/
theorem now_of_unanswered {d : TimedSocket} {a : Option α} {rest : List Arrival}
    (hd : WaitUndisturbed body d ∧ ¬ d.Answered body)
    (h : awaitInput body d.now d.arrivals = some (a,now,rest)) : now = d.now+ackTimeout := by
  obtain ⟨_,hnone⟩ := awaitInput_quiet (fun f hf hle hm => hd.2 ⟨f,hf,hle,hm⟩)
    (hd.1.resolve_left hd.2)
  rw [hnone] at h
  cases h
  rfl

theorem attempted_some {frame : List UInt8} {n : ℕ} {d : TimedSocket} {a : α} {rest : List Arrival}
    (h : awaitInput body d.now d.arrivals = some (some a,now,rest)) :
    Attempted body frame (n+1) d (some a) { d.send frame with now := now, arrivals := rest } := by
  have hs : attemptStates body frame (n+1) d = [d.send frame] := attemptStates_last (by simp [h])
  refine ⟨by rw [hs]; rfl,by simp,?_,?_⟩
  · intro hall
    rw [hs] at hall
    exact absurd (hall _ List.mem_cons_self) (answered_of_some h)
  · intro hno
    obtain ⟨f,hf,hm⟩ := awaitInput_some h
    exact absurd hm (hno f hf)

theorem Attempted.again {frame : List UInt8} {n : ℕ} {d d' : TimedSocket} {a : Option α}
    {rest : List Arrival} (h : awaitInput body d.now d.arrivals = some (none,now,rest))
    (hrest : Attempted body frame n ⟨now,rest,(d.send frame).sent⟩ a d') :
    Attempted body frame (n+1) d a d' := by
  have hs : attemptStates body frame (n+1) d = _ := attemptStates_none h
  refine ⟨?_,?_,?_,?_⟩
  · rw [hs, hrest.sent, List.map_cons]
    simp [TimedSocket.send]
  · intro ha
    rw [hs, List.length_cons, hrest.all ha]
  · intro hall
    rw [hs, List.forall_mem_cons] at hall
    obtain ⟨hfirst,hall⟩ := hall
    obtain ⟨ha,hnow⟩ := hrest.unanswered hall
    refine ⟨ha,?_⟩
    have hfirst' : now = d.now+ackTimeout := now_of_unanswered (d := d.send frame) hfirst h
    calc
      d'.now = now+n*ackTimeout := hnow
      _ = d.now+(n+1)*ackTimeout := by rw [hfirst', Nat.succ_mul]; omega
  · intro hno
    exact hrest.unmatched fun f hf => hno f ((awaitInput_suffix h).subset hf)

/-- Where every send succeeds, a request comes to an end, and is sent at each of its attempts. -/
theorem ensures_sendAttempts (hbody : ∀ m n, run m (body n) ≠ .trapped) {pktType : PktType}
    {payload : List UInt8} {fuel n : ℕ} {d : TimedSocket} (hfuel : d.arrivals.length < fuel) :
    Ensures sentCall (sendAttempts sock ethertype destMacAddr pktType payload
      (awaitFrame body fuel) n) () d fun _ a _ d' =>
        Attempted body (packetFrame sock ethertype destMacAddr pktType payload) n d a d' := by
  induction n generalizing d with
  | zero => exact ensures_done ⟨by simp [attemptStates],fun _ => rfl,by simp,fun _ => rfl⟩
  | succ n ih =>
    refine ensures_call ⟨.sent true,_,⟨true,rfl,rfl⟩,by simp⟩ ?_
    rintro _ _ ⟨⟨ok,rfl,rfl⟩,hok⟩
    obtain rfl : ok = true := by simpa using hok
    have hfuel' : (d.send (packetFrame sock ethertype destMacAddr pktType payload)).arrivals.length <
        fuel := hfuel
    change Ensures sentCall ((awaitFrame body fuel).bind _) () _ _
    apply Ensures.bind (ensures_awaitFrame hbody hfuel')
    rintro _ b _ _ ⟨now,rest,hinput,rfl⟩
    change awaitInput body d.now d.arrivals = _ at hinput
    cases b with
    | some b => exact ensures_done (attempted_some hinput)
    | none =>
      have hleft : rest.length < fuel := (awaitInput_suffix hinput).length_le.trans_lt hfuel
      exact (ih hleft).imp fun _ _ _ _ h => h.again hinput

/-- A wait that is not answered ends by its timeout exactly if it is not disturbed. -/
theorem awaitInput_inTime_iff {d : TimedSocket} (h : d.InOrder) (hno : ¬ d.Answered body) :
    (∃ now rest, awaitInput body d.now d.arrivals = some (none,now,rest) ∧
      now ≤ d.now+ackTimeout) ↔ WaitUndisturbed body d := by
  have hno' : ∀ f ∈ d.arrivals, f.time ≤ d.now+ackTimeout → ¬ Matches body f :=
    fun f hf hle hm => hno ⟨f,hf,hle,hm⟩
  constructor
  · rintro ⟨now,rest,hinput,hle⟩
    refine .inr fun f hf => ?_
    by_contra hmid
    rw [not_or, Nat.not_le, Nat.not_lt] at hmid
    exact absurd hle (Nat.not_le.mpr (awaitInput_disturbed h hno' ⟨f,hf,hmid⟩ hinput))
  · intro hquiet
    obtain ⟨rest,hnone⟩ := awaitInput_quiet hno' (hquiet.resolve_left hno)
    exact ⟨_,rest,hnone,le_rfl⟩

/-- An attempt that is not answered by its timeout is followed by another within the timeout exactly
if it is not disturbed. -/
theorem attemptStates_next {frame : List UInt8} {n i : ℕ} {d e : TimedSocket} (h : d.InOrder)
    (hi : i+1 < n) (he : (attemptStates body frame n d)[i]? = some e) (hno : ¬ e.Answered body) :
    (∃ e', (attemptStates body frame n d)[i+1]? = some e' ∧ e'.now ≤ e.now+ackTimeout) ↔
      WaitUndisturbed body e := by
  induction n generalizing d i with
  | zero => exact absurd hi (Nat.not_lt_zero _)
  | succ n ih =>
    by_cases hlast : ∃ now rest, awaitInput body d.now d.arrivals = some (none,now,rest)
    · obtain ⟨now,rest,hinput⟩ := hlast
      rw [attemptStates_none hinput] at he ⊢
      cases i with
      | succ i =>
        have hrest : TimedSocket.InOrder ⟨now,rest,(d.send frame).sent⟩ :=
          h.sublist (awaitInput_suffix hinput).sublist
        exact ih hrest (Nat.lt_of_succ_lt_succ hi) he
      | zero =>
        obtain ⟨n,rfl⟩ := Nat.exists_eq_succ_of_ne_zero (Nat.ne_of_gt (Nat.lt_of_succ_lt_succ hi))
        obtain rfl : d.send frame = e := Option.some.inj he
        rw [← awaitInput_inTime_iff (d := d.send frame) h hno]
        constructor
        · rintro ⟨e',he',hle⟩
          obtain rfl : TimedSocket.send ⟨now,rest,(d.send frame).sent⟩ frame = e' :=
            Option.some.inj he'
          exact ⟨now,rest,hinput,hle⟩
        · rintro ⟨now',rest',hinput',hle⟩
          cases hinput.symm.trans hinput'
          exact ⟨_,rfl,hle⟩
    · have hend : attemptStates body frame (n+1) d = [d.send frame] :=
        attemptStates_last fun now rest hinput => hlast ⟨now,rest,hinput⟩
      rw [hend] at he ⊢
      cases i with
      | succ i => simp at he
      | zero =>
        obtain rfl : d.send frame = e := Option.some.inj he
        refine iff_of_false (by simp) fun hquiet => ?_
        obtain ⟨now,rest,hinput,-⟩ := (awaitInput_inTime_iff (d := d.send frame) h hno).mpr hquiet
        exact hlast ⟨now,rest,hinput⟩

/-- The receive loop of an acknowledgement reads no string. -/
theorem recvFileAck_total (transferId : UInt32) (command : UInt16) (m : Mem) (n : ℕ) :
    run m (recvFileAck sock destMacAddr transferId command n) ≠ .trapped := by
  simp only [recvFileAck, run_ite, run_bind, run_pure]
  split_ifs <;> simp

/-- Each receive loop gives up by its timeout exactly if no frame that does not match arrives while it
waits. So it is at every attempt of `send_with_ack`: an attempt that is not answered is followed by
the next within the timeout exactly if it is not disturbed. Where its sends succeed it returns, it has
sent its request at every attempt, and it gives up behind the tenth; a send that fails ends it early. -/
theorem receiveLoops_inTime_iff (sock : RawSocket) (ethertype : UInt16) (destMacAddr : MacAddr)
    (transferId offset requestId : UInt32) (command : FileAckCommand) (startIndex : UInt16)
    (maxEntries : ℕ) (pktType : PktType) (payload : List UInt8) (d : TimedSocket) (h : d.InOrder) :
    let ack := recvFileAck sock destMacAddr transferId command.code
    let data := recvFileGetData sock destMacAddr transferId offset
    let page := recvDirPage sock destMacAddr requestId startIndex maxEntries 1514
    let frame := packetFrame sock ethertype destMacAddr pktType payload
    let attempts := attemptStates ack frame fileRetries d
    (GivesUpInTime (awaitFileAck sock destMacAddr transferId command) ack d ↔ WaitUndisturbed ack d) ∧
    (GivesUpInTime (awaitFileGetData sock destMacAddr transferId offset) data d ↔
      WaitUndisturbed data d) ∧
    (GivesUpInTime (awaitDirPage sock destMacAddr requestId startIndex maxEntries) page d ↔
      WaitUndisturbed page d) ∧
    ((∀ e ∈ attempts, GivesUpInTime (awaitFileAck sock destMacAddr transferId command) ack e) ↔
      ∀ e ∈ attempts, WaitUndisturbed ack e) ∧
    (∀ i e, attempts[i]? = some e → i+1 < fileRetries → ¬ e.Answered ack →
      ((∃ e', attempts[i+1]? = some e' ∧ e'.now ≤ e.now+ackTimeout) ↔ WaitUndisturbed ack e)) ∧
    (∀ fuel, d.arrivals.length < fuel →
      Ensures sentCall
        (sendWithAck sock ethertype destMacAddr fuel pktType payload transferId command) () d
        fun _ a _ d' => Attempted ack frame fileRetries d a d') ∧
    ∀ fuel os a d', d.arrivals.length < fuel →
      Exec timedCall (sendWithAck sock ethertype destMacAddr fuel pktType payload transferId command)
        () d os a () d' →
      ∃ made, made <+: attempts ∧ made.length ≤ fileRetries ∧
        d'.sent = d.sent ++ made.map (fun e => (e.now,frame)) ∧
        ((∀ e ∈ attempts, WaitUndisturbed ack e) →
          made.IsChain fun e e' => e'.now ≤ e.now+ackTimeout) := by
  intro ack data page frame attempts
  refine ⟨givesUpInTime_iff h,givesUpInTime_iff h,?_,?_,?_,?_,?_⟩
  · have heq : awaitDirPage sock destMacAddr requestId startIndex maxEntries = awaitFrame page :=
      funext fun fuel => awaitDirPage_eq sock destMacAddr requestId startIndex maxEntries fuel
    rw [heq]
    exact givesUpInTime_iff h
  · exact forall₂_congr fun e he => givesUpInTime_iff (attemptStates_inOrder h e he)
  · exact fun i e he hi hno => attemptStates_next h hi he hno
  · exact fun fuel hfuel => ensures_sendAttempts (recvFileAck_total transferId command.code) hfuel
  · intro fuel os a d' hfuel hexec
    obtain ⟨made,hmade,hsent⟩ := exec_sendAttempts hfuel hexec
    refine ⟨made,hmade,hmade.length_le.trans (length_attemptStates frame fileRetries d),hsent,?_⟩
    intro hall
    obtain ⟨rest,hrest⟩ := hmade
    have hchain := attemptStates_chain h hall
    rw [← hrest] at hchain
    exact hchain.left_of_append

/-! A short frame in the middle of the first wait. -/

def zeroSocket : RawSocket := ⟨Vector.replicate 6 0,0⟩

def shortFrame : TimedSocket := ⟨0,[⟨1,0,fun _ => 0⟩],[]⟩

theorem receiveLoops_inTime_shortFrame :
    GivesUpInTime (awaitFileAck zeroSocket zeroSocket.ifAddr 0 .data)
        (recvFileAck zeroSocket zeroSocket.ifAddr 0 2) shortFrame ↔
      WaitUndisturbed (recvFileAck zeroSocket zeroSocket.ifAddr 0 2) shortFrame :=
  (receiveLoops_inTime_iff zeroSocket 0 zeroSocket.ifAddr 0 0 0 .data 0 0 .filePutData [] shortFrame
    (List.pairwise_singleton _ _)).1

/-- Its wait starts anew, and it gives up later than it should. -/
theorem shortFrame_late :
    ¬ ∀ sock destMacAddr transferId command d, TimedSocket.InOrder d →
      GivesUpInTime (awaitFileAck sock destMacAddr transferId command)
        (recvFileAck sock destMacAddr transferId command.code) d := by
  intro h
  have horder : shortFrame.InOrder := List.pairwise_singleton _ _
  have hquiet := (givesUpInTime_iff horder).mp
    (h zeroSocket zeroSocket.ifAddr 0 .data shortFrame horder)
  obtain ⟨f,hf,-,hm⟩ | hquiet := hquiet
  · rw [List.mem_singleton.mp hf] at hm
    exact hm rfl
  · exact absurd (hquiet _ (List.mem_singleton_self _)) (by decide)

end RmtDos
