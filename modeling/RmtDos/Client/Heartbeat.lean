import RmtDos.Client.OneHost
import RmtDos.Client.Paging
import RmtDos.Server.SessionClock

/-! A session stays as long as its client runs. The client refreshes it every two seconds, the
server drops it after ten; in between the link may lose a few refreshes and delay the others, other
clients start sessions of their own, and midnight puts the server's clock back. -/
namespace RmtDos
open Memory Reading Runs Clock

/-- The bounds of a run, in microseconds: the time between two turns of the client, the time of a
frame on the link, how many session starts in a row are lost, and the tick count of the server. -/
structure Pace where
  epoch : ℤ
  gap : ℕ
  delay : ℕ
  losses : ℕ
  ticks : ℕ → ℕ

/-- The ticks of the timer, 54925 microseconds apart: at most one more than fits into a time. -/
structure Pace.Regular (pace : Pace) : Prop where
  mono : Monotone pace.ticks
  rate : ∀ t d, pace.ticks (t+d) ≤ pace.ticks t+d/54925+1

/-- The longest time between two session starts of the client. -/
def Pace.period (pace : Pace) : ℕ := 2000000+pace.gap

/-- The longest time that a session goes without a refresh. -/
def Pace.silence (pace : Pace) : ℕ := (pace.losses+1)*pace.period+pace.delay

/-- The client, the frames on their way to the server with the time at which they were sent, and the
sessions of the server. `turned` is the time of the client's last turn, `lost` counts the session
starts lost in a row, and `gone` is when the last one was sent that left the link; they are for the
statements only. -/
structure Heartbeat where
  client : Controlling
  time : ℕ
  turned : ℕ
  inFlight : List (ℕ × LoopPacket)
  lost : ℕ
  gone : Option ℕ
  mgr : SessionMgr

def Heartbeat.start (autoconnectHost : Option MacAddr) (mgr : SessionMgr) : Heartbeat where
  client := .start autoconnectHost
  time := 0
  turned := 0
  inFlight := []
  lost := 0
  gone := none
  mgr := mgr

inductive BeatEvent
  | pass (d : ℕ)
  | turn (events : List Ready)
  | lose
  | arrive
  | foreign
  | update

/-- A frame that the card of the server takes. -/
def Reaches (serverAddr destMacAddr : MacAddr) : Prop :=
  destMacAddr = serverAddr ∨ destMacAddr = broadcastAddr

instance (serverAddr destMacAddr : MacAddr) : Decidable (Reaches serverAddr destMacAddr) :=
  inferInstanceAs (Decidable (_ ∨ _))

variable (sock : RawSocket) (ethertype : UInt16) (serverAddr : MacAddr) (globals : PktdrvGlobals)
  (pace : Pace)

/-- The turn of the client at a time, by its own clock. -/
def beatTurn (s : Heartbeat) (events : List Ready) : LoopEvent :=
  ⟨events,gettimeofday (pace.epoch+s.time)⟩

/-- The packets of a turn that go to the server. -/
def packetsSent (s : Heartbeat) (events : List Ready) : List LoopPacket :=
  (mainLoopTurn sock events (gettimeofday (pace.epoch+s.time)) s.client.loop).2.filter
    fun p => Reaches serverAddr p.destMacAddr

/-- The sessions after a received frame. -/
def beatReceive (m : Mem) (video : VideoState) (file : FileTransferState) (received : ℕ)
    (s : Heartbeat) : SessionMgr :=
  { s.mgr with sessions := (run m (protocolProcess globals video
      (biosTickClock (pace.ticks s.time)) s.mgr.sessions file received)).sessions }

inductive BeatStep (s : Heartbeat) : BeatEvent → Heartbeat → Prop
  | pass (d : ℕ) (hturn : s.time+d ≤ s.turned+pace.gap)
      (hlink : ∀ x ∈ s.inFlight, s.time+d ≤ x.1+pace.delay) :
      BeatStep s (.pass d) { s with time := s.time+d }
  | turn (events : List Ready) (h : s.client.loop.running = true) : BeatStep s (.turn events) { s with
      client := s.client.turn sock (beatTurn pace s events)
      turned := s.time
      inFlight := s.inFlight ++
        (packetsSent sock serverAddr pace s events).map fun p => (s.time,p) }
  | lose {x : ℕ × LoopPacket} {rest : List (ℕ × LoopPacket)} (h : s.inFlight = x :: rest)
      (hlosses : x.2.isStart = true → s.lost < pace.losses) : BeatStep s .lose { s with
      inFlight := rest
      lost := if x.2.isStart then s.lost+1 else s.lost
      gone := if x.2.isStart then some x.1 else s.gone }
  | arrive {x : ℕ × LoopPacket} {rest : List (ℕ × LoopPacket)} (h : s.inFlight = x :: rest)
      (m : Mem) (ha : Arrived (x.2.bytes sock ethertype) m) (video : VideoState)
      (file : FileTransferState) (received : ℕ) : BeatStep s .arrive { s with
      inFlight := rest
      lost := if x.2.isStart then 0 else s.lost
      gone := if x.2.isStart then some x.1 else s.gone
      mgr := beatReceive globals pace m video file received s }
  | foreign (m : Mem) (hm : ¬ (arrayAt m 6 6 = sock.ifAddr ∧ ntohl (slice m 18 4) = sock.sessionId))
      (video : VideoState) (file : FileTransferState) (received : ℕ) : BeatStep s .foreign { s with
      mgr := beatReceive globals pace m video file received s }
  | update (mem : FrameBuffer) (video : VideoState) : BeatStep s .update { s with
      mgr := (sessionMgrUpdateAll mem video (biosTickClock (pace.ticks s.time)) s.mgr).2 }

/-- The slot is the client's. -/
def SlotHeld (s : Heartbeat) (i : Fin 4) : Prop :=
  (s.mgr.sessions.slot i).macAddr = sock.ifAddr ∧
    (s.mgr.sessions.slot i).sessionId = sock.sessionId

/-- When the session starts were sent that are on the link, after the last one that left it. -/
def Heartbeat.starts (s : Heartbeat) : List ℕ :=
  s.gone.toList ++ (s.inFlight.filter fun x => x.2.isStart).map Prod.fst

/-- The host that the client controls takes its packets at an address that reaches the server. -/
def Controls (c : Controlling) : Prop :=
  ∃ i destMacAddr, c.loop.client.activeHost = some i ∧ c.loop.ifAddr i = some destMacAddr ∧
    Reaches serverAddr destMacAddr

/-- Two session starts, one after the other. -/
def Pace.Follows (pace : Pace) (a b : ℕ) : Prop := b ≤ a+pace.period

/-- The clock of a held slot: it was refreshed after the session start sent at `sent`, behind which
only lost ones have left the link. -/
def HeldSince (s : Heartbeat) (slot : Session) : Prop :=
  ∃ sent last read, s.gone = some last ∧ last ≤ sent+s.lost*pace.period ∧
    slot.tLastRecv = biosTickClock read ∧ pace.ticks sent ≤ read ∧ read ≤ pace.ticks s.time

/-- All times are within their bounds. -/
structure InTime (s : Heartbeat) : Prop where
  one : OneHost s.client
  turned : s.turned ≤ s.time ∧ s.time ≤ s.turned+pace.gap
  due : ∀ i, s.client.loop.client.activeHost = some i → pace.epoch+s.turned ≤
    (s.client.loop.controls.slot i).tvLastSessionStart.micros+sessionStartInterval.micros
  link : ∀ x ∈ s.inFlight, x.1 ≤ s.time ∧ s.time ≤ x.1+pace.delay
  chain : s.starts.IsChain pace.Follows
  last : Controls serverAddr s.client →
    s.client.starts.getLast?.map Timeval.micros = s.starts.getLast?.map fun t : ℕ => pace.epoch+t
  controls : s.starts ≠ [] → Controls serverAddr s.client
  losses : s.lost ≤ pace.losses
  held : ∀ i, SlotHeld sock s i → HeldSince pace s (s.mgr.sessions.slot i)
  one_slot : ∀ i j, SlotHeld sock s i → SlotHeld sock s j → i = j

variable {sock ethertype serverAddr globals pace} {s s' : Heartbeat} {i : Fin 4}

theorem sessions_with (mgr : SessionMgr) (t : SessionTable) :
    { mgr with sessions := t }.sessions = t := rfl

theorem sessions_beatReceive (globals : PktdrvGlobals) (pace : Pace) (s : Heartbeat) (m : Mem)
    (video : VideoState) (file : FileTransferState) (received : ℕ) :
    (beatReceive globals pace m video file received s).sessions =
      (run m (protocolProcess globals video (biosTickClock (pace.ticks s.time)) s.mgr.sessions file
        received)).sessions := by
  unfold beatReceive
  exact sessions_with ..

/-! The bound. -/

/-- The client's next session start goes out within a period of the last one. -/
theorem InTime.next_start (h : InTime sock serverAddr pace s) {t : ℕ}
    (ht : s.starts.getLast? = some t) : s.time ≤ t+pace.period := by
  have hcontrols := h.controls (fun hnil => by simp [hnil] at ht)
  have hlast : s.client.starts.getLast?.map Timeval.micros = some (pace.epoch+t) := by
    rw [h.last hcontrols, ht]
    rfl
  obtain ⟨tv,htv,hmicros⟩ := Option.map_eq_some_iff.mp hlast
  obtain ⟨i,-,hi,-⟩ := hcontrols
  have hclock := h.one.timed.started i hi
  rw [List.getLastD_eq_getLast?, htv, Option.getD_some] at hclock
  have hdue := h.due i hi
  rw [hclock, hmicros] at hdue
  have hinterval : sessionStartInterval.micros = 2000000 := rfl
  have hturned := h.turned.2
  have hperiod : pace.period = 2000000+pace.gap := rfl
  omega

/-- The link has let no more pass since the last refresh than the bounds allow. -/
theorem InTime.silence (h : InTime sock serverAddr pace s) {sent last : ℕ}
    (hgone : s.gone = some last) (hlast : last ≤ sent+s.lost*pace.period) :
    s.time ≤ sent+pace.silence := by
  have hmul : s.lost*pace.period ≤ pace.losses*pace.period :=
    Nat.mul_le_mul_right _ h.losses
  have hsilence : pace.silence = pace.losses*pace.period+pace.period+pace.delay := by
    rw [Pace.silence, Nat.succ_mul]
  cases hflight : s.inFlight.filter fun x => x.2.isStart with
  | nil =>
    -- nothing is on its way, so the client has sent nothing since
    have hnext := h.next_start (t := last) (by simp [Heartbeat.starts, hgone, hflight])
    omega
  | cons x rest =>
    have hx : x ∈ s.inFlight :=
      (List.mem_filter.mp (hflight ▸ List.mem_cons_self : x ∈ s.inFlight.filter _)).1
    have hchain := h.chain
    simp only [Heartbeat.starts, hgone, hflight, Option.toList_some, List.map_cons,
      List.singleton_append, List.isChain_cons_cons] at hchain
    have hfollows : x.1 ≤ last+pace.period := hchain.1
    have hdelay := (h.link x hx).2
    omega

/-- A held slot is not stale. -/
theorem InTime.fresh (h : InTime sock serverAddr pace s) (hpace : pace.Regular)
    (hsilence : pace.silence/54925+1 ≤ sessionLifetimeBiosTicks.toNat) (hheld : SlotHeld sock s i) :
    (s.mgr.sessions.slot i).stale (biosTickClock (pace.ticks s.time)) = false := by
  obtain ⟨sent,last,read,hgone,hlast,hread,hsent,hlate⟩ := h.held i hheld
  have htime := h.silence hgone hlast
  have hticks : pace.ticks s.time ≤ pace.ticks sent+pace.silence/54925+1 :=
    (hpace.mono htime).trans (hpace.rate sent pace.silence)
  rw [Bool.eq_false_iff, ne_eq, stale_iff hread hlate]
  omega

/-! The frames at the server. -/

/-- Only a session start changes the sessions. -/
theorem sessions_protocolProcess (m : Mem) (video : VideoState) (now : UInt32) (t : SessionTable)
    (file : FileTransferState) (received : ℕ) :
    (run m (protocolProcess globals video now t file received)).sessions =
      if ntohl (slice m 14 4) = packetSignature ∧ ntohs (slice m 24 2) = 5 then
        (sessionMgrStart (arrayAt m 6 6) (ntohl (slice m 18 4)) now t).2
      else t := by
  rw [run_protocolProcess]
  by_cases hsig : packetSignature = ntohl (slice m 14 4)
  · by_cases htype : ntohs (slice m 24 2) = 5
    · simp [hsig, htype]
    · have hno : ¬ (ntohl (slice m 14 4) = packetSignature ∧ ntohs (slice m 24 2) = 5) :=
        fun h => htype h.2
      rw [if_neg (not_not.mpr hsig), if_neg htype, if_neg hno]
      split_ifs
      · rfl
      · rfl
      · rfl
      · split <;> rfl
  · have hno : ¬ (ntohl (slice m 14 4) = packetSignature ∧ ntohs (slice m 24 2) = 5) :=
      fun h => hsig h.1.symm
    rw [if_pos hsig, if_neg hno]

/-- The type of a packet of the main loop. -/
def LoopPacket.pktType : LoopPacket → UInt16
  | .statusReq => 3
  | .sessionStart _ => 5
  | .keystroke .. => 7

def LoopPacket.payload : LoopPacket → List UInt8
  | .keystroke _ key => [key].flatMap Keystroke.bytes
  | _ => []

theorem LoopPacket.bytes_eq (sock : RawSocket) (ethertype : UInt16) (p : LoopPacket) :
    p.bytes sock ethertype = clientFrame sock ethertype p.destMacAddr p.pktType p.payload := by
  cases p <;> rfl

theorem LoopPacket.pktType_eq_five (p : LoopPacket) : p.pktType = 5 ↔ p.isStart = true := by
  cases p <;> simp [pktType, isStart]

/-- A packet of the client refreshes its session if it is a session start, else it leaves the
sessions alone. -/
theorem sessions_arrive (globals : PktdrvGlobals) {p : LoopPacket} {m : Mem} (h : Arrived (p.bytes sock ethertype) m)
    (video : VideoState) (now : UInt32) (t : SessionTable) (file : FileTransferState)
    (received : ℕ) : (run m (protocolProcess globals video now t file received)).sessions =
      if p.isStart then (sessionMgrStart sock.ifAddr sock.sessionId now t).2 else t := by
  rw [p.bytes_eq] at h
  have hapart : Apart (clientStores sock ethertype p.destMacAddr p.pktType p.payload) := by
    simp [Apart, clientStores]
  have hfield {i n : ℕ} {bs : List UInt8}
      (hs : (i,bs) ∈ clientStores sock ethertype p.destMacAddr p.pktType p.payload)
      (hn : bs.length = n) (hi : i+n ≤ 26+p.payload.length) : slice m i n = bs := by
    subst hn
    exact Arrived.store h hapart hs hi
  simp only [clientStores] at hfield
  have hsignature : slice m 14 4 = htonl packetSignature :=
    hfield (by simp) (length_htonl _) (by omega)
  have htype : slice m 24 2 = htons p.pktType := hfield (by simp) (length_htons _) (by omega)
  have haddr : slice m 6 6 = sock.ifAddr.toList := hfield (by simp) (by simp) (by omega)
  have hid : slice m 18 4 = htonl sock.sessionId := hfield (by simp) (length_htonl _) (by omega)
  rw [sessions_protocolProcess, hsignature, htype, hid, arrayAt_eq haddr, ntohl_htonl,
    ntohs_htons, ntohl_htonl]
  simp only [true_and, p.pktType_eq_five]

/-- A packet of another client leaves the slots of this one alone, and gives it none. -/
theorem sessions_foreign {m : Mem} {video : VideoState} {now : UInt32} {t t' : SessionTable}
    {file : FileTransferState} {received : ℕ}
    (ht : (run m (protocolProcess globals video now t file received)).sessions = t')
    (hm : ¬ (arrayAt m 6 6 = sock.ifAddr ∧ ntohl (slice m 18 4) = sock.sessionId))
    (hnull : sock.ifAddr ≠ nullIfAddr) (i : Fin 4) : t'.slot i = t.slot i ∨
      ¬ ((t.slot i).macAddr = sock.ifAddr ∧ (t.slot i).sessionId = sock.sessionId) ∧
        ¬ ((t'.slot i).macAddr = sock.ifAddr ∧ (t'.slot i).sessionId = sock.sessionId) := by
  rw [sessions_protocolProcess] at ht
  subst ht
  split
  next =>
    obtain ⟨k,hs,hk⟩ | ⟨-,⟨k,hs,hk⟩ | ⟨hs,-⟩⟩ :=
      start_cases (arrayAt m 6 6) (ntohl (slice m 18 4)) now t
    · rw [hs, Vector.slot_put]
      split
      next hki =>
        subst hki
        exact .inr ⟨fun h => hm ⟨hk.1.symm.trans h.1,hk.2.symm.trans h.2⟩,
          fun h => hm ⟨hk.1.symm.trans h.1,hk.2.symm.trans h.2⟩⟩
      next => exact .inl rfl
    · rw [hs, Vector.slot_put]
      split
      next hki =>
        subst hki
        exact .inr ⟨fun h => hnull (h.1.symm.trans hk.1),hm⟩
      next => exact .inl rfl
    · rw [hs]
      exact .inl rfl
  next => exact .inl rfl

/-- After a session start of the client every slot of it was just refreshed, and it has one slot. -/
theorem start_held {t : SessionTable} {macAddr : MacAddr} {sessionId : UInt32} (now : UInt32)
    (hone : ∀ i j : Fin 4, (t.slot i).macAddr = macAddr ∧ (t.slot i).sessionId = sessionId →
      (t.slot j).macAddr = macAddr ∧ (t.slot j).sessionId = sessionId → i = j) (i : Fin 4) :
    let t' := (sessionMgrStart macAddr sessionId now t).2
    ((t.slot i).macAddr = macAddr ∧ (t.slot i).sessionId = sessionId →
        (t'.slot i).macAddr = macAddr ∧ (t'.slot i).sessionId = sessionId) ∧
      ((t'.slot i).macAddr = macAddr ∧ (t'.slot i).sessionId = sessionId →
        (sessionMgrStart macAddr sessionId now t).1 = some i ∧ (t'.slot i).tLastRecv = now) := by
  obtain ⟨k,hs,hk⟩ | ⟨hno,⟨k,hs,hk⟩ | ⟨hs,-⟩⟩ := start_cases macAddr sessionId now t
  · simp only [hs, Vector.slot_put]
    split
    next hki =>
      subst hki
      exact ⟨fun _ => hk,fun _ => ⟨rfl,rfl⟩⟩
    next hki => exact ⟨fun hi => hi,fun hi => absurd (hone k i hk hi) hki⟩
  · simp only [hs, Vector.slot_put]
    split
    next hki =>
      subst hki
      exact ⟨fun _ => ⟨rfl,rfl⟩,fun _ => ⟨rfl,rfl⟩⟩
    next hki => exact ⟨fun hi => hi,fun hi => absurd hi (hno i)⟩
  · simp only [hs]
    exact ⟨fun hi => hi,fun hi => absurd hi (hno i)⟩

/-! The steps. -/

theorem HeldSince.later {slot : Session} (h : HeldSince pace s slot) (hpace : pace.Regular) (d : ℕ) :
    HeldSince pace { s with time := s.time+d } slot := by
  obtain ⟨sent,last,read,hgone,hlast,hread,hsent,hlate⟩ := h
  exact ⟨sent,last,read,hgone,hlast,hread,hsent,
    hlate.trans (hpace.mono (Nat.le_add_right s.time d))⟩

theorem InTime.pass (h : InTime sock serverAddr pace s) (hpace : pace.Regular) {d : ℕ}
    (hturn : s.time+d ≤ s.turned+pace.gap) (hlink : ∀ x ∈ s.inFlight, s.time+d ≤ x.1+pace.delay) :
    InTime sock serverAddr pace { s with time := s.time+d } where
  one := h.one
  turned := ⟨h.turned.1.trans (Nat.le_add_right s.time d),hturn⟩
  due := h.due
  link x hx := ⟨(h.link x hx).1.trans (Nat.le_add_right s.time d),hlink x hx⟩
  chain := h.chain
  last := h.last
  controls := h.controls
  losses := h.losses
  held i hi := (h.held i hi).later hpace d
  one_slot := h.one_slot

/-- The sessions change, and what is held was held or has just been refreshed. -/
theorem InTime.sessions (h : InTime sock serverAddr pace s) {mgr : SessionMgr}
    (hslot : ∀ i, SlotHeld sock { s with mgr := mgr } i →
      mgr.sessions.slot i = s.mgr.sessions.slot i) :
    InTime sock serverAddr pace { s with mgr := mgr } where
  one := h.one
  turned := h.turned
  due := h.due
  link := h.link
  chain := h.chain
  last := h.last
  controls := h.controls
  losses := h.losses
  held i hi := by
    have hheld : SlotHeld sock s i := by
      rw [SlotHeld, ← hslot i hi]
      exact hi
    have hsince := h.held i hheld
    rw [← hslot i hi] at hsince
    exact hsince
  one_slot i j hi hj := by
    refine h.one_slot i j ?_ ?_
    · rw [SlotHeld, ← hslot i hi]
      exact hi
    · rw [SlotHeld, ← hslot j hj]
      exact hj

/-- The session starts on the link, if the first frame leaves it. -/
theorem starts_cons {x : ℕ × LoopPacket} {rest : List (ℕ × LoopPacket)}
    (hflight : s.inFlight = x :: rest) (lost : ℕ) (mgr : SessionMgr) :
    ∃ passed, s.starts = passed ++ Heartbeat.starts { s with
        inFlight := rest, lost := lost, gone := if x.2.isStart then some x.1 else s.gone
        mgr := mgr } ∧
      (Heartbeat.starts { s with
        inFlight := rest, lost := lost, gone := if x.2.isStart then some x.1 else s.gone
        mgr := mgr } = [] → passed = []) := by
  cases hstart : x.2.isStart with
  | true => exact ⟨s.gone.toList,by simp [Heartbeat.starts, hflight, hstart],by simp [Heartbeat.starts]⟩
  | false => exact ⟨[],by simp [Heartbeat.starts, hflight, hstart],fun _ => rfl⟩

/-- The first frame leaves the link. -/
theorem InTime.off_link (h : InTime sock serverAddr pace s) {x : ℕ × LoopPacket}
    {rest : List (ℕ × LoopPacket)} (hflight : s.inFlight = x :: rest) (lost : ℕ) (mgr : SessionMgr)
    (hlosses : lost ≤ pace.losses)
    (hheld : ∀ i, (mgr.sessions.slot i).macAddr = sock.ifAddr ∧
        (mgr.sessions.slot i).sessionId = sock.sessionId →
      HeldSince pace { s with
        inFlight := rest, lost := lost, gone := if x.2.isStart then some x.1 else s.gone
        mgr := mgr } (mgr.sessions.slot i))
    (hone : ∀ i j, SlotHeld sock { s with mgr := mgr } i → SlotHeld sock { s with mgr := mgr } j → i = j) :
    InTime sock serverAddr pace { s with
      inFlight := rest, lost := lost, gone := if x.2.isStart then some x.1 else s.gone
      mgr := mgr } := by
  obtain ⟨passed,hstarts,hnil⟩ := starts_cons hflight lost mgr
  constructor
  case one => exact h.one
  case turned => exact h.turned
  case due => exact h.due
  case link => exact fun y hy => h.link y (hflight ▸ List.mem_cons_of_mem x hy)
  case chain =>
    have hchain := h.chain
    rw [hstarts] at hchain
    exact hchain.right_of_append
  case last =>
    intro hcontrols
    refine (h.last hcontrols).trans (congrArg (Option.map fun t : ℕ => pace.epoch+t) ?_)
    rw [hstarts]
    obtain hempty | hne := eq_or_ne (Heartbeat.starts { s with
        inFlight := rest, lost := lost, gone := if x.2.isStart then some x.1 else s.gone
        mgr := mgr }) []
    · rw [hnil hempty, List.nil_append]
    · exact List.getLast?_append_of_ne_nil _ hne
  case controls =>
    intro hne
    refine h.controls fun hempty => hne ?_
    rw [hstarts] at hempty
    exact (List.append_eq_nil_iff.mp hempty).2
  case losses => exact hlosses
  case held => exact hheld
  case one_slot => exact hone

/-- A lost session start puts off the next refresh by a period. -/
theorem InTime.lose (h : InTime sock serverAddr pace s) {x : ℕ × LoopPacket}
    {rest : List (ℕ × LoopPacket)} (hflight : s.inFlight = x :: rest)
    (hlosses : x.2.isStart = true → s.lost < pace.losses) :
    InTime sock serverAddr pace { s with
      inFlight := rest
      lost := if x.2.isStart then s.lost+1 else s.lost
      gone := if x.2.isStart then some x.1 else s.gone } := by
  refine h.off_link hflight _ _ ?_ (fun i hi => ?_) h.one_slot
  · split
    next hstart => exact hlosses hstart
    next => exact h.losses
  · obtain ⟨sent,last,read,hgone,hlast,hread⟩ := h.held i hi
    cases hstart : x.2.isStart with
    | false => exact ⟨sent,last,read,hgone,hlast,hread⟩
    | true =>
      have hchain := h.chain
      simp only [Heartbeat.starts, hgone, hflight, List.filter_cons, hstart, if_true,
        Option.toList_some, List.map_cons, List.singleton_append,
        List.isChain_cons_cons] at hchain
      have hnext : x.1 ≤ last+pace.period := hchain.1
      refine ⟨sent,x.1,read,rfl,?_,hread⟩
      simp only [if_true]
      rw [Nat.succ_mul]
      omega

/-- A session start that arrives refreshes the session, any other packet leaves it alone. -/
theorem InTime.arrive (h : InTime sock serverAddr pace s) (hpace : pace.Regular)
    {x : ℕ × LoopPacket} {rest : List (ℕ × LoopPacket)} (hflight : s.inFlight = x :: rest)
    {m : Mem} (ha : Arrived (x.2.bytes sock ethertype) m) (video : VideoState)
    (file : FileTransferState) (received : ℕ) :
    InTime sock serverAddr pace { s with
        inFlight := rest
        lost := if x.2.isStart then 0 else s.lost
        gone := if x.2.isStart then some x.1 else s.gone
        mgr := beatReceive globals pace m video file received s } ∧
      ∀ i, SlotHeld sock s i →
        SlotHeld sock { s with mgr := beatReceive globals pace m video file received s } i := by
  have hsessions := sessions_arrive globals ha video
    (biosTickClock (pace.ticks s.time)) s.mgr.sessions file received
  have hlink := h.link x (hflight ▸ List.mem_cons_self)
  cases hstart : x.2.isStart with
  | false =>
    rw [hstart, if_neg Bool.false_ne_true] at hsessions
    have hmgr : beatReceive globals pace m video file received s = s.mgr := by
      rw [beatReceive, hsessions]
    rw [hmgr]
    have hoff := h.off_link hflight s.lost s.mgr h.losses (fun i hi => ?_)
      h.one_slot
    · rw [hstart] at hoff
      exact ⟨hoff,fun _ hi => hi⟩
    · rw [hstart]
      exact h.held i hi
  | true =>
    rw [hstart, if_pos rfl] at hsessions
    have hheld := start_held (biosTickClock (pace.ticks s.time)) h.one_slot
    have hoff := h.off_link hflight 0 (beatReceive globals pace m video file received s)
      (Nat.zero_le _) (fun i hi => ?_) fun i j hi hj => ?_
    · rw [hstart] at hoff
      refine ⟨hoff,fun i hi => ?_⟩
      rw [SlotHeld, beatReceive, hsessions]
      exact (hheld i).1 hi
    · rw [hstart]
      rw [beatReceive, hsessions] at hi
      have hread := ((hheld i).2 hi).2
      refine ⟨x.1,x.1,pace.ticks s.time,rfl,Nat.le_add_right _ _,?_,hpace.mono hlink.1,le_rfl⟩
      rw [beatReceive, hsessions]
      exact hread
    · rw [SlotHeld, beatReceive, hsessions] at hi hj
      exact Option.some.inj (((hheld i).2 hi).1.symm.trans ((hheld j).2 hj).1)

theorem InTime.foreign (h : InTime sock serverAddr pace s) (hnull : sock.ifAddr ≠ nullIfAddr)
    {m : Mem} (hm : ¬ (arrayAt m 6 6 = sock.ifAddr ∧ ntohl (slice m 18 4) = sock.sessionId))
    {video : VideoState} {file : FileTransferState} {received : ℕ} {mgr : SessionMgr}
    (hmgr : beatReceive globals pace m video file received s = mgr) :
    InTime sock serverAddr pace { s with mgr := mgr } ∧
      ∀ i, SlotHeld sock s i → SlotHeld sock { s with mgr := mgr } i := by
  have hsessions := sessions_beatReceive globals pace s m video file received
  rw [hmgr] at hsessions
  have hforeign := sessions_foreign hsessions.symm hm hnull
  refine ⟨h.sessions fun i hi => ?_,fun i hi => ?_⟩
  · exact (hforeign i).resolve_right fun hne => hne.2 hi
  · have hsame := (hforeign i).resolve_right fun hne => hne.1 hi
    rw [SlotHeld, hsame]
    exact hi

/-- The update keeps a session that is not stale. -/
theorem InTime.update (h : InTime sock serverAddr pace s) (hpace : pace.Regular)
    (hsilence : pace.silence/54925+1 ≤ sessionLifetimeBiosTicks.toNat)
    (hnull : sock.ifAddr ≠ nullIfAddr) {mgr : SessionMgr}
    (hmgr : mgr.sessions = pruneSessions (biosTickClock (pace.ticks s.time)) s.mgr.sessions) :
    InTime sock serverAddr pace { s with mgr := mgr } ∧
      ∀ i, SlotHeld sock s i → SlotHeld sock { s with mgr := mgr } i := by
  refine ⟨h.sessions fun i hi => ?_,fun i hi => ?_⟩
  · obtain hkept | hfreed := slot_prune (biosTickClock (pace.ticks s.time)) s.mgr.sessions i
    · rw [hmgr, hkept]
    · rw [SlotHeld, hmgr, hfreed] at hi
      exact absurd hi.1.symm hnull
  · have huse : (s.mgr.sessions.slot i).inUse = true :=
      inUse_iff.mpr fun hm => hnull (hi.1.symm.trans hm)
    have hfresh := h.fresh hpace hsilence hi
    have hslot : mgr.sessions.slot i = s.mgr.sessions.slot i := by
      rw [hmgr, pruned_slot _ _ huse, hfresh]
      exact if_neg Bool.false_ne_true
    rw [SlotHeld, hslot]
    exact hi

theorem log_turn {c : Controlling} {e : LoopEvent} {sent : List LoopPacket}
    (h : (mainLoopTurn sock e.events e.now c.loop).2 = sent) :
    (c.turn sock e).log = c.log ++ sent ∧
      (c.turn sock e).starts = c.starts ++ List.replicate (sent.countP LoopPacket.isStart) e.now := by
  subst h
  simp only [Controlling.turn, and_self]

/-- The session starts of a turn are all sent at its time. -/
theorem starts_at (t : ℕ) (l : List LoopPacket) :
    ((l.map fun p => (t,p)).filter fun x => x.2.isStart).map Prod.fst =
      List.replicate (l.countP LoopPacket.isStart) t := by
  induction l with
  | nil => rfl
  | cons p l ih =>
    cases hp : p.isStart with
    | false => simpa [hp] using ih
    | true => simpa [hp, List.replicate_succ] using ih

/-- All of the session starts of a turn reach the server, or none. -/
theorem starts_reach {c : Controlling} (h : OneHost c) {sent : List LoopPacket}
    (hsent : ∀ p ∈ sent, p ∈ c.log) :
    (Controls serverAddr c →
      (sent.filter fun p => Reaches serverAddr p.destMacAddr).countP LoopPacket.isStart =
        sent.countP LoopPacket.isStart) ∧
    ((sent.filter fun p => Reaches serverAddr p.destMacAddr).countP LoopPacket.isStart ≠ 0 →
      Controls serverAddr c) := by
  have haddr : ∀ p ∈ sent, p.isStart = true →
      ∃ i, c.loop.client.activeHost = some i ∧ c.loop.ifAddr i = some p.destMacAddr := by
    intro p hp hstart
    refine (h.aimed.packets p (hsent p hp)).resolve_left ?_
    rintro rfl
    cases hstart
  constructor
  · rintro ⟨i,destMacAddr,hi,hdest,hreaches⟩
    rw [List.countP_filter]
    refine List.countP_congr fun p hp => ?_
    rw [Bool.and_eq_true, decide_eq_true_iff]
    refine and_iff_left_of_imp fun hstart => ?_
    obtain ⟨j,hj,hpdest⟩ := haddr p hp hstart
    obtain rfl := Option.some.inj (hi.symm.trans hj)
    rwa [← Option.some.inj (hdest.symm.trans hpdest)]
  · intro hne
    obtain ⟨p,hp,hstart⟩ := List.countP_pos_iff.mp (Nat.pos_of_ne_zero hne)
    obtain ⟨hp,hreaches⟩ := List.mem_filter.mp hp
    obtain ⟨i,hi,hdest⟩ := haddr p hp hstart
    exact ⟨i,p.destMacAddr,hi,hdest,of_decide_eq_true hreaches⟩

theorem InTime.turn (h : InTime sock serverAddr pace s) (events : List Ready) :
    InTime sock serverAddr pace { s with
      client := s.client.turn sock (beatTurn pace s events)
      turned := s.time
      inFlight := s.inFlight ++
        (packetsSent sock serverAddr pace s events).map fun p => (s.time,p) } := by
  obtain ⟨sent,hsent⟩ : ∃ sent, (mainLoopTurn sock (beatTurn pace s events).events
    (beatTurn pace s events).now s.client.loop).2 = sent := ⟨_,rfl⟩
  obtain ⟨hlog,hstarts⟩ := log_turn hsent
  obtain ⟨hone,hdue,hstays⟩ := h.one.turn sock (beatTurn pace s events)
  have hpackets : packetsSent sock serverAddr pace s events =
      sent.filter fun p => Reaches serverAddr p.destMacAddr := by rw [← hsent]; rfl
  have hnow : (beatTurn pace s events).now.micros = pace.epoch+s.time := micros_gettimeofday _
  generalize (beatTurn pace s events).now = now at *
  generalize s.client.turn sock (beatTurn pace s events) = c at *
  rw [hpackets]
  obtain ⟨hall,hsome⟩ := starts_reach hone fun p hp => hlog ▸ List.mem_append_right _ hp
  have hnew : Heartbeat.starts { s with
      client := c, turned := s.time
      inFlight := s.inFlight ++ (sent.filter fun p => Reaches serverAddr p.destMacAddr).map
        fun p => (s.time,p) } =
      s.starts ++ List.replicate
        ((sent.filter fun p => Reaches serverAddr p.destMacAddr).countP LoopPacket.isStart)
        s.time := by
    simp only [Heartbeat.starts, List.filter_append, List.map_append, starts_at,
      List.append_assoc]
  have hgoes : Controls serverAddr s.client → Controls serverAddr c := by
    rintro ⟨i,destMacAddr,hi,hdest,hreaches⟩
    exact ⟨i,destMacAddr,(hstays i destMacAddr hi hdest).1,(hstays i destMacAddr hi hdest).2,
      hreaches⟩
  constructor
  case one => exact hone
  case turned => exact ⟨le_rfl,Nat.le_add_right _ _⟩
  case due => exact fun i hi => hnow ▸ hdue.start i hi
  case link =>
    refine List.forall_mem_append.mpr ⟨h.link,fun x hx => ?_⟩
    obtain ⟨p,-,rfl⟩ := List.mem_map.mp hx
    exact ⟨le_rfl,Nat.le_add_right _ _⟩
  case chain =>
    rw [hnew]
    refine h.chain.append (List.isChain_replicate_of_rel _ (Nat.le_add_right _ _)) ?_
    intro t ht t' ht'
    obtain rfl := List.eq_of_mem_replicate (List.mem_of_mem_head? ht')
    exact h.next_start ht
  case last =>
    intro hcontrols
    rw [hnew, hall hcontrols, hstarts]
    cases hcount : sent.countP LoopPacket.isStart with
    | zero =>
      rw [List.replicate_zero, List.replicate_zero, List.append_nil, List.append_nil]
      by_cases hbefore : Controls serverAddr s.client
      · exact h.last hbefore
      · -- the host was picked just now, so nothing was sent before
        have hnil : s.starts = [] := not_not.mp fun hne => hbefore (h.controls hne)
        have hnone : s.client.loop.client.activeHost = none := by
          refine Option.eq_none_iff_forall_ne_some.mpr fun j hj => hbefore ?_
          obtain ⟨ifAddr,haddr⟩ := h.one.aimed.listed j hj
          obtain ⟨i,destMacAddr,hi,hdest,hreaches⟩ := hcontrols
          obtain ⟨hj',haddr'⟩ := hstays j ifAddr hj haddr
          obtain rfl := Option.some.inj (hi.symm.trans hj')
          obtain rfl := Option.some.inj (hdest.symm.trans haddr')
          exact ⟨i,destMacAddr,hj,haddr,hreaches⟩
        rw [hnil, (h.one.timed.idle hnone).1]
        rfl
    | succ n => simp [List.getLast?_append, List.getLast?_replicate, hnow]
  case controls =>
    intro hne
    rw [hnew] at hne
    by_cases hbefore : s.starts = []
    · refine hsome fun hzero => hne ?_
      rw [hbefore, hzero]
      rfl
    · exact hgoes (h.controls hbefore)
  case losses => exact h.losses
  case held => exact h.held
  case one_slot => exact h.one_slot

theorem InTime.start (autoconnectHost : Option MacAddr) {mgr : SessionMgr}
    (hfree : ∀ i, ¬ SlotHeld sock (.start autoconnectHost mgr) i) :
    InTime sock serverAddr pace (.start autoconnectHost mgr) where
  one := ⟨.start autoconnectHost,.start autoconnectHost⟩
  turned := ⟨le_rfl,Nat.zero_le _⟩
  due _ h := by cases h
  link := List.forall_mem_nil _
  chain := .nil
  last := fun ⟨_,_,h,_⟩ => by cases h
  controls h := absurd rfl h
  losses := Nat.zero_le _
  held i h := absurd h (hfree i)
  one_slot i _ h := absurd h (hfree i)

theorem SlotHeld.congr (h : SlotHeld sock s i) (hmgr : s'.mgr = s.mgr) : SlotHeld sock s' i := by
  rw [SlotHeld, hmgr]
  exact h

theorem InTime.step (h : InTime sock serverAddr pace s) (hnull : sock.ifAddr ≠ nullIfAddr)
    (hpace : pace.Regular) (hsilence : pace.silence/54925+1 ≤ sessionLifetimeBiosTicks.toNat)
    {e : BeatEvent} (hs : BeatStep sock ethertype serverAddr globals pace s e s') :
    InTime sock serverAddr pace s' ∧ ∀ i, SlotHeld sock s i → SlotHeld sock s' i := by
  cases hs with
  | pass d hturn hlink => exact ⟨h.pass hpace hturn hlink,fun _ hi => hi.congr rfl⟩
  | turn events _ => exact ⟨h.turn events,fun _ hi => hi.congr rfl⟩
  | lose hflight hlosses => exact ⟨h.lose hflight hlosses,fun _ hi => hi.congr rfl⟩
  | arrive hflight m ha video file received => exact h.arrive hpace hflight ha video file received
  | foreign m hm video file received =>
    have hmgr : beatReceive globals pace m video file received s =
      beatReceive globals pace m video file received s := rfl
    exact h.foreign hnull hm hmgr
  | update mem video => exact h.update hpace hsilence hnull (updateAll_sessions ..)

/-- A session stays while its client runs: once the server has given the client a slot, every later
state of every run has the client in it. The client's turns are at most `gap` apart, a frame is at
most `delay` on the link, and the link never loses more than `losses` session starts in a row; the
silence that this makes is shorter than the lifetime of a session, counted in ticks. -/
theorem session_kept (autoconnectHost : Option MacAddr) {mgr : SessionMgr}
    (hnull : sock.ifAddr ≠ nullIfAddr) (hpace : pace.Regular)
    (hsilence : pace.silence/54925+1 ≤ sessionLifetimeBiosTicks.toNat)
    (hfree : ∀ i, ¬ SlotHeld sock (.start autoconnectHost mgr) i)
    {before after : List (BeatEvent × Heartbeat)}
    (h : Run (BeatStep sock ethertype serverAddr globals pace) (.start autoconnectHost mgr)
      (before ++ after)) (hheld : SlotHeld sock (final (.start autoconnectHost mgr) before) i) :
    ∀ x ∈ after, SlotHeld sock x.2 i := by
  obtain ⟨hbefore,hafter⟩ := h.of_append
  have hstart : InTime sock serverAddr pace (.start autoconnectHost mgr) := .start _ hfree
  have hlater := hbefore.final_invariant (InTime sock serverAddr pace)
    (fun _ _ _ hs hstep => (hs.step hnull hpace hsilence hstep).1) hstart
  refine hafter.each (fun s => InTime sock serverAddr pace s ∧ SlotHeld sock s i)
    (fun _ s => SlotHeld sock s i) (fun s e s' hs hstep => ?_) ⟨hlater,hheld⟩
  obtain ⟨hs',hkeeps⟩ := hs.1.step hnull hpace hsilence hstep
  exact ⟨⟨hs',hkeeps i hs.2⟩,hkeeps i hs.2⟩

/-! A client that connects at once, and is still there after a lost refresh. -/

def heartSocket : RawSocket := ⟨Vector.replicate 6 2,7⟩
def heartServer : MacAddr := Vector.replicate 6 1

/-- A status response of the server to the client. -/
def heartStatus : Mem := stores (fun _ => 0)
  [(0,heartSocket.ifAddr.toList),(6,heartServer.toList),(14,htonl packetSignature),
    (18,htonl heartSocket.sessionId),(24,htons 4)]

/-- Two session starts in a row may be lost. -/
def heartPace : Pace := ⟨3000000,1000000,900000,2,fun t => t/54925⟩

theorem heartPace_regular : heartPace.Regular where
  mono _ _ h := Nat.div_le_div_right h
  rate t d := by
    have hticks (t : ℕ) : heartPace.ticks t = t/54925 := rfl
    rw [hticks, hticks]
    omega

def heartConnected : Heartbeat where
  client := (Controlling.start (some heartServer)).turn heartSocket
    ⟨[.socket (some heartStatus)],gettimeofday 3000000⟩
  time := 0
  turned := 0
  inFlight := [(0,.statusReq),(0,.sessionStart heartServer)]
  lost := 0
  gone := none
  mgr := .init

theorem packetsSent_heart :
    packetsSent heartSocket heartServer heartPace (.start (some heartServer) .init)
      [.socket (some heartStatus)] = [.statusReq,.sessionStart heartServer] := by
  decide +kernel

theorem BeatStep.turn_sent {events : List Ready} {sent : List LoopPacket}
    (hsent : packetsSent sock serverAddr pace s events = sent) (h : s.client.loop.running = true) :
    BeatStep sock ethertype serverAddr globals pace s (.turn events) { s with
      client := s.client.turn sock (beatTurn pace s events)
      turned := s.time
      inFlight := s.inFlight ++ sent.map fun p => (s.time,p) } :=
  hsent ▸ .turn events h

/-- A turn in which nothing happens sends what is due. -/
theorem BeatStep.turn_due (sent : List LoopPacket)
    (hsent : packetsSent sock serverAddr pace s [] = sent) (h : s.client.loop.running = true) :
    BeatStep sock ethertype serverAddr globals pace s (.turn []) { s with
      client := s.client.turn sock (beatTurn pace s [])
      turned := s.time
      inFlight := s.inFlight ++ sent.map fun p => (s.time,p) } := .turn_sent hsent h

instance (s : Heartbeat) (i : Fin 4) : Decidable (SlotHeld sock s i) :=
  inferInstanceAs (Decidable (_ ∧ _))

/-- The refresh of the third second is lost, the one of the sixth comes in time. -/
theorem session_kept_heart : ∃ before after : List (BeatEvent × Heartbeat),
    SlotHeld heartSocket (final (.start (some heartServer) .init) before) 0 ∧
      (final (final (.start (some heartServer) .init) before) after).time = 6000000 ∧
      ∀ x ∈ after, SlotHeld heartSocket x.2 0 := by
  have hturn : BeatStep heartSocket 0 heartServer ⟨heartServer,0⟩ heartPace
      (.start (some heartServer) .init) (.turn [.socket (some heartStatus)]) heartConnected :=
    .turn_sent packetsSent_heart rfl
  obtain ⟨before,after,hrun,hheld,htime⟩ : ∃ before after,
      Run (BeatStep heartSocket 0 heartServer ⟨heartServer,0⟩ heartPace)
        (.start (some heartServer) .init) (before ++ after) ∧
      SlotHeld heartSocket (final (.start (some heartServer) .init) before) 0 ∧
      (final (final (.start (some heartServer) .init) before) after).time = 6000000 :=
    ⟨[_,_,_],[_,_,_,_,_,_,_,_,_,_,_,_,_,_,_,_,_],.cons hturn
      (.cons (.arrive rfl _ (arrived_getD _) textScreen fileTransferInit 60)
      (.cons (.arrive rfl _ (arrived_getD _) textScreen fileTransferInit 60)
      (.cons (.pass 1000000 (by decide) (List.forall_mem_nil _))
      (.cons (.turn_due [] (by decide +kernel) (by decide +kernel))
      (.cons (.pass 1000000 (by decide) (List.forall_mem_nil _))
      (.cons (.turn_due [] (by decide +kernel) (by decide +kernel))
      (.cons (.pass 1000000 (by decide) (List.forall_mem_nil _))
      (.cons (.turn_due [.statusReq,.sessionStart heartServer] (by decide +kernel)
        (by decide +kernel))
      (.cons (.arrive rfl _ (arrived_getD _) textScreen fileTransferInit 60)
      (.cons (.lose rfl fun _ => by decide)
      (.cons (.pass 1000000 (by decide) (List.forall_mem_nil _))
      (.cons (.turn_due [] (by decide +kernel) (by decide +kernel))
      (.cons (.pass 1000000 (by decide) (List.forall_mem_nil _))
      (.cons (.turn_due [] (by decide +kernel) (by decide +kernel))
      (.cons (.pass 1000000 (by decide) (List.forall_mem_nil _))
      (.cons (.turn_due [.statusReq,.sessionStart heartServer] (by decide +kernel)
        (by decide +kernel))
      (.cons (.arrive rfl _ (arrived_getD _) textScreen fileTransferInit 60)
      (.cons (.arrive rfl _ (arrived_getD _) textScreen fileTransferInit 60)
      (.cons (.update blankScreen textScreen) (.nil _)))))))))))))))))))),by decide +kernel,rfl⟩
  exact ⟨before,after,hheld,htime,session_kept _ (by decide) heartPace_regular (by decide)
    (by decide +kernel) hrun hheld⟩

end RmtDos
