import Mathlib.Data.List.Chain
import RmtDos.Client.MainLoop

/-! One host for one run of the client. The window, the keys and the session starts all go to the
host that was picked first, and the timers keep their distance. -/
namespace RmtDos
open Memory Reading Runs Clock

/-- The main loop at work. The packets sent so far, the times of the timer's probes and of the
session starts, and the keys that `getch` may have returned, are for the statements only. The status
request that is sent before the loop has no time: it is in `log` and not in `probes`. -/
structure Controlling where
  loop : MainLoop
  log : List LoopPacket
  probes : List Timeval
  starts : List Timeval
  keys : List ℤ

/-- The client probes once before its loop. -/
def Controlling.start (autoconnectHost : Option MacAddr) : Controlling where
  loop := .init autoconnectHost
  log := [.statusReq]
  probes := []
  starts := []
  keys := []

structure LoopEvent where
  events : List Ready
  now : Timeval

def Ready.key : Ready → Option ℤ
  | .stdin c _ => some c
  | _ => none

/-- One time through the loop. `getch` is called only as long as no host is picked. -/
def Controlling.turn (sock : RawSocket) (e : LoopEvent) (s : Controlling) : Controlling :=
  let t := mainLoopTurn sock e.events e.now s.loop
  { loop := t.1
    log := s.log ++ t.2
    probes := s.probes ++ List.replicate (t.2.count .statusReq) e.now
    starts := s.starts ++ List.replicate (t.2.countP LoopPacket.isStart) e.now
    keys := s.keys ++ if s.loop.client.activeHost.isNone then e.events.filterMap Ready.key else [] }

inductive LoopStep (sock : RawSocket) (s : Controlling) : LoopEvent → Controlling → Prop
  | turn (e : LoopEvent) (h : s.loop.running = true) : LoopStep sock s e (s.turn sock e)

/-- The host with the window is the active one, it was picked by its address or its number, and
every packet but a probe goes to it. -/
structure Aimed (keys : List ℤ) (s : MainLoop) (log : List LoopPacket) : Prop where
  window : ∀ i : Fin 16, (s.controls.slot i).window = true ↔ s.client.activeHost = some i
  listed : ∀ i, s.client.activeHost = some i → ∃ ifAddr, s.ifAddr i = some ifAddr
  picked : ∀ i, s.client.activeHost = some i →
    s.client.autoconnectHost = s.ifAddr i ∨ (48+i.val : ℤ) ∈ keys
  packets : ∀ p ∈ log, p = .statusReq ∨
    ∃ i, s.client.activeHost = some i ∧ s.ifAddr i = some p.destMacAddr

/-- More than an interval lies between two times. -/
def SpacedBy (interval : Timeval) (a b : Timeval) : Prop := a.micros+interval.micros < b.micros

/-- The timers of the loop and what they have sent. -/
structure Timed (s : Controlling) : Prop where
  probed : s.loop.lastProbe = s.probes.getLastD timerclear
  probes : s.probes.IsChain (SpacedBy broadcastProbeInterval)
  started : ∀ i, s.loop.client.activeHost = some i →
    (s.loop.controls.slot i).tvLastSessionStart = s.starts.getLastD timerclear
  starts : s.starts.IsChain (SpacedBy sessionStartInterval)
  idle : s.loop.client.activeHost = none →
    s.starts = [] ∧ ∀ i : Fin 16, (s.loop.controls.slot i).tvLastSessionStart = timerclear

/-- Nothing is due any more at a time. -/
structure NothingDue (now : Timeval) (s : MainLoop) : Prop where
  probe : now.micros ≤ s.lastProbe.micros+broadcastProbeInterval.micros
  start : ∀ i, s.client.activeHost = some i →
    now.micros ≤ (s.controls.slot i).tvLastSessionStart.micros+sessionStartInterval.micros

variable {sock : RawSocket} {s s' : MainLoop} {i j : Fin 16} {keys : List ℤ} {log : List LoopPacket}

/-! The frames. A host keeps its address, and a client that controls a host goes on with it. -/

/-- Every host of the list is in the new list under its address. -/
def SameAddrs (hosts hosts' : HostList) : Prop :=
  ∀ (i : Fin 16) rh, hosts.slot i = some rh → ∃ rh', hosts'.slot i = some rh' ∧ rh'.ifAddr = rh.ifAddr

theorem SameAddrs.refl (hosts : HostList) : SameAddrs hosts hosts := fun _ rh h => ⟨rh,h,rfl⟩

theorem sameAddrs_update (hosts : HostList) (k : Fin 16) {f : RemoteHost → RemoteHost}
    (hf : ∀ rh, (f rh).ifAddr = rh.ifAddr) : SameAddrs hosts (updateHost hosts k f) := by
  intro i rh hi
  by_cases hk : k = i
  · subst hk
    exact ⟨f rh,slot_updateHost_self hi f,hf rh⟩
  · exact ⟨rh,by rw [slot_updateHost, if_neg hk, hi],rfl⟩

theorem sameAddrs_register (m : Mem) (hosts : HostList) :
    SameAddrs hosts (run m (hostlistRegister hosts)) := by
  simp only [hostlistRegister, run_bind, run_bytes, run_byte]
  split
  next k _ =>
    rw [run_pure]
    exact sameAddrs_update hosts k fun _ => rfl
  next =>
    split
    next => exact .refl hosts
    next k hk =>
      intro i rh hi
      have hfree := List.find?_some hk
      have hki : k ≠ i := by
        rintro rfl
        simp [hi] at hfree
      rw [run_pure, Vector.slot_put, if_neg hki]
      exact ⟨rh,hi,rfl⟩

theorem sameAddrs_videoText (m : Mem) (hosts : HostList) :
    SameAddrs hosts (run m (processIncomingVideoText hosts)).1 := by
  simp only [processIncomingVideoText, run_bind]
  split
  next => exact .refl hosts
  next i offset data _ =>
    simp only [run_bind, run_pure]
    exact sameAddrs_update hosts i fun _ => rfl

theorem sameAddrs_cga (m : Mem) (hosts : HostList) :
    SameAddrs hosts (run m (processIncomingCgaGraphics hosts)) := by
  simp only [processIncomingCgaGraphics, run_bind]
  split
  next => exact .refl hosts
  next i offset data _ =>
    simp only [run_bind, run_pure]
    exact sameAddrs_update hosts i fun _ => rfl

theorem hostlistFindByMac_addr {ifAddr : List UInt8} {hosts : HostList}
    (h : hostlistFindByMac ifAddr hosts = some i) :
    ∃ rh, hosts.slot i = some rh ∧ rh.ifAddr.toList = ifAddr := by
  have hany := List.find?_some h
  obtain ⟨rh,hrh,haddr⟩ := (Option.any_eq_true ..).mp hany
  exact ⟨rh,hrh,of_decide_eq_true haddr⟩

/-- What a frame does to the hosts and to the choice of one. -/
structure FrameTaken (c c' : Client) : Prop where
  hosts : SameAddrs c.hosts c'.hosts
  autoconnectHost : c'.autoconnectHost = c.autoconnectHost
  activeHost : c'.activeHost = c.activeHost ∨ c.activeHost = none ∧
    ∃ i rh, c'.activeHost = some i ∧ c'.hosts.slot i = some rh ∧ c.autoconnectHost = some rh.ifAddr

theorem FrameTaken.of_hosts {c : Client} {hosts : HostList} (h : SameAddrs c.hosts hosts) :
    FrameTaken c { c with hosts := hosts } := ⟨h,rfl,.inl rfl⟩

theorem statusResp_taken (m : Mem) (c : Client) : FrameTaken c (run m (processStatusResp c)) := by
  have hregister := sameAddrs_register m c.hosts
  simp only [processStatusResp, run_bind, run_bytes]
  rw [run_ite]
  split
  next hauto =>
    cases hfind : hostlistFindByMac (slice m 6 6) (run m (hostlistRegister c.hosts)) with
    | none => exact .of_hosts hregister
    | some i =>
      obtain ⟨rh,hrh,haddr⟩ := hostlistFindByMac_addr hfind
      obtain ⟨a,ha,hmac⟩ := (Option.any_eq_true ..).mp hauto.1
      have hsame : a = rh.ifAddr :=
        Vector.toList_inj.mp ((of_decide_eq_true hmac).trans haddr.symm)
      exact ⟨hregister,rfl,.inr ⟨hauto.2,i,rh,rfl,hrh,ha.trans (congrArg some hsame)⟩⟩
  next => exact .of_hosts hregister

theorem socketIo_taken (sock : RawSocket) (m : Mem) (c : Client) : FrameTaken c (run m (processSocketIo sock c)) := by
  have hskip : FrameTaken c c := .of_hosts (.refl _)
  simp only [processSocketIo, run_bind, run_ite, run_pure]
  split_ifs
  · exact hskip
  · exact hskip
  · exact hskip
  · exact statusResp_taken m c
  · exact .of_hosts (sameAddrs_videoText m c.hosts)
  · exact .of_hosts (sameAddrs_cga m c.hosts)
  · exact hskip

/-! The events of one time through the loop. -/

theorem ifAddr_eq_some {ifAddr : MacAddr} :
    s.ifAddr i = some ifAddr ↔ ∃ rh, s.client.hosts.slot i = some rh ∧ rh.ifAddr = ifAddr :=
  Option.map_eq_some_iff

theorem hostlistFindByIndex_some {index : ℤ} {hosts : HostList}
    (h : hostlistFindByIndex index hosts = some i) :
    index = i.val ∧ ∃ rh, hosts.slot i = some rh := by
  unfold hostlistFindByIndex at h
  split at h
  next hindex =>
    simp only at h
    split at h
    next hsome =>
      obtain rfl := Option.some.inj h
      exact ⟨(Int.toNat_of_nonneg hindex.1).symm,Option.isSome_iff_exists.mp hsome⟩
    next => cases h
  next => cases h

/-- A host is picked where none was. -/
theorem Aimed.pick (h : Aimed keys s log) (hnone : s.client.activeHost = none)
    (hcontrols : s'.controls = s.controls) {ifAddr : MacAddr}
    (hi : s'.ifAddr i = some ifAddr)
    (hpick : s'.client.autoconnectHost = some ifAddr ∨ (48+i.val : ℤ) ∈ keys) :
    Aimed keys (startRemoteControl i s') log where
  window j := by
    have hoff : ∀ k : Fin 16, (s'.controls.slot k).window ≠ true := fun k hk => by
      rw [hcontrols, h.window, hnone] at hk
      cases hk
    simp only [startRemoteControl, Vector.slot_put, Option.some.injEq]
    split
    next hij => exact iff_of_true rfl hij
    next hij => exact iff_of_false (hoff j) hij
  listed j hj := by
    obtain rfl := Option.some.inj hj
    exact ⟨ifAddr,hi⟩
  picked j hj := by
    obtain rfl := Option.some.inj hj
    exact hpick.imp_left fun ha => ha.trans hi.symm
  packets p hp := by
    obtain hprobe | ⟨k,hk,-⟩ := h.packets p hp
    · exact .inl hprobe
    · rw [hnone] at hk
      cases hk

/-- The choice and the addresses stay. -/
theorem Aimed.stay (h : Aimed keys s log) (hactive : s'.client.activeHost = s.client.activeHost)
    (hwindow : ∀ i : Fin 16, (s'.controls.slot i).window = (s.controls.slot i).window)
    (hauto : s'.client.autoconnectHost = s.client.autoconnectHost)
    (hhosts : ∀ i ifAddr, s.ifAddr i = some ifAddr → s'.ifAddr i = some ifAddr) :
    Aimed keys s' log where
  window i := by rw [hwindow, hactive, h.window]
  listed i hi := by
    obtain ⟨ifAddr,haddr⟩ := h.listed i (hactive ▸ hi)
    exact ⟨ifAddr,hhosts i ifAddr haddr⟩
  picked i hi := by
    obtain ⟨ifAddr,haddr⟩ := h.listed i (hactive ▸ hi)
    rw [hauto, hhosts i ifAddr haddr, ← haddr]
    exact h.picked i (hactive ▸ hi)
  packets p hp := (h.packets p hp).imp_right fun ⟨i,hi,haddr⟩ =>
    ⟨i,hactive.trans hi,hhosts i _ haddr⟩

theorem Aimed.mono {keys' : List ℤ} (h : Aimed keys s log) (hkeys : keys ⊆ keys') :
    Aimed keys' s log :=
  ⟨h.window,h.listed,fun i hi => (h.picked i hi).imp_right fun hk => hkeys hk,h.packets⟩

/-- A packet to the active host. -/
theorem Aimed.sent {p : LoopPacket} (h : Aimed keys s log) (hi : s.client.activeHost = some i)
    (hp : s.ifAddr i = some p.destMacAddr) : Aimed keys s (log ++ [p]) where
  window := h.window
  listed := h.listed
  picked := h.picked
  packets := List.forall_mem_append.mpr
    ⟨h.packets,List.forall_mem_singleton.mpr (.inr ⟨i,hi,hp⟩)⟩

theorem Aimed.menu (h : Aimed keys s log) (hnone : s.client.activeHost = none) {c : ℤ}
    (hc : c ∈ keys) : Aimed keys (processStdinMenuMode c s) log := by
  unfold processStdinMenuMode
  split
  next => exact h.stay rfl (fun _ => rfl) rfl fun _ _ hi => hi
  next =>
    split
    next =>
      split
      next i hfind =>
        obtain ⟨hindex,rh,hrh⟩ := hostlistFindByIndex_some hfind
        have hkey : (48+i.val : ℤ) = c := by omega
        exact h.pick hnone rfl (ifAddr_eq_some.mpr ⟨rh,hrh,rfl⟩) (.inr (hkey ▸ hc))
      next => exact h
    next => exact h

theorem Aimed.stdin {c : ℤ} (h : Aimed keys s log) (input : List WchInput)
    (hc : s.client.activeHost = none → c ∈ keys) :
    Aimed keys (processStdin c input s).1 (log ++ (processStdin c input s).2) := by
  unfold processStdin
  split
  next hnone =>
    rw [List.append_nil]
    exact h.menu hnone (hc hnone)
  next i hi =>
    obtain ⟨ifAddr,haddr⟩ := h.listed i hi
    have hstay : Aimed keys
        { s with running := s.running && (processStdinSessionMode input).running } log :=
      h.stay rfl (fun _ => rfl) rfl fun _ _ ha => ha
    simp only [haddr]
    cases (processStdinSessionMode input).sent with
    | none => simpa using hstay
    | some key => exact hstay.sent (p := .keystroke ifAddr key) hi haddr

theorem FrameTaken.ifAddr {c : Client} (h : FrameTaken s.client c) (i : Fin 16) (ifAddr : MacAddr)
    (hi : s.ifAddr i = some ifAddr) : { s with client := c }.ifAddr i = some ifAddr := by
  obtain ⟨rh,hrh,rfl⟩ := ifAddr_eq_some.mp hi
  obtain ⟨rh',hrh',haddr⟩ := h.hosts i rh hrh
  exact ifAddr_eq_some.mpr ⟨rh',hrh',haddr⟩

theorem Aimed.socket (h : Aimed keys s log) (buffer : Mem) :
    Aimed keys (processSocket sock buffer s) log := by
  have htaken := socketIo_taken sock buffer s.client
  have hhosts := htaken.ifAddr
  obtain hsame | ⟨hnone,i,rh,hi,hrh,hauto⟩ := htaken.activeHost
  · have hstay : Aimed keys { s with client := run buffer (processSocketIo sock s.client) } log :=
      h.stay hsame (fun _ => rfl) htaken.autoconnectHost hhosts
    simp only [processSocket]
    split
    next hnone =>
      split
      next i hi =>
        rw [hsame] at hi
        rw [hi] at hnone
        cases hnone
      next => exact hstay
    next => exact hstay
  · simp only [processSocket, hnone, Option.isNone_none, if_true, hi]
    exact h.pick hnone rfl (ifAddr_eq_some.mpr ⟨rh,hrh,rfl⟩)
      (.inl (htaken.autoconnectHost.trans hauto))

/-- What the events leave to the timers: the clocks, the choice of a host once it is made, and all
packets but keys. -/
structure EventsDone (s s' : MainLoop) (sent : List LoopPacket) : Prop where
  lastProbe : s'.lastProbe = s.lastProbe
  clocks : ∀ i : Fin 16,
    (s'.controls.slot i).tvLastSessionStart = (s.controls.slot i).tvLastSessionStart
  active : ∀ i, s.client.activeHost = some i → s'.client.activeHost = some i
  addrs : ∀ i ifAddr, s.ifAddr i = some ifAddr → s'.ifAddr i = some ifAddr
  keys : ∀ p ∈ sent, p ≠ .statusReq ∧ p.isStart = false

theorem EventsDone.refl (s : MainLoop) : EventsDone s s [] :=
  ⟨rfl,fun _ => rfl,fun _ h => h,fun _ _ h => h,List.forall_mem_nil _⟩

theorem EventsDone.trans {s'' : MainLoop} {sent sent' : List LoopPacket}
    (h : EventsDone s s' sent) (h' : EventsDone s' s'' sent') :
    EventsDone s s'' (sent ++ sent') where
  lastProbe := h'.lastProbe.trans h.lastProbe
  clocks i := (h'.clocks i).trans (h.clocks i)
  active i hi := h'.active i (h.active i hi)
  addrs i ifAddr hi := h'.addrs i ifAddr (h.addrs i ifAddr hi)
  keys := List.forall_mem_append.mpr ⟨h.keys,h'.keys⟩

theorem clock_startRemoteControl (i j : Fin 16) (s : MainLoop) :
    ((startRemoteControl i s).controls.slot j).tvLastSessionStart =
      (s.controls.slot j).tvLastSessionStart := by
  simp only [startRemoteControl, Vector.slot_put]
  split
  next hij => rw [hij]
  next => rfl

theorem eventsDone_menu (c : ℤ) (hnone : s.client.activeHost = none) :
    EventsDone s (processStdinMenuMode c s) [] := by
  have hactive {s' : MainLoop} : ∀ i, s.client.activeHost = some i →
      s'.client.activeHost = some i := fun i hi => by
    rw [hnone] at hi
    cases hi
  unfold processStdinMenuMode
  split_ifs
  · exact ⟨rfl,fun _ => rfl,hactive,fun _ _ h => h,List.forall_mem_nil _⟩
  · split
    next i _ =>
      exact ⟨rfl,fun j => clock_startRemoteControl i j s,hactive,fun _ _ h => h,
        List.forall_mem_nil _⟩
    next => exact .refl s
  · exact .refl s

theorem eventsDone_stdin (c : ℤ) (input : List WchInput) (s : MainLoop) :
    EventsDone s (processStdin c input s).1 (processStdin c input s).2 := by
  unfold processStdin
  split
  next hnone => exact eventsDone_menu c hnone
  next i _ =>
    refine ⟨rfl,fun _ => rfl,fun _ hi => hi,fun _ _ hi => hi,fun p hp => ?_⟩
    obtain ⟨ifAddr,-,hp⟩ := List.mem_flatMap.mp hp
    obtain ⟨key,-,rfl⟩ := List.mem_map.mp hp
    exact ⟨LoopPacket.noConfusion,rfl⟩

theorem eventsDone_socket (sock : RawSocket) (buffer : Mem) (s : MainLoop) :
    EventsDone s (processSocket sock buffer s) [] := by
  have htaken := socketIo_taken sock buffer s.client
  have hactive : ∀ i, s.client.activeHost = some i →
      (run buffer (processSocketIo sock s.client)).activeHost = some i := by
    intro i hi
    obtain hsame | ⟨hnone,-⟩ := htaken.activeHost
    · exact hsame.trans hi
    · rw [hi] at hnone
      cases hnone
  unfold processSocket
  simp only
  split
  next hnone =>
    have hno : ∀ i, s.client.activeHost = some i → False := fun i hi => by
      rw [hi] at hnone
      cases hnone
    split
    next i _ =>
      exact ⟨rfl,fun j => clock_startRemoteControl i j _,fun j hj => (hno j hj).elim,
        htaken.ifAddr,List.forall_mem_nil _⟩
    next => exact ⟨rfl,fun _ => rfl,hactive,htaken.ifAddr,List.forall_mem_nil _⟩
  next => exact ⟨rfl,fun _ => rfl,hactive,htaken.ifAddr,List.forall_mem_nil _⟩

theorem eventsDone_ready {r : Turn} (h : EventsDone s r.1 r.2) (e : Ready) :
    EventsDone s (processReady sock r e).1 (processReady sock r e).2 := by
  cases e with
  | stdin c input => exact h.trans (eventsDone_stdin c input r.1)
  | socket frame =>
    cases frame with
    | none => exact h
    | some buffer =>
      have htrans := h.trans (eventsDone_socket sock buffer r.1)
      rwa [List.append_nil] at htrans
  | web => exact h

theorem eventsDone_all {r : Turn} (h : EventsDone s r.1 r.2) (events : List Ready) :
    EventsDone s (events.foldl (processReady sock) r).1 (events.foldl (processReady sock) r).2 := by
  induction events generalizing r with
  | nil => exact h
  | cons e events ih => exact ih (eventsDone_ready h e)

theorem Aimed.ready {r : Turn} (h : Aimed keys r.1 (log ++ r.2)) (e : Ready)
    (hkey : r.1.client.activeHost = none → ∀ c ∈ e.key, c ∈ keys) :
    Aimed keys (processReady sock r e).1 (log ++ (processReady sock r e).2) := by
  cases e with
  | stdin c input =>
    simp only [processReady, ← List.append_assoc]
    exact h.stdin input fun hnone => hkey hnone c rfl
  | socket frame =>
    cases frame with
    | none => exact h
    | some buffer => exact h.socket buffer
  | web => exact h

theorem EventsDone.unpicked {sent : List LoopPacket} (h : EventsDone s s' sent)
    (hnone : s'.client.activeHost = none) : s.client.activeHost = none :=
  Option.eq_none_iff_forall_ne_some.mpr fun i hi => by
    rw [h.active i hi] at hnone
    cases hnone

/-- Over all events of a turn. -/
theorem Aimed.events {r : Turn} (h : Aimed keys r.1 (log ++ r.2)) (hdone : EventsDone s r.1 r.2)
    (events : List Ready)
    (hkey : s.client.activeHost = none → events.filterMap Ready.key ⊆ keys) :
    Aimed keys (events.foldl (processReady sock) r).1
      (log ++ (events.foldl (processReady sock) r).2) := by
  induction events generalizing r with
  | nil => exact h
  | cons e events ih =>
    refine ih (h.ready e fun hnone c hc => ?_) (eventsDone_ready hdone e) fun hnone c hc => ?_
    · exact hkey (hdone.unpicked hnone) (List.mem_filterMap.mpr ⟨e,List.mem_cons_self,hc⟩)
    · obtain ⟨e',he',hc⟩ := List.mem_filterMap.mp hc
      exact hkey hnone (List.mem_filterMap.mpr ⟨e',List.mem_cons_of_mem _ he',hc⟩)

/-! The timers. Only the host with the window has one. -/

/-- A fold in which one element alone acts, under an invariant. -/
theorem foldl_single {α β : Type*} {f : β → α → β} {a : α} {l : List α} (Inv : β → Prop)
    (hskip : ∀ r, Inv r → ∀ b ≠ a, f r b = r) (hkeep : ∀ r, Inv r → Inv (f r a))
    (hl : l.Nodup) (ha : a ∈ l) {r : β} (hr : Inv r) : l.foldl f r = f r a := by
  have hrest : ∀ l : List α, a ∉ l → ∀ r, Inv r → l.foldl f r = r := by
    intro l hl
    induction l with
    | nil => exact fun _ _ => rfl
    | cons b l ih =>
      intro r hr
      rw [List.foldl_cons, hskip r hr b (List.ne_of_not_mem_cons hl).symm]
      exact ih (List.not_mem_of_not_mem_cons hl) r hr
  induction l with
  | nil => cases ha
  | cons b l ih =>
    obtain ⟨hb,hl⟩ := List.nodup_cons.mp hl
    rw [List.foldl_cons]
    obtain rfl | ha := List.mem_cons.mp ha
    · exact hrest l hb _ (hkeep r hr)
    · have hne : b ≠ a := fun hba => hb (hba ▸ ha)
      rw [hskip r hr b hne]
      exact ih hl ha

theorem refreshHost_skip {now : Timeval} {r : Turn} (h : (r.1.controls.slot i).window = false) :
    refreshHost now r i = r := by
  unfold refreshHost
  split
  next => rfl
  next => exact if_neg fun hdue => Bool.false_ne_true (h.symm.trans hdue.1)

theorem controls_probeTimer (now : Timeval) (s : MainLoop) :
    (probeTimer now s).1.controls = s.controls ∧ (probeTimer now s).1.client = s.client := by
  unfold probeTimer
  split <;> exact ⟨rfl,rfl⟩

theorem processTimers_none (now : Timeval)
    (h : ∀ i : Fin 16, (s.controls.slot i).window = false) :
    processTimers now s = probeTimer now s := by
  have hwindow : ∀ i : Fin 16, ((probeTimer now s).1.controls.slot i).window = false := fun i => by
    rw [(controls_probeTimer now s).1, h]
  have hrest (l : List (Fin 16)) : l.foldl (refreshHost now) (probeTimer now s) =
      probeTimer now s := by
    induction l with
    | nil => rfl
    | cons i l ih => rw [List.foldl_cons, refreshHost_skip (hwindow i), ih]
  exact hrest _

theorem processTimers_one (now : Timeval)
    (h : ∀ j : Fin 16, j ≠ i → (s.controls.slot j).window = false) :
    processTimers now s = refreshHost now (probeTimer now s) i := by
  refine foldl_single (fun r : Turn => ∀ j : Fin 16, j ≠ i →
    (r.1.controls.slot j).window = false) ?_ ?_ (List.nodup_finRange 16) (List.mem_finRange i) ?_
  · exact fun r hr j hj => refreshHost_skip (hr j hj)
  · intro r hr j hj
    unfold refreshHost
    split
    next => exact hr j hj
    next =>
      simp only
      split
      next => rw [Vector.slot_put, if_neg (Ne.symm hj), hr j hj]
      next => exact hr j hj
  · intro j hj
    rw [(controls_probeTimer now s).1, h j hj]

/-- What the probe timer leaves. -/
theorem probeTimer_cases (now : Timeval) (s : MainLoop) :
    (s.lastProbe.micros+broadcastProbeInterval.micros < now.micros ∧
      probeTimer now s = ({ s with lastProbe := now },[.statusReq])) ∨
    (now.micros ≤ s.lastProbe.micros+broadcastProbeInterval.micros ∧ probeTimer now s = (s,[])) := by
  unfold probeTimer
  split
  next hdue => exact .inl ⟨(elapsed_iff ..).mp hdue,rfl⟩
  next hdue => exact .inr ⟨not_lt.mp fun hlt => hdue ((elapsed_iff ..).mpr hlt),rfl⟩

/-- What the timer of the controlled host leaves. -/
theorem refreshHost_cases (now : Timeval) {r : Turn} {ifAddr : MacAddr}
    (hi : r.1.ifAddr i = some ifAddr) (hwindow : (r.1.controls.slot i).window = true) :
    ((r.1.controls.slot i).tvLastSessionStart.micros+sessionStartInterval.micros < now.micros ∧
      refreshHost now r i =
        ({ r.1 with controls := r.1.controls.put i ⟨(r.1.controls.slot i).window,now⟩ },
          r.2 ++ [.sessionStart ifAddr])) ∨
    (now.micros ≤ (r.1.controls.slot i).tvLastSessionStart.micros+sessionStartInterval.micros ∧
      refreshHost now r i = r) := by
  simp only [refreshHost, hi, hwindow, true_and]
  split
  next hdue => exact .inl ⟨(elapsed_iff ..).mp hdue,rfl⟩
  next hdue => exact .inr ⟨not_lt.mp fun hlt => hdue ((elapsed_iff ..).mpr hlt),rfl⟩

/-- A timer with its last time before and after, and how often it went off. -/
def Fired (interval now last last' : Timeval) (n : ℕ) : Prop :=
  (last.micros+interval.micros < now.micros ∧ last' = now ∧ n = 1) ∨
    (now.micros ≤ last.micros+interval.micros ∧ last' = last ∧ n = 0)

theorem Fired.uptodate {interval now last last' : Timeval} {n : ℕ}
    (h : Fired interval now last last' n) (hpos : 0 ≤ interval.micros) :
    now.micros ≤ last'.micros+interval.micros := by
  obtain ⟨-,rfl,-⟩ | ⟨hle,rfl,-⟩ := h
  · exact le_add_of_nonneg_right hpos
  · exact hle

/-- The times of a timer, the last of which it remembers. -/
theorem Fired.times {interval now last last' : Timeval} {n : ℕ} {times : List Timeval}
    (h : Fired interval now last last' n) (hlast : last = times.getLastD timerclear)
    (htimes : times.IsChain (SpacedBy interval)) :
    last' = (times ++ List.replicate n now).getLastD timerclear ∧
      (times ++ List.replicate n now).IsChain (SpacedBy interval) := by
  obtain ⟨hlt,rfl,rfl⟩ | ⟨-,rfl,rfl⟩ := h
  · refine ⟨by simp,htimes.append (List.isChain_singleton _) fun x hx y hy => ?_⟩
    have hx' : last = x := by
      rw [hlast, List.getLastD_eq_getLast?, Option.mem_def.mp hx]
      rfl
    have hy' : last' = y := by simpa using hy
    rwa [← hx', ← hy']
  · rw [List.replicate_zero, List.append_nil]
    exact ⟨hlast,htimes⟩

/-- What the timers do in a turn. -/
structure TimersDone (now : Timeval) (s : MainLoop) (t : Turn) : Prop where
  client : t.1.client = s.client
  probe : Fired broadcastProbeInterval now s.lastProbe t.1.lastProbe (t.2.count .statusReq)
  start : ∀ i, s.client.activeHost = some i →
    Fired sessionStartInterval now (s.controls.slot i).tvLastSessionStart
      (t.1.controls.slot i).tvLastSessionStart (t.2.countP LoopPacket.isStart)
  idle : s.client.activeHost = none →
    t.2.countP LoopPacket.isStart = 0 ∧ t.1.controls = s.controls

/-- The probe of a turn, alone. -/
theorem probeTimer_fired (now : Timeval) (s : MainLoop) :
    Fired broadcastProbeInterval now s.lastProbe (probeTimer now s).1.lastProbe
      ((probeTimer now s).2.count .statusReq) ∧
    (probeTimer now s).2.countP LoopPacket.isStart = 0 ∧
      ∀ p ∈ (probeTimer now s).2, p = .statusReq := by
  obtain ⟨hlt,heq⟩ | ⟨hle,heq⟩ := probeTimer_cases now s
  · rw [heq]
    exact ⟨.inl ⟨hlt,rfl,rfl⟩,rfl,fun p hp => List.mem_singleton.mp hp⟩
  · rw [heq]
    exact ⟨.inr ⟨hle,rfl,rfl⟩,rfl,List.forall_mem_nil _⟩

theorem Aimed.timers (h : Aimed keys s log) (now : Timeval) :
    TimersDone now s (processTimers now s) ∧
      Aimed keys (processTimers now s).1 (log ++ (processTimers now s).2) := by
  obtain ⟨hfired,hnostart,hprobes⟩ := probeTimer_fired now s
  obtain ⟨hcontrols,hclient⟩ := controls_probeTimer now s
  have hprobed : Aimed keys (probeTimer now s).1 (log ++ (probeTimer now s).2) := by
    have hstay : Aimed keys (probeTimer now s).1 log :=
      h.stay (congrArg Client.activeHost hclient) (fun i => by rw [hcontrols])
        (congrArg Client.autoconnectHost hclient)
        fun i ifAddr hi => by rwa [MainLoop.ifAddr, hclient]
    exact ⟨hstay.window,hstay.listed,hstay.picked,
      List.forall_mem_append.mpr ⟨hstay.packets,fun p hp => .inl (hprobes p hp)⟩⟩
  cases hactive : s.client.activeHost with
  | none =>
    have hwindow : ∀ i : Fin 16, (s.controls.slot i).window = false := fun i => by
      have hno := (h.window i).not.mpr (by simp [hactive])
      simpa using hno
    rw [processTimers_none now hwindow]
    refine ⟨⟨hclient,hfired,fun i hi => ?_,fun _ => ⟨hnostart,hcontrols⟩⟩,hprobed⟩
    rw [hactive] at hi
    cases hi
  | some i =>
    have hwindow : ∀ j : Fin 16, j ≠ i → (s.controls.slot j).window = false := fun j hj => by
      have hno := (h.window j).not.mpr (by simpa [hactive] using hj.symm)
      simpa using hno
    have hactive' : (probeTimer now s).1.client.activeHost = some i := by rw [hclient, hactive]
    obtain ⟨ifAddr,haddr⟩ := hprobed.listed i hactive'
    rw [processTimers_one now hwindow]
    obtain ⟨hlt,heq⟩ | ⟨hle,heq⟩ :=
      refreshHost_cases now haddr ((hprobed.window i).mpr hactive')
    · have hstay : Aimed keys { (probeTimer now s).1 with
          controls := (probeTimer now s).1.controls.put i
            ⟨((probeTimer now s).1.controls.slot i).window,now⟩ }
          (log ++ (probeTimer now s).2) := by
        refine hprobed.stay rfl (fun j => ?_) rfl fun _ _ ha => ha
        rw [Vector.slot_put]
        split
        next hij => rw [hij]
        next => rfl
      rw [heq]
      rw [hcontrols] at hlt
      refine ⟨⟨hclient,?_,fun j hj => ?_,fun hnone => ?_⟩,?_⟩
      · simpa using hfired
      · obtain rfl := Option.some.inj (hactive.symm.trans hj)
        refine .inl ⟨hlt,?_,?_⟩
        · rw [Vector.slot_put, if_pos rfl]
        · rw [List.countP_append, hnostart]
          rfl
      · cases hactive.symm.trans hnone
      · rw [← List.append_assoc]
        exact hstay.sent (p := .sessionStart ifAddr) hactive' haddr
    · rw [heq]
      rw [hcontrols] at hle
      refine ⟨⟨hclient,hfired,fun j hj => ?_,fun hnone => ?_⟩,hprobed⟩
      · obtain rfl := Option.some.inj (hactive.symm.trans hj)
        exact .inr ⟨hle,by rw [hcontrols],hnostart⟩
      · cases hactive.symm.trans hnone

/-! Whole runs. -/

/-- What holds of the client at every head of its loop. -/
structure OneHost (s : Controlling) : Prop where
  aimed : Aimed s.keys s.loop s.log
  timed : Timed s

theorem control_init (autoconnectHost : Option MacAddr) (i : Fin 16) :
    (MainLoop.init autoconnectHost).controls.slot i = ⟨false,timerclear⟩ := by
  simp [MainLoop.init]

theorem Aimed.start (autoconnectHost : Option MacAddr) :
    Aimed [] (MainLoop.init autoconnectHost) [.statusReq] where
  window i := by
    rw [control_init]
    exact iff_of_false Bool.false_ne_true (fun h => by cases h)
  listed _ h := by cases h
  picked _ h := by cases h
  packets := List.forall_mem_singleton.mpr (.inl rfl)

theorem Timed.start (autoconnectHost : Option MacAddr) : Timed (.start autoconnectHost) where
  probed := rfl
  probes := .nil
  started _ h := by cases h
  starts := .nil
  idle _ := ⟨rfl,fun i => congrArg HostControl.tvLastSessionStart (control_init autoconnectHost i)⟩

/-- The clocks over a turn: the events leave them to the timers. -/
theorem Timed.turn {s : Controlling} (h : Timed s) {e : LoopEvent} {r t : Turn}
    (hturn : s.turn sock e = ⟨t.1,s.log ++ (r.2 ++ t.2),
      s.probes ++ List.replicate ((r.2 ++ t.2).count .statusReq) e.now,
      s.starts ++ List.replicate ((r.2 ++ t.2).countP LoopPacket.isStart) e.now,
      (s.turn sock e).keys⟩)
    (hdone : EventsDone s.loop r.1 r.2) (ht : TimersDone e.now r.1 t) :
    Timed (s.turn sock e) := by
  have hprobes : (r.2 ++ t.2).count .statusReq = t.2.count .statusReq := by
    rw [List.count_append, List.count_eq_zero.mpr fun hp => (hdone.keys _ hp).1 rfl, zero_add]
  have hstarts : (r.2 ++ t.2).countP LoopPacket.isStart = t.2.countP LoopPacket.isStart := by
    rw [List.countP_append, List.countP_eq_zero.mpr fun p hp => by simp [(hdone.keys p hp).2],
      zero_add]
  have hprobe := ht.probe
  rw [hdone.lastProbe] at hprobe
  have hlast : ∀ i, r.1.client.activeHost = some i →
      (r.1.controls.slot i).tvLastSessionStart = s.starts.getLastD timerclear := by
    intro i hi
    rw [hdone.clocks]
    cases hactive : s.loop.client.activeHost with
    | none =>
      obtain ⟨hnil,hzero⟩ := h.idle hactive
      rw [hnil, hzero]
      rfl
    | some j =>
      obtain rfl := Option.some.inj ((hdone.active j hactive).symm.trans hi)
      exact h.started j hactive
  rw [hturn, hprobes, hstarts]
  constructor
  case probed => exact (hprobe.times h.probed h.probes).1
  case probes => exact (hprobe.times h.probed h.probes).2
  case started =>
    intro i hi
    have hi' : r.1.client.activeHost = some i := ht.client ▸ hi
    exact ((ht.start i hi').times (hlast i hi') h.starts).1
  case starts =>
    cases hactive : r.1.client.activeHost with
    | none =>
      rw [(ht.idle hactive).1, List.replicate_zero, List.append_nil]
      exact h.starts
    | some i => exact ((ht.start i hactive).times (hlast i hactive) h.starts).2
  case idle =>
    intro hnone
    have hready : r.1.client.activeHost = none := ht.client ▸ hnone
    obtain ⟨hcount,hcontrols⟩ := ht.idle hready
    obtain ⟨hnil,hzero⟩ := h.idle (hdone.unpicked hready)
    refine ⟨by rw [hcount, hnil]; rfl,fun i => ?_⟩
    exact (congrArg (fun c => (Vector.slot c i).tvLastSessionStart) hcontrols).trans
      ((hdone.clocks i).trans (hzero i))

theorem turn_eq (s : Controlling) (e : LoopEvent) {r t : Turn}
    (hr : e.events.foldl (processReady sock) (s.loop,[]) = r) (ht : processTimers e.now r.1 = t) :
    s.turn sock e = ⟨t.1,s.log ++ (r.2 ++ t.2),
      s.probes ++ List.replicate ((r.2 ++ t.2).count .statusReq) e.now,
      s.starts ++ List.replicate ((r.2 ++ t.2).countP LoopPacket.isStart) e.now,
      (s.turn sock e).keys⟩ := by
  subst hr ht
  simp only [Controlling.turn, mainLoopTurn]

theorem OneHost.turn {s : Controlling} (h : OneHost s) (sock : RawSocket) (e : LoopEvent) :
    OneHost (s.turn sock e) ∧ NothingDue e.now (s.turn sock e).loop ∧
      ∀ i ifAddr, s.loop.client.activeHost = some i → s.loop.ifAddr i = some ifAddr →
        (s.turn sock e).loop.client.activeHost = some i ∧
          (s.turn sock e).loop.ifAddr i = some ifAddr := by
  obtain ⟨r,hr⟩ : ∃ r, e.events.foldl (processReady sock) (s.loop,[]) = r := ⟨_,rfl⟩
  obtain ⟨t,ht⟩ : ∃ t, processTimers e.now r.1 = t := ⟨_,rfl⟩
  have hturn := turn_eq s e hr ht
  have hdone : EventsDone s.loop r.1 r.2 := hr ▸ eventsDone_all (.refl s.loop) e.events
  have haimed : Aimed (s.turn sock e).keys r.1 (s.log ++ r.2) := by
    rw [← hr]
    refine Aimed.events (r := (s.loop,[])) ?_ (.refl s.loop) e.events fun hnone => ?_
    · rw [List.append_nil]
      exact h.aimed.mono (List.subset_append_left _ _)
    · simp [Controlling.turn, hnone]
  obtain ⟨hdue,haimed⟩ := haimed.timers e.now
  rw [ht] at hdue haimed
  rw [List.append_assoc] at haimed
  have htimed := h.timed.turn hturn hdone hdue
  have hloop : (s.turn sock e).loop = t.1 := congrArg Controlling.loop hturn
  have hlog : (s.turn sock e).log = s.log ++ (r.2 ++ t.2) := congrArg Controlling.log hturn
  refine ⟨⟨?_,htimed⟩,?_,fun i ifAddr hi haddr => ?_⟩
  · rwa [hloop, hlog]
  · rw [hloop]
    exact ⟨hdue.probe.uptodate (by decide),
      fun i hi => (hdue.start i (hdue.client ▸ hi)).uptodate (by decide)⟩
  · rw [hloop, MainLoop.ifAddr, hdue.client]
    exact ⟨hdone.active i hi,hdone.addrs i ifAddr haddr⟩

/-- One run of the client controls one host. Every packet but a probe goes to the host that was
picked, by its address or by its number; only this host has the window; a probe or a session start
is sent in a turn exactly if it is due, so that two of them are further apart than their interval. -/
theorem mainLoop_oneHost (sock : RawSocket) (autoconnectHost : Option MacAddr)
    {tr : List (LoopEvent × Controlling)}
    (h : Run (LoopStep sock) (.start autoconnectHost) tr) :
    ∀ x ∈ tr, OneHost x.2 ∧ NothingDue x.1.now x.2.loop := by
  refine h.each OneHost (fun e s => OneHost s ∧ NothingDue e.now s.loop) ?_ ?_
  · intro s e s' hs hstep
    cases hstep with
    | turn _ =>
      obtain ⟨hone,hdue,-⟩ := hs.turn sock e
      exact ⟨hone,hone,hdue⟩
  · exact ⟨.start autoconnectHost,.start autoconnectHost⟩

/-- A status response of the host with the null address. -/
def statusFrame : Mem := stores (fun _ => 0) [(14,htonl packetSignature),(24,htons 4)]

theorem mainLoop_oneHost_status : ∃ tr : List (LoopEvent × Controlling),
    tr.map (fun x => x.2.log) = [[.statusReq,.statusReq,.sessionStart (Vector.replicate 6 0)]] ∧
      ∀ x ∈ tr, OneHost x.2 ∧ NothingDue x.1.now x.2.loop := by
  have hrun : Run (LoopStep ⟨Vector.replicate 6 0,0⟩) (.start (some (Vector.replicate 6 0)))
      [(⟨[.socket (some statusFrame)],gettimeofday 3000000⟩,
        (Controlling.start (some (Vector.replicate 6 0))).turn ⟨Vector.replicate 6 0,0⟩
          ⟨[.socket (some statusFrame)],gettimeofday 3000000⟩)] := .cons (.turn _ rfl) (.nil _)
  exact ⟨_,by decide +kernel,mainLoop_oneHost _ _ hrun⟩

end RmtDos
