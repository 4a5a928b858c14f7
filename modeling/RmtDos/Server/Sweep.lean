import RmtDos.Client.ScreenView
import RmtDos.Lib.Tiling

/-! A sweep over the screen: the frames of consecutive screen updates, and what a client makes
of them. Between two updates other packets may change the session table and the send buffer. -/
namespace RmtDos
open Memory Reading

/-- The part of the frame buffer that a range names. -/
def screenSlice (mem : FrameBuffer) (range : ℕ × ℕ) : List UInt8 :=
  (List.range' range.1 range.2).map fun j => mem (UInt16.ofNat j)

/-- The frames of successive calls of `session_mgr_update_all`, each with the session table and
the clock it finds. -/
def screenUpdates (mem : FrameBuffer) (video : VideoState) :
    List (SessionTable × UInt32) → SessionMgr → List (List ScreenFrame)
  | [], _ => []
  | (sessions,now)::calls, m =>
    let r := sessionMgrUpdateAll mem video now { m with sessions := sessions }
    r.1 :: screenUpdates mem video calls r.2

/-- One frame to each session in use, with the bytes of the range; the frame fits, and the 16-bit
fields hold the range as it is. -/
def ChunkSent (mem : FrameBuffer) (body : UInt16 → UInt16 → ScreenBody) (sessions : SessionTable)
    (frames : List ScreenFrame) (range : ℕ × ℕ) : Prop :=
  ∃ payloadLen offset count : UInt16,
    frames = sendToSessions sessions payloadLen (body offset count) (screenSlice mem range) ∧
    offset.toNat = range.1 ∧ count.toNat = range.2 ∧
    payloadLen.toNat = (body offset count).structSize+range.2 ∧
    26+payloadLen.toNat ≤ ethFrameLen.toNat

/-- The calls send the ranges one after another, and then nothing. -/
inductive SweepSent (mem : FrameBuffer) (body : UInt16 → UInt16 → ScreenBody) :
    List (SessionTable × UInt32) → List (List ScreenFrame) → List (ℕ × ℕ) → Prop
  | nil : SweepSent mem body [] [] []
  | rest {sessions : SessionTable} {now : UInt32} {calls : List (SessionTable × UInt32)}
      {out : List (List ScreenFrame)} (tail : SweepSent mem body calls out []) :
      SweepSent mem body ((sessions,now) :: calls) ([] :: out) []
  | chunk {sessions : SessionTable} {now : UInt32} {calls : List (SessionTable × UInt32)}
      {frames : List ScreenFrame} {out : List (List ScreenFrame)} {range : ℕ × ℕ}
      {ranges : List (ℕ × ℕ)} (sent : ChunkSent mem body (pruneSessions now sessions) frames range)
      (tail : SweepSent mem body calls out ranges) :
      SweepSent mem body ((sessions,now) :: calls) (frames :: out) (range :: ranges)

/-- The client receives the frames of a call, whatever the send buffer held before. -/
def CallReceived (globals : PktdrvGlobals) (frames : List ScreenFrame) (ms : List Mem) : Prop :=
  ∃ sendBuffer, List.Forall₂ Arrived (runSends (sendScreens globals frames) sendBuffer).1 ms

def receiveAll (rs : RawSocket) (c : Client) (ms : List Mem) : Client :=
  ms.foldl (fun c m => run m (processSocketIo rs c)) c

/-- The client behind the socket has a session in use in the table. -/
def Viewing (rs : RawSocket) (sessions : SessionTable) : Prop :=
  ∃ s ∈ sessions.toList, s.inUse = true ∧ s.macAddr = rs.ifAddr ∧ s.sessionId = rs.sessionId

variable {globals : PktdrvGlobals} {rs : RawSocket} {mem : FrameBuffer}
  {body : UInt16 → UInt16 → ScreenBody} {size : ℕ} {buf : RemoteHost → Fin size → UInt8}
  {Q : RemoteHost → Prop} {i : Fin 16} {active : Option (Fin 16)} {c : Client} {cov : ℕ → Prop}
  {seen : Prop}

/-- A frame with such a body is stored in the buffer of the server's record, and shows in it. -/
def Stores (rs : RawSocket) (globals : PktdrvGlobals) (body : UInt16 → UInt16 → ScreenBody)
    (buf : RemoteHost → Fin size → UInt8) (Q : RemoteHost → Prop) : Prop :=
  ∀ (c : Client) (f : ScreenFrame) (m : Mem) (i : Fin 16) (offset count : UInt16),
    f.OnWire globals m → f.Sized → f.For rs →
    hostlistFindByMac globals.macAddr.toList c.hosts = some i → f.body = body offset count →
    count.toNat = f.data.length → count.toNat+offset.toNat ≤ size →
    ∃ update : RemoteHost → RemoteHost,
      run m (processSocketIo rs c) = { c with hosts := updateHost c.hosts i update } ∧
      ∀ rh, (update rh).ifAddr = rh.ifAddr ∧ Q (update rh) ∧
        buf (update rh) = copyInto (buf rh) offset.toNat f.data

/-- The client knows the server, and shows the covered part of its screen. -/
structure Shows (globals : PktdrvGlobals) (mem : FrameBuffer) (buf : RemoteHost → Fin size → UInt8)
    (Q : RemoteHost → Prop) (i : Fin 16) (active : Option (Fin 16)) (cov : ℕ → Prop) (seen : Prop)
    (c : Client) : Prop where
  known : hostlistFindByMac globals.macAddr.toList c.hosts = some i
  active : c.activeHost = active
  shown : ∃ rh, c.hosts.slot i = some rh ∧ (seen → Q rh) ∧
    ∀ j : Fin size, cov j → buf rh j = mem (UInt16.ofNat j)

/-- An update that keeps the address keeps the search for hosts. -/
theorem find_updateHost {hosts : HostList} {f : RemoteHost → RemoteHost}
    (h : ∀ rh, (f rh).ifAddr = rh.ifAddr) (ifAddr : List UInt8) :
    hostlistFindByMac ifAddr (updateHost hosts i f) = hostlistFindByMac ifAddr hosts := by
  unfold hostlistFindByMac
  congr 1
  funext k
  rw [slot_updateHost]
  split_ifs with hk
  · rw [hk]
    cases hosts.slot k with
    | none => rfl
    | some rh => simp only [Option.map_some, Option.any_some, h]
  · rfl

theorem screenSlice_getElem (range : ℕ × ℕ) {k : ℕ} (h : k < (screenSlice mem range).length) :
    (screenSlice mem range)[k] = mem (UInt16.ofNat (range.1+k)) := by
  simp [screenSlice]

@[simp] theorem length_screenSlice (range : ℕ × ℕ) : (screenSlice mem range).length = range.2 := by
  simp [screenSlice]

theorem screenSlice_eq_copy {offset words : UInt16} {range : ℕ × ℕ}
    (ho : offset.toNat = range.1) (hw : 2*words.toNat = range.2) :
    videoCopyFromFrameBuffer mem offset words = screenSlice mem range := by
  have hoff : offset = UInt16.ofNat range.1 := by rw [← ho, UInt16.ofNat_toNat]
  rw [videoCopyFromFrameBuffer, screenSlice, hw, List.range'_eq_map_range, List.map_map, hoff]
  apply List.map_congr_left
  intro k _
  simp only [Function.comp_apply, UInt16.ofNat_add]

/-- One frame for the client shows its range and spoils nothing shown before. -/
theorem Shows.frame (hs : Stores rs globals body buf Q) (h : Shows globals mem buf Q i active cov seen c)
    {f : ScreenFrame} {m : Mem} {range : ℕ × ℕ} {offset count : UInt16}
    (hw : f.OnWire globals m) (hf : f.Sized) (hmine : f.For rs)
    (hb : f.body = body offset count) (hd : f.data = screenSlice mem range)
    (hoff : offset.toNat = range.1) (hcount : count.toNat = range.2)
    (hfit : range.1+range.2 ≤ size) :
    Shows globals mem buf Q i active (fun j => cov j ∨ range.1 ≤ j ∧ j < range.1+range.2) True
      (run m (processSocketIo rs c)) := by
  obtain ⟨rh,hrh,-,hshown⟩ := h.shown
  obtain ⟨update,hrun,hupd⟩ := hs c f m i offset count hw hf hmine h.known hb
    (by rw [hd, length_screenSlice, hcount]) (by omega)
  rw [hrun]
  refine ⟨(find_updateHost (fun rh => (hupd rh).1) _).trans h.known,h.active,update rh,?_,
    fun _ => (hupd rh).2.1,fun j hj => ?_⟩
  · exact slot_updateHost_self hrh update
  rw [(hupd rh).2.2, hd, hoff]
  by_cases hin : range.1 ≤ j.val ∧ j.val < range.1+range.2
  · have hk : j.val-range.1 < (screenSlice mem range).length := by
      rw [length_screenSlice]
      omega
    have hjk : range.1+(j.val-range.1) = j.val := by omega
    simp only [copyInto, if_pos hin.1, List.getElem?_eq_getElem hk, Option.getD_some,
      screenSlice_getElem, hjk]
  · have hout : copyInto (buf rh) range.1 (screenSlice mem range) j = buf rh j := by
      unfold copyInto
      split
      next hle =>
        rw [List.getElem?_eq_none (by rw [length_screenSlice]; omega)]
        rfl
      next => rfl
    rw [hout]
    exact hshown j (hj.resolve_right hin)

/-- The frames of one range, those for others among them. -/
theorem Shows.frames (hs : Stores rs globals body buf Q) {range : ℕ × ℕ} {offset count : UInt16}
    (hoff : offset.toNat = range.1) (hcount : count.toNat = range.2)
    (hfit : range.1+range.2 ≤ size) {frames : List ScreenFrame} {ms : List Mem}
    (hf : ∀ f ∈ frames, f.Sized ∧ f.body = body offset count ∧ f.data = screenSlice mem range)
    (hw : List.Forall₂ (ScreenFrame.OnWire globals) frames ms)
    (h : Shows globals mem buf Q i active cov seen c) :
    Shows globals mem buf Q i active
      (fun j => cov j ∨ (∃ f ∈ frames, f.For rs) ∧ range.1 ≤ j ∧ j < range.1+range.2)
      (seen ∨ ∃ f ∈ frames, f.For rs) (receiveAll rs c ms) := by
  induction hw generalizing c cov seen with
  | nil => simpa [receiveAll] using h
  | @cons f m frames ms hwire _ ih =>
    obtain ⟨hsized,hb,hd⟩ := hf f List.mem_cons_self
    have hrest := fun f hfm => hf f (List.mem_cons_of_mem _ hfm)
    rw [receiveAll, List.foldl_cons, ← receiveAll]
    by_cases hmine : f.For rs
    · have hshow := ih hrest (h.frame hs hwire hsized hmine hb hd hoff hcount hfit)
      obtain ⟨rh,hrh,hq,hall⟩ := hshow.shown
      refine ⟨hshow.known,hshow.active,rh,hrh,fun _ => hq (.inl trivial),fun j hj => hall j (.inl ?_)⟩
      exact hj.imp_right And.right
    · rw [processSocketIo_other hwire hsized hmine]
      have hshow := ih hrest h
      have hex : (∃ g ∈ f :: frames, g.For rs) ↔ ∃ g ∈ frames, g.For rs := by
        simp [hmine]
      simpa only [hex] using hshow

theorem mem_sendToSessions {sessions : SessionTable} {payloadLen : UInt16} {b : ScreenBody}
    {data : List UInt8} {f : ScreenFrame} :
    f ∈ sendToSessions sessions payloadLen b data ↔ ∃ s ∈ sessions.toList, s.inUse = true ∧
      f = ⟨s.macAddr,s.sessionId,payloadLen,b,data⟩ := by
  simp only [sendToSessions, List.mem_map, List.mem_filter, and_assoc, @eq_comm _ _ f]

/-- The frames of one call, received by a client with a session in use. -/
theorem Shows.call (hs : Stores rs globals body buf Q) {sessions : SessionTable}
    {frames : List ScreenFrame} {range : ℕ × ℕ} {ms : List Mem}
    (hsent : ChunkSent mem body sessions frames range) (hview : Viewing rs sessions)
    (hfit : range.1+range.2 ≤ size) (hrecv : CallReceived globals frames ms)
    (h : Shows globals mem buf Q i active cov seen c) :
    Shows globals mem buf Q i active (fun j => cov j ∨ range.1 ≤ j ∧ j < range.1+range.2) True
      (receiveAll rs c ms) := by
  obtain ⟨payloadLen,offset,count,rfl,hoff,hcount,hlen,-⟩ := hsent
  have hf : ∀ f ∈ sendToSessions sessions payloadLen (body offset count) (screenSlice mem range),
      f.payloadLen = payloadLen ∧ f.body = body offset count ∧ f.data = screenSlice mem range := by
    intro f hfm
    obtain ⟨s,-,-,rfl⟩ := mem_sendToSessions.mp hfm
    exact ⟨rfl,rfl,rfl⟩
  obtain ⟨sendBuffer,harr⟩ := hrecv
  have hwire := sendScreens_onWire globals (by rw [length_screenSlice, hlen]) hf sendBuffer harr
  have hmine : ∃ f ∈ sendToSessions sessions payloadLen (body offset count)
      (screenSlice mem range), f.For rs := by
    obtain ⟨s,hmem,huse,hmac,hid⟩ := hview
    exact ⟨_,mem_sendToSessions.mpr ⟨s,hmem,huse,rfl⟩,hmac,hid⟩
  have hshow := h.frames hs hoff hcount hfit (fun f hfm => ?_) hwire
  · obtain ⟨rh,hrh,hq,hall⟩ := hshow.shown
    refine ⟨hshow.known,hshow.active,rh,hrh,fun _ => hq (.inr hmine),fun j hj => hall j ?_⟩
    exact hj.imp_right fun hin => ⟨hmine,hin⟩
  · obtain ⟨hp,hb,hd⟩ := hf f hfm
    refine ⟨?_,hb,hd⟩
    rw [ScreenFrame.Sized, hp, hb, hd, length_screenSlice, hlen]

/-- After the calls of a sweep the client shows all its ranges. -/
theorem Shows.sweep (hs : Stores rs globals body buf Q) {calls : List (SessionTable × UInt32)}
    {out : List (List ScreenFrame)} {ranges : List (ℕ × ℕ)} {mss : List (List Mem)}
    (hsent : SweepSent mem body calls out ranges)
    (hview : ∀ call ∈ calls, Viewing rs (pruneSessions call.2 call.1))
    (hfit : ∀ r ∈ ranges, r.1+r.2 ≤ size) (hrecv : List.Forall₂ (CallReceived globals) out mss)
    (h : Shows globals mem buf Q i active cov seen c) :
    Shows globals mem buf Q i active (fun j => cov j ∨ ∃ r ∈ ranges, r.1 ≤ j ∧ j < r.1+r.2)
      (seen ∨ ranges ≠ []) (receiveAll rs c mss.flatten) := by
  induction hsent generalizing c cov seen mss with
  | nil =>
    cases hrecv
    simpa [receiveAll] using h
  | rest _ ih =>
    obtain ⟨ms,mss,⟨sendBuffer,harr⟩,hrest,rfl⟩ := List.forall₂_cons_left_iff.mp hrecv
    cases harr
    rw [List.flatten_cons, List.nil_append]
    exact ih (fun call hc => hview call (List.mem_cons_of_mem _ hc)) hfit hrest h
  | @chunk sessions now calls frames out range ranges hchunk _ ih =>
    obtain ⟨ms,mss,hcall,hrest,rfl⟩ := List.forall₂_cons_left_iff.mp hrecv
    have hone := h.call hs hchunk (hview _ List.mem_cons_self) (hfit _ List.mem_cons_self) hcall
    have hall := ih (fun call hc => hview call (List.mem_cons_of_mem _ hc))
      (fun r hr => hfit r (List.mem_cons_of_mem _ hr)) hrest hone
    obtain ⟨rh,hrh,hq,hshown⟩ := hall.shown
    rw [List.flatten_cons, receiveAll, List.foldl_append, ← receiveAll, ← receiveAll]
    refine ⟨hall.known,hall.active,rh,hrh,fun _ => hq (.inl trivial),fun j hj => hshown j ?_⟩
    simpa [or_assoc] using hj

/-- A client that knows the server shows nothing of its screen at first. -/
theorem shows_nothing (hi : hostlistFindByMac globals.macAddr.toList c.hosts = some i) :
    Shows globals mem buf Q i c.activeHost (fun _ => False) False c := by
  have hany := List.find?_some hi
  obtain ⟨rh,hrh,-⟩ := (Option.any_eq_true ..).mp hany
  exact ⟨hi,rfl,rh,hrh,False.elim,fun _ h => h.elim⟩

/-! The updates of a sweep. -/

/-- The next update of a sweep over `total` units sends up to `step` units from the cursor on,
and the updates after the last unit send nothing. -/
structure SweepRule (mem : FrameBuffer) (video : VideoState) (body : UInt16 → UInt16 → ScreenBody)
    (unit total step : ℕ) (Going : ℕ → SessionMgr → Prop) (Done : SessionMgr → Prop) : Prop where
  unit_pos : 0 < unit
  step_pos : 0 < step
  more : ∀ n m, Going n m → n < total
  start : ∀ n m sessions, Going n m → Going n { m with sessions := sessions }
  stay : ∀ m sessions, Done m → Done { m with sessions := sessions }
  go : ∀ n m now, (pruneSessions now m.sessions).any Session.inUse → Going n m →
    ChunkSent mem body (pruneSessions now m.sessions) (sessionMgrUpdateAll mem video now m).1
        (n*unit,min step (total-n)*unit) ∧
      if n+min step (total-n) < total then
        Going (n+min step (total-n)) (sessionMgrUpdateAll mem video now m).2
      else Done (sessionMgrUpdateAll mem video now m).2
  rest : ∀ m now, (pruneSessions now m.sessions).any Session.inUse → Done m →
    (sessionMgrUpdateAll mem video now m).1 = [] ∧ Done (sessionMgrUpdateAll mem video now m).2

namespace SweepRule
variable {video : VideoState} {unit total step n : ℕ} {Going : ℕ → SessionMgr → Prop}
  {Done : SessionMgr → Prop} {m : SessionMgr} {calls : List (SessionTable × UInt32)}

theorem done (hr : SweepRule mem video body unit total step Going Done)
    (hlive : ∀ call ∈ calls, (pruneSessions call.2 call.1).any Session.inUse) (h : Done m) :
    SweepSent mem body calls (screenUpdates mem video calls m) [] := by
  induction calls generalizing m with
  | nil => exact .nil
  | cons call calls ih =>
    obtain ⟨sessions,now⟩ := call
    obtain ⟨hnone,hnext⟩ := hr.rest _ now (hlive _ List.mem_cons_self) (hr.stay m sessions h)
    rw [screenUpdates, hnone]
    exact .rest (ih (fun call hc => hlive call (List.mem_cons_of_mem _ hc)) hnext)

/-- From unit `n` on the updates tile the rest of the screen. -/
theorem tiles (hr : SweepRule mem video body unit total step Going Done)
    (hlive : ∀ call ∈ calls, (pruneSessions call.2 call.1).any Session.inUse) (h : Going n m)
    (hlen : total-n ≤ step*calls.length) :
    ∃ ranges, SweepSent mem body calls (screenUpdates mem video calls m) ranges ∧
      Tiles unit (n*unit) (total*unit) ranges ∧ ranges.length = (total-n+step-1)/step := by
  induction calls generalizing m n with
  | nil =>
    have := hr.more n m h
    simp only [List.length_nil, Nat.mul_zero] at hlen
    omega
  | cons call calls ih =>
    obtain ⟨sessions,now⟩ := call
    have hpos := hr.step_pos
    have hmore := hr.more n m h
    obtain ⟨hchunk,hnext⟩ :=
      hr.go n _ now (hlive _ List.mem_cons_self) (hr.start n m sessions h)
    have htail := fun call hc => hlive call (List.mem_cons_of_mem _ hc)
    obtain ⟨k,hk⟩ : ∃ k, k = min step (total-n) := ⟨_,rfl⟩
    rw [← hk] at hchunk hnext
    have hku : 0 < k*unit := Nat.mul_pos (by omega) hr.unit_pos
    have hsum : n*unit+k*unit = (n+k)*unit := (Nat.add_mul ..).symm
    rw [screenUpdates]
    split at hnext
    next hgo =>
      have hks : k = step := by omega
      have hrest : total-(n+k) ≤ step*calls.length := by
        rw [List.length_cons, Nat.mul_succ] at hlen
        omega
      obtain ⟨ranges,hsent,htiles,hcount⟩ := ih htail hnext hrest
      refine ⟨_,.chunk hchunk hsent,.cons hku (Nat.dvd_mul_left ..) (hsum ▸ htiles),?_⟩
      have hsplit : total-n+step-1 = total-(n+k)+step-1+step := by omega
      rw [List.length_cons, hcount, hsplit, Nat.add_div_right _ hpos]
    next hend =>
      -- the last units were sent
      have heq : n+k = total := by omega
      refine ⟨[(n*unit,k*unit)],.chunk hchunk (hr.done htail hnext),
        .cons hku (Nat.dvd_mul_left ..) ?_,?_⟩
      · rw [hsum, heq]
        exact .nil _
      · rw [List.length_singleton]
        refine (Nat.div_eq_of_lt_le ?_ ?_).symm <;> omega

/-- Updates that suffice for the sweep tile the whole screen. -/
theorem tiles_all (hr : SweepRule mem video body unit total step Going Done)
    (hlive : ∀ call ∈ calls, (pruneSessions call.2 call.1).any Session.inUse) (h : Going 0 m)
    (hlen : (total+step-1)/step ≤ calls.length) :
    ∃ ranges, SweepSent mem body calls (screenUpdates mem video calls m) ranges ∧
      Tiles unit 0 (total*unit) ranges ∧ ranges.length = (total+step-1)/step := by
  have hpos := hr.step_pos
  have hcalls : total-0 ≤ step*calls.length := by
    have hle := Nat.mul_le_mul_left step hlen
    have hceil := Nat.lt_mul_div_succ (total+step-1) hpos
    rw [Nat.mul_add, Nat.mul_one] at hceil
    omega
  have := hr.tiles hlive h hcalls
  rwa [Nat.zero_mul, Nat.sub_zero] at this

end SweepRule

/-! A server with one client, and the buffers that the client gets. -/

def oneServer : PktdrvGlobals := ⟨nullIfAddr,0⟩

def viewerSocket : RawSocket := ⟨Vector.replicate 6 1,5⟩

def viewerClient : Client := ⟨hostsWith (hostCreate nullIfAddr),some 0,none⟩

theorem viewerClient_known :
    hostlistFindByMac oneServer.macAddr.toList viewerClient.hosts = some 0 := by
  have h0 : viewerClient.hosts[(0 : Fin 16)] = some (hostCreate nullIfAddr) := rfl
  rw [hostlistFindByMac, List.finRange_succ, List.find?_cons_of_pos]
  simp [h0, hostCreate, oneServer]

def oneViewer : SessionTable := (sessionMgrStart (Vector.replicate 6 1) 5 0 sessionMgrInit).2

theorem prune_oneViewer : (pruneSessions 0 oneViewer)[0] = ⟨0,5,Vector.replicate 6 1,0⟩ := by
  simp only [pruneSessions, Vector.getElem_map]
  decide

theorem oneViewer_live : (pruneSessions 0 oneViewer).any Session.inUse = true := by
  refine Vector.any_eq_true.mpr ⟨0,by decide,?_⟩
  rw [prune_oneViewer]
  decide

theorem oneViewer_viewing : Viewing viewerSocket (pruneSessions 0 oneViewer) :=
  ⟨_,prune_oneViewer ▸ Vector.mem_toList_iff.mpr (Vector.getElem_mem _),by decide,rfl,rfl⟩

/-- The buffers with the frames of the calls, blank behind each frame. -/
def received (globals : PktdrvGlobals) (out : List (List ScreenFrame)) : List (List Mem) :=
  out.map fun frames => (runSends (sendScreens globals frames) fun _ => 0).1.map fun bs j =>
    bs.getD j 0

theorem received_calls (globals : PktdrvGlobals) (out : List (List ScreenFrame)) :
    List.Forall₂ (CallReceived globals) out (received globals out) := by
  refine List.forall₂_map_right_iff.mpr (List.forall₂_same.mpr fun frames _ => ⟨fun _ => 0,?_⟩)
  exact List.forall₂_map_right_iff.mpr (List.forall₂_same.mpr fun bs _ => arrived_getD bs)

end RmtDos
