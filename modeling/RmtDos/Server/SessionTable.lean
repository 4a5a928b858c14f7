import RmtDos.Lib.Runs
import RmtDos.Server.Session

/-! The session table over a whole run. A free slot is found by a null address together with a
null id, a slot in use by its address alone; the two agree as long as no client with a null
address and another id gets a slot. -/
namespace RmtDos
open Runs

/-- A `V1_SESSION_START` packet, or a timer tick that updates the screens. -/
inductive SessionEvent
  | start (macAddr : MacAddr) (sessionId now : UInt32)
  | update (mem : FrameBuffer) (video : VideoState) (now : UInt32)

def SessionStep (m : SessionMgr) : SessionEvent → SessionMgr → Prop
  | .start macAddr sessionId now, m' =>
    m' = { m with sessions := (sessionMgrStart macAddr sessionId now m.sessions).2 }
  | .update mem video now, m' => m' = (sessionMgrUpdateAll mem video now m).2

/-- Every slot is free for `session_mgr_start` or in use for the pruning loop. -/
def NoSlotLost (t : SessionTable) : Prop :=
  ∀ i : Fin 4, ((t.slot i).macAddr = nullIfAddr ∧ (t.slot i).sessionId = 0) ∨ (t.slot i).macAddr ≠ nullIfAddr

/-- No client has two sessions. -/
def DistinctSessions (t : SessionTable) : Prop :=
  ∀ i j : Fin 4, (t.slot i).macAddr ≠ nullIfAddr → (t.slot i).macAddr = (t.slot j).macAddr →
    (t.slot i).sessionId = (t.slot j).sessionId → i = j

/-- `session_mgr_start` fails only in a full table, and leaves the sessions of others alone. -/
def StartSound (t : SessionTable) : Prop :=
  ∀ macAddr sessionId now,
    ((sessionMgrStart macAddr sessionId now t).1 = none → ∀ i : Fin 4, (t.slot i).inUse) ∧
      ∀ i : Fin 4, (t.slot i).inUse → ¬ ((t.slot i).macAddr = macAddr ∧ (t.slot i).sessionId = sessionId) →
        (sessionMgrStart macAddr sessionId now t).2.slot i = t.slot i

def TableSound (m : SessionMgr) : Prop :=
  NoSlotLost m.sessions ∧ DistinctSessions m.sessions ∧ StartSound m.sessions

/-- No packet with a null address and an id finds a free slot. -/
def ProperAddress (m : SessionMgr) : SessionEvent → Prop
  | .start macAddr sessionId _ =>
    macAddr = nullIfAddr → sessionId ≠ 0 → ∀ i : Fin 4, (m.sessions.slot i).inUse
  | .update .. => True

variable {t : SessionTable} {macAddr : MacAddr} {sessionId now : UInt32} {i j : Fin 4}

theorem find_some (h : sessionMgrFind macAddr sessionId t = some i) :
    (t.slot i).macAddr = macAddr ∧ (t.slot i).sessionId = sessionId := by
  simpa using List.find?_some h

theorem find_none (h : sessionMgrFind macAddr sessionId t = none) (i : Fin 4) :
    ¬ ((t.slot i).macAddr = macAddr ∧ (t.slot i).sessionId = sessionId) := by
  have := List.find?_eq_none.mp h i (List.mem_finRange i)
  simpa using this

/-- What `session_mgr_start` does: it refreshes the client's slot, or takes a free one for the
client, or finds none. -/
theorem start_cases (macAddr : MacAddr) (sessionId now : UInt32) (t : SessionTable) :
    (∃ i : Fin 4, sessionMgrStart macAddr sessionId now t = (some i,t.put i (sessionTouch now (t.slot i))) ∧
      (t.slot i).macAddr = macAddr ∧ (t.slot i).sessionId = sessionId) ∨
    ((∀ i : Fin 4, ¬ ((t.slot i).macAddr = macAddr ∧ (t.slot i).sessionId = sessionId)) ∧
      ((∃ i : Fin 4, sessionMgrStart macAddr sessionId now t = (some i,t.put i (sessionTouch now
          { (t.slot i) with macAddr := macAddr, sessionId := sessionId })) ∧
        (t.slot i).macAddr = nullIfAddr ∧ (t.slot i).sessionId = 0) ∨
      (sessionMgrStart macAddr sessionId now t = (none,t) ∧
        ∀ i : Fin 4, ¬ ((t.slot i).macAddr = nullIfAddr ∧ (t.slot i).sessionId = 0)))) := by
  unfold sessionMgrStart
  split
  next i hi => exact .inl ⟨i,rfl,find_some hi⟩
  next hnone =>
    refine .inr ⟨find_none hnone,?_⟩
    split
    next hfree => exact .inr ⟨rfl,find_none hfree⟩
    next i hi => exact .inl ⟨i,rfl,find_some hi⟩

theorem inUse_iff {s : Session} : s.inUse = true ↔ s.macAddr ≠ nullIfAddr := by
  simp [Session.inUse]

theorem slot_prune (now : UInt32) (t : SessionTable) (i : Fin 4) :
    (pruneSessions now t).slot i = t.slot i ∨ (pruneSessions now t).slot i = Session.zero := by
  simp only [pruneSessions, Fin.getElem_fin, Vector.getElem_map]
  split
  · exact .inr rfl
  · exact .inl rfl

theorem startSound (hn : NoSlotLost t) : StartSound t := by
  intro macAddr sessionId now
  obtain ⟨k,hs,hk⟩ | ⟨-,⟨k,hs,hk⟩ | ⟨hs,hfull⟩⟩ := start_cases macAddr sessionId now t
  · refine ⟨by simp [hs],fun i _ hne => ?_⟩
    have hik : k ≠ i := by
      rintro rfl
      exact hne hk
    rw [hs, Vector.slot_put, if_neg hik]
  · refine ⟨by simp [hs],fun i hi _ => ?_⟩
    have hik : k ≠ i := by
      rintro rfl
      exact inUse_iff.mp hi hk.1
    rw [hs, Vector.slot_put, if_neg hik]
  · refine ⟨fun _ i => inUse_iff.mpr ?_,fun i _ _ => by rw [hs]⟩
    exact (hn i).resolve_left (hfull i)

theorem noSlotLost_start (hn : NoSlotLost t)
    (hp : macAddr = nullIfAddr → sessionId ≠ 0 → ∀ i : Fin 4, (t.slot i).inUse) :
    NoSlotLost (sessionMgrStart macAddr sessionId now t).2 := by
  intro i
  obtain ⟨k,hs,hk⟩ | ⟨-,⟨k,hs,hk⟩ | ⟨hs,-⟩⟩ := start_cases macAddr sessionId now t
  · rw [hs, Vector.slot_put]
    split
    next => exact hn k
    next => exact hn i
  · rw [hs, Vector.slot_put]
    split
    next =>
      -- the slot was free, so the packet is not one that loses it
      by_cases hm : macAddr = nullIfAddr
      · have hid : sessionId = 0 := by
          by_contra hid
          exact inUse_iff.mp (hp hm hid k) hk.1
        exact .inl ⟨hm,hid⟩
      · exact .inr hm
    next => exact hn i
  · rw [hs]
    exact hn i

theorem distinct_start (hd : DistinctSessions t) :
    DistinctSessions (sessionMgrStart macAddr sessionId now t).2 := by
  intro i j
  obtain ⟨k,hs,hk⟩ | ⟨hno,⟨k,hs,hk⟩ | ⟨hs,-⟩⟩ := start_cases macAddr sessionId now t
  · rw [hs, Vector.slot_put, Vector.slot_put]
    have hkeep (l : Fin 4) : (if k = l then sessionTouch now (t.slot k) else t.slot l).macAddr = (t.slot l).macAddr ∧
        (if k = l then sessionTouch now (t.slot k) else t.slot l).sessionId = (t.slot l).sessionId := by
      split
      next h =>
        rw [h]
        exact ⟨rfl,rfl⟩
      next => exact ⟨rfl,rfl⟩
    rw [(hkeep i).1, (hkeep i).2, (hkeep j).1, (hkeep j).2]
    exact hd i j
  · rw [hs, Vector.slot_put, Vector.slot_put]
    by_cases hi : k = i <;> by_cases hj : k = j
    · exact fun _ _ _ => hi.symm.trans hj
    · rw [if_pos hi, if_neg hj]
      exact fun _ hm hid => absurd ⟨hm.symm,hid.symm⟩ (hno j)
    · rw [if_neg hi, if_pos hj]
      exact fun _ hm hid => absurd ⟨hm,hid⟩ (hno i)
    · rw [if_neg hi, if_neg hj]
      exact hd i j
  · rw [hs]
    exact hd i j

/-- A packet with a null address and an id takes a free slot out of both searches. -/
theorem slotLost_start (hn : NoSlotLost t) (hm : macAddr = nullIfAddr) (hid : sessionId ≠ 0)
    (hfree : ¬ (t.slot i).inUse = true) : ¬ NoSlotLost (sessionMgrStart macAddr sessionId now t).2 := by
  have hi : (t.slot i).macAddr = nullIfAddr := by
    simpa [inUse_iff] using hfree
  obtain ⟨k,hs,hk⟩ | ⟨-,⟨k,hs,hk⟩ | ⟨hs,hfull⟩⟩ := start_cases macAddr sessionId now t
  · obtain ⟨-,h0⟩ | h := hn k
    · exact absurd (hk.2.symm.trans h0) hid
    · exact absurd (hk.1.trans hm) h
  · intro hn'
    have hk' := hn' k
    rw [hs, Vector.slot_put, if_pos rfl] at hk'
    obtain ⟨-,h0⟩ | h := hk'
    · exact hid h0
    · exact h hm
  · obtain h | h := hn i
    · exact absurd h (hfull i)
    · exact absurd hi h

theorem noSlotLost_prune (hn : NoSlotLost t) : NoSlotLost (pruneSessions now t) := by
  intro i
  obtain h | h := slot_prune now t i
  · rw [h]
    exact hn i
  · exact .inl (by simp [h, Session.zero])

theorem distinct_prune (hd : DistinctSessions t) : DistinctSessions (pruneSessions now t) := by
  intro i j hm hij hid
  have hj := hij ▸ hm
  obtain h | h := slot_prune now t i
  swap
  · exact absurd (by simp [h, Session.zero]) hm
  obtain h' | h' := slot_prune now t j
  swap
  · exact absurd (by simp [h', Session.zero]) hj
  rw [h] at hm hij hid
  rw [h'] at hij hid
  exact hd i j hm hij hid

theorem sendCgaChunk_sessions (mem : FrameBuffer) (video : VideoState) (m : SessionMgr) :
    (sendCgaChunk mem video m).2.sessions = m.sessions := by
  rw [sendCgaChunk]

theorem sendTextChunk_sessions (mem : FrameBuffer) (video : VideoState) (m : SessionMgr) :
    (sendTextChunk mem video m).2.sessions = m.sessions := by
  rw [sendTextChunk]

theorem sendCga_sessions (mem : FrameBuffer) (video : VideoState) (m : SessionMgr) :
    (sessionMgrSendCgaGraphics mem video m).2.sessions = m.sessions := by
  unfold sessionMgrSendCgaGraphics
  extract_lets m'
  have hm : m'.sessions = m.sessions := by
    simp only [m', apply_ite SessionMgr.sessions, ite_self]
  split_ifs
  · exact hm
  · exact (sendCgaChunk_sessions ..).trans hm
  · exact (sendCgaChunk_sessions ..).trans hm

theorem sendText_sessions (mem : FrameBuffer) (video : VideoState) (m : SessionMgr) :
    (sessionMgrSendText mem video m).2.sessions = m.sessions := by
  unfold sessionMgrSendText
  extract_lets m'
  have hm : m'.sessions = m.sessions := by
    simp only [m', apply_ite SessionMgr.sessions, ite_self]
  split_ifs
  · exact hm
  · exact (sendTextChunk_sessions ..).trans hm
  · exact (sendTextChunk_sessions ..).trans hm

/-- The screen update changes the table by pruning it only. -/
theorem updateAll_sessions (mem : FrameBuffer) (video : VideoState) (now : UInt32) (m : SessionMgr) :
    (sessionMgrUpdateAll mem video now m).2.sessions = pruneSessions now m.sessions := by
  unfold sessionMgrUpdateAll
  dsimp only
  split_ifs
  · rw [sendCga_sessions]
  · rw [sendText_sessions]
  · rfl

theorem tableSound_iff {m : SessionMgr} :
    TableSound m ↔ NoSlotLost m.sessions ∧ DistinctSessions m.sessions :=
  ⟨fun h => ⟨h.1,h.2.1⟩,fun h => ⟨h.1,h.2,startSound h.1⟩⟩

/-- The table is sound in every state of a run exactly if no client with a null address and an
id ever meets a free slot. -/
theorem tableSound_iff_properAddress {tr : List (SessionEvent × SessionMgr)}
    (h : Run SessionStep SessionMgr.init tr) :
    (∀ x ∈ tr, TableSound x.2) ↔ Along ProperAddress SessionMgr.init tr := by
  refine h.exact TableSound TableSound ?_ (fun _ hI => hI) ?_ ?_
  · intro m e m' hI ho hs
    rw [tableSound_iff] at hI ⊢
    cases e with
    | start macAddr sessionId now =>
      obtain rfl := hs
      exact ⟨noSlotLost_start hI.1 ho,distinct_start hI.2⟩
    | update mem video now =>
      obtain rfl := hs
      rw [updateAll_sessions]
      exact ⟨noSlotLost_prune hI.1,distinct_prune hI.2⟩
  · intro m e m' hI hs hI'
    cases e with
    | start macAddr sessionId now =>
      obtain rfl := hs
      intro hm hid i
      by_contra hfree
      exact slotLost_start hI.1 hm hid hfree hI'.1
    | update => trivial
  · have hz (i : Fin 4) : SessionMgr.init.sessions.slot i = Session.zero := by
      simp [SessionMgr.init, sessionMgrInit]
    refine tableSound_iff.mpr ⟨fun i => ?_,fun i j hm => ?_⟩
    · exact .inl (by simp [hz i, Session.zero])
    · exact absurd (by simp [hz i, Session.zero]) hm

/-! A client with an address, and one without. -/

def startedAt (macAddr : MacAddr) : List (SessionEvent × SessionMgr) :=
  [(.start macAddr 5 0,{ SessionMgr.init with
    sessions := (sessionMgrStart macAddr 5 0 sessionMgrInit).2 })]

def twoClients : SessionTable :=
  (sessionMgrStart (Vector.replicate 6 2) 6 100
    (sessionMgrStart (Vector.replicate 6 1) 5 0 sessionMgrInit).2).2

/-- Two clients start, and the update that prunes the silent one leaves the other its slot. -/
theorem tableSound_iff_twoClients : ∃ tr : List (SessionEvent × SessionMgr),
    (∀ x ∈ tr, TableSound x.2) ∧
      (final SessionMgr.init tr).sessions.slot 0 = Session.zero ∧
      (final SessionMgr.init tr).sessions.slot 1 = ⟨100,6,Vector.replicate 6 2,0⟩ := by
  have hstart (m : SessionMgr) (k : UInt8) (sessionId now : UInt32) :
      SessionStep m (.start (Vector.replicate 6 k) sessionId now) { m with
        sessions := (sessionMgrStart (Vector.replicate 6 k) sessionId now m.sessions).2 } := rfl
  have hupdate (m : SessionMgr) : SessionStep m (.update (fun _ => 0) ⟨3,0,25,80,0,0⟩ 200)
      (sessionMgrUpdateAll (fun _ => 0) ⟨3,0,25,80,0,0⟩ 200 m).2 := rfl
  have hrun : ∃ tr, Run SessionStep SessionMgr.init tr ∧ Along ProperAddress SessionMgr.init tr ∧
      (final SessionMgr.init tr).sessions = pruneSessions 200 twoClients :=
    ⟨_,.cons (hstart _ 1 5 0) (.cons (hstart _ 2 6 100) (.cons (hupdate _) (.nil _))),
      ⟨fun h => absurd h (by decide),fun h => absurd h (by decide),trivial,trivial⟩,
      updateAll_sessions ..⟩
  obtain ⟨tr,hrun,halong,hfinal⟩ := hrun
  refine ⟨tr,(tableSound_iff_properAddress hrun).mpr halong,?_,?_⟩
  · rw [hfinal]
    simp only [pruneSessions, Fin.getElem_fin, Vector.getElem_map]
    decide
  · rw [hfinal]
    simp only [pruneSessions, Fin.getElem_fin, Vector.getElem_map]
    decide

/-- The slot of a client with a null address is neither free nor in use. -/
theorem slotLost_nullAddress :
    Run SessionStep SessionMgr.init (startedAt nullIfAddr) ∧
      ¬ ∀ x ∈ startedAt nullIfAddr, TableSound x.2 := by
  refine ⟨.cons rfl (.nil _),fun h => ?_⟩
  have hlost := (h _ List.mem_cons_self).1 0
  revert hlost
  decide

end RmtDos
