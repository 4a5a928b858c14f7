import RmtDos.Server.SessionTable

/-! The clock of the session table: the tick count of the BIOS returns to 0 at midnight, and the
test for a stale session compares two readings of it. -/
namespace RmtDos
open Runs

/-- The tick count runs up to `0x1800AF`. -/
def biosTicksPerDay : ℕ := 0x1800b0

/-- The table at a time, counted in ticks since some midnight, with the time of the last refresh of
each slot. -/
structure ClockedTable where
  mgr : SessionMgr
  time : ℕ
  refreshed : Fin 4 → ℕ

/-- `x86_read_bios_tick_clock`. -/
def biosTickClock (time : ℕ) : UInt32 := UInt32.ofNat (time % biosTicksPerDay)

def ClockedTable.init (time : ℕ) : ClockedTable := ⟨SessionMgr.init,time,fun _ => time⟩

/-- A timer interrupt counts, a client refreshes its session, or the screens are updated. -/
inductive ClockEvent
  | tick
  | start (macAddr : MacAddr) (sessionId : UInt32)
  | update (mem : FrameBuffer) (video : VideoState)

def clockStep (s : ClockedTable) : ClockEvent → ClockedTable
  | .tick => { s with time := s.time+1 }
  | .start macAddr sessionId =>
    let r := sessionMgrStart macAddr sessionId (biosTickClock s.time) s.mgr.sessions
    { s with
      mgr := { s.mgr with sessions := r.2 }
      refreshed := fun i => if r.1 = some i then s.time else s.refreshed i }
  | .update mem video =>
    { s with mgr := (sessionMgrUpdateAll mem video (biosTickClock s.time) s.mgr).2 }

def ClockStep (s : ClockedTable) (e : ClockEvent) (s' : ClockedTable) : Prop := s' = clockStep s e

/-- The ticks since the last refresh of a slot. -/
def ClockedTable.age (s : ClockedTable) (i : Fin 4) : ℕ := s.time-s.refreshed i

/-- The midnights since then. -/
def ClockedTable.midnights (s : ClockedTable) (i : Fin 4) : ℕ :=
  s.time/biosTicksPerDay-s.refreshed i/biosTicksPerDay

/-- An update frees the stale sessions and keeps the live ones. -/
def PrunesRightly (s : ClockedTable) (e : ClockEvent) : Prop :=
  ∀ mem video, e = .update mem video → ∀ i : Fin 4, (s.mgr.sessions.slot i).inUse →
    (sessionLifetimeBiosTicks.toNat < s.age i →
        (clockStep s e).mgr.sessions.slot i = Session.zero) ∧
      (s.age i ≤ sessionLifetimeBiosTicks.toNat →
        (clockStep s e).mgr.sessions.slot i = s.mgr.sessions.slot i)

/-- No session at an update is past its lifetime by less than the midnights since its refresh put
the clock back. -/
def ClockAhead (s : ClockedTable) (e : ClockEvent) : Prop :=
  ∀ mem video, e = .update mem video → ∀ i : Fin 4, (s.mgr.sessions.slot i).inUse →
    s.age i ≤ sessionLifetimeBiosTicks.toNat ∨
      sessionLifetimeBiosTicks.toNat+biosTicksPerDay*s.midnights i < s.age i

/-- The clock of each slot is the reading at its last refresh. -/
def ReadAtRefresh (s : ClockedTable) : Prop :=
  ∀ i : Fin 4, s.refreshed i ≤ s.time ∧
    ((s.mgr.sessions.slot i).inUse → (s.mgr.sessions.slot i).tLastRecv = biosTickClock (s.refreshed i))

variable {s : ClockedTable} {time refreshed : ℕ} {i : Fin 4}

theorem toNat_biosTickClock (time : ℕ) : (biosTickClock time).toNat = time%biosTicksPerDay := by
  have h := Nat.mod_lt time (by decide : 0 < biosTicksPerDay)
  rw [biosTickClock, UInt32.toNat_ofNat']
  exact Nat.mod_eq_of_lt (h.trans (by decide))

/-- The test in terms of the age: the clock lost a day at each midnight. -/
theorem mod_test_iff {period lifetime : ℕ} (hle : refreshed ≤ time) :
    refreshed%period+lifetime < time%period ↔
      lifetime+period*(time/period-refreshed/period) < time-refreshed := by
  have hr := Nat.div_add_mod refreshed period
  have ht := Nat.div_add_mod time period
  have hdays : refreshed/period ≤ time/period := Nat.div_le_div_right hle
  rw [Nat.mul_sub]
  have hmul := Nat.mul_le_mul_left period hdays
  omega

theorem stale_iff {slot : Session} (hread : slot.tLastRecv = biosTickClock refreshed)
    (hle : refreshed ≤ time) :
    slot.stale (biosTickClock time) = true ↔
      sessionLifetimeBiosTicks.toNat+
        biosTicksPerDay*(time/biosTicksPerDay-refreshed/biosTicksPerDay) < time-refreshed := by
  have hr := Nat.mod_lt refreshed (by decide : 0 < biosTicksPerDay)
  have hday : biosTicksPerDay = 1573040 := rfl
  have hlife : sessionLifetimeBiosTicks.toNat = 182 := rfl
  have hsum : (biosTickClock refreshed+sessionLifetimeBiosTicks).toNat =
      refreshed%biosTicksPerDay+sessionLifetimeBiosTicks.toNat := by
    rw [UInt32.toNat_add, toNat_biosTickClock]
    omega
  rw [← mod_test_iff hle, Session.stale, hread, decide_eq_true_iff, UInt32.lt_iff_toNat_lt, hsum,
    toNat_biosTickClock]

theorem pruned_slot (now : UInt32) (t : SessionTable) (h : (t.slot i).inUse) :
    (pruneSessions now t).slot i = if (t.slot i).stale now then Session.zero else (t.slot i) := by
  have hin : t[i.val].inUse = true := h
  simp only [pruneSessions, Fin.getElem_fin, Vector.getElem_map, hin, true_and]
  rfl

theorem tLastRecv_touch {now : UInt32} {slot : Session} :
    (sessionTouch now slot).tLastRecv = now := rfl

/-- A refresh writes the clock of its slot and leaves the other slots alone. -/
theorem start_slot (macAddr : MacAddr) (sessionId now : UInt32) (t : SessionTable) (i : Fin 4) :
    ((sessionMgrStart macAddr sessionId now t).1 = some i →
      ((sessionMgrStart macAddr sessionId now t).2.slot i).tLastRecv = now) ∧
    ((sessionMgrStart macAddr sessionId now t).1 ≠ some i →
      (sessionMgrStart macAddr sessionId now t).2.slot i = t.slot i) := by
  obtain ⟨k,hs,-⟩ | ⟨-,⟨k,hs,-⟩ | ⟨hs,-⟩⟩ := start_cases macAddr sessionId now t
  · rw [hs, Vector.slot_put]
    by_cases hk : k = i <;> simp [hk, tLastRecv_touch]
  · rw [hs, Vector.slot_put]
    by_cases hk : k = i <;> simp [hk, tLastRecv_touch]
  · simp [hs]

theorem readAtRefresh_init (time : ℕ) : ReadAtRefresh (.init time) := by
  intro i
  refine ⟨le_rfl,fun hin => absurd hin ?_⟩
  simp [ClockedTable.init, SessionMgr.init, sessionMgrInit, Session.zero, Session.inUse]

theorem readAtRefresh_later (h : ReadAtRefresh s) (n : ℕ) :
    ReadAtRefresh { s with time := s.time+n } :=
  fun i => ⟨(h i).1.trans (Nat.le_add_right s.time n),(h i).2⟩

/-- The readings stay right over every step. -/
theorem readAtRefresh_step {e : ClockEvent} (h : ReadAtRefresh s) : ReadAtRefresh (clockStep s e) := by
  cases e with
  | tick => exact readAtRefresh_later h 1
  | start macAddr sessionId =>
    intro i
    obtain ⟨hle,hread⟩ := h i
    have hslot := start_slot macAddr sessionId (biosTickClock s.time) s.mgr.sessions i
    simp only [clockStep]
    split_ifs with hi
    · exact ⟨le_rfl,fun _ => hslot.1 hi⟩
    · rw [hslot.2 hi]
      exact ⟨hle,hread⟩
  | update mem video =>
    intro i
    obtain ⟨hle,hread⟩ := h i
    refine ⟨hle,?_⟩
    simp only [clockStep, updateAll_sessions]
    obtain hkept | hfreed := slot_prune (biosTickClock s.time) s.mgr.sessions i
    · rw [hkept]
      exact hread
    · rw [hfreed]
      exact fun h => absurd h (by decide)

theorem inUse_ne_zero {slot : Session} (h : slot.inUse) : slot ≠ Session.zero := by
  rintro rfl
  exact absurd h (by decide)

/-- At one step, with right readings. -/
theorem prunesRightly_iff {e : ClockEvent} (h : ReadAtRefresh s) :
    PrunesRightly s e ↔ ClockAhead s e := by
  refine forall₃_congr fun mem video he => forall₂_congr fun i hin => ?_
  subst he
  obtain ⟨hle,hread⟩ := h i
  have hstale := stale_iff (hread hin) hle
  have hzero := inUse_ne_zero hin
  simp only [clockStep, updateAll_sessions, pruned_slot _ _ hin]
  change _ ↔ sessionLifetimeBiosTicks.toNat+biosTicksPerDay*s.midnights i < s.age i at hstale
  split_ifs with hs
  · have hlate := hstale.mp hs
    constructor
    · exact fun _ => .inr hlate
    · exact fun _ => ⟨fun _ => rfl,fun hyoung => by omega⟩
  · have hnot := fun h => hs (hstale.mpr h)
    constructor
    · rintro ⟨hfreed,-⟩
      exact .inl (Nat.not_lt.mp fun hold => hzero (hfreed hold))
    · rintro (hyoung | hlate)
      · exact ⟨fun hold => absurd hyoung (Nat.not_le.mpr hold),fun _ => rfl⟩
      · exact absurd hlate hnot

/-- In every run from every start tick, the updates free the stale sessions and keep the live ones
exactly if no session is past its lifetime by less than the clock lost at midnight. -/
theorem prunesRightly_iff_clockAhead (time : ℕ) {tr : List (ClockEvent × ClockedTable)}
    (h : Run ClockStep (.init time) tr) :
    Along PrunesRightly (.init time) tr ↔ Along ClockAhead (.init time) tr := by
  refine h.along_iff ReadAtRefresh ?_ (fun _ _ => prunesRightly_iff) ?_
  · rintro s e _ hI rfl
    exact readAtRefresh_step hI
  · exact readAtRefresh_init time

/-! A client that starts a session before midnight and falls silent. -/

def blankScreen : FrameBuffer := fun _ => 0
def textScreen : VideoState := ⟨3,0,25,80,0,0⟩

/-- The timer interrupts of a while. -/
def ticks : ℕ → ClockedTable → List (ClockEvent × ClockedTable)
  | 0, _ => []
  | n+1, s => (.tick,clockStep s .tick) :: ticks n (clockStep s .tick)

/-- A session starts, and the screens are updated after `n` ticks. -/
def silentClient (time n : ℕ) : List (ClockEvent × ClockedTable) :=
  let started := clockStep (.init time) (.start (Vector.replicate 6 1) 5)
  let later := { started with time := time+n }
  (.start (Vector.replicate 6 1) 5,started) :: (ticks n started ++
    [(.update blankScreen textScreen,clockStep later (.update blankScreen textScreen))])

theorem run_ticks (n : ℕ) (s : ClockedTable) : Run ClockStep s (ticks n s) := by
  induction n generalizing s with
  | zero => exact .nil s
  | succ n ih => exact .cons rfl (ih _)

theorem final_ticks (n : ℕ) (s : ClockedTable) :
    final s (ticks n s) = { s with time := s.time+n } := by
  induction n generalizing s with
  | zero => rfl
  | succ n ih =>
    rw [ticks, final, ih]
    simp only [clockStep, Nat.add_assoc, Nat.add_comm 1 n]

theorem run_silentClient (time n : ℕ) : Run ClockStep (.init time) (silentClient time n) := by
  refine .cons rfl ((run_ticks n _).append ?_)
  rw [final_ticks]
  exact .cons rfl (.nil _)

theorem prunesRightly_silentClient :
    Along PrunesRightly (.init 0) (silentClient 0 200) ↔
      Along ClockAhead (.init 0) (silentClient 0 200) :=
  prunesRightly_iff_clockAhead 0 (run_silentClient 0 200)

theorem along_append {ok : ClockedTable → ClockEvent → Prop} {s : ClockedTable}
    {tr tr' : List (ClockEvent × ClockedTable)} (h : Along ok s (tr ++ tr')) :
    Along ok (final s tr) tr' := by
  induction tr generalizing s with
  | nil => exact h
  | cons x tr ih => exact ih h.2

/-- The session of 100 ticks before midnight is still there 183 ticks after it. -/
theorem silentClient_kept :
    Run ClockStep (.init (biosTicksPerDay-100)) (silentClient (biosTicksPerDay-100) 283) ∧
      ¬ Along PrunesRightly (.init (biosTicksPerDay-100)) (silentClient (biosTicksPerDay-100) 283) := by
  refine ⟨run_silentClient _ _,fun h => ?_⟩
  have hlast := (along_append h.2).1
  rw [final_ticks] at hlast
  have hstarted := readAtRefresh_step (e := .start (Vector.replicate 6 1) 5)
    (readAtRefresh_init (biosTicksPerDay-100))
  have hread := readAtRefresh_later hstarted 283
  have hahead := (prunesRightly_iff hread).mp hlast blankScreen textScreen rfl 0 (by decide)
  revert hahead
  decide

end RmtDos
