import RmtDos.Lib.Runs
import RmtDos.Server.Bufmgr

/-! The order in which received frames are dispatched. The packet driver fills buffers from its
interrupt and `protocol_process` empties the ready list from the timer interrupt; the two
interleave at every call of the buffer manager. The ready list is a stack, so the order of
arrival survives exactly when no call finds two frames ready. -/
namespace RmtDos
open Runs

/-- Where the timer interrupt stands in the loop of `protocol_process`. -/
inductive ProcessPhase (n : ℕ)
  | away
  | polling
  | handling (buffer : Fin n)

/-- The buffer manager with its two users, and the calls made so far. -/
structure Reception (n : ℕ) where
  pool : Bufmgr n
  driver : List (Fin n)
  phase : ProcessPhase n
  marked : List (Fin n)
  dispatched : List (Fin n)

/-- A call of the buffer manager, the driver writing a frame, or a timer tick. -/
inductive RecvEvent (n : ℕ)
  | acquire (bytes : UInt16)
  | store (i : Fin n) (data : Vector UInt8 1504)
  | markReady (i : Fin n)
  | tick
  | getReady
  | release

variable {n : ℕ}

/-- The driver uses only buffers it holds, and `protocol_process` asks for the next buffer until
there is none, releasing each buffer before it asks again. -/
def Reception.step (s : Reception n) : RecvEvent n → Option (Reception n)
  | .acquire bytes =>
    some { s with
      pool := (bufferAcquire bytes s.pool).2
      driver := (bufferAcquire bytes s.pool).1.toList ++ s.driver }
  | .store i data =>
    if i ∈ s.driver then some { s with pool := bufferStore i data s.pool } else none
  | .markReady i =>
    if i ∈ s.driver then
      some { s with
        pool := bufferMarkReady i s.pool, driver := s.driver.erase i, marked := s.marked ++ [i] }
    else none
  | .tick =>
    match s.phase with
    | .away => some { s with phase := .polling }
    | _ => none
  | .getReady =>
    match s.phase with
    | .polling =>
      match bufferGetReady s.pool with
      | (some i,pool) =>
        some { s with pool := pool, phase := .handling i, dispatched := s.dispatched ++ [i] }
      | (none,_) => some { s with phase := .away }
    | _ => none
  | .release =>
    match s.phase with
    | .handling i => some { s with pool := bufferRelease i s.pool, phase := .polling }
    | _ => none

def RecvStep (s : Reception n) (e : RecvEvent n) (s' : Reception n) : Prop := s.step e = some s'

/-- No frame has arrived yet. -/
def Reception.init (count : ℕ) [NeZero count] : Reception count :=
  ⟨bufferInit count,[],.away,[],[]⟩

/-- The buffers dispatched so far are the first ones marked ready, in the same order, and all
of them once the ready list is empty. -/
def InOrder (s : Reception n) : Prop :=
  s.dispatched <+: s.marked ∧ (s.pool.readyList = none → s.dispatched = s.marked)

/-- No call for the next buffer finds two buffers ready. -/
def OneReady (s : Reception n) : RecvEvent n → Prop
  | .getReady => ∀ i, s.pool.readyList = some i → (s.pool.buffers i).next = none
  | _ => True

def ProcessPhase.held : ProcessPhase n → List (Fin n)
  | .handling i => [i]
  | _ => []

/-- The pool is partitioned, and the ready list holds what is marked and not dispatched. -/
structure ReceptionInv (s : Reception n) (free ready : List (Fin n)) : Prop where
  pool : Pool s.pool ⟨free,ready,s.driver,s.phase.held⟩
  order : s.marked = s.dispatched ++ ready.reverse

variable {s s' : Reception n} {free ready : List (Fin n)} {e : RecvEvent n}

theorem ReceptionInv.inOrder (h : ReceptionInv s free ready) : InOrder s := by
  refine ⟨h.order ▸ List.prefix_append _ _,fun hr => ?_⟩
  obtain rfl : ready = [] := (LinkedList.Linked.head_eq_none h.pool.readyChain).mp hr
  simpa using h.order.symm

theorem receptionInv_acquire (h : ReceptionInv s free ready) {bytes : UInt16}
    (hs : RecvStep s (.acquire bytes) s') : ∃ free', ReceptionInv s' free' ready := by
  cases hs
  by_cases hb : bufferMaxSize < bytes.toNat
  · have hn := bufferAcquire_none h.pool (.inr hb)
    exact ⟨free,by simpa [hn] using h.pool,h.order⟩
  · cases free with
    | nil =>
      have hn : bufferAcquire bytes s.pool = (none,s.pool) := bufferAcquire_none h.pool (.inl rfl)
      exact ⟨[],by simpa [hn] using h.pool,h.order⟩
    | cons i t =>
      obtain ⟨hi,hp⟩ := bufferAcquire_some h.pool rfl hb
      exact ⟨t,by simpa [hi] using hp,h.order⟩

/-- What a call for the next buffer does in the loop. -/
theorem getReady_cases (h : ReceptionInv s free ready) (hs : RecvStep s .getReady s') :
    (ready = [] ∧ ReceptionInv s' free []) ∨
      ∃ i t, ready = i :: t ∧ s'.dispatched = s.dispatched ++ [i] ∧ s'.marked = s.marked ∧
        Pool s'.pool ⟨free,t,s'.driver,s'.phase.held⟩ := by
  have hp := h.pool
  cases hph : s.phase with
  | away => simp [RecvStep, Reception.step, hph] at hs
  | handling i => simp [RecvStep, Reception.step, hph] at hs
  | polling =>
    rw [hph] at hp
    cases ready with
    | nil =>
      simp only [RecvStep, Reception.step, hph, bufferGetReady_none hp rfl] at hs
      cases hs
      exact .inl ⟨rfl,hp,h.order⟩
    | cons i t =>
      obtain ⟨hi,hp'⟩ := bufferGetReady_some hp rfl
      have hg : bufferGetReady s.pool = (some i,(bufferGetReady s.pool).2) := Prod.ext hi rfl
      rw [RecvStep, Reception.step, hph, hg] at hs
      cases hs
      exact .inr ⟨i,t,rfl,rfl,rfl,hp'⟩

theorem oneReady_getReady (h : ReceptionInv s free ready) :
    OneReady s .getReady ↔ ready.length ≤ 1 := by
  have hc := h.pool.readyChain
  cases ready with
  | nil => simp [OneReady, show s.pool.readyList = none from hc]
  | cons i t =>
    obtain ⟨hi,ht⟩ := hc
    have hn := LinkedList.Linked.head_eq_none ht
    simp only [OneReady, hi, Option.some.injEq, forall_eq', List.length_cons]
    rw [hn, ← List.length_eq_zero_iff]
    omega

theorem receptionInv_step (h : ReceptionInv s free ready) (ho : OneReady s e)
    (hs : RecvStep s e s') : ∃ free' ready', ReceptionInv s' free' ready' := by
  cases e with
  | acquire bytes =>
    obtain ⟨free',h'⟩ := receptionInv_acquire h hs
    exact ⟨free',ready,h'⟩
  | store i data =>
    obtain ⟨hi,hs⟩ := Option.ite_none_right_eq_some.mp hs
    cases hs
    exact ⟨free,ready,pool_store h.pool hi data,h.order⟩
  | markReady i =>
    obtain ⟨hi,hs⟩ := Option.ite_none_right_eq_some.mp hs
    cases hs
    exact ⟨free,i::ready,pool_markReady h.pool hi,by simp [h.order]⟩
  | tick =>
    have hp := h.pool
    cases hph : s.phase <;> simp only [RecvStep, Reception.step, hph] at hs <;> cases hs
    rw [hph] at hp
    exact ⟨free,ready,hp,h.order⟩
  | getReady =>
    rcases getReady_cases h hs with ⟨rfl,h'⟩ | ⟨i,t,rfl,hd,hm,hp⟩
    · exact ⟨free,[],h'⟩
    · have ht := (oneReady_getReady h).mp ho
      obtain rfl : t = [] := List.length_eq_zero_iff.mp (by simpa using ht)
      exact ⟨free,[],hp,by simp [hd, hm, h.order]⟩
  | release =>
    have hp := h.pool
    cases hph : s.phase with
    | away => simp [RecvStep, Reception.step, hph] at hs
    | polling => simp [RecvStep, Reception.step, hph] at hs
    | handling i =>
      simp only [RecvStep, Reception.step, hph] at hs
      cases hs
      rw [hph] at hp
      have hp' := pool_release hp (List.mem_singleton_self i)
      exact ⟨i::free,ready,by simpa [ProcessPhase.held] using hp',h.order⟩

/-- With two buffers ready, the call returns the one that was marked last. -/
theorem oneReady_of_inOrder (h : ReceptionInv s free ready) (hs : RecvStep s e s')
    (hg : InOrder s') : OneReady s e := by
  cases e with
  | getReady =>
    rw [oneReady_getReady h]
    rcases getReady_cases h hs with ⟨rfl,-⟩ | ⟨i,t,rfl,hd,hm,-⟩
    · simp
    · have hpre := hg.1
      rw [hd, hm, h.order, List.prefix_append_right_inj, List.reverse_cons] at hpre
      have hit : i ∉ t := by
        have hn := h.pool.nodup
        simp only [Holders.all, List.nodup_append, List.nodup_cons] at hn
        exact hn.1.1.2.1.1
      cases hr : t.reverse with
      | nil => simp [List.reverse_eq_nil_iff.mp hr]
      | cons j u =>
        rw [hr] at hpre
        obtain ⟨v,hv⟩ := hpre
        have hj : i = j := by simpa using congrArg List.head? hv
        have : j ∈ t := List.mem_reverse.mp (hr ▸ List.mem_cons_self)
        exact absurd (hj ▸ this) hit
  | _ => trivial

/-- Frames are dispatched in the order of their arrival throughout a run exactly if no call for
the next buffer finds two buffers ready. -/
theorem dispatch_inOrder_iff (count : ℕ) [NeZero count]
    {tr : List (RecvEvent count × Reception count)}
    (h : Run RecvStep (Reception.init count) tr) :
    (∀ x ∈ tr, InOrder x.2) ↔ Along OneReady (Reception.init count) tr := by
  refine h.exact (fun s => ∃ free ready, ReceptionInv s free ready) InOrder ?_ ?_ ?_ ?_
  · rintro s e s' ⟨free,ready,hI⟩ ho hs
    exact receptionInv_step hI ho hs
  · rintro s ⟨free,ready,hI⟩
    exact hI.inOrder
  · rintro s e s' ⟨free,ready,hI⟩ hs hg
    exact oneReady_of_inOrder hI hs hg
  · exact ⟨_,_,pool_init count,rfl⟩

/-! Two frames dispatched by two ticks, and two frames that arrive before the same one. -/

/-- Each event with the state it leads to; the trace ends at the first event not possible. -/
def Reception.trace (s : Reception n) : List (RecvEvent n) → List (RecvEvent n × Reception n)
  | [] => []
  | e::es =>
    match s.step e with
    | some s' => (e,s') :: s'.trace es
    | none => []

theorem Reception.trace_run (es : List (RecvEvent n)) : Run RecvStep s (s.trace es) := by
  induction es generalizing s with
  | nil => exact .nil s
  | cons e es ih =>
    rw [Reception.trace]
    split
    · rename_i s' hs
      exact .cons hs ih
    · exact .nil s

/-- The second frame comes while the first is handled, and is ready before the second tick. -/
def twoTicks : List (RecvEvent 2) :=
  [.acquire 60,.markReady 0,.tick,.getReady,.acquire 60,.release,.getReady,.markReady 1,.tick,
    .getReady,.release,.getReady]

def twoFrames : List (RecvEvent 2) :=
  [.acquire 60,.markReady 0,.acquire 60,.markReady 1,.tick,.getReady]

theorem dispatch_inOrder_iff_twoTicks :
    (final (Reception.init 2) ((Reception.init 2).trace twoTicks)).marked = [0,1] ∧
      (final (Reception.init 2) ((Reception.init 2).trace twoTicks)).dispatched = [0,1] ∧
      ∀ x ∈ (Reception.init 2).trace twoTicks, InOrder x.2 := by
  have hone : Along OneReady (Reception.init 2) ((Reception.init 2).trace twoTicks) := by
    refine ⟨trivial,trivial,trivial,fun i hi => ?_,trivial,trivial,fun i hi => ?_,trivial,trivial,
      fun i hi => ?_,trivial,fun i hi => ?_,trivial⟩
    · cases hi
      rfl
    · cases hi
    · cases hi
      rfl
    · cases hi
  exact ⟨by decide,by decide,(dispatch_inOrder_iff 2 (Reception.trace_run twoTicks)).mpr hone⟩

/-- The second of two frames is dispatched first. -/
theorem twoFrames_reversed :
    Run RecvStep (Reception.init 2) ((Reception.init 2).trace twoFrames) ∧
      (final (Reception.init 2) ((Reception.init 2).trace twoFrames)).marked = [0,1] ∧
      (final (Reception.init 2) ((Reception.init 2).trace twoFrames)).dispatched = [1] ∧
      ¬ ∀ x ∈ (Reception.init 2).trace twoFrames, InOrder x.2 := by
  have hm : (final (Reception.init 2) ((Reception.init 2).trace twoFrames)).marked = [0,1] := by
    decide
  have hd : (final (Reception.init 2) ((Reception.init 2).trace twoFrames)).dispatched = [1] := by
    decide
  refine ⟨Reception.trace_run twoFrames,hm,hd,fun h => ?_⟩
  have hne : (Reception.init 2).trace twoFrames ≠ [] := by simp [twoFrames, Reception.trace, Reception.step]
  obtain ⟨x,hx,hf⟩ := @final_mem _ _ (Reception.init 2) _ hne
  have hpre := (h x hx).1
  rw [hf, hm, hd] at hpre
  revert hpre
  decide

end RmtDos
