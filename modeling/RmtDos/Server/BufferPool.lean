import RmtDos.Lib.Runs
import RmtDos.Server.Bufmgr

/-! The buffer pool under any use that keeps the contract of the buffer manager: the driver
marks buffers it has acquired, the consumer releases buffers it was given. The calls come in any
order. -/
namespace RmtDos
open Runs LinkedList

/-- The manager, and the buffers its two users hold. -/
structure PoolUse (n : ℕ) where
  pool : Bufmgr n
  driver : List (Fin n)
  user : List (Fin n)

inductive PoolEvent (n : ℕ)
  | acquire (bytes : UInt16)
  | store (i : Fin n) (data : Vector UInt8 1504)
  | markReady (i : Fin n)
  | getReady
  | release (i : Fin n)

variable {n : ℕ}

inductive PoolStep (s : PoolUse n) : PoolEvent n → PoolUse n → Prop
  | acquire (bytes : UInt16) : PoolStep s (.acquire bytes)
      { s with
        pool := (bufferAcquire bytes s.pool).2
        driver := (bufferAcquire bytes s.pool).1.toList ++ s.driver }
  | store (i : Fin n) (data : Vector UInt8 1504) (hi : i ∈ s.driver) :
      PoolStep s (.store i data) { s with pool := bufferStore i data s.pool }
  | markReady (i : Fin n) (hi : i ∈ s.driver) : PoolStep s (.markReady i)
      { s with pool := bufferMarkReady i s.pool, driver := s.driver.erase i }
  | getReady : PoolStep s .getReady
      { s with
        pool := (bufferGetReady s.pool).2
        user := (bufferGetReady s.pool).1.toList ++ s.user }
  | release (i : Fin n) (hi : i ∈ s.user) : PoolStep s (.release i)
      { s with pool := bufferRelease i s.pool, user := s.user.erase i }

def PoolUse.init (count : ℕ) [NeZero count] : PoolUse count := ⟨bufferInit count,[],[]⟩

/-- The state a holder gives its buffers. -/
def Holders.stateOf (h : Holders n) (i : Fin n) : BufferState :=
  if i ∈ h.free then .free else if i ∈ h.ready then .ready
  else if i ∈ h.driver then .pending else .user

/-- Both lists run to the null link without meeting a buffer twice, every buffer is in one place
and its state names the place. -/
structure Partitioned (s : PoolUse n) (free ready : List (Fin n)) : Prop where
  freeList : Linked (fun i => (s.pool.buffers i).next) s.pool.freeList free
  readyList : Linked (fun i => (s.pool.buffers i).next) s.pool.readyList ready
  acyclic : free.Nodup ∧ ready.Nodup
  once : ∀ i, (free ++ ready ++ s.driver ++ s.user).count i = 1
  state : ∀ i, (s.pool.buffers i).state = (⟨free,ready,s.driver,s.user⟩ : Holders n).stateOf i

/-- What the driver gets when it asks for a buffer. -/
structure AcquireSound (s : PoolUse n) (free ready : List (Fin n)) (bytes : UInt16) : Prop where
  null : (bufferAcquire bytes s.pool).1 = none ↔ free = [] ∨ bufferMaxSize < bytes.toNat
  fresh : ∀ i, (bufferAcquire bytes s.pool).1 = some i →
    i ∈ free ∧ i ∉ ready ∧ i ∉ s.driver ∧ i ∉ s.user ∧
      ((bufferAcquire bytes s.pool).2.buffers i).data = Buffer.zeroData

def PoolIntegrity (s : PoolUse n) : Prop :=
  ∃ free ready, Partitioned s free ready ∧ ∀ bytes, AcquireSound s free ready bytes

variable {s s' : PoolUse n} {free ready : List (Fin n)} {e : PoolEvent n}

/-- A buffer in one of the places is in none of the others. -/
theorem Pool.disjoint {m : Bufmgr n} {h : Holders n} (hp : Pool m h) :
    (∀ i ∈ h.free, i ∉ h.ready ∧ i ∉ h.driver ∧ i ∉ h.user) ∧
      (∀ i ∈ h.ready, i ∉ h.free ∧ i ∉ h.driver ∧ i ∉ h.user) ∧
      ∀ i ∈ h.driver, i ∉ h.free ∧ i ∉ h.ready ∧ i ∉ h.user := by
  have hn := hp.nodup
  simp only [Holders.all, List.nodup_append, List.mem_append] at hn
  obtain ⟨⟨⟨-,-,hfr⟩,-,hfrd⟩,-,hall⟩ := hn
  refine ⟨fun i hi => ⟨fun h => hfr i hi i h rfl,fun h => hfrd i (.inl hi) i h rfl,
    fun h => hall i (.inl (.inl hi)) i h rfl⟩,fun i hi => ⟨fun h => hfr i h i hi rfl,
    fun h => hfrd i (.inr hi) i h rfl,fun h => hall i (.inl (.inr hi)) i h rfl⟩,fun i hi =>
    ⟨fun h => hfrd i (.inl h) i hi rfl,fun h => hfrd i (.inr h) i hi rfl,
    fun h => hall i (.inr hi) i h rfl⟩⟩

theorem stateOf_pool {m : Bufmgr n} {h : Holders n} (hp : Pool m h) (i : Fin n) :
    (m.buffers i).state = h.stateOf i := by
  obtain ⟨hf,hr,hd⟩ := hp.disjoint
  have hall : i ∈ h.free ∨ i ∈ h.ready ∨ i ∈ h.driver ∨ i ∈ h.user := by
    simpa [Holders.all, or_assoc] using hp.mem_all i
  unfold Holders.stateOf
  by_cases h₁ : i ∈ h.free
  · rw [if_pos h₁]
    exact (hp.free i h₁).1
  rw [if_neg h₁]
  by_cases h₂ : i ∈ h.ready
  · rw [if_pos h₂]
    exact hp.ready i h₂
  rw [if_neg h₂]
  by_cases h₃ : i ∈ h.driver
  · rw [if_pos h₃]
    exact hp.driver i h₃
  · rw [if_neg h₃]
    exact hp.user i (by tauto)

theorem partitioned_of_pool (hp : Pool s.pool ⟨free,ready,s.driver,s.user⟩) :
    Partitioned s free ready := by
  have hn := hp.nodup
  refine ⟨hp.freeChain,hp.readyChain,⟨?_,?_⟩,fun i => ?_,stateOf_pool hp⟩
  · exact hn.of_append_left.of_append_left.of_append_left
  · exact hn.of_append_left.of_append_left.of_append_right
  · exact List.count_eq_one_of_mem hn (hp.mem_all i)

theorem acquireSound_of_pool (hp : Pool s.pool ⟨free,ready,s.driver,s.user⟩) (bytes : UInt16) :
    AcquireSound s free ready bytes := by
  by_cases hnull : free = [] ∨ bufferMaxSize < bytes.toNat
  · have hnone := bufferAcquire_none hp hnull
    exact ⟨by simp [hnone, hnull],by simp [hnone]⟩
  obtain ⟨hf,hb⟩ := not_or.mp hnull
  obtain ⟨j,t,rfl⟩ := List.exists_cons_of_ne_nil hf
  obtain ⟨hj,hp'⟩ := bufferAcquire_some hp rfl hb
  refine ⟨by simpa [hj] using hb,fun i hi => ?_⟩
  obtain rfl : j = i := Option.some.inj (hj.symm.trans hi)
  obtain ⟨hr,hd,hu⟩ := hp.disjoint.1 j List.mem_cons_self
  refine ⟨List.mem_cons_self,hr,hd,hu,?_⟩
  -- the buffer is taken off the free list with the bytes it had there
  rw [data_acquire]
  exact (hp.free j List.mem_cons_self).2

theorem pool_step (hp : Pool s.pool ⟨free,ready,s.driver,s.user⟩) (hs : PoolStep s e s') :
    ∃ free' ready', Pool s'.pool ⟨free',ready',s'.driver,s'.user⟩ := by
  cases hs with
  | acquire bytes =>
    by_cases hnull : free = [] ∨ bufferMaxSize < bytes.toNat
    · exact ⟨free,ready,by simpa [bufferAcquire_none hp hnull] using hp⟩
    · obtain ⟨hf,hb⟩ := not_or.mp hnull
      obtain ⟨j,t,rfl⟩ := List.exists_cons_of_ne_nil hf
      obtain ⟨hj,hp'⟩ := bufferAcquire_some hp rfl hb
      exact ⟨t,ready,by simpa [hj] using hp'⟩
  | store i data hi => exact ⟨free,ready,pool_store hp hi data⟩
  | markReady i hi => exact ⟨free,i :: ready,pool_markReady hp hi⟩
  | getReady =>
    cases ready with
    | nil => exact ⟨free,[],by simpa [bufferGetReady_none hp rfl] using hp⟩
    | cons i t =>
      obtain ⟨hi,hp'⟩ := bufferGetReady_some hp rfl
      exact ⟨free,t,by simpa [hi] using hp'⟩
  | release i hi => exact ⟨i :: free,ready,pool_release hp hi⟩

/-- In every state that calls of the buffer manager lead to, the pool is intact. -/
theorem poolIntegrity_run (count : ℕ) [NeZero count] {tr : List (PoolEvent count × PoolUse count)}
    (h : Run PoolStep (PoolUse.init count) tr) : PoolIntegrity (final (PoolUse.init count) tr) := by
  obtain ⟨free,ready,hp⟩ := h.final_invariant
    (fun s => ∃ free ready, Pool s.pool ⟨free,ready,s.driver,s.user⟩)
    (fun _ _ _ ⟨_,_,hp⟩ hs => pool_step hp hs) ⟨_,_,pool_init count⟩
  exact ⟨free,ready,partitioned_of_pool hp,acquireSound_of_pool hp⟩

/-- Both buffers are taken. The first goes through the ready list and the user back to the free list,
while the driver fills the second. -/
theorem poolIntegrity_twoBuffers : ∃ s : PoolUse 2, s.driver = [1] ∧ s.pool.freeList = some 0 ∧
    s.pool.readyList = none ∧ PoolIntegrity s := by
  have hrun : ∃ tr, Run PoolStep (PoolUse.init 2) tr ∧ (final (PoolUse.init 2) tr).driver = [1] ∧
      (final (PoolUse.init 2) tr).pool.freeList = some 0 ∧
      (final (PoolUse.init 2) tr).pool.readyList = none := by
    refine ⟨_,.cons (.acquire 60) (.cons (.store 0 (Vector.replicate 1504 1) ?_)
      (.cons (.markReady 0 ?_) (.cons (.acquire 60) (.cons .getReady
      (.cons (.store 1 (Vector.replicate 1504 2) ?_) (.cons (.release 0 ?_) (.nil _))))))),
      ?_,?_,?_⟩
    · decide
    · decide
    · decide
    · decide
    · decide
    · decide
    · decide
  obtain ⟨tr,hrun,hdriver,hfree,hready⟩ := hrun
  exact ⟨_,hdriver,hfree,hready,poolIntegrity_run 2 hrun⟩

end RmtDos
