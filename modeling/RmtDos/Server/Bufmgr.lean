import Mathlib.Algebra.GroupWithZero.Nat
import Mathlib.Data.List.FinRange
import RmtDos.Lib.Linked

/-! The receive buffers of the TSR: a table whose buffers are threaded onto a free list and a
ready list. A pointer into the table is an index. -/
namespace RmtDos
open LinkedList

def bufferMaxSize : ℕ := 1504

/-- `enum BufferState`. -/
inductive BufferState
  | free | pending | ready | user
  deriving DecidableEq, Repr

/-- `struct Buffer` of a table of `n` buffers. -/
structure Buffer (n : ℕ) where
  state : BufferState
  bytes : UInt16
  next : Option (Fin n)
  data : Vector UInt8 1504

def Buffer.zeroData : Vector UInt8 1504 := Vector.replicate 1504 0

/-- The globals of the buffer manager. -/
structure Bufmgr (n : ℕ) where
  buffers : Fin n → Buffer n
  freeList : Option (Fin n)
  readyList : Option (Fin n)

variable {n : ℕ}

/-- Whether a list has the buffer. -/
instance decidableMem (i : Fin n) (l : List (Fin n)) : Decidable (i ∈ l) :=
  List.instDecidableMemOfLawfulBEq i l

/-- Assign one buffer of the table. -/
def Bufmgr.set (m : Bufmgr n) (i : Fin n) (b : Buffer n) : Bufmgr n :=
  { m with buffers := Function.update m.buffers i b }

/-- The table links every buffer to its successor and starts the free list at the first. -/
def bufferInit (count : ℕ) [NeZero count] : Bufmgr count where
  buffers i := ⟨.free,0,if h : i+1 < count then some ⟨i+1,h⟩ else none,Buffer.zeroData⟩
  freeList := some 0
  readyList := none

def bufferAcquire (bytes : UInt16) (m : Bufmgr n) : Option (Fin n) × Bufmgr n :=
  match m.freeList with
  | none => (none,m)
  | some node =>
    if bufferMaxSize < bytes.toNat then (none,m) else
      let b := m.buffers node
      (some node,
        { m.set node { b with bytes := bytes, state := .pending, next := none } with
          freeList := b.next })

def bufferMarkReady (i : Fin n) (m : Bufmgr n) : Bufmgr n :=
  { m.set i { m.buffers i with state := .ready, next := m.readyList } with readyList := some i }

def bufferGetReady (m : Bufmgr n) : Option (Fin n) × Bufmgr n :=
  match m.readyList with
  | none => (none,m)
  | some node =>
    let b := m.buffers node
    (some node,{ m.set node { b with state := .user, next := none } with readyList := b.next })

def bufferRelease (i : Fin n) (m : Bufmgr n) : Bufmgr n :=
  { m.set i { m.buffers i with
      state := .free, bytes := 0, next := m.freeList, data := Buffer.zeroData } with
    freeList := some i }

/-- The packet driver copies a frame into a buffer it holds. -/
def bufferStore (i : Fin n) (data : Vector UInt8 1504) (m : Bufmgr n) : Bufmgr n :=
  m.set i { m.buffers i with data := data }

/-- The four places a buffer can be in, and the two lists in the order of their links. -/
structure Holders (n : ℕ) where
  free : List (Fin n)
  ready : List (Fin n)
  driver : List (Fin n)
  user : List (Fin n)

def Holders.all (h : Holders n) : List (Fin n) := h.free ++ h.ready ++ h.driver ++ h.user

/-- The links of a table, from a head, visit exactly `l`. -/
def Links (buffers : Fin n → Buffer n) (head : Option (Fin n)) (l : List (Fin n)) : Prop :=
  Linked (fun i => (buffers i).next) head l

/-- Every buffer listed has the property. -/
def AllAt (P : Buffer n → Prop) (buffers : Fin n → Buffer n) (l : List (Fin n)) : Prop :=
  ∀ i ∈ l, P (buffers i)

/-- The pool is partitioned: every buffer is in one place, and its state names the place. -/
structure Pool (m : Bufmgr n) (h : Holders n) : Prop where
  freeChain : Links m.buffers m.freeList h.free
  readyChain : Links m.buffers m.readyList h.ready
  parts : h.all.Perm (List.finRange n)
  free : AllAt (fun b => b.state = .free ∧ b.data = Buffer.zeroData) m.buffers h.free
  ready : AllAt (fun b => b.state = .ready) m.buffers h.ready
  driver : AllAt (fun b => b.state = .pending) m.buffers h.driver
  user : AllAt (fun b => b.state = .user) m.buffers h.user

section Update
variable {f : Fin n → Buffer n} {i : Fin n} {b : Buffer n} {l : List (Fin n)}
  {head : Option (Fin n)} {P : Buffer n → Prop}

/-- Assigning a buffer off a list leaves the list linked as it was. -/
theorem Links.update (h : Links f head l) (hi : i ∉ l) : Links (Function.update f i b) head l := by
  refine Linked.congr h fun j hj => ?_
  rw [Function.update_of_ne (ne_of_mem_of_not_mem hj hi)]

theorem Links.push (h : Links f head l) (hi : i ∉ l) (hb : b.next = head) :
    Links (Function.update f i b) (some i) (i :: l) := by
  refine ⟨rfl,?_⟩
  have hn : (fun j => (Function.update f i b j).next) i = head := by simp [hb]
  rw [hn]
  exact h.update hi

theorem AllAt.update (h : AllAt P f l) (hi : i ∉ l) : AllAt P (Function.update f i b) l := by
  intro j hj
  rw [Function.update_of_ne (ne_of_mem_of_not_mem hj hi)]
  exact h j hj

theorem AllAt.push (h : AllAt P f l) (hi : i ∉ l) (hb : P b) :
    AllAt P (Function.update f i b) (i :: l) :=
  List.forall_mem_cons.mpr ⟨by rwa [Function.update_self],h.update hi⟩

theorem AllAt.mono {l' : List (Fin n)} (h : AllAt P f l) (hl : ∀ j ∈ l', j ∈ l) : AllAt P f l' :=
  fun j hj => h j (hl j hj)

end Update

/-! Each operation moves one buffer between two of the places. -/

variable {m : Bufmgr n} {h o : Holders n} {i : Fin n} {t : List (Fin n)}

theorem Pool.nodup (hp : Pool m h) : h.all.Nodup :=
  hp.parts.nodup_iff.mpr (List.nodup_finRange n)

theorem Pool.mem_all (hp : Pool m h) (i : Fin n) : i ∈ h.all :=
  hp.parts.mem_iff.mpr (List.mem_finRange i)

/-- Taken out of its place, a buffer is in no other place. -/
theorem Pool.not_mem (hp : Pool m h) (ho : h.all.Perm (i :: o.all)) :
    i ∉ o.free ∧ i ∉ o.ready ∧ i ∉ o.driver ∧ i ∉ o.user := by
  have hn : i ∉ o.all := (List.nodup_cons.mp (ho.nodup_iff.mp hp.nodup)).1
  simpa [Holders.all, and_assoc] using hn

theorem Holders.perm_ready (hr : h.ready = i :: t) :
    h.all.Perm (i :: ({ h with ready := t } : Holders n).all) := by
  simp only [Holders.all, hr, List.perm_iff_count, List.count_append, List.count_cons]
  intro a
  omega

theorem Holders.perm_driver (hi : i ∈ h.driver) :
    h.all.Perm (i :: ({ h with driver := h.driver.erase i } : Holders n).all) := by
  simp only [Holders.all, List.perm_iff_count, List.count_append, List.count_cons]
  intro a
  have := (List.perm_cons_erase hi).count_eq a
  simp only [List.count_cons] at this
  omega

theorem Holders.perm_user (hi : i ∈ h.user) :
    h.all.Perm (i :: ({ h with user := h.user.erase i } : Holders n).all) := by
  simp only [Holders.all, List.perm_iff_count, List.count_append, List.count_cons]
  intro a
  have := (List.perm_cons_erase hi).count_eq a
  simp only [List.count_cons] at this
  omega

theorem bufferAcquire_none {bytes : UInt16} (hp : Pool m h)
    (hr : h.free = [] ∨ bufferMaxSize < bytes.toNat) : bufferAcquire bytes m = (none,m) := by
  rw [bufferAcquire]
  split
  · rfl
  · rename_i node hm
    rcases hr with hf | hb
    · have hc := hp.freeChain
      rw [hf, hm] at hc
      cases hc
    · rw [if_pos hb]

theorem bufferAcquire_some {bytes : UInt16} (hp : Pool m h) (hf : h.free = i :: t)
    (hb : ¬ bufferMaxSize < bytes.toNat) :
    (bufferAcquire bytes m).1 = some i ∧
      Pool (bufferAcquire bytes m).2 { h with free := t, driver := i :: h.driver } := by
  have hc := hp.freeChain
  rw [hf] at hc
  simp only [bufferAcquire, hc.1, if_neg hb, true_and]
  have ho : h.all.Perm (i :: ({ h with free := t } : Holders n).all) := by simp [Holders.all, hf]
  obtain ⟨hif,hir,hid,hiu⟩ := hp.not_mem ho
  constructor
  · exact Links.update hc.2 hif
  · exact hp.readyChain.update hir
  · refine List.Perm.trans ?_ (ho.symm.trans hp.parts)
    simp only [Holders.all, List.perm_iff_count, List.count_append, List.count_cons]
    intro a
    omega
  · exact (hp.free.mono fun j hj => hf ▸ List.mem_cons_of_mem _ hj).update hif
  · exact hp.ready.update hir
  · exact hp.driver.push hid rfl
  · exact hp.user.update hiu

/-- A buffer that was acquired is the first of the free list. -/
theorem pool_acquire {m' : Bufmgr n} {bytes : UInt16} (hp : Pool m h)
    (ha : bufferAcquire bytes m = (some i,m')) :
    ∃ t, h.free = i :: t ∧ Pool m' { h with free := t, driver := i :: h.driver } := by
  by_cases hnull : h.free = [] ∨ bufferMaxSize < bytes.toNat
  · rw [bufferAcquire_none hp hnull] at ha
    cases ha
  · obtain ⟨hf,hb⟩ := not_or.mp hnull
    obtain ⟨j,t,hfree⟩ := List.exists_cons_of_ne_nil hf
    obtain ⟨hj,hp'⟩ := bufferAcquire_some hp hfree hb
    rw [ha] at hj hp'
    cases hj
    exact ⟨t,hfree,hp'⟩

theorem pool_markReady (hp : Pool m h) (hi : i ∈ h.driver) :
    Pool (bufferMarkReady i m) { h with ready := i :: h.ready, driver := h.driver.erase i } := by
  have ho := h.perm_driver hi
  obtain ⟨hif,hir,hid,hiu⟩ := hp.not_mem ho
  constructor
  · exact hp.freeChain.update hif
  · exact hp.readyChain.push hir rfl
  · refine List.Perm.trans ?_ (ho.symm.trans hp.parts)
    simp only [Holders.all, List.perm_iff_count, List.count_append, List.count_cons]
    intro a
    omega
  · exact hp.free.update hif
  · exact hp.ready.push hir rfl
  · exact (hp.driver.mono fun j hj => List.mem_of_mem_erase hj).update hid
  · exact hp.user.update hiu

theorem bufferGetReady_none (hp : Pool m h) (hr : h.ready = []) :
    bufferGetReady m = (none,m) := by
  have hc := hp.readyChain
  rw [hr] at hc
  simp [bufferGetReady, linked_nil.mp hc]

theorem bufferGetReady_some (hp : Pool m h) (hr : h.ready = i :: t) :
    (bufferGetReady m).1 = some i ∧
      Pool (bufferGetReady m).2 { h with ready := t, user := i :: h.user } := by
  have hc := hp.readyChain
  rw [hr] at hc
  simp only [bufferGetReady, hc.1, true_and]
  have ho := h.perm_ready hr
  obtain ⟨hif,hir,hid,hiu⟩ := hp.not_mem ho
  constructor
  · exact hp.freeChain.update hif
  · exact Links.update hc.2 hir
  · refine List.Perm.trans ?_ (ho.symm.trans hp.parts)
    simp only [Holders.all, List.perm_iff_count, List.count_append, List.count_cons]
    intro a
    omega
  · exact hp.free.update hif
  · exact (hp.ready.mono fun j hj => hr ▸ List.mem_cons_of_mem _ hj).update hir
  · exact hp.driver.update hid
  · exact hp.user.push hiu rfl

/-- A buffer that is ready is the first of the ready list. -/
theorem pool_getReady {m' : Bufmgr n} (hp : Pool m h) (hg : bufferGetReady m = (some i,m')) :
    ∃ t, h.ready = i :: t ∧ Pool m' { h with ready := t, user := i :: h.user } := by
  cases hready : h.ready with
  | nil =>
    rw [bufferGetReady_none hp hready] at hg
    cases hg
  | cons j t =>
    obtain ⟨hj,hp'⟩ := bufferGetReady_some hp hready
    rw [hg] at hj hp'
    cases hj
    exact ⟨t,rfl,hp'⟩

theorem pool_release (hp : Pool m h) (hi : i ∈ h.user) :
    Pool (bufferRelease i m) { h with free := i :: h.free, user := h.user.erase i } := by
  have ho := h.perm_user hi
  obtain ⟨hif,hir,hid,hiu⟩ := hp.not_mem ho
  constructor
  · exact hp.freeChain.push hif rfl
  · exact hp.readyChain.update hir
  · refine List.Perm.trans ?_ (ho.symm.trans hp.parts)
    simp only [Holders.all, List.perm_iff_count, List.count_append, List.count_cons]
    intro a
    omega
  · exact hp.free.push hif ⟨rfl,rfl⟩
  · exact hp.ready.update hir
  · exact hp.driver.update hid
  · exact (hp.user.mono fun j hj => List.mem_of_mem_erase hj).update hiu

/-- The driver may write a buffer it holds. -/
theorem pool_store (hp : Pool m h) (hi : i ∈ h.driver) (data : Vector UInt8 1504) :
    Pool (bufferStore i data m) h := by
  have ho := h.perm_driver hi
  obtain ⟨hif,hir,hid,hiu⟩ := hp.not_mem ho
  constructor
  · exact hp.freeChain.update hif
  · exact hp.readyChain.update hir
  · exact hp.parts
  · exact hp.free.update hif
  · exact hp.ready.update hir
  · intro j hj
    by_cases hji : j = i
    · subst hji
      simpa [bufferStore, Bufmgr.set] using hp.driver j hj
    · simpa [bufferStore, Bufmgr.set, Function.update_of_ne hji] using hp.driver j hj
  · exact hp.user.update hiu

/-! What the operations leave of the bytes in the buffers. -/

theorem data_update {f : Fin n → Buffer n} {b : Buffer n} (j : Fin n)
    (hb : b.data = (f i).data) : (Function.update f i b j).data = (f j).data := by
  by_cases hj : j = i
  · rw [hj, Function.update_self, hb]
  · rw [Function.update_of_ne hj]

theorem data_acquire (bytes : UInt16) (m : Bufmgr n) (j : Fin n) :
    ((bufferAcquire bytes m).2.buffers j).data = (m.buffers j).data := by
  rw [bufferAcquire]
  split
  next => rfl
  split
  next => rfl
  next => exact data_update j (by rfl)

theorem data_markReady (i j : Fin n) (m : Bufmgr n) :
    ((bufferMarkReady i m).buffers j).data = (m.buffers j).data := data_update j (by rfl)

theorem data_getReady (m : Bufmgr n) (j : Fin n) :
    ((bufferGetReady m).2.buffers j).data = (m.buffers j).data := by
  rw [bufferGetReady]
  split
  next => rfl
  next => exact data_update j (by rfl)

theorem data_release {j : Fin n} (hj : j ≠ i) (m : Bufmgr n) :
    ((bufferRelease i m).buffers j).data = (m.buffers j).data := by
  simp [bufferRelease, Bufmgr.set, Function.update_of_ne hj]

theorem data_store (i j : Fin n) (data : Vector UInt8 1504) (m : Bufmgr n) :
    ((bufferStore i data m).buffers j).data = if j = i then data else (m.buffers j).data := by
  by_cases hj : j = i
  · simp [bufferStore, Bufmgr.set, hj]
  · simp [bufferStore, Bufmgr.set, hj]

/-- From position `k` on, the initial table is linked in order. -/
theorem links_init (count k : ℕ) [NeZero count] :
    Links (bufferInit count).buffers (if h : k < count then some ⟨k,h⟩ else none)
      ((List.finRange count).drop k) := by
  induction hd : count-k generalizing k with
  | zero =>
    have hk : ¬ k < count := by omega
    rw [dif_neg hk, List.drop_eq_nil_of_le (by simpa using hk)]
    rfl
  | succ d ih =>
    have hk : k < count := by omega
    rw [dif_pos hk, List.drop_eq_getElem_cons (by simpa using hk), List.getElem_finRange]
    exact ⟨rfl,ih (k+1) (by omega)⟩

theorem pool_init (count : ℕ) [NeZero count] :
    Pool (bufferInit count) ⟨List.finRange count,[],[],[]⟩ := by
  constructor
  · have h := links_init count 0
    rwa [dif_pos (Nat.pos_of_neZero count)] at h
  · rfl
  · simp [Holders.all]
  · exact fun i _ => ⟨rfl,rfl⟩
  · exact fun i hi => nomatch hi
  · exact fun i hi => nomatch hi
  · exact fun i hi => nomatch hi

end RmtDos
