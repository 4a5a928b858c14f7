import RmtDos.Lib.Memory

/-! Programs that read a byte memory at positions they compute as they go, each read labelled
with what it is for. A program has a result and a trace of its reads on every memory, and both
are the same on two memories that agree at the positions of the trace. -/

/-- A program with reads labelled by `T` and a result in `α`. -/
inductive Reading (T α : Type)
  | done (a : α)
  | read (t : T) (i : ℕ) (k : UInt8 → Reading T α)

namespace Reading
open Memory

variable {T α β : Type}

def bind (p : Reading T α) (f : α → Reading T β) : Reading T β :=
  match p with
  | done a => f a
  | read t i k => read t i fun b => (k b).bind f

instance : Monad (Reading T) where
  pure := done
  bind := bind

def run (m : Mem) : Reading T α → α
  | done a => a
  | read _ i k => run m (k (m i))

/-- The reads on the memory, in order. -/
def trace (m : Mem) : Reading T α → List (T × ℕ)
  | done _ => []
  | read t i k => (t,i) :: trace m (k (m i))

variable {m m' : Mem}

@[simp] theorem run_pure (a : α) : run m (pure a : Reading T α) = a := rfl
@[simp] theorem trace_pure (a : α) : trace m (pure a : Reading T α) = [] := rfl

@[simp] theorem run_bind (p : Reading T α) (f : α → Reading T β) :
    run m (p >>= f) = run m (f (run m p)) := by
  induction p with
  | done a => rfl
  | read t i k ih => exact ih (m i)

@[simp] theorem trace_bind (p : Reading T α) (f : α → Reading T β) :
    trace m (p >>= f) = trace m p ++ trace m (f (run m p)) := by
  induction p with
  | done a => rfl
  | read t i k ih => exact congrArg _ (ih (m i))

theorem run_ite {c : Prop} [Decidable c] (p q : Reading T α) :
    run m (if c then p else q) = if c then run m p else run m q :=
  apply_ite ..

theorem trace_ite {c : Prop} [Decidable c] (p q : Reading T α) :
    trace m (if c then p else q) = if c then trace m p else trace m q :=
  apply_ite ..

/-- Memories that agree at the positions a program reads are the same to it. -/
theorem run_congr (p : Reading T α) (h : ∀ x ∈ trace m p, m x.2 = m' x.2) :
    run m p = run m' p ∧ trace m p = trace m' p := by
  induction p with
  | done a => exact ⟨rfl,rfl⟩
  | read t i k ih =>
    have hi : m i = m' i := h (t,i) List.mem_cons_self
    obtain ⟨hr,ht⟩ := ih (m i) fun x hx => h x (List.mem_cons_of_mem _ hx)
    simp only [run, trace, ← hi, hr, ht, and_self]

/-- A program that on every memory like `m` below `n` has the default result or reads below `n`
only has the result it has on `m`. -/
theorem run_agree (p : Reading T α) (a : α) {n : ℕ}
    (h : ∀ m', AgreeBelow n m m' → run m' p = a ∨ ∀ x ∈ trace m' p, x.2 < n)
    (hm : AgreeBelow n m m') : run m' p = run m p := by
  obtain h₀ | h₀ := h m (.refl n m)
  · obtain h₁ | h₁ := h m' hm
    · rw [h₀, h₁]
    · exact (run_congr p fun x hx => (hm x.2 (h₁ x hx)).symm).1
  · exact (run_congr p fun x hx => hm x.2 (h₀ x hx)).1.symm

/-- Reads of a run of `n` bytes. -/
def bytes (t : T) (i : ℕ) : ℕ → Reading T (List UInt8)
  | 0 => pure []
  | n+1 => do
    let b ← read t i pure
    let bs ← bytes t (i+1) n
    pure (b :: bs)

@[simp] theorem run_bytes (t : T) (i n : ℕ) : run m (bytes t i n) = slice m i n := by
  induction n generalizing i with
  | zero => rfl
  | succ n ih =>
    rw [bytes, run_bind, run_bind, ih, run_pure, slice_succ]
    rfl

@[simp] theorem trace_bytes (t : T) (i n : ℕ) :
    trace m (bytes t i n) = (List.range' i n).map (Prod.mk t) := by
  induction n generalizing i with
  | zero => rfl
  | succ n ih =>
    rw [bytes, trace_bind, trace_bind, ih, trace_pure, List.append_nil, List.range'_succ]
    rfl

theorem mem_trace_bytes {t : T} {i n : ℕ} {x : T × ℕ} :
    x ∈ trace m (bytes t i n) ↔ x.1 = t ∧ i ≤ x.2 ∧ x.2 < i+n := by
  obtain ⟨t',j⟩ := x
  simp [eq_comm, and_comm]

def byte (t : T) (i : ℕ) : Reading T UInt8 := read t i pure

@[simp] theorem run_byte (t : T) (i : ℕ) : run m (byte t i) = m i := rfl
@[simp] theorem trace_byte (t : T) (i : ℕ) : trace m (byte t i) = [(t,i)] := rfl

/-- A 16-bit number in network order. -/
def be16 (t : T) (i : ℕ) : Reading T UInt16 := do
  let bs ← bytes t i 2
  pure (ntohs bs)

def be32 (t : T) (i : ℕ) : Reading T UInt32 := do
  let bs ← bytes t i 4
  pure (ntohl bs)

@[simp] theorem run_be16 (t : T) (i : ℕ) : run m (be16 t i) = ntohs (slice m i 2) := by
  rw [be16, run_bind, run_bytes, run_pure]

@[simp] theorem run_be32 (t : T) (i : ℕ) : run m (be32 t i) = ntohl (slice m i 4) := by
  rw [be32, run_bind, run_bytes, run_pure]

@[simp] theorem trace_be16 (t : T) (i : ℕ) : trace m (be16 t i) = [(t,i),(t,i+1)] := by
  rw [be16, trace_bind, trace_bytes]
  rfl

@[simp] theorem trace_be32 (t : T) (i : ℕ) :
    trace m (be32 t i) = [(t,i),(t,i+1),(t,i+2),(t,i+3)] := by
  rw [be32, trace_bind, trace_bytes]
  rfl

/-! Programs all of whose reads have a property. -/

def Reads (P : T → ℕ → Prop) (m : Mem) (p : Reading T α) : Prop := ∀ x ∈ trace m p, P x.1 x.2

variable {P : T → ℕ → Prop}

@[simp] theorem reads_pure (a : α) : Reads P m (pure a : Reading T α) := by simp [Reads]

@[simp] theorem reads_bind (p : Reading T α) (f : α → Reading T β) :
    Reads P m (p >>= f) ↔ Reads P m p ∧ Reads P m (f (run m p)) := by
  simp only [Reads, trace_bind, List.forall_mem_append]

theorem reads_ite {c : Prop} [Decidable c] (p q : Reading T α) :
    Reads P m (if c then p else q) ↔ if c then Reads P m p else Reads P m q := by
  split <;> rfl

theorem reads_bytes (t : T) (i n : ℕ) :
    Reads P m (bytes t i n) ↔ ∀ j, i ≤ j → j < i+n → P t j := by
  constructor
  · intro h j hl hu
    exact h (t,j) (mem_trace_bytes.mpr ⟨rfl,hl,hu⟩)
  · rintro h ⟨t',j⟩ hx
    obtain ⟨rfl,hl,hu⟩ := mem_trace_bytes.mp hx
    exact h j hl hu

theorem reads_be16 (t : T) (i : ℕ) : Reads P m (be16 t i) ↔ Reads P m (bytes t i 2) := by
  rw [be16, reads_bind, and_iff_left (reads_pure _)]

theorem reads_be32 (t : T) (i : ℕ) : Reads P m (be32 t i) ↔ Reads P m (bytes t i 4) := by
  rw [be32, reads_bind, and_iff_left (reads_pure _)]

theorem reads_byte (t : T) (i : ℕ) : Reads P m (byte t i) ↔ P t i := by
  simp [Reads]

end Reading
