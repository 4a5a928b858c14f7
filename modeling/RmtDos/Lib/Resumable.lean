import Mathlib.Logic.Relation

/-! Programs that share a memory with other code and call an environment. A program is a
tree of memory accesses, calls and outputs; between two calls it runs undisturbed. A call
reads its arguments from the memory when the environment executes it, and the environment
may store results in the memory, so code that runs between the calls is observed. -/
namespace Resumable

/-- `σ` is the shared memory, `C` the calls, `R` their replies, `O` the outputs. -/
inductive Prog (σ C R O α : Type) : Type
  | done (a : α)
  | get (k : σ → Prog σ C R O α)
  | modify (f : σ → σ) (k : Prog σ C R O α)
  | call (c : σ → C) (store : R → σ → σ) (k : R → Prog σ C R O α)
  | emit (o : O) (k : Prog σ C R O α)
  | hang

namespace Prog
variable {σ C R O α β τ D : Type}

def bind : Prog σ C R O α → (α → Prog σ C R O β) → Prog σ C R O β
  | .done a, f => f a
  | .get k, f => .get fun s => (k s).bind f
  | .modify g k, f => .modify g (k.bind f)
  | .call c store k, f => .call c store fun r => (k r).bind f
  | .emit o k, f => .emit o (k.bind f)
  | .hang, _ => .hang

instance : Monad (Prog σ C R O) where
  pure := .done
  bind := bind

@[simp] theorem pure_eq (a : α) : (pure a : Prog σ C R O α) = .done a := rfl

@[simp] theorem bind_eq (p : Prog σ C R O α) (f : α → Prog σ C R O β) :
    (p >>= f) = p.bind f := rfl

section Bind
variable (f : α → Prog σ C R O β)

@[simp] theorem done_bind (a : α) : (done a : Prog σ C R O α).bind f = f a := rfl

@[simp] theorem get_bind (k : σ → Prog σ C R O α) :
    (get k).bind f = .get fun s => (k s).bind f := rfl

@[simp] theorem modify_bind (g : σ → σ) (k : Prog σ C R O α) :
    (modify g k).bind f = .modify g (k.bind f) := rfl

@[simp] theorem call_bind (c : σ → C) (store : R → σ → σ) (k : R → Prog σ C R O α) :
    (call c store k).bind f = .call c store fun r => (k r).bind f := rfl

@[simp] theorem emit_bind (o : O) (k : Prog σ C R O α) :
    (emit o k).bind f = .emit o (k.bind f) := rfl

@[simp] theorem hang_bind : (hang : Prog σ C R O α).bind f = .hang := rfl

@[simp] theorem ite_bind (c : Prop) [Decidable c] (p q : Prog σ C R O α) :
    (if c then p else q).bind f = if c then p.bind f else q.bind f := by split <;> rfl

@[simp] theorem bind_assoc {γ : Type} (p : Prog σ C R O α) (g : β → Prog σ C R O γ) :
    (p.bind f).bind g = p.bind fun a => (f a).bind g := by
  induction p with
  | done a => rfl
  | get k ih => exact congrArg Prog.get (funext ih)
  | modify h k ih => exact congrArg (Prog.modify h) ih
  | call c store k ih => exact congrArg (Prog.call c store) (funext ih)
  | emit o k ih => exact congrArg (Prog.emit o) ih
  | hang => rfl

end Bind

/-- All complete undisturbed executions: outputs, result, final memory and environment. -/
def Exec (env : D → C → R → D → Prop) :
    Prog σ C R O α → σ → D → List O → α → σ → D → Prop
  | .done a, s, d, os, b, s', d' => os = [] ∧ b = a ∧ s' = s ∧ d' = d
  | .get k, s, d, os, b, s', d' => Exec env (k s) s d os b s' d'
  | .modify f k, s, d, os, b, s', d' => Exec env k (f s) d os b s' d'
  | .call c store k, s, d, os, b, s', d' =>
    ∃ r d₁, env d (c s) r d₁ ∧ Exec env (k r) (store r s) d₁ os b s' d'
  | .emit o k, s, d, os, b, s', d' => ∃ os₁, os = o :: os₁ ∧ Exec env k s d os₁ b s' d'
  | .hang, _, _, _, _, _, _ => False

section Exec
variable {env : D → C → R → D → Prop} {s s' : σ} {d d' : D} {os : List O}

@[simp] theorem exec_done {a b : α} :
    Exec env (.done a : Prog σ C R O α) s d os b s' d' ↔ os = [] ∧ b = a ∧ s' = s ∧ d' = d :=
  Iff.rfl

@[simp] theorem exec_get {k : σ → Prog σ C R O α} {b : α} :
    Exec env (.get k) s d os b s' d' ↔ Exec env (k s) s d os b s' d' := Iff.rfl

@[simp] theorem exec_modify {f : σ → σ} {k : Prog σ C R O α} {b : α} :
    Exec env (.modify f k) s d os b s' d' ↔ Exec env k (f s) d os b s' d' := Iff.rfl

@[simp] theorem exec_call {c : σ → C} {store : R → σ → σ} {k : R → Prog σ C R O α} {b : α} :
    Exec env (.call c store k) s d os b s' d' ↔
      ∃ r d₁, env d (c s) r d₁ ∧ Exec env (k r) (store r s) d₁ os b s' d' := Iff.rfl

@[simp] theorem exec_emit {o : O} {k : Prog σ C R O α} {b : α} :
    Exec env (.emit o k) s d os b s' d' ↔
      ∃ os₁, os = o :: os₁ ∧ Exec env k s d os₁ b s' d' := Iff.rfl

@[simp] theorem exec_hang {b : α} :
    ¬ Exec env (.hang : Prog σ C R O α) s d os b s' d' := fun h => h

theorem exec_ite {c : Prop} [Decidable c] {p q : Prog σ C R O α} {b : α} :
    Exec env (if c then p else q) s d os b s' d' ↔
      (c ∧ Exec env p s d os b s' d') ∨ (¬ c ∧ Exec env q s d os b s' d') := by
  split <;> simp [*]

/-- Sequential composition splits the outputs and threads memory and environment. -/
theorem exec_bind {p : Prog σ C R O α} {f : α → Prog σ C R O β} {b : β} :
    Exec env (p.bind f) s d os b s' d' ↔
      ∃ os₁ a s₁ d₁ os₂, Exec env p s d os₁ a s₁ d₁ ∧ Exec env (f a) s₁ d₁ os₂ b s' d' ∧
        os = os₁ ++ os₂ := by
  induction p generalizing s d os with
  | done a =>
    constructor
    · intro h
      exact ⟨[],a,s,d,os,⟨rfl,rfl,rfl,rfl⟩,h,rfl⟩
    · rintro ⟨os₁,a',s₁,d₁,os₂,⟨rfl,rfl,rfl,rfl⟩,h,rfl⟩
      exact h
  | get k ih => exact ih s
  | modify g k ih => exact ih
  | call c store k ih =>
    simp only [bind, exec_call, ih]
    constructor
    · rintro ⟨r,d₂,he,os₁,a,s₁,d₁,os₂,h,hf,rfl⟩
      exact ⟨os₁,a,s₁,d₁,os₂,⟨r,d₂,he,h⟩,hf,rfl⟩
    · rintro ⟨os₁,a,s₁,d₁,os₂,⟨r,d₂,he,h⟩,hf,rfl⟩
      exact ⟨r,d₂,he,os₁,a,s₁,d₁,os₂,h,hf,rfl⟩
  | emit o k ih =>
    simp only [bind, exec_emit, ih]
    constructor
    · rintro ⟨os',rfl,os₁,a,s₁,d₁,os₂,h,hf,rfl⟩
      exact ⟨o::os₁,a,s₁,d₁,os₂,⟨os₁,rfl,h⟩,hf,rfl⟩
    · rintro ⟨_,a,s₁,d₁,os₂,⟨os₁,rfl,h⟩,hf,rfl⟩
      exact ⟨os₁ ++ os₂,rfl,os₁,a,s₁,d₁,os₂,h,hf,rfl⟩
  | hang =>
    constructor
    · exact False.elim
    · rintro ⟨_,_,_,_,_,h,_⟩
      exact h

end Exec

/-- Every call of the program, at whatever memory it is made, satisfies `P`. -/
def CallsIn (P : C → Prop) : Prog σ C R O α → Prop
  | .done _ => True
  | .get k => ∀ s, CallsIn P (k s)
  | .modify _ k => CallsIn P k
  | .call c _ k => (∀ s, P (c s)) ∧ ∀ r, CallsIn P (k r)
  | .emit _ k => CallsIn P k
  | .hang => True

/-- Every memory update of the program, its own and the environment's, keeps `π`. -/
def Keeps (π : σ → τ) : Prog σ C R O α → Prop
  | .done _ => True
  | .get k => ∀ s, Keeps π (k s)
  | .modify f k => (∀ s, π (f s) = π s) ∧ Keeps π k
  | .call _ store k => (∀ r s, π (store r s) = π s) ∧ ∀ r, Keeps π (k r)
  | .emit _ k => Keeps π k
  | .hang => True

/-- The program sends nothing. -/
def Silent : Prog σ C R O α → Prop
  | .done _ => True
  | .get k => ∀ s, Silent (k s)
  | .modify _ k => Silent k
  | .call _ _ k => ∀ r, Silent (k r)
  | .emit _ _ => False
  | .hang => True

section Syntax
variable {P : C → Prop} {π : σ → τ}

@[simp] theorem callsIn_done (a : α) : (done a : Prog σ C R O α).CallsIn P := trivial
@[simp] theorem callsIn_hang : (hang : Prog σ C R O α).CallsIn P := trivial
@[simp] theorem callsIn_get {k : σ → Prog σ C R O α} :
    (get k).CallsIn P ↔ ∀ s, (k s).CallsIn P := Iff.rfl
@[simp] theorem callsIn_modify {f : σ → σ} {k : Prog σ C R O α} :
    (modify f k).CallsIn P ↔ k.CallsIn P := Iff.rfl
@[simp] theorem callsIn_call {c : σ → C} {store : R → σ → σ} {k : R → Prog σ C R O α} :
    (call c store k).CallsIn P ↔ (∀ s, P (c s)) ∧ ∀ r, (k r).CallsIn P := Iff.rfl
@[simp] theorem callsIn_ite {c : Prop} [Decidable c] {p q : Prog σ C R O α} :
    (if c then p else q).CallsIn P ↔ (c → p.CallsIn P) ∧ (¬ c → q.CallsIn P) := by
  split <;> simp [*]

@[simp] theorem keeps_done (a : α) : (done a : Prog σ C R O α).Keeps π := trivial
@[simp] theorem keeps_hang : (hang : Prog σ C R O α).Keeps π := trivial
@[simp] theorem keeps_get {k : σ → Prog σ C R O α} :
    (get k).Keeps π ↔ ∀ s, (k s).Keeps π := Iff.rfl
@[simp] theorem keeps_modify {f : σ → σ} {k : Prog σ C R O α} :
    (modify f k).Keeps π ↔ (∀ s, π (f s) = π s) ∧ k.Keeps π := Iff.rfl
@[simp] theorem keeps_call {c : σ → C} {store : R → σ → σ} {k : R → Prog σ C R O α} :
    (call c store k).Keeps π ↔ (∀ r s, π (store r s) = π s) ∧ ∀ r, (k r).Keeps π := Iff.rfl
@[simp] theorem keeps_ite {c : Prop} [Decidable c] {p q : Prog σ C R O α} :
    (if c then p else q).Keeps π ↔ (c → p.Keeps π) ∧ (¬ c → q.Keeps π) := by
  split <;> simp [*]

@[simp] theorem silent_done (a : α) : (done a : Prog σ C R O α).Silent := trivial
@[simp] theorem silent_hang : (hang : Prog σ C R O α).Silent := trivial
@[simp] theorem silent_get {k : σ → Prog σ C R O α} :
    (get k).Silent ↔ ∀ s, (k s).Silent := Iff.rfl
@[simp] theorem silent_modify {f : σ → σ} {k : Prog σ C R O α} :
    (modify f k).Silent ↔ k.Silent := Iff.rfl
@[simp] theorem silent_call {c : σ → C} {store : R → σ → σ} {k : R → Prog σ C R O α} :
    (call c store k).Silent ↔ ∀ r, (k r).Silent := Iff.rfl
@[simp] theorem silent_ite {c : Prop} [Decidable c] {p q : Prog σ C R O α} :
    (if c then p else q).Silent ↔ (c → p.Silent) ∧ (¬ c → q.Silent) := by
  split <;> simp [*]

end Syntax

theorem CallsIn.bind {P : C → Prop} {p : Prog σ C R O α} {f : α → Prog σ C R O β}
    (hp : p.CallsIn P) (hf : ∀ a, (f a).CallsIn P) : (p.bind f).CallsIn P := by
  induction p with
  | done a => exact hf a
  | get k ih => exact fun s => ih s (hp s)
  | modify g k ih => exact ih hp
  | call c store k ih => exact ⟨hp.1,fun r => ih r (hp.2 r)⟩
  | emit o k ih => exact ih hp
  | hang => trivial

theorem CallsIn.imp {P Q : C → Prop} {p : Prog σ C R O α} (hp : p.CallsIn P)
    (h : ∀ c, P c → Q c) : p.CallsIn Q := by
  induction p with
  | done a => trivial
  | get k ih => exact fun s => ih s (hp s)
  | modify g k ih => exact ih hp
  | call c store k ih => exact ⟨fun s => h _ (hp.1 s),fun r => ih r (hp.2 r)⟩
  | emit o k ih => exact ih hp
  | hang => trivial

theorem callsIn_true (p : Prog σ C R O α) : p.CallsIn fun _ => True := by
  induction p with
  | done a => trivial
  | get k ih => exact fun s => ih s
  | modify g k ih => exact ih
  | call c store k ih => exact ⟨fun _ => trivial,ih⟩
  | emit o k ih => exact ih
  | hang => trivial

theorem Keeps.bind {π : σ → τ} {p : Prog σ C R O α} {f : α → Prog σ C R O β}
    (hp : p.Keeps π) (hf : ∀ a, (f a).Keeps π) : (p.bind f).Keeps π := by
  induction p with
  | done a => exact hf a
  | get k ih => exact fun s => ih s (hp s)
  | modify g k ih => exact ⟨hp.1,ih hp.2⟩
  | call c store k ih => exact ⟨hp.1,fun r => ih r (hp.2 r)⟩
  | emit o k ih => exact ih hp
  | hang => trivial

theorem Silent.bind {p : Prog σ C R O α} {f : α → Prog σ C R O β}
    (hp : p.Silent) (hf : ∀ a, (f a).Silent) : (p.bind f).Silent := by
  induction p with
  | done a => exact hf a
  | get k ih => exact fun s => ih s (hp s)
  | modify g k ih => exact ih hp
  | call c store k ih => exact fun r => ih r (hp r)
  | emit o k ih => exact hp.elim
  | hang => trivial

section Rules
variable {env : D → C → R → D → Prop} {s s' : σ} {d d' : D} {os : List O} {a : α}

/-- An environment invariant kept by the calls a program can make is kept by the program. -/
theorem Exec.invariant {p : Prog σ C R O α} (I : D → Prop) {P : C → Prop}
    (hcalls : p.CallsIn P) (henv : ∀ d c r d₁, P c → env d c r d₁ → I d → I d₁)
    (h : Exec env p s d os a s' d') (hI : I d) : I d' := by
  induction p generalizing s d os with
  | done b => exact h.2.2.2 ▸ hI
  | get k ih => exact ih s (hcalls s) h hI
  | modify f k ih => exact ih hcalls h hI
  | call c store k ih =>
    obtain ⟨r,d₁,he,h⟩ := h
    exact ih r (hcalls.2 r) h (henv _ _ _ _ (hcalls.1 s) he hI)
  | emit o k ih =>
    obtain ⟨os₁,rfl,h⟩ := h
    exact ih hcalls h hI
  | hang => exact h.elim

/-- An environment invariant kept by every call is kept by every program. -/
theorem Exec.invariant_all {p : Prog σ C R O α} (I : D → Prop)
    (henv : ∀ d c r d₁, env d c r d₁ → I d → I d₁) (h : Exec env p s d os a s' d') (hI : I d) :
    I d' :=
  h.invariant I (callsIn_true p) (fun d c r d₁ _ => henv d c r d₁) hI

theorem Exec.keeps {p : Prog σ C R O α} {π : σ → τ} (hk : p.Keeps π)
    (h : Exec env p s d os a s' d') : π s' = π s := by
  induction p generalizing s d os with
  | done b => rw [h.2.2.1]
  | get k ih => exact ih s (hk s) h
  | modify f k ih => exact (ih hk.2 h).trans (hk.1 s)
  | call c store k ih =>
    obtain ⟨r,d₁,he,h⟩ := h
    exact (ih r (hk.2 r) h).trans (hk.1 r s)
  | emit o k ih =>
    obtain ⟨os₁,rfl,h⟩ := h
    exact ih hk h
  | hang => exact h.elim

theorem Exec.silent {p : Prog σ C R O α} (hk : p.Silent)
    (h : Exec env p s d os a s' d') : os = [] := by
  induction p generalizing s d os with
  | done b => exact h.1
  | get k ih => exact ih s (hk s) h
  | modify f k ih => exact ih hk h
  | call c store k ih =>
    obtain ⟨r,d₁,he,h⟩ := h
    exact ih r (hk r) h
  | emit o k ih => exact hk.elim
  | hang => exact h.elim

/-- Executions under a larger environment include those under a smaller one. -/
theorem Exec.mono {p : Prog σ C R O α} {env' : D → C → R → D → Prop}
    (henv : ∀ d c r d₁, env d c r d₁ → env' d c r d₁)
    (h : Exec env p s d os a s' d') : Exec env' p s d os a s' d' := by
  induction p generalizing s d os with
  | done b => exact h
  | get k ih => exact ih s h
  | modify f k ih => exact ih h
  | call c store k ih =>
    obtain ⟨r,d₁,he,h⟩ := h
    exact ⟨r,d₁,henv _ _ _ _ he,ih r h⟩
  | emit o k ih =>
    obtain ⟨os₁,rfl,h⟩ := h
    exact ⟨os₁,rfl,ih h⟩
  | hang => exact h.elim

/-- An environment that can follow each call of the program can follow the program. -/
theorem Exec.simulate {E : Type} {env' : E → C → R → E → Prop} {P : C → Prop} {p : Prog σ C R O α}
    (Sim : D → E → Prop) (hcalls : p.CallsIn P)
    (henv : ∀ d e c r d₁, P c → Sim d e → env d c r d₁ → ∃ e₁, env' e c r e₁ ∧ Sim d₁ e₁)
    {e : E} (h : Exec env p s d os a s' d') (hs : Sim d e) :
    ∃ e', Exec env' p s e os a s' e' ∧ Sim d' e' := by
  induction p generalizing s d os e with
  | done b =>
    obtain ⟨hos,ha,hs',rfl⟩ := h
    exact ⟨e,⟨hos,ha,hs',rfl⟩,hs⟩
  | get k ih => exact ih s (hcalls s) h hs
  | modify f k ih => exact ih hcalls h hs
  | call c store k ih =>
    obtain ⟨r,d₁,he,h⟩ := h
    obtain ⟨e₁,he',hs₁⟩ := henv _ _ _ _ _ (hcalls.1 s) hs he
    obtain ⟨e',hx,hs'⟩ := ih r (hcalls.2 r) h hs₁
    exact ⟨e',⟨r,e₁,he',hx⟩,hs'⟩
  | emit o k ih =>
    obtain ⟨os₁,rfl,h⟩ := h
    obtain ⟨e',hx,hs'⟩ := ih hcalls h hs
    exact ⟨e',⟨os₁,rfl,hx⟩,hs'⟩
  | hang => exact h.elim

/-- A deterministic environment leaves one execution at most. -/
theorem Exec.deterministic {p : Prog σ C R O α}
    (henv : ∀ d c r r' d₁ d₂, env d c r d₁ → env d c r' d₂ → r = r' ∧ d₁ = d₂)
    {os₂ : List O} {a₂ : α} {s₂ : σ} {d₂ : D}
    (h : Exec env p s d os a s' d') (h₂ : Exec env p s d os₂ a₂ s₂ d₂) :
    os = os₂ ∧ a = a₂ ∧ s' = s₂ ∧ d' = d₂ := by
  induction p generalizing s d os os₂ with
  | done b =>
    obtain ⟨rfl,rfl,rfl,rfl⟩ := h
    obtain ⟨rfl,rfl,rfl,rfl⟩ := h₂
    exact ⟨rfl,rfl,rfl,rfl⟩
  | get k ih => exact ih s h h₂
  | modify f k ih => exact ih h h₂
  | call c store k ih =>
    obtain ⟨r,d₁,he,h⟩ := h
    obtain ⟨r',d₁',he',h₂⟩ := h₂
    obtain ⟨rfl,rfl⟩ := henv _ _ _ _ _ _ he he'
    exact ih r h h₂
  | emit o k ih =>
    obtain ⟨os₁,rfl,h⟩ := h
    obtain ⟨os₁',rfl,h₂⟩ := h₂
    obtain ⟨rfl,hr⟩ := ih h h₂
    exact ⟨rfl,hr⟩
  | hang => exact h.elim

/-- A silent program before `f` contributes no output. -/
theorem exec_silent_bind {β : Type} {p : Prog σ C R O α} {f : α → Prog σ C R O β} {b : β}
    (hp : p.Silent) :
    Exec env (p.bind f) s d os b s' d' ↔
      ∃ a s₁ d₁, Exec env p s d [] a s₁ d₁ ∧ Exec env (f a) s₁ d₁ os b s' d' := by
  rw [exec_bind]
  constructor
  · rintro ⟨os₁,a,s₁,d₁,os₂,h,hf,rfl⟩
    obtain rfl := h.silent hp
    exact ⟨a,s₁,d₁,h,hf⟩
  · rintro ⟨a,s₁,d₁,h,hf⟩
    exact ⟨[],a,s₁,d₁,os,h,hf,rfl⟩

end Rules

/-! Total correctness. -/

/-- The program has an execution, and all its executions end as `Q` says. -/
def Ensures (env : D → C → R → D → Prop) (p : Prog σ C R O α) (s : σ) (d : D)
    (Q : List O → α → σ → D → Prop) : Prop :=
  (∃ os a s' d', Exec env p s d os a s' d') ∧
    ∀ os a s' d', Exec env p s d os a s' d' → Q os a s' d'

section Ensures
variable {env : D → C → R → D → Prop} {s : σ} {d : D} {Q Q' : List O → α → σ → D → Prop}

theorem ensures_done {a : α} (h : Q [] a s d) : Ensures env (.done a : Prog σ C R O α) s d Q := by
  refine ⟨⟨[],a,s,d,rfl,rfl,rfl,rfl⟩,?_⟩
  rintro _ _ _ _ ⟨rfl,rfl,rfl,rfl⟩
  exact h

theorem Ensures.imp {p : Prog σ C R O α} (h : Ensures env p s d Q)
    (hq : ∀ os a s' d', Q os a s' d' → Q' os a s' d') : Ensures env p s d Q' :=
  ⟨h.1,fun os a s' d' he => hq os a s' d' (h.2 os a s' d' he)⟩

/-- A call that can be answered, and whose every answer is handled. -/
theorem ensures_call {c : σ → C} {store : R → σ → σ} {k : R → Prog σ C R O α}
    (hex : ∃ r d₁, env d (c s) r d₁)
    (h : ∀ r d₁, env d (c s) r d₁ → Ensures env (k r) (store r s) d₁ Q) :
    Ensures env (.call c store k) s d Q := by
  constructor
  · obtain ⟨r,d₁,he⟩ := hex
    obtain ⟨os,a,s',d',hk⟩ := (h r d₁ he).1
    exact ⟨os,a,s',d',r,d₁,he,hk⟩
  · rintro os a s' d' ⟨r,d₁,he,hk⟩
    exact (h r d₁ he).2 os a s' d' hk

theorem Ensures.bind {p : Prog σ C R O α} {f : α → Prog σ C R O β}
    {Q' : List O → β → σ → D → Prop} (hp : Ensures env p s d Q)
    (hf : ∀ os a s₁ d₁, Q os a s₁ d₁ →
      Ensures env (f a) s₁ d₁ fun os' b s' d' => Q' (os ++ os') b s' d') :
    Ensures env (p.bind f) s d Q' := by
  constructor
  · obtain ⟨os,a,s₁,d₁,he⟩ := hp.1
    obtain ⟨os',b,s',d',hk⟩ := (hf os a s₁ d₁ (hp.2 os a s₁ d₁ he)).1
    exact ⟨os ++ os',b,s',d',exec_bind.mpr ⟨os,a,s₁,d₁,os',he,hk,rfl⟩⟩
  · intro os b s' d' h
    obtain ⟨os₁,a,s₁,d₁,os₂,he,hk,rfl⟩ := exec_bind.mp h
    exact (hf os₁ a s₁ d₁ (hp.2 os₁ a s₁ d₁ he)).2 os₂ b s' d' hk

end Ensures

/-- The environment can answer every call, and whatever it answers the program comes to an end as `Q`
says. -/
def Total (env : D → C → R → D → Prop) :
    Prog σ C R O α → σ → D → (List O → α → σ → D → Prop) → Prop
  | .done a, s, d, Q => Q [] a s d
  | .get k, s, d, Q => Total env (k s) s d Q
  | .modify f k, s, d, Q => Total env k (f s) d Q
  | .call c store k, s, d, Q =>
    (∃ r d₁, env d (c s) r d₁) ∧ ∀ r d₁, env d (c s) r d₁ → Total env (k r) (store r s) d₁ Q
  | .emit o k, s, d, Q => Total env k s d fun os => Q (o :: os)
  | .hang, _, _, _ => False

section Total
variable {env : D → C → R → D → Prop} {s : σ} {d : D} {Q Q' : List O → α → σ → D → Prop}
  {p : Prog σ C R O α}

/-- What all executions have in common may be added. -/
theorem Total.strengthen (h : Total env p s d Q)
    (hq : ∀ os a s' d', Exec env p s d os a s' d' → Q os a s' d' → Q' os a s' d') :
    Total env p s d Q' := by
  induction p generalizing s d Q Q' with
  | done a => exact hq _ _ _ _ ⟨rfl,rfl,rfl,rfl⟩ h
  | get k ih => exact ih s h hq
  | modify f k ih => exact ih h hq
  | call c store k ih =>
    refine ⟨h.1,fun r d₁ he => ih r (h.2 r d₁ he) fun os a s' d' hx => ?_⟩
    exact hq os a s' d' ⟨r,d₁,he,hx⟩
  | emit o k ih => exact ih h fun os a s' d' hx => hq _ _ _ _ ⟨os,rfl,hx⟩
  | hang => exact h

theorem Total.bind {β : Type} {f : α → Prog σ C R O β} {Q' : List O → β → σ → D → Prop}
    (hp : Total env p s d Q)
    (hf : ∀ os a s₁ d₁, Q os a s₁ d₁ →
      Total env (f a) s₁ d₁ fun os' b s' d' => Q' (os ++ os') b s' d') :
    Total env (p.bind f) s d Q' := by
  induction p generalizing s d Q Q' with
  | done a => exact hf _ _ _ _ hp
  | get k ih => exact ih s hp hf
  | modify g k ih => exact ih hp hf
  | call c store k ih => exact ⟨hp.1,fun r d₁ he => ih r (hp.2 r d₁ he) hf⟩
  | emit o k ih => exact ih hp fun os a s₁ d₁ hq => hf _ _ _ _ hq
  | hang => exact hp

end Total

/-- The environment, with a log of the calls and their replies. -/
def Logged (env : D → C → R → D → Prop) (d : D × List (C × R)) (c : C) (r : R)
    (d' : D × List (C × R)) : Prop :=
  env d.1 c r d'.1 ∧ d'.2 = d.2 ++ [(c,r)]

theorem Total.logged {env : D → C → R → D → Prop} {p : Prog σ C R O α} {s : σ} {d : D}
    {Q : List O → α → σ → D → Prop} (h : Total env p s d Q) (log : List (C × R)) :
    Total (Logged env) p s (d,log) fun os a s' d' => Q os a s' d'.1 := by
  induction p generalizing s d Q log with
  | done a => exact h
  | get k ih => exact ih s h log
  | modify f k ih => exact ih h log
  | call c store k ih =>
    constructor
    · obtain ⟨r,d₁,he⟩ := h.1
      exact ⟨r,(d₁,log ++ [(c s,r)]),he,rfl⟩
    · rintro r ⟨d₁,log₁⟩ ⟨he,hlog⟩
      exact ih r (h.2 r d₁ he) log₁
  | emit o k ih => exact ih h log
  | hang => exact h

/-- An execution with a log is one without it; where all that is logged meets `P`, the environment
can be taken to answer as `P` says. -/
theorem Exec.of_logged {env : D → C → R → D → Prop} {P : C → R → Prop} {p : Prog σ C R O α}
    {s s' : σ} {d d' : D × List (C × R)} {os : List O} {a : α}
    (h : Exec (Logged env) p s d os a s' d') :
    ∃ log, d'.2 = d.2 ++ log ∧ ((∀ x ∈ log, P x.1 x.2) →
      Exec (fun d c r d₁ => env d c r d₁ ∧ P c r) p s d.1 os a s' d'.1) := by
  induction p generalizing s d os with
  | done b =>
    obtain ⟨rfl,rfl,rfl,rfl⟩ := h
    exact ⟨[],(List.append_nil _).symm,fun _ => ⟨rfl,rfl,rfl,rfl⟩⟩
  | get k ih => exact ih s h
  | modify f k ih => exact ih h
  | call c store k ih =>
    obtain ⟨r,d₁,⟨he,hlog⟩,h⟩ := h
    obtain ⟨log,hd',hx⟩ := ih r h
    refine ⟨(c s,r) :: log,by rw [hd', hlog, List.append_assoc, List.singleton_append],fun hP => ?_⟩
    exact ⟨r,d₁.1,⟨he,hP _ List.mem_cons_self⟩,hx fun x hx => hP x (List.mem_cons_of_mem _ hx)⟩
  | emit o k ih =>
    obtain ⟨os₁,rfl,h⟩ := h
    obtain ⟨log,hd',hx⟩ := ih h
    exact ⟨log,hd',fun hP => ⟨os₁,rfl,hx hP⟩⟩
  | hang => exact h.elim

/-- Run up to the next call: the outputs sent, the memory reached and what is left to do. -/
def advance : Prog σ C R O α → σ → List O × σ × Prog σ C R O α
  | .done a, s => ([],s,.done a)
  | .get k, s => (k s).advance s
  | .modify f k, s => k.advance (f s)
  | .call c store k, s => ([],s,.call c store k)
  | .emit o k, s => (o :: (k.advance s).1,(k.advance s).2)
  | .hang, s => ([],s,.hang)

/-- An execution beside something that its calls leave alone. -/
theorem exec_on_snd {E : Type} {env : D → C → R → D → Prop} {p : Prog σ C R O α} {s s' : σ}
    {x y : E × D} {os : List O} {a : α} :
    Exec (fun x c r y => env x.2 c r y.2 ∧ y.1 = x.1) p s x os a s' y ↔
      y.1 = x.1 ∧ Exec env p s x.2 os a s' y.2 := by
  induction p generalizing s x os with
  | done b =>
    simp only [exec_done, Prod.ext_iff]
    constructor
    · rintro ⟨hos,ha,hs,hy,h⟩
      exact ⟨hy,hos,ha,hs,h⟩
    · rintro ⟨hy,hos,ha,hs,h⟩
      exact ⟨hos,ha,hs,hy,h⟩
  | get k ih => exact ih s
  | modify f k ih => exact ih
  | call c store k ih =>
    simp only [exec_call, ih]
    constructor
    · rintro ⟨r,z,⟨he,hz⟩,hy,h⟩
      exact ⟨hy.trans hz,r,z.2,he,h⟩
    · rintro ⟨hy,r,d,he,h⟩
      exact ⟨r,(x.1,d),⟨he,rfl⟩,hy,h⟩
  | emit o k ih =>
    simp only [exec_emit, ih]
    constructor
    · rintro ⟨os₁,rfl,hy,h⟩
      exact ⟨hy,os₁,rfl,h⟩
    · rintro ⟨hy,os₁,rfl,h⟩
      exact ⟨os₁,rfl,hy,h⟩
  | hang => exact ⟨False.elim,fun h => h.2⟩

/-! Programs over a part of the calls. -/

/-- The program with its calls among others: `f` embeds the calls, `g` reads the replies. -/
def mapCalls {C' R' : Type} (f : C → C') (g : R' → R) : Prog σ C R O α → Prog σ C' R' O α
  | .done a => .done a
  | .get k => .get fun s => (k s).mapCalls f g
  | .modify h k => .modify h (k.mapCalls f g)
  | .call c store k => .call (fun s => f (c s)) (fun r => store (g r)) fun r => (k (g r)).mapCalls f g
  | .emit o k => .emit o (k.mapCalls f g)
  | .hang => .hang

theorem CallsIn.mapCalls {C' R' : Type} {P : C' → Prop} {f : C → C'} (g : R' → R)
    {p : Prog σ C R O α} (h : p.CallsIn fun c => P (f c)) : (p.mapCalls f g).CallsIn P := by
  induction p with
  | done a => trivial
  | get k ih => exact fun s => ih s (h s)
  | modify h' k ih => exact ih h
  | call c store k ih => exact ⟨h.1,fun r => ih (g r) (h.2 (g r))⟩
  | emit o k ih => exact ih h
  | hang => trivial

theorem exec_mapCalls {C' R' : Type} {f : C → C'} {g : R' → R} {env : D → C' → R' → D → Prop}
    {p : Prog σ C R O α} {s s' : σ} {d d' : D} {os : List O} {a : α} :
    Exec env (p.mapCalls f g) s d os a s' d' ↔
      Exec (fun d c r d' => ∃ r', g r' = r ∧ env d (f c) r' d') p s d os a s' d' := by
  induction p generalizing s d os with
  | done b => exact Iff.rfl
  | get k ih => exact ih s
  | modify h k ih => exact ih
  | call c store k ih =>
    simp only [mapCalls, exec_call, ih]
    constructor
    · rintro ⟨r,d₁,he,h⟩
      exact ⟨g r,d₁,⟨r,rfl,he⟩,h⟩
    · rintro ⟨_,d₁,⟨r,rfl,he⟩,h⟩
      exact ⟨r,d₁,he,h⟩
  | emit o k ih => simp only [mapCalls, exec_emit, ih]
  | hang => exact Iff.rfl

end Prog
end Resumable
