import RmtDos.Lib.Resumable

/-! Programs that are observed while they run. The outputs up to some point of a run are those of a
run that need not come to an end, and a program is safe where every answer of the environment leads
to good outputs only. A program without memory may run within one that has memory. -/
namespace Resumable.Prog
variable {σ C R O C' R' α β D : Type}

/-- The outputs up to some point of a run. -/
def Emitted (env : D → C → R → D → Prop) : Prog σ C R O α → σ → D → List O → Prop
  | .done _, _, _, os => os = []
  | .get k, s, d, os => Emitted env (k s) s d os
  | .modify f k, s, d, os => Emitted env k (f s) d os
  | .call c store k, s, d, os =>
    os = [] ∨ ∃ r d₁, env d (c s) r d₁ ∧ Emitted env (k r) (store r s) d₁ os
  | .emit o k, s, d, os => os = [] ∨ ∃ os₁, os = o :: os₁ ∧ Emitted env k s d os₁
  | .hang, _, _, os => os = []

/-- A run that ends has been through all of its outputs. -/
theorem Exec.emitted {env : D → C → R → D → Prop} {p : Prog σ C R O α} {s s' : σ} {d d' : D}
    {os : List O} {a : α} (h : Exec env p s d os a s' d') : Emitted env p s d os := by
  induction p generalizing s d os with
  | done b => exact h.1
  | get k ih => exact ih s h
  | modify f k ih => exact ih h
  | call c store k ih =>
    obtain ⟨r,d₁,he,h⟩ := h
    exact .inr ⟨r,d₁,he,ih r h⟩
  | emit o k ih =>
    obtain ⟨os₁,rfl,h⟩ := h
    exact .inr ⟨os₁,rfl,ih h⟩
  | hang => exact h.elim

/-- The environment that gives the replies of a list. -/
def played (d : List R) (_ : C) (r : R) (d' : List R) : Prop := d = r :: d'

/-- The outputs of a run until the replies are used up. -/
def outputs : Prog σ C R O α → σ → List R → List O
  | .done _, _, _ => []
  | .get k, s, rs => outputs (k s) s rs
  | .modify f k, s, rs => outputs k (f s) rs
  | .call _ _ _, _, [] => []
  | .call _ store k, s, r::rs => outputs (k r) (store r s) rs
  | .emit o k, s, rs => o :: outputs k s rs
  | .hang, _, _ => []

theorem emitted_outputs {p : Prog σ C R O α} {s : σ} {rs : List R} :
    Emitted played p s rs (outputs p s rs) := by
  induction p generalizing s rs with
  | done a => rfl
  | get k ih => exact ih s
  | modify f k ih => exact ih
  | call c store k ih =>
    cases rs with
    | nil => exact .inl rfl
    | cons r rs => exact .inr ⟨r,rs,rfl,ih r⟩
  | emit o k ih => exact .inr ⟨outputs k s rs,rfl,ih⟩
  | hang => rfl

/-- Whatever the environment answers, the outputs are good, and `Q` holds where the program ends. -/
def Safe (good : O → Prop) : Prog σ C R O α → σ → (α → σ → Prop) → Prop
  | .done a, s, Q => Q a s
  | .get k, s, Q => Safe good (k s) s Q
  | .modify f k, s, Q => Safe good k (f s) Q
  | .call _ store k, s, Q => ∀ r, Safe good (k r) (store r s) Q
  | .emit o k, s, Q => good o ∧ Safe good k s Q
  | .hang, _, _ => True

section safe
variable {good : O → Prop} {p : Prog σ C R O α} {s : σ} {Q Q' : α → σ → Prop}

theorem Safe.emitted {env : D → C → R → D → Prop} {d : D} {os : List O} (h : Safe good p s Q)
    (he : Emitted env p s d os) : ∀ o ∈ os, good o := by
  induction p generalizing s d os with
  | done a =>
    obtain rfl := he
    exact List.forall_mem_nil _
  | get k ih => exact ih s h he
  | modify f k ih => exact ih h he
  | call c store k ih =>
    obtain rfl | ⟨r,d₁,-,he⟩ := he
    · exact List.forall_mem_nil _
    · exact ih r (h r) he
  | emit o k ih =>
    obtain rfl | ⟨os₁,rfl,he⟩ := he
    · exact List.forall_mem_nil _
    · exact List.forall_mem_cons.mpr ⟨h.1,ih h.2 he⟩
  | hang =>
    obtain rfl := he
    exact List.forall_mem_nil _

theorem Safe.exec {env : D → C → R → D → Prop} {d d' : D} {s' : σ} {os : List O} {a : α}
    (h : Safe good p s Q) (hx : Exec env p s d os a s' d') : Q a s' := by
  induction p generalizing s d os with
  | done b =>
    obtain ⟨-,rfl,rfl,-⟩ := hx
    exact h
  | get k ih => exact ih s h hx
  | modify f k ih => exact ih h hx
  | call c store k ih =>
    obtain ⟨r,d₁,-,hx⟩ := hx
    exact ih r (h r) hx
  | emit o k ih =>
    obtain ⟨os₁,-,hx⟩ := hx
    exact ih h.2 hx
  | hang => exact hx.elim

theorem Safe.imp (h : Safe good p s Q) (hq : ∀ a s', Q a s' → Q' a s') : Safe good p s Q' := by
  induction p generalizing s with
  | done a => exact hq a s h
  | get k ih => exact ih s h
  | modify f k ih => exact ih h
  | call c store k ih => exact fun r => ih r (h r)
  | emit o k ih => exact ⟨h.1,ih h.2⟩
  | hang => trivial

theorem Safe.bind {f : α → Prog σ C R O β} {Q' : β → σ → Prop} (h : Safe good p s Q)
    (hf : ∀ a s', Q a s' → Safe good (f a) s' Q') : Safe good (p.bind f) s Q' := by
  induction p generalizing s with
  | done a => exact hf a s h
  | get k ih => exact ih s h
  | modify g k ih => exact ih h
  | call c store k ih => exact fun r => ih r (h r)
  | emit o k ih => exact ⟨h.1,ih h.2⟩
  | hang => trivial

/-- Any program is safe where all outputs are good and nothing is asked of the end. -/
theorem safe_true : Safe (fun _ => True) p s fun _ _ => True := by
  induction p generalizing s with
  | done a => trivial
  | get k ih => exact ih s
  | modify f k ih => exact ih
  | call c store k ih => exact fun r => ih r
  | emit o k ih => exact ⟨trivial,ih⟩
  | hang => trivial

theorem safe_ite {c : Prop} [Decidable c] {q : Prog σ C R O α} :
    Safe good (if c then p else q) s Q ↔ (c → Safe good p s Q) ∧ (¬ c → Safe good q s Q) := by
  split <;> simp [*]

end safe

/-! Programs that keep an invariant of the memory. -/

/-- From a memory with the invariant, the outputs are good and the invariant holds at the end. -/
def Maintains (I : σ → Prop) (good : O → Prop) (p : Prog σ C R O α) : Prop :=
  ∀ s, I s → Safe good p s fun _ => I

section maintains
variable {I : σ → Prop} {good : O → Prop} {p q : Prog σ C R O α}

theorem maintains_done (a : α) : Maintains I good (.done a : Prog σ C R O α) := fun _ h => h

theorem Maintains.bind {f : α → Prog σ C R O β} (hp : Maintains I good p)
    (hf : ∀ a, Maintains I good (f a)) : Maintains I good (p.bind f) :=
  fun s h => (hp s h).bind fun a s' hs' => hf a s' hs'

theorem maintains_ite {c : Prop} [Decidable c] (hp : c → Maintains I good p)
    (hq : ¬ c → Maintains I good q) : Maintains I good (if c then p else q) := by
  split
  · exact hp ‹c›
  · exact hq ‹¬ c›

end maintains

/-! A program without memory and outputs within another one. -/

/-- `f` embeds the calls, `g` reads the replies. -/
def within (f : C → C') (g : R' → R) : Prog Unit C R Empty α → Prog σ C' R' O α
  | .done a => .done a
  | .get k => (k ()).within f g
  | .modify _ k => k.within f g
  | .call c _ k => .call (fun _ => f (c ())) (fun _ s => s) fun r => (k (g r)).within f g
  | .emit o _ => o.elim
  | .hang => .hang

section within
variable {f : C → C'} {g : R' → R} {p : Prog Unit C R Empty α} {s s' : σ}

theorem exec_within {env : D → C' → R' → D → Prop} {d d' : D} {os : List O} {a : α} :
    Exec env (p.within f g : Prog σ C' R' O α) s d os a s' d' ↔
      os = [] ∧ s' = s ∧
        Exec (fun d c r d' => ∃ r', g r' = r ∧ env d (f c) r' d') p () d [] a () d' := by
  induction p generalizing d with
  | done b =>
    constructor
    · rintro ⟨rfl,rfl,rfl,rfl⟩
      exact ⟨rfl,rfl,rfl,rfl,rfl,rfl⟩
    · rintro ⟨rfl,rfl,-,rfl,-,rfl⟩
      exact ⟨rfl,rfl,rfl,rfl⟩
  | get k ih => exact ih ()
  | modify h k ih => exact ih
  | call c store k ih =>
    simp only [within, exec_call, ih]
    constructor
    · rintro ⟨r,d₁,he,rfl,rfl,h⟩
      exact ⟨rfl,rfl,g r,d₁,⟨r,rfl,he⟩,h⟩
    · rintro ⟨rfl,rfl,_,d₁,⟨r,rfl,he⟩,h⟩
      exact ⟨r,d₁,he,rfl,rfl,h⟩
  | emit o => exact o.elim
  | hang => exact ⟨False.elim,fun h => h.2.2⟩

theorem Safe.within {good : O → Prop} {Q : α → Unit → Prop} (h : Safe (fun _ => True) p () Q) :
    Safe good (p.within f g : Prog σ C' R' O α) s fun a s' => s' = s ∧ Q a () := by
  induction p with
  | done a => exact ⟨rfl,h⟩
  | get k ih => exact ih () h
  | modify h' k ih => exact ih h
  | call c store k ih => exact fun r => ih (g r) (h (g r))
  | emit o => exact o.elim
  | hang => trivial

end within

end Resumable.Prog
