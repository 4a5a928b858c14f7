import Mathlib.Logic.Relation
import RmtDos.Lib.Resumable

/-! Programs beside which others act. While a call of the program is pending, the others may change
memory and environment in any number of steps. `Exact` tells where such a program leads: as long as
the answers meet a condition it stays on the way to a good end, and the first answer that fails the
condition makes it end badly at once. -/
namespace Resumable
namespace Prog
variable {σ C R O D α β : Type}

/-- The program ends without a further call, as `B` says. -/
def Ends (B : α → σ → D → Prop) : Prog σ C R O α → σ → D → Prop
  | .done a, s, d => B a s d
  | .get k, s, d => Ends B (k s) s d
  | .modify f k, s, d => Ends B k (f s) d
  | .call _ _ _, _, _ => False
  | .emit _ k, s, d => Ends B k s d
  | .hang, _, _ => False

/-- All ways from here are good ones, but for answers outside `ok`, which end badly at once. -/
def Exact (env : D → C → R → D → Prop) (other : σ × D → σ × D → Prop) (ok : C → R → σ → D → Prop)
    (Q B : α → σ → D → Prop) : Prog σ C R O α → σ → D → Prop
  | .done a, s, d => Q a s d
  | .get k, s, d => Exact env other ok Q B (k s) s d
  | .modify f k, s, d => Exact env other ok Q B k (f s) d
  | .call c store k, s, d => ∀ s₁ d₁, Relation.ReflTransGen other (s,d) (s₁,d₁) →
      ∀ r d₂, env d₁ (c s₁) r d₂ →
        (ok (c s₁) r s₁ d₁ → Exact env other ok Q B (k r) (store r s₁) d₂) ∧
        (¬ ok (c s₁) r s₁ d₁ → Ends B (k r) (store r s₁) d₂)
  | .emit _ k, s, d => Exact env other ok Q B k s d
  | .hang, _, _ => False

/-- The program waits for the answer to a call. -/
def Waits : Prog σ C R O α → Prop
  | .call _ _ _ => True
  | _ => False

variable {env : D → C → R → D → Prop} {other : σ × D → σ × D → Prop} {ok : C → R → σ → D → Prop}
  {Q B : α → σ → D → Prop} {Q' B' : β → σ → D → Prop} {p : Prog σ C R O α} {s s' : σ} {d d' : D}

@[simp] theorem ends_done {a : α} : Ends B (.done a : Prog σ C R O α) s d ↔ B a s d := Iff.rfl

@[simp] theorem ends_get {k : σ → Prog σ C R O α} :
    Ends B (.get k) s d ↔ Ends B (k s) s d := Iff.rfl

@[simp] theorem ends_modify {f : σ → σ} : Ends B (.modify f p) s d ↔ Ends B p (f s) d := Iff.rfl

@[simp] theorem exact_done {a : α} :
    Exact env other ok Q B (.done a : Prog σ C R O α) s d ↔ Q a s d := Iff.rfl

@[simp] theorem exact_get {k : σ → Prog σ C R O α} :
    Exact env other ok Q B (.get k) s d ↔ Exact env other ok Q B (k s) s d := Iff.rfl

@[simp] theorem exact_modify {f : σ → σ} :
    Exact env other ok Q B (.modify f p) s d ↔ Exact env other ok Q B p (f s) d := Iff.rfl

theorem ends_advance :
    Ends B p s d ↔ ∃ a, (p.advance s).2.2 = .done a ∧ B a (p.advance s).2.1 d := by
  induction p generalizing s with
  | done a => simp [Ends, advance]
  | get k ih => exact ih s
  | modify f k ih => exact ih
  | call c store k ih => simp [Ends, advance]
  | emit o k ih => exact ih
  | hang => simp [Ends, advance]

/-- A program that goes on well either waits for an answer next or has ended well. -/
theorem Exact.advance (h : Exact env other ok Q B p s d) :
    Exact env other ok Q B (p.advance s).2.2 (p.advance s).2.1 d ∧
      ((p.advance s).2.2.Waits ∨ ∃ a, (p.advance s).2.2 = .done a) := by
  induction p generalizing s with
  | done a => exact ⟨h,.inr ⟨a,rfl⟩⟩
  | get k ih => exact ih s h
  | modify f k ih => exact ih h
  | call c store k ih => exact ⟨h,.inl trivial⟩
  | emit o k ih => exact ih h
  | hang => exact h.elim

/-- What the others do while an answer is awaited changes nothing. -/
theorem Exact.others (h : Exact env other ok Q B p s d) (hw : p.Waits)
    (ho : Relation.ReflTransGen other (s,d) (s',d')) : Exact env other ok Q B p s' d' := by
  cases p with
  | call c store k => exact fun s₁ d₁ hr => h s₁ d₁ (ho.trans hr)
  | _ => exact hw.elim

theorem Ends.bind {f : α → Prog σ C R O β} (h : Ends B p s d)
    (hf : ∀ a s d, B a s d → Ends B' (f a) s d) : Ends B' (p.bind f) s d := by
  induction p generalizing s with
  | done a => exact hf a s d h
  | get k ih => exact ih s h
  | modify g k ih => exact ih h
  | call c store k ih => exact h.elim
  | emit o k ih => exact ih h
  | hang => exact h.elim

theorem Exact.bind {f : α → Prog σ C R O β} (h : Exact env other ok Q B p s d)
    (hq : ∀ a s d, Q a s d → Exact env other ok Q' B' (f a) s d)
    (hb : ∀ a s d, B a s d → Ends B' (f a) s d) :
    Exact env other ok Q' B' (p.bind f) s d := by
  induction p generalizing s d with
  | done a => exact hq a s d h
  | get k ih => exact ih s h
  | modify g k ih => exact ih h
  | call c store k ih =>
    intro s₁ d₁ hr r d₂ he
    obtain ⟨hok,hno⟩ := h s₁ d₁ hr r d₂ he
    exact ⟨fun ho => ih r (hok ho),fun ho => (hno ho).bind hb⟩
  | emit o k ih => exact ih h
  | hang => exact h.elim

end Prog
end Resumable
