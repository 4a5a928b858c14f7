import RmtDos.Lib.Resumable

/-! Programs that are interrupted around their calls. A handler changes the memory between the
phases; what the program reads of the memory tells which changes it cannot notice. -/
namespace Resumable.Prog
variable {σ C R O α β D E : Type}

/-- The memory after the interrupts `es`, and each of them with the memory that it met. -/
def handleAll (h : E → σ → σ) (es : List E) (s : σ) : σ := es.foldl (fun s e => h e s) s

def met (h : E → σ → σ) : List E → σ → List (σ × E)
  | [], _ => []
  | e::es, s => (s,e) :: met h es (h e s)

theorem handleAll_keeps {h : E → σ → σ} {es : List E} {s : σ} {P : σ → Prop}
    (hk : ∀ x ∈ met h es s, P x.1 → P (h x.2 x.1)) (hs : P s) : P (handleAll h es s) := by
  induction es generalizing s with
  | nil => exact hs
  | cons e es ih =>
    exact ih (fun x hx => hk x (List.mem_cons_of_mem _ hx)) (hk (s,e) List.mem_cons_self hs)

/-- The executions with interrupts before and behind every call: `Exec`, and all that was met. -/
def ExecInt (h : E → σ → σ) (env : D → C → R → D → Prop) :
    Prog σ C R O α → σ → D → List (σ × E) → List O → α → σ → D → Prop
  | .done a, s, d, ms, os, b, s', d' => ms = [] ∧ os = [] ∧ b = a ∧ s' = s ∧ d' = d
  | .get k, s, d, ms, os, b, s', d' => ExecInt h env (k s) s d ms os b s' d'
  | .modify f k, s, d, ms, os, b, s', d' => ExecInt h env k (f s) d ms os b s' d'
  | .call c store k, s, d, ms, os, b, s', d' => ∃ es r d₁ es₁ ms₁,
    env d (c (handleAll h es s)) r d₁ ∧
      ExecInt h env (k r) (handleAll h es₁ (store r (handleAll h es s))) d₁ ms₁ os b s' d' ∧
      ms = met h es s ++ (met h es₁ (store r (handleAll h es s)) ++ ms₁)
  | .emit o k, s, d, ms, os, b, s', d' => ∃ os₁, os = o :: os₁ ∧ ExecInt h env k s d ms os₁ b s' d'
  | .hang, _, _, _, _, _, _, _ => False

/-- The environment that answers as it did before. -/
def Scripted (log : List (C × R)) (c : C) (r : R) (log' : List (C × R)) : Prop :=
  log = (c,r) :: log'

/-- Two programs that do the same on memories related by `Rel`: they make the same calls, send the
same, and end as `Q` says. -/
def Tied (Rel : σ → σ → Prop) (Q : α → σ → α → σ → Prop) :
    Prog σ C R O α → σ → Prog σ C R O α → σ → Prop
  | .done a, s, .done b, t => Q a s b t
  | .get k, s, .get k', t => Tied Rel Q (k s) s (k' t) t
  | .modify f k, s, .modify f' k', t => Tied Rel Q k (f s) k' (f' t)
  | .call c store k, s, .call c' store' k', t => Rel s t ∧ ∀ s t, Rel s t → c s = c' t ∧
    ∀ r, Rel (store r s) (store' r t) ∧ ∀ s₁ t₁, Rel s₁ t₁ → Tied Rel Q (k r) s₁ (k' r) t₁
  | .emit o k, s, .emit o' k', t => o = o' ∧ Tied Rel Q k s k' t
  | .hang, _, .hang, _ => True
  | _, _, _, _ => False

section Tied
variable {Rel : σ → σ → Prop} {Q : α → σ → α → σ → Prop} {p q : Prog σ C R O α} {s t : σ}

@[simp] theorem tied_done {a b : α} :
    Tied Rel Q (.done a : Prog σ C R O α) s (.done b) t ↔ Q a s b t := Iff.rfl

@[simp] theorem tied_get {k k' : σ → Prog σ C R O α} :
    Tied Rel Q (.get k) s (.get k') t ↔ Tied Rel Q (k s) s (k' t) t := Iff.rfl

@[simp] theorem tied_modify {f f' : σ → σ} :
    Tied Rel Q (.modify f p) s (.modify f' q) t ↔ Tied Rel Q p (f s) q (f' t) := Iff.rfl

@[simp] theorem tied_emit {o o' : O} :
    Tied Rel Q (.emit o p) s (.emit o' q) t ↔ o = o' ∧ Tied Rel Q p s q t := Iff.rfl

theorem tied_call {c c' : σ → C} {store store' : R → σ → σ} {k k' : R → Prog σ C R O α}
    (h : Rel s t) (hc : ∀ s t, Rel s t → c s = c' t)
    (hs : ∀ s t r, Rel s t → Rel (store r s) (store' r t))
    (hk : ∀ r s t, Rel s t → Tied Rel Q (k r) s (k' r) t) :
    Tied Rel Q (.call c store k) s (.call c' store' k') t :=
  ⟨h,fun s t hst => ⟨hc s t hst,fun r => ⟨hs s t r hst,fun s₁ t₁ h₁ => hk r s₁ t₁ h₁⟩⟩⟩

theorem Tied.bind {Q' : β → σ → β → σ → Prop} {f f' : α → Prog σ C R O β}
    (h : Tied Rel Q p s q t) (hf : ∀ a s b t, Q a s b t → Tied Rel Q' (f a) s (f' b) t) :
    Tied Rel Q' (p.bind f) s (q.bind f') t := by
  induction p generalizing q s t with
  | done a => cases q <;> first | exact hf _ _ _ _ h | exact h.elim
  | get k ih => cases q <;> first | exact ih _ h | exact h.elim
  | modify g k ih => cases q <;> first | exact ih h | exact h.elim
  | call c store k ih =>
    cases q with
    | call c' store' k' =>
      exact ⟨h.1,fun s t hst => ⟨(h.2 s t hst).1,fun r => ⟨((h.2 s t hst).2 r).1,
        fun s₁ t₁ h₁ => ih r (((h.2 s t hst).2 r).2 s₁ t₁ h₁)⟩⟩⟩
    | _ => exact h.elim
  | emit o k ih =>
    cases q with
    | emit => exact ⟨h.1,ih h.2⟩
    | _ => exact h.elim
  | hang =>
    cases q with
    | hang => trivial
    | _ => exact h.elim

/-- Interrupts that keep the relation go unnoticed: the outputs are those of the undisturbed program
on the related memory, with the same calls and replies. -/
theorem Tied.exec {h : E → σ → σ} {env : D → C → R → D → Prop} {d d' : D × List (C × R)}
    {ms : List (σ × E)} {os : List O} {a : α} {s' : σ} (ht : Tied Rel Q p s q t)
    (hx : ExecInt h (Logged env) p s d ms os a s' d')
    (hi : ∀ x ∈ ms, ∀ t, Rel x.1 t → Rel (h x.2 x.1) t) :
    ∃ log b t', d'.2 = d.2 ++ log ∧ Exec Scripted q t log os b t' [] ∧ Q a s' b t' := by
  induction p generalizing q s t d ms os with
  | done a' =>
    obtain ⟨rfl,rfl,rfl,rfl,rfl⟩ := hx
    cases q with
    | done b => exact ⟨[],b,t,(List.append_nil _).symm,⟨rfl,rfl,rfl,rfl⟩,ht⟩
    | _ => exact ht.elim
  | get k ih =>
    cases q with
    | get k' =>
      have hend := ih s (tied_get.mp ht) hx hi
      exact hend
    | _ => exact ht.elim
  | modify f k ih =>
    cases q with
    | modify f' k' =>
      have hend := ih (tied_modify.mp ht) hx hi
      exact hend
    | _ => exact ht.elim
  | call c store k ih =>
    cases q with
    | call c' store' k' =>
      obtain ⟨es,r,d₁,es₁,ms₁,⟨-,hlog⟩,hx,rfl⟩ := hx
      obtain ⟨hst,hcall⟩ := ht
      have h₁ : Rel (handleAll h es s) t := handleAll_keeps (P := fun s => Rel s t)
        (fun x hx => hi x (List.mem_append_left _ hx) t) hst
      obtain ⟨hc,hnext⟩ := hcall _ _ h₁
      obtain ⟨h₂,hk⟩ := hnext r
      have h₃ : Rel (handleAll h es₁ (store r (handleAll h es s))) (store' r t) :=
        handleAll_keeps (P := fun s => Rel s (store' r t)) (fun x hx => hi x
          (List.mem_append_right _ (List.mem_append_left _ hx)) _) h₂
      obtain ⟨log,b,t',hl,hex,hq⟩ := ih r (hk _ _ h₃) hx fun x hx => hi x
        (List.mem_append_right _ (List.mem_append_right _ hx))
      refine ⟨(c' t,r) :: log,b,t',?_,⟨r,log,rfl,hex⟩,hq⟩
      rw [hl, hlog, hc, List.append_assoc, List.singleton_append]
    | _ => exact ht.elim
  | emit o k ih =>
    cases q with
    | emit o' k' =>
      obtain ⟨os₁,rfl,hx⟩ := hx
      obtain ⟨rfl,ht⟩ := ht
      obtain ⟨log,b,t',hl,hex,hq⟩ := ih ht hx hi
      exact ⟨log,b,t',hl,⟨os₁,rfl,hex⟩,hq⟩
    | _ => exact ht.elim
  | hang => exact hx.elim

end Tied
end Resumable.Prog
