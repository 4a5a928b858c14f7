import Mathlib.Logic.Basic

/-! Runs of a labelled transition system, with the condition each step is taken under. Two
rules: an invariant kept by the steps of a kind holds in every run of such steps, and a
condition is exact when every step outside it spoils the next state. -/
namespace Runs
variable {S E : Type*}

/-- `Run step s tr`: from `s` the steps of `tr` are possible, each listed with its result. -/
inductive Run (step : S → E → S → Prop) : S → List (E × S) → Prop
  | nil (s : S) : Run step s []
  | cons {s s' : S} {e : E} {tr : List (E × S)} (h : step s e s') (tail : Run step s' tr) :
      Run step s ((e,s') :: tr)

/-- Every step of the trace meets `ok` in the state it starts from. -/
def Along (ok : S → E → Prop) : S → List (E × S) → Prop
  | _, [] => True
  | s, (e,s')::tr => ok s e ∧ Along ok s' tr

/-- The state a trace ends in. -/
def final : S → List (E × S) → S
  | s, [] => s
  | _, (_,s')::tr => final s' tr

variable {step : S → E → S → Prop} {ok : S → E → Prop} {s : S} {tr : List (E × S)}

@[simp] theorem along_nil : Along ok s [] := trivial

@[simp] theorem along_cons {e : E} {s' : S} :
    Along ok s ((e,s') :: tr) ↔ ok s e ∧ Along ok s' tr := Iff.rfl

/-- A condition of a run, under a premise that is the same all along. -/
theorem along_of_imp {p : Prop} (h : p → Along ok s tr) : Along (fun s e => p → ok s e) s tr := by
  induction tr generalizing s with
  | nil => trivial
  | cons x tr ih => exact ⟨fun hp => (h hp).1,ih fun hp => (h hp).2⟩

theorem final_mem (h : tr ≠ []) : ∃ x ∈ tr, x.2 = final s tr := by
  induction tr generalizing s with
  | nil => exact absurd rfl h
  | cons x tr ih =>
    cases tr with
    | nil => exact ⟨x,List.mem_cons_self,rfl⟩
    | cons y tr =>
      obtain ⟨z,hz,hf⟩ := @ih x.2 (by simp)
      exact ⟨z,List.mem_cons_of_mem _ hz,hf⟩

theorem Run.append {tr' : List (E × S)} (h : Run step s tr) (h' : Run step (final s tr) tr') :
    Run step s (tr ++ tr') := by
  induction h with
  | nil => exact h'
  | cons hs _ ih => exact .cons hs (ih h')

theorem Run.of_append {tr' : List (E × S)} (h : Run step s (tr ++ tr')) :
    Run step s tr ∧ Run step (final s tr) tr' := by
  induction tr generalizing s with
  | nil => exact ⟨.nil s,h⟩
  | cons x tr ih =>
    cases h with
    | cons hs h =>
      obtain ⟨h₁,h₂⟩ := ih h
      exact ⟨.cons hs h₁,h₂⟩

/-- An invariant that the steps meeting `ok` keep holds in every state of a run of them. -/
theorem Run.invariant (Inv : S → Prop)
    (hstep : ∀ s e s', Inv s → ok s e → step s e s' → Inv s')
    (h : Run step s tr) (ha : Along ok s tr) (hI : Inv s) : ∀ x ∈ tr, Inv x.2 := by
  induction h with
  | nil => simp
  | cons hs _ ih =>
    have hI' := hstep _ _ _ hI ha.1 hs
    simpa [hI'] using ih ha.2 hI'

/-- An invariant that every step keeps holds at the end of every run. -/
theorem Run.final_invariant (Inv : S → Prop) (hstep : ∀ s e s', Inv s → step s e s' → Inv s')
    (h : Run step s tr) (hI : Inv s) : Inv (final s tr) := by
  induction h with
  | nil => exact hI
  | cons hs _ ih => exact ih (hstep _ _ _ hI hs)

/-- What each step brings under an invariant holds of every entry of the trace. -/
theorem Run.each (Inv : S → Prop) (Q : E → S → Prop)
    (hstep : ∀ s e s', Inv s → step s e s' → Inv s' ∧ Q e s') (h : Run step s tr) (hI : Inv s) :
    ∀ x ∈ tr, Q x.1 x.2 := by
  induction h with
  | nil => simp
  | cons hs _ ih =>
    obtain ⟨hI',hQ⟩ := hstep _ _ _ hI hs
    simpa [hQ] using ih hI'

/-- The condition of a run may be taken into its steps, with what holds of the trace. -/
theorem Run.restrict {P : E → Prop} (h : Run step s tr) (ha : Along ok s tr)
    (hP : ∀ x ∈ tr, P x.1) : Run (fun s e s' => step s e s' ∧ ok s e ∧ P e) s tr := by
  induction h with
  | nil => exact .nil _
  | cons hs _ ih =>
    refine .cons ⟨hs,ha.1,hP _ List.mem_cons_self⟩ (ih ha.2 fun x hx => ?_)
    exact hP x (List.mem_cons_of_mem _ hx)

/-- What follows from `ok` for single steps follows for runs. -/
theorem Run.along_imp {ok' : S → E → Prop} (hstep : ∀ s e s', step s e s' → ok s e → ok' s e)
    (h : Run step s tr) (ha : Along ok s tr) : Along ok' s tr := by
  induction h with
  | nil => trivial
  | cons hs _ ih => exact ⟨hstep _ _ _ hs ha.1,ih ha.2⟩

/-- Under an invariant that every step keeps, equivalent conditions are met by the same runs. -/
theorem Run.along_iff {ok' : S → E → Prop} (Inv : S → Prop)
    (hstep : ∀ s e s', Inv s → step s e s' → Inv s') (hok : ∀ s e, Inv s → (ok s e ↔ ok' s e))
    (h : Run step s tr) (hI : Inv s) : Along ok s tr ↔ Along ok' s tr := by
  induction h with
  | nil => exact Iff.rfl
  | cons hs _ ih => exact and_congr (hok _ _ hI) (ih (hstep _ _ _ hI hs))

/-- When every step outside `ok` leads to a bad state, a run visits good states only exactly
if all its steps meet `ok`. -/
theorem Run.exact (Inv Good : S → Prop)
    (hstep : ∀ s e s', Inv s → ok s e → step s e s' → Inv s')
    (hgood : ∀ s, Inv s → Good s)
    (hbad : ∀ s e s', Inv s → step s e s' → Good s' → ok s e)
    (h : Run step s tr) (hI : Inv s) : (∀ x ∈ tr, Good x.2) ↔ Along ok s tr := by
  constructor
  · intro hg
    induction h with
    | nil => trivial
    | cons hs _ ih =>
      have ho := hbad _ _ _ hI hs (hg _ List.mem_cons_self)
      exact ⟨ho,ih (hstep _ _ _ hI ho hs) fun x hx => hg x (List.mem_cons_of_mem _ hx)⟩
  · intro ha x hx
    exact hgood _ (h.invariant Inv hstep ha hI x hx)

end Runs
