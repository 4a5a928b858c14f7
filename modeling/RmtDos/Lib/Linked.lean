import Mathlib.Data.List.Basic

/-! Singly linked lists threaded through a table: `Linked next head l` says that following the
links from `head` visits exactly the nodes of `l` and ends at the null link. -/
namespace LinkedList
variable {ι : Type*}

def Linked (next : ι → Option ι) : Option ι → List ι → Prop
  | head, [] => head = none
  | head, i::l => head = some i ∧ Linked next (next i) l

variable {next next' : ι → Option ι} {head : Option ι} {i : ι} {l l' : List ι}

@[simp] theorem linked_none : Linked next none l ↔ l = [] := by
  cases l <;> simp [Linked]

@[simp] theorem linked_nil : Linked next head [] ↔ head = none := Iff.rfl

@[simp] theorem linked_cons : Linked next head (i :: l) ↔ head = some i ∧ Linked next (next i) l :=
  Iff.rfl

/-- Only the links of the nodes on the chain matter. -/
theorem Linked.congr (h : Linked next head l) (hn : ∀ i ∈ l, next' i = next i) :
    Linked next' head l := by
  induction l generalizing head with
  | nil => exact h
  | cons i l ih =>
    refine ⟨h.1,?_⟩
    rw [hn i List.mem_cons_self]
    exact ih h.2 fun j hj => hn j (List.mem_cons_of_mem _ hj)

theorem Linked.head_eq_none (h : Linked next head l) : head = none ↔ l = [] := by
  constructor
  · rintro rfl
    exact linked_none.mp h
  · rintro rfl
    exact h

end LinkedList
