import Mathlib.Data.Nat.Notation
import Mathlib.Order.Nat

/-! Ranges laid end to end, each a positive multiple of one unit. -/

/-- The ranges, each a start and a length, tile the positions from `a` to `b`. -/
inductive Tiles (unit : ℕ) : ℕ → ℕ → List (ℕ × ℕ) → Prop
  | nil (a : ℕ) : Tiles unit a a []
  | cons {a b n : ℕ} {ranges : List (ℕ × ℕ)} (pos : 0 < n) (whole : unit ∣ n)
      (rest : Tiles unit (a+n) b ranges) : Tiles unit a b ((a,n) :: ranges)

namespace Tiles
variable {unit a b j : ℕ} {ranges : List (ℕ × ℕ)}

theorem le (h : Tiles unit a b ranges) : a ≤ b := by
  induction h with
  | nil => exact Nat.le_refl _
  | cons _ _ _ ih => omega

/-- Every position lies in a range. -/
theorem covers (h : Tiles unit a b ranges) (hl : a ≤ j) (hu : j < b) :
    ∃ r ∈ ranges, r.1 ≤ j ∧ j < r.1+r.2 := by
  induction h with
  | nil => omega
  | @cons a b n ranges _ _ _ ih =>
    by_cases hj : j < a+n
    · exact ⟨(a,n),List.mem_cons_self,hl,hj⟩
    · obtain ⟨r,hr,hin⟩ := ih (by omega) hu
      exact ⟨r,List.mem_cons_of_mem _ hr,hin⟩

/-- Every range lies between the ends. -/
theorem within (h : Tiles unit a b ranges) : ∀ r ∈ ranges, a ≤ r.1 ∧ r.1+r.2 ≤ b := by
  induction h with
  | nil => simp
  | @cons a b n ranges _ _ rest ih =>
    intro r hr
    obtain rfl | hr := List.mem_cons.mp hr
    · exact ⟨Nat.le_refl _,rest.le⟩
    · obtain ⟨hl,hu⟩ := ih r hr
      exact ⟨by omega,hu⟩

end Tiles
