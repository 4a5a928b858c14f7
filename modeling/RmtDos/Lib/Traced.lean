import Mathlib.Data.Set.Function
import RmtDos.Lib.Memory

/-! A byte memory with the positions that have been written, and the bytes stored one after another
in an array. An array is given by the position of each index, so that its indices may be wrapped
around or translated on the way to the memory. -/
namespace Memory

/-- A memory and the positions written so far, in order. -/
structure Traced where
  mem : Mem
  written : List ℕ

/-- The `n` bytes from index `k` on. -/
def view (pos : ℕ → ℕ) (m : Mem) (k n : ℕ) : List UInt8 := (List.range' k n).map fun j => m (pos j)

theorem view_append (pos : ℕ → ℕ) (m : Mem) (k a b : ℕ) :
    view pos m k a ++ view pos m (k+a) b = view pos m k (a+b) := by
  simp [view, ← List.map_append, List.range'_append_1]

/-- The front of an array. -/
theorem view_front {pos : ℕ → ℕ} {m : Mem} {k a n : ℕ} (h : a ≤ n) :
    view pos m k a <+: view pos m k n := by
  rw [← Nat.add_sub_of_le h, ← view_append]
  exact List.prefix_append _ _

namespace Traced

def put (t : Traced) (i : ℕ) (b : UInt8) : Traced :=
  ⟨Function.update t.mem i b,t.written ++ [i]⟩

/-- Stores bytes in an array, from index `k` on. -/
def fill (pos : ℕ → ℕ) (t : Traced) (k : ℕ) : List UInt8 → Traced
  | [] => t
  | b::bs => fill pos (t.put (pos k) b) (k+1) bs

variable {pos : ℕ → ℕ} {t : Traced} {i k n : ℕ} {b : UInt8} {bs : List UInt8}

theorem fill_append (bs' : List UInt8) :
    t.fill pos k (bs ++ bs') = (t.fill pos k bs).fill pos (k+bs.length) bs' := by
  induction bs generalizing t k with
  | nil => rfl
  | cons b bs ih =>
    rw [List.cons_append, fill, fill, ih, List.length_cons, Nat.add_assoc, Nat.add_comm 1]

theorem fill_singleton : t.fill pos k [b] = t.put (pos k) b := rfl

/-- The positions of the indices that are stored to, and no others, are written. -/
theorem written_fill :
    (t.fill pos k bs).written = t.written ++ (List.range' k bs.length).map pos := by
  induction bs generalizing t k with
  | nil => simp [fill]
  | cons b bs ih =>
    rw [fill, ih, put, List.length_cons, List.range'_succ, List.map_cons, List.append_assoc,
      List.singleton_append]

theorem mem_written_fill :
    i ∈ (t.fill pos k bs).written ↔
      i ∈ t.written ∨ ∃ j, k ≤ j ∧ j < k+bs.length ∧ pos j = i := by
  simp [written_fill, List.mem_range'_1, and_assoc]

theorem mem_fill_outside (h : ∀ j, k ≤ j → j < k+bs.length → pos j ≠ i) :
    (t.fill pos k bs).mem i = t.mem i := by
  induction bs generalizing t k with
  | nil => rfl
  | cons b bs ih =>
    rw [List.length_cons] at h
    rw [fill, ih fun j hl hu => h j (by omega) (by omega)]
    exact Function.update_of_ne (h k le_rfl (by omega)).symm _ _

section injective
variable (hpos : Set.InjOn pos (Set.Iio n))
include hpos

theorem mem_fill_before {j : ℕ} (hn : k+bs.length ≤ n) (hj : j < k) (hjn : j < n) :
    (t.fill pos k bs).mem (pos j) = t.mem (pos j) := by
  apply mem_fill_outside
  intro a hl hu he
  have := hpos (show a ∈ Set.Iio n from hu.trans_le hn) hjn he
  omega

/-- What is stored reads back. -/
theorem view_fill (hn : k+bs.length ≤ n) :
    view pos (t.fill pos k bs).mem k bs.length = bs := by
  induction bs generalizing t k with
  | nil => rfl
  | cons b bs ih =>
    rw [List.length_cons] at hn
    have hhead : (fill pos (t.put (pos k) b) (k+1) bs).mem (pos k) = b := by
      rw [mem_fill_before hpos (by omega) (Nat.lt_succ_self k) (by omega)]
      exact Function.update_self _ _ _
    have htail := @ih (t.put (pos k) b) (k+1) (by omega)
    rw [view, List.length_cons, List.range'_succ, List.map_cons, fill, hhead]
    exact congrArg (b :: ·) htail

/-- What lies in front of it stays. -/
theorem view_fill_before {j a : ℕ} (hn : k+bs.length ≤ n) (ha : j+a ≤ k) :
    view pos (t.fill pos k bs).mem j a = view pos t.mem j a := by
  apply List.map_congr_left
  intro x hx
  obtain ⟨-,hu⟩ := List.mem_range'_1.mp hx
  exact mem_fill_before hpos hn (by omega) (by omega)

end injective

end Traced

/-- An array without wrapping is a range of the memory. -/
theorem view_add (m : Mem) (i k n : ℕ) : view (i+·) m k n = slice m (i+k) n := by
  induction n generalizing k with
  | zero => rfl
  | succ n ih =>
    rw [slice_succ, view, List.range'_succ, List.map_cons]
    exact congrArg (m (i+k) :: ·) (ih (k+1))

end Memory
