import Mathlib.Data.List.TakeWhile
import Mathlib.Data.List.TakeDrop

/-! Fixed-size byte arrays, overwritten from the front, and the NUL-terminated strings
that are read back from them. -/

namespace Vector
variable {α : Type} {n : ℕ}

/-- The element with a number below the length. -/
abbrev slot (v : Vector α n) (i : Fin n) : α := v[i]

abbrev put (v : Vector α n) (i : Fin n) (x : α) : Vector α n := v.set i x

theorem slot_put (v : Vector α n) (i j : Fin n) (x : α) :
    (v.put i x).slot j = if i = j then x else v.slot j := by
  simp only [slot, put, Fin.getElem_fin, Vector.getElem_set, Fin.ext_iff]

end Vector

namespace Bytes

/-- `memcpy` of a list into the front of a fixed array; a longer list is cut at the end. -/
def overwrite {α : Type} {n : ℕ} (dst : Vector α n) (src : List α) : Vector α n :=
  Vector.ofFn fun i => (src[i.val]?).getD dst[i]

theorem take_overwrite {α : Type} {n : ℕ} (dst : Vector α n) (src : List α)
    (h : src.length ≤ n) : (overwrite dst src).toList.take src.length = src := by
  apply List.ext_getElem
  · simp only [List.length_take, Vector.length_toList]; omega
  · intro i h₁ h₂
    simp [overwrite, h₂]

@[simp] theorem overwrite_overwrite {α : Type} {n : ℕ} (dst : Vector α n) (src : List α) :
    overwrite (overwrite dst src) src = overwrite dst src := by
  apply Vector.ext
  intro i hi
  cases h : src[i]? <;> simp [overwrite, h]

theorem overwrite_toList {α : Type} {n : ℕ} (dst src : Vector α n) :
    overwrite dst src.toList = src := by
  apply Vector.ext
  intro i hi
  simp [overwrite]

@[simp] theorem overwrite_nil {α : Type} {n : ℕ} (dst : Vector α n) : overwrite dst [] = dst := by
  apply Vector.ext
  intro i hi
  simp [overwrite]

/-- The bytes up to the first NUL. -/
def cstr (l : List UInt8) : List UInt8 := l.takeWhile (· ≠ 0)

theorem zero_notMem_cstr (l : List UInt8) : (0 : UInt8) ∉ cstr l := by
  intro h
  simpa using List.mem_takeWhile_imp h

theorem cstr_append_zero {l r : List UInt8} (h : (0 : UInt8) ∉ l) : cstr (l ++ 0 :: r) = l := by
  unfold cstr
  rw [List.takeWhile_append_of_pos]
  · simp
  · intro b hb
    simp only [ne_eq, decide_not, Bool.not_eq_eq_eq_not, Bool.not_true, decide_eq_false_iff_not]
    rintro rfl
    exact h hb

/-- A string a C program can hold: no byte of it is NUL. -/
structure CString where
  bytes : List UInt8
  noNul : (0 : UInt8) ∉ bytes
  deriving DecidableEq

namespace CString

/-- The empty string. -/
def empty : CString := ⟨[],by decide⟩

/-- What a C function reads from a buffer. -/
def read (l : List UInt8) : CString := ⟨cstr l,zero_notMem_cstr l⟩

def take (s : CString) (n : ℕ) : CString :=
  ⟨s.bytes.take n,fun h => s.noNul (List.mem_of_mem_take h)⟩

def append (s t : CString) : CString :=
  ⟨s.bytes ++ t.bytes,fun h => (List.mem_append.mp h).elim s.noNul t.noNul⟩

theorem ext_bytes {s t : CString} (h : s.bytes = t.bytes) : s = t := by
  cases s
  cases h
  rfl

theorem take_of_le {s : CString} {n : ℕ} (h : s.bytes.length ≤ n) : s.take n = s :=
  ext_bytes (List.take_of_length_le h)

end CString

/-- The index of the last occurrence. -/
def strrchr (c : UInt8) : List UInt8 → Option ℕ
  | [] => none
  | b :: s =>
    match strrchr c s with
    | some i => some (i+1)
    | none => if b = c then some 0 else none

theorem strrchr_eq_none {c : UInt8} {l : List UInt8} (h : c ∉ l) : strrchr c l = none := by
  induction l with
  | nil => rfl
  | cons b l ih =>
    rw [List.mem_cons, not_or] at h
    rw [strrchr, ih h.2]
    exact if_neg (Ne.symm h.1)

/-- Behind the last occurrence there is none. -/
theorem strrchr_append {c : UInt8} (l : List UInt8) {r : List UInt8} (h : c ∉ r) :
    strrchr c (l ++ c :: r) = some l.length := by
  induction l with
  | nil =>
    rw [List.nil_append, strrchr, strrchr_eq_none h]
    exact if_pos rfl
  | cons b l ih => rw [List.cons_append, strrchr, ih, List.length_cons]

/-- `snprintf (buf, n+1, "%s", s)` into a zeroed array of `n+1` bytes. -/
def snprintf (n : ℕ) (s : CString) : Vector UInt8 (n+1) :=
  overwrite (Vector.replicate (n+1) 0) (s.bytes.take n)

/-- A field whose last byte is forced to NUL after a `memcpy`. -/
def terminate {n : ℕ} (v : Vector UInt8 (n+1)) : Vector UInt8 (n+1) := v.set n 0

theorem snprintf_toList (n : ℕ) (s : CString) (h : s.bytes.length ≤ n) :
    (snprintf n s).toList = s.bytes ++ 0 :: List.replicate (n-s.bytes.length) 0 := by
  apply List.ext_getElem
  · simp; omega
  · intro i h₁ h₂
    have hi : i < n+1 := by simpa using h₁
    by_cases hs : i < s.bytes.length
    · have hn : i < n := by omega
      simp [snprintf, overwrite, List.getElem?_take, hn, hs]
    · simp only [snprintf, overwrite, List.take_of_length_le h, Vector.getElem_toList,
        Vector.getElem_ofFn, List.getElem_append_right (Nat.le_of_not_lt hs)]
      rw [List.getElem?_eq_none (Nat.le_of_not_lt hs)]
      rcases Nat.eq_zero_or_pos (i-s.bytes.length) with h0 | h0
      · simp [h0]
      · obtain ⟨j,hj⟩ := Nat.exists_eq_succ_of_ne_zero h0.ne'
        simp [hj]

theorem terminate_snprintf (n : ℕ) (s : CString) (h : s.bytes.length ≤ n) :
    terminate (snprintf n s) = snprintf n s := by
  apply Vector.ext
  intro i hi
  simp only [terminate, Vector.getElem_set]
  split_ifs with he
  · subst he
    simp [snprintf, overwrite, List.take_of_length_le h, List.getElem?_eq_none h]
  · rfl

theorem cstr_snprintf (n : ℕ) (s : CString) (h : s.bytes.length ≤ n) :
    cstr (snprintf n s).toList = s.bytes := by
  rw [snprintf_toList n s h, cstr_append_zero s.noNul]

end Bytes
