import Mathlib.Data.List.Range
import Mathlib.Algebra.Order.Ring.Nat
import Mathlib.Tactic.Ring

/-! A flat byte memory: ranges read from it, stores of byte strings into it, and numbers in
network order. What a sequence of stores leaves at a position depends on the memory before
exactly when no store covers the position. -/
namespace Memory

abbrev Mem := ℕ → UInt8

/-- The `n` bytes from position `i` on. -/
def slice (m : Mem) (i n : ℕ) : List UInt8 := (List.range' i n).map m

@[simp] theorem length_slice (m : Mem) (i n : ℕ) : (slice m i n).length = n := by
  simp [slice]

@[simp] theorem slice_zero (m : Mem) (i : ℕ) : slice m i 0 = [] := rfl

theorem slice_succ (m : Mem) (i n : ℕ) : slice m i (n+1) = m i :: slice m (i+1) n := by
  simp [slice, List.range'_succ]

@[simp] theorem getElem_slice (m : Mem) (i n k : ℕ) (h : k < (slice m i n).length) :
    (slice m i n)[k] = m (i+k) := by
  simp [slice]

theorem slice_append (m : Mem) (i a b : ℕ) : slice m i a ++ slice m (i+a) b = slice m i (a+b) := by
  simp [slice, ← List.map_append, List.range'_append_1]

theorem slice_eq_append {m : Mem} {i a b : ℕ} {x y : List UInt8}
    (h : slice m i (a+b) = x ++ y) (hx : x.length = a) : slice m i a = x ∧ slice m (i+a) b = y := by
  rw [← slice_append] at h
  exact List.append_inj h ((length_slice ..).trans hx.symm)

theorem take_slice {m : Mem} {i n k : ℕ} (h : k ≤ n) : (slice m i n).take k = slice m i k := by
  rw [← Nat.add_sub_of_le h, ← slice_append]
  exact List.take_left' (length_slice ..)

theorem slice_congr {m m' : Mem} {i n : ℕ} (h : ∀ j, i ≤ j → j < i+n → m j = m' j) :
    slice m i n = slice m' i n := by
  apply List.map_congr_left
  intro j hj
  obtain ⟨hl,hu⟩ := List.mem_range'_1.mp hj
  exact h j hl hu

theorem slice_eq_iff {m m' : Mem} {i n : ℕ} :
    slice m i n = slice m' i n ↔ ∀ j, i ≤ j → j < i+n → m j = m' j := by
  refine ⟨fun h j hl hu => ?_,slice_congr⟩
  have hk : j-i < (slice m i n).length := by
    rw [length_slice]
    omega
  have hj : i+(j-i) = j := by omega
  have := List.getElem_of_eq h hk
  rwa [getElem_slice, getElem_slice, hj] at this

/-- The memories agree below position `n`. -/
def AgreeBelow (n : ℕ) (m m' : Mem) : Prop := ∀ i < n, m i = m' i

theorem AgreeBelow.refl (n : ℕ) (m : Mem) : AgreeBelow n m m := fun _ _ => rfl

theorem AgreeBelow.trans {n : ℕ} {m m' m'' : Mem} (h : AgreeBelow n m m')
    (h' : AgreeBelow n m' m'') : AgreeBelow n m m'' :=
  fun i hi => (h i hi).trans (h' i hi)

theorem AgreeBelow.slice {n i k : ℕ} {m m' : Mem} (h : AgreeBelow n m m') (hk : i+k ≤ n) :
    slice m i k = slice m' i k :=
  slice_congr fun j _ hj => h j (by omega)

theorem agreeBelow_update {n i : ℕ} (m : Mem) (b : UInt8) (h : n ≤ i) :
    AgreeBelow n m (Function.update m i b) := by
  intro j hj
  have hne : j ≠ i := by omega
  rw [Function.update_of_ne hne]

/-- `memcpy` of `bs` to position `i`. -/
def store (m : Mem) (i : ℕ) (bs : List UInt8) : Mem := fun j =>
  if i ≤ j then bs[j-i]?.getD (m j) else m j

theorem AgreeBelow.store {n i : ℕ} {m m' : Mem} (h : AgreeBelow n m m') (bs : List UInt8) :
    AgreeBelow n (store m i bs) (store m' i bs) := by
  intro j hj
  simp only [Memory.store, h j hj]

theorem store_outside {m : Mem} {i j : ℕ} {bs : List UInt8} (h : j < i ∨ i+bs.length ≤ j) :
    store m i bs j = m j := by
  unfold store
  split
  next hij =>
    have hk : bs.length ≤ j-i := by omega
    rw [List.getElem?_eq_none hk]
    rfl
  next => rfl

theorem store_inside {m : Mem} {i k : ℕ} {bs : List UInt8} (h : k < bs.length) :
    store m i bs (i+k) = bs[k] := by
  have hk : i+k-i = k := by omega
  simp [store, hk, h]

/-- A range that is stored whole reads back. -/
theorem slice_store_self (m : Mem) (i : ℕ) (bs : List UInt8) :
    slice (store m i bs) i bs.length = bs := by
  apply List.ext_getElem (by simp)
  intro k hk hb
  rw [getElem_slice, store_inside hb]

theorem slice_store_outside {m : Mem} {i n a : ℕ} {bs : List UInt8}
    (h : i+n ≤ a ∨ a+bs.length ≤ i) : slice (store m a bs) i n = slice m i n := by
  apply slice_congr
  intro j hl hu
  apply store_outside
  omega

/-- Stores one after another. -/
def stores (m : Mem) : List (ℕ × List UInt8) → Mem
  | [] => m
  | (i,bs)::ss => stores (store m i bs) ss

/-- Some store of the sequence writes position `j`. -/
def Covered (ss : List (ℕ × List UInt8)) (j : ℕ) : Prop :=
  ∃ s ∈ ss, s.1 ≤ j ∧ j < s.1+s.2.length

@[simp] theorem stores_nil (m : Mem) : stores m [] = m := rfl

@[simp] theorem stores_cons (m : Mem) (i : ℕ) (bs : List UInt8) (ss : List (ℕ × List UInt8)) :
    stores m ((i,bs) :: ss) = stores (store m i bs) ss := rfl

theorem stores_append (m : Mem) (ss ss' : List (ℕ × List UInt8)) :
    stores m (ss ++ ss') = stores (stores m ss) ss' := by
  induction ss generalizing m with
  | nil => rfl
  | cons s ss ih => exact ih _

@[simp] theorem covered_nil (j : ℕ) : ¬ Covered [] j := by
  simp [Covered]

@[simp] theorem covered_cons (i j : ℕ) (bs : List UInt8) (ss : List (ℕ × List UInt8)) :
    Covered ((i,bs) :: ss) j ↔ (i ≤ j ∧ j < i+bs.length) ∨ Covered ss j := by
  simp [Covered]

theorem covered_append (ss ss' : List (ℕ × List UInt8)) (j : ℕ) :
    Covered (ss ++ ss') j ↔ Covered ss j ∨ Covered ss' j := by
  simp [Covered, or_and_right, exists_or]

theorem stores_uncovered {ss : List (ℕ × List UInt8)} {j : ℕ} (m : Mem) (h : ¬ Covered ss j) :
    stores m ss j = m j := by
  induction ss generalizing m with
  | nil => rfl
  | cons s ss ih =>
    rw [covered_cons, not_or] at h
    rw [stores_cons, ih _ h.2]
    apply store_outside
    omega

/-- A covered position does not depend on the memory before. -/
theorem stores_covered {ss : List (ℕ × List UInt8)} {j : ℕ} (m m' : Mem) (h : Covered ss j) :
    stores m ss j = stores m' ss j := by
  induction ss generalizing m m' with
  | nil => exact absurd h (covered_nil j)
  | cons s ss ih =>
    rw [stores_cons, stores_cons]
    by_cases hc : Covered ss j
    · exact ih _ _ hc
    · obtain ⟨hl,hu⟩ := ((covered_cons ..).mp h).resolve_right hc
      rw [stores_uncovered _ hc, stores_uncovered _ hc]
      have hk : j-s.1 < s.2.length := by omega
      have hj : s.1+(j-s.1) = j := by omega
      rw [← hj, store_inside hk, store_inside hk]

/-- The last part of a sequence of stores decides where it covers, the first part elsewhere. -/
theorem stores_append_covered {ss' : List (ℕ × List UInt8)} {j : ℕ} (m m' : Mem)
    (ss : List (ℕ × List UInt8)) (h : Covered ss' j) :
    stores m (ss ++ ss') j = stores m' ss' j := by
  rw [stores_append]
  exact stores_covered _ _ h

theorem stores_append_uncovered {ss' : List (ℕ × List UInt8)} {j : ℕ} (m : Mem)
    (ss : List (ℕ × List UInt8)) (h : ¬ Covered ss' j) :
    stores m (ss ++ ss') j = stores m ss j := by
  rw [stores_append, stores_uncovered _ h]

theorem slice_stores_outside {ss : List (ℕ × List UInt8)} {i n : ℕ} (m : Mem)
    (h : ∀ t ∈ ss, i+n ≤ t.1 ∨ t.1+t.2.length ≤ i) : slice (stores m ss) i n = slice m i n := by
  induction ss generalizing m with
  | nil => rfl
  | cons s ss ih =>
    rw [stores_cons, ih _ fun t ht => h t (List.mem_cons_of_mem _ ht)]
    exact slice_store_outside (h s List.mem_cons_self)

/-- No two of the stores overlap. -/
def Apart (ss : List (ℕ × List UInt8)) : Prop :=
  ss.Pairwise fun s t => s.1+s.2.length ≤ t.1 ∨ t.1+t.2.length ≤ s.1

/-- Each of a sequence of stores that do not overlap reads back. -/
theorem slice_stores_mem {ss : List (ℕ × List UInt8)} {i : ℕ} {bs : List UInt8} (m : Mem)
    (h : Apart ss) (hs : (i,bs) ∈ ss) : slice (stores m ss) i bs.length = bs := by
  induction ss generalizing m with
  | nil => simp at hs
  | cons s ss ih =>
    obtain ⟨hhead,htail⟩ := List.pairwise_cons.mp h
    obtain rfl | hs := List.mem_cons.mp hs
    · rw [stores_cons, slice_stores_outside _ hhead, slice_store_self]
    · exact ih _ htail hs

/-! Numbers in network order. -/

/-- The low `w` bytes of `n`, the most significant first. -/
def toBE : ℕ → ℕ → List UInt8
  | 0, _ => []
  | w+1, n => UInt8.ofNat (n/256^w) :: toBE w n

def ofBE : List UInt8 → ℕ
  | [] => 0
  | b::bs => b.toNat*256^bs.length+ofBE bs

@[simp] theorem length_toBE (w n : ℕ) : (toBE w n).length = w := by
  induction w with
  | zero => rfl
  | succ w ih => rw [toBE, List.length_cons, ih]

theorem ofBE_toBE (w n : ℕ) : ofBE (toBE w n) = n % 256^w := by
  induction w with
  | zero => simp [toBE, ofBE, Nat.mod_one]
  | succ w ih =>
    have hb : (2 : ℕ)^8 = 256 := rfl
    rw [toBE, ofBE, ih, length_toBE, UInt8.toNat_ofNat', hb, pow_succ, Nat.mod_mul]
    ring

/-- `htons`, as the two bytes it puts in memory. -/
def htons (v : UInt16) : List UInt8 := toBE 2 v.toNat
def htonl (v : UInt32) : List UInt8 := toBE 4 v.toNat

/-- `ntohs` of two bytes in memory. -/
def ntohs (bs : List UInt8) : UInt16 := UInt16.ofNat (ofBE bs)
def ntohl (bs : List UInt8) : UInt32 := UInt32.ofNat (ofBE bs)

@[simp] theorem length_htons (v : UInt16) : (htons v).length = 2 := length_toBE 2 _
@[simp] theorem length_htonl (v : UInt32) : (htonl v).length = 4 := length_toBE 4 _

@[simp] theorem ntohs_htons (v : UInt16) : ntohs (htons v) = v := by
  apply UInt16.toNat_inj.mp
  have hv := v.toNat_lt
  rw [ntohs, htons, ofBE_toBE, UInt16.toNat_ofNat']
  omega

@[simp] theorem ntohl_htonl (v : UInt32) : ntohl (htonl v) = v := by
  apply UInt32.toNat_inj.mp
  have hv := v.toNat_lt
  rw [ntohl, htonl, ofBE_toBE, UInt32.toNat_ofNat']
  omega

/-- The value of a 16-bit number in memory. -/
theorem toNat_ntohs_slice (m : Mem) (i : ℕ) :
    (ntohs (slice m i 2)).toNat = (m i).toNat*256+(m (i+1)).toNat := by
  have h0 := (m i).toNat_lt
  have h1 := (m (i+1)).toNat_lt
  rw [slice_succ, slice_succ, slice_zero, ntohs, UInt16.toNat_ofNat']
  simp only [ofBE, List.length_cons, List.length_nil]
  omega

/-- A word from its two bytes. -/
theorem low_or_high (w : UInt16) :
    w.toUInt8.toUInt16 ||| (w >>> 8).toUInt8.toUInt16 <<< 8 = w := by
  apply UInt16.toBitVec_inj.mp
  ext i hi
  simp only [UInt16.toBitVec_or, UInt8.toBitVec_toUInt16, UInt16.toBitVec_toUInt8,
    UInt16.toBitVec_shiftLeft, UInt16.toBitVec_shiftRight]
  by_cases hlow : i < 8
  · simp [hlow, BitVec.getLsbD_eq_getElem hi]
  · have hhigh : i-8 < 8 := by omega
    have hsum : 8+(i-8) = i := by omega
    simp [hlow, hhigh, hsum, BitVec.getLsbD_eq_getElem hi]

end Memory
