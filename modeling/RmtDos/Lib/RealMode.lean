import Mathlib.Data.Set.Lattice
import Mathlib.Order.CompletePartialOrder
import RmtDos.Lib.Memory

/-! Memory seen through segments: words at an address, the bytes from an address on, and what a store
leaves alone. -/
namespace RealMode
open Memory

def linear (seg off : UInt16) : ℕ := (16*seg.toNat+off.toNat)%1048576

/-- The word at an address, the low byte first. The offset wraps within the segment. -/
def peek (m : Mem) (seg off : UInt16) : UInt16 :=
  (m (linear seg off)).toUInt16 ||| (m (linear seg (off+1))).toUInt16 <<< 8

def poke (m : Mem) (seg off v : UInt16) : Mem :=
  Function.update (Function.update m (linear seg off) v.toUInt8) (linear seg (off+1))
    (v >>> 8).toUInt8

/-- A double word, the low word first. -/
def peekLong (m : Mem) (seg off : UInt16) : UInt32 :=
  (peek m seg off).toUInt32 ||| (peek m seg (off+2)).toUInt32 <<< 16

def pokeLong (m : Mem) (seg off : UInt16) (v : UInt32) : Mem :=
  poke (poke m seg off v.toUInt16) seg (off+2) (v >>> 16).toUInt16

/-- The `n` bytes from an address on. -/
def Span (seg off : UInt16) (n : ℕ) : Set ℕ := {a | ∃ k < n, a = linear seg (off+UInt16.ofNat k)}

/-- The bytes of a set are the same in both memories. -/
def SameOn (A : Set ℕ) (m m' : Mem) : Prop := ∀ a ∈ A, m' a = m a

/-- The words of a list lie one after the other. -/
def Words (m : Mem) (seg : UInt16) : UInt16 → List UInt16 → Prop
  | _, [] => True
  | off, w::ws => peek m seg off = w ∧ Words m seg (off+2) ws

variable {m m' m'' : Mem} {seg seg' off off' v : UInt16} {ws : List UInt16} {A B : Set ℕ} {n k : ℕ}

theorem linear_inj : linear seg off = linear seg off' ↔ off = off' := by
  refine ⟨fun h => UInt16.toNat_inj.mp ?_,fun h => h ▸ rfl⟩
  have hoff := off.toNat_lt
  have hoff' := off'.toNat_lt
  unfold linear at h
  omega

theorem peek_poke : peek (poke m seg off v) seg off = v := by
  have hne : linear seg off ≠ linear seg (off+1) := fun h => by
    have h1 := linear_inj.mp h
    grind
  simp only [peek, poke, Function.update_self, Function.update_of_ne hne, low_or_high]

theorem mem_span_zero (hn : 0 < n) : linear seg off ∈ Span seg off n := ⟨0,hn,by simp⟩

theorem mem_span_one (hn : 1 < n) : linear seg (off+1) ∈ Span seg off n := ⟨1,hn,rfl⟩

theorem SameOn.refl (A : Set ℕ) (m : Mem) : SameOn A m m := fun _ _ => rfl

theorem SameOn.trans (h : SameOn A m m') (h' : SameOn A m' m'') : SameOn A m m'' :=
  fun a ha => (h' a ha).trans (h a ha)

theorem SameOn.mono (h : SameOn B m m') (hA : A ⊆ B) : SameOn A m m' := fun a ha => h a (hA ha)

theorem SameOn.union (h : SameOn A m m') (h' : SameOn B m m') : SameOn (A ∪ B) m m' :=
  fun a ha => ha.elim (h a) (h' a)

theorem SameOn.peek (h : SameOn (Span seg off 2) m m') : peek m' seg off = peek m seg off := by
  rw [RealMode.peek, h _ (mem_span_zero (by decide)), h _ (mem_span_one (by decide))]
  rfl

theorem sameOn_poke (h : Disjoint (Span seg off 2) A) : SameOn A m (poke m seg off v) := by
  intro a ha
  have hne {b : ℕ} (hb : b ∈ Span seg off 2) : a ≠ b := fun hab =>
    Set.disjoint_left.mp h hb (hab ▸ ha)
  rw [poke, Function.update_of_ne (hne (mem_span_one (by decide))),
    Function.update_of_ne (hne (mem_span_zero (by decide)))]

/-! Spans of one segment, by their distance from a common offset. -/

theorem span_mono {i j : ℕ} (hi : j ≤ i) (hn : i+n ≤ j+k) :
    Span seg (off+UInt16.ofNat i) n ⊆ Span seg (off+UInt16.ofNat j) k := by
  rintro _ ⟨l,hl,rfl⟩
  refine ⟨i-j+l,by omega,congrArg (linear seg) ?_⟩
  rw [UInt16.add_assoc, UInt16.add_assoc, ← UInt16.ofNat_add, ← UInt16.ofNat_add]
  congr 2
  omega

theorem span_disjoint {i j : ℕ} (hij : i+n ≤ j) (hj : j+k ≤ i+65536) :
    Disjoint (Span seg (off+UInt16.ofNat i) n) (Span seg (off+UInt16.ofNat j) k) := by
  rw [Set.disjoint_left]
  rintro _ ⟨l,hl,rfl⟩ ⟨l',hl',heq⟩
  have hoff := linear_inj.mp heq
  rw [UInt16.add_assoc, UInt16.add_assoc, ← UInt16.ofNat_add, ← UInt16.ofNat_add] at hoff
  have hsum := congrArg UInt16.toNat hoff
  rw [UInt16.toNat_add, UInt16.toNat_add, UInt16.toNat_ofNat', UInt16.toNat_ofNat'] at hsum
  have hlt := off.toNat_lt
  omega

/-- Spans that do not wrap, one below the other. -/
theorem span_apart (h : off.toNat+n ≤ 65536) (h' : off'.toNat+k ≤ 65536 ∧ 16*seg.toNat+65536 ≤ 1048576 ∧
    16*seg'.toNat+65536 ≤ 1048576) (hle : 16*seg'.toNat+off'.toNat+k ≤ 16*seg.toNat+off.toNat) :
    Disjoint (Span seg off n) (Span seg' off' k) := by
  rw [Set.disjoint_left]
  rintro _ ⟨l,hl,rfl⟩ ⟨l',hl',heq⟩
  unfold linear at heq
  rw [UInt16.toNat_add, UInt16.toNat_add, UInt16.toNat_ofNat', UInt16.toNat_ofNat'] at heq
  omega

theorem span_head : Span seg off n ⊆ Span seg off (n+k) := by
  rintro a ⟨l,hl,rfl⟩
  exact ⟨l,by omega,rfl⟩

theorem span_tail : Span seg (off+2) n ⊆ Span seg off (n+2) := by
  have hspan : Span seg (off+UInt16.ofNat 2) n ⊆ Span seg (off+UInt16.ofNat 0) (n+2) :=
    span_mono (by omega) (by omega)
  rwa [show off+UInt16.ofNat 0 = off from UInt16.add_zero off] at hspan

theorem sameOn_pokeLong {v : UInt32} (h : Disjoint (Span seg off 4) A) :
    SameOn A m (pokeLong m seg off v) :=
  (sameOn_poke (h.mono_left (@span_head seg off 2 2))).trans
    (sameOn_poke (h.mono_left (@span_tail seg off 2)))

theorem Words.same (h : Words m seg off ws) (hs : SameOn (Span seg off (2*ws.length)) m m') :
    Words m' seg off ws := by
  induction ws generalizing off with
  | nil => trivial
  | cons w ws ih =>
    have hlen : 2*(w :: ws).length = 2*ws.length+2 := Nat.mul_succ 2 ws.length
    rw [hlen] at hs
    refine ⟨?_,ih h.2 (hs.mono span_tail)⟩
    rw [SameOn.peek (hs.mono ((Nat.add_comm .. : 2*ws.length+2 = 2+2*ws.length) ▸ span_head))]
    exact h.1

/-- A push keeps the words above it. -/
theorem Words.push (h : Words m seg off ws) (hlen : 2*ws.length+2 ≤ 65536) (v : UInt16) :
    Words (poke m seg (off-2) v) seg (off-2) (v :: ws) := by
  have hup : off-2+2 = off := UInt16.sub_add_cancel off 2
  refine ⟨peek_poke,?_⟩
  rw [hup]
  refine h.same (sameOn_poke ?_)
  have hdisjoint : Disjoint (Span seg (off-2+UInt16.ofNat 0) 2)
      (Span seg (off-2+UInt16.ofNat 2) (2*ws.length)) := span_disjoint le_rfl (by omega)
  rwa [show off-2+UInt16.ofNat 0 = off-2 from UInt16.add_zero _,
    show off-2+UInt16.ofNat 2 = off from hup] at hdisjoint

theorem add_words (v : UInt16) (n : ℕ) : v+2+UInt16.ofNat (2*n) = v+UInt16.ofNat (2*(n+1)) := by
  rw [Nat.mul_succ, UInt16.ofNat_add]
  grind

theorem sub_words (v : UInt16) (n : ℕ) : v-UInt16.ofNat (2*n)-2 = v-UInt16.ofNat (2*(n+1)) := by
  rw [Nat.mul_succ, UInt16.ofNat_add]
  grind

theorem words_append {ws' : List UInt16} : Words m seg off (ws ++ ws') ↔
    Words m seg off ws ∧ Words m seg (off+UInt16.ofNat (2*ws.length)) ws' := by
  induction ws generalizing off with
  | nil =>
    have hzero : off+UInt16.ofNat (2*([] : List UInt16).length) = off := UInt16.add_zero off
    rw [hzero, List.nil_append]
    exact ⟨fun h => ⟨trivial,h⟩,fun h => h.2⟩
  | cons w ws ih =>
    rw [List.cons_append, Words, Words, ih, add_words, and_assoc]
    rfl

/-- A word stored after a list of words continues the list. -/
theorem Words.snoc (h : Words m seg off ws) (hlen : 2*ws.length+2 ≤ 65536) (v : UInt16) :
    Words (poke m seg (off+UInt16.ofNat (2*ws.length)) v) seg off (ws ++ [v]) := by
  have hdisjoint : Disjoint (Span seg (off+UInt16.ofNat 0) (2*ws.length))
      (Span seg (off+UInt16.ofNat (2*ws.length)) 2) := span_disjoint (by omega) (by omega)
  rw [show UInt16.ofNat 0 = 0 from rfl, UInt16.add_zero] at hdisjoint
  exact words_append.mpr ⟨h.same (sameOn_poke hdisjoint.symm),peek_poke,trivial⟩

/-- The words were stored one after the other, and nothing else. -/
structure Stored (seg off : UInt16) (ws : List UInt16) (m m' : Mem) : Prop where
  words : Words m' seg off ws
  same : SameOn (Span seg off (2*ws.length))ᶜ m m'

theorem Stored.nil (seg off : UInt16) (m : Mem) : Stored seg off [] m m := ⟨trivial,SameOn.refl _ m⟩

theorem Stored.snoc (h : Stored seg off ws m m') (hlen : 2*ws.length+2 ≤ 65536) (v : UInt16) :
    Stored seg off (ws ++ [v]) m (poke m' seg (off+UInt16.ofNat (2*ws.length)) v) := by
  have hspan : Span seg (off+UInt16.ofNat (2*ws.length)) 2 ⊆
      Span seg (off+UInt16.ofNat 0) (2*ws.length+2) := span_mono (by omega) (by omega)
  rw [show UInt16.ofNat 0 = 0 from rfl, UInt16.add_zero] at hspan
  refine ⟨h.words.snoc hlen v,?_⟩
  rw [List.length_append, List.length_singleton, Nat.mul_succ]
  refine SameOn.trans (h.same.mono ?_) (sameOn_poke ?_)
  · exact Set.compl_subset_compl.mpr span_head
  · exact Set.disjoint_compl_right_iff_subset.mpr hspan

end RealMode
