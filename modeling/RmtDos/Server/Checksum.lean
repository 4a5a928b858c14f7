import Mathlib.Logic.Function.Iterate
import RmtDos.Server.Video

/-! The checksum over the frame buffer tells two screens apart that differ in one word. -/
namespace RmtDos
open Function

/-- A word of the frame buffer as the machine loads it. -/
def frameWord (mem : FrameBuffer) (si : UInt16) : UInt16 :=
  (mem (si+1)).toUInt16 <<< 8 ||| (mem si).toUInt16

/-- The registers of the loop. -/
structure ChecksumRegs where
  si : UInt16
  cx : UInt16
  dx : UInt16

/-- The loop body, with the decrement of the `loop` instruction. -/
def checksumBody (mem : FrameBuffer) (r : ChecksumRegs) : ChecksumRegs :=
  ⟨r.si+2,r.cx-1,rol1 (r.dx+swappedWord mem r.si)⟩

/-- The `loop` instruction falls through for the first time after `n` iterations. -/
def LoopEnds (mem : FrameBuffer) (r : ChecksumRegs) (n : ℕ) : Prop :=
  0 < n ∧ ((checksumBody mem)^[n] r).cx = 0 ∧
    ∀ m, 0 < m → m < n → ((checksumBody mem)^[m] r).cx ≠ 0

variable {mem mem' : FrameBuffer} {si dx : UInt16}

/-! One step of the checksum. -/

theorem toNat_rol1 (x : UInt16) : (rol1 x).toNat = x.toNat%32768*2+x.toNat/32768 := by
  have hx := x.toNat_lt
  have h1 : UInt16.toNat 1 % 16 = 1 := rfl
  have h15 : UInt16.toNat 15 % 16 = 15 := rfl
  have hleft : x.toNat <<< 1 % 2^16 = (x.toNat%32768) <<< 1 := by
    rw [Nat.shiftLeft_eq, Nat.shiftLeft_eq]
    omega
  rw [rol1, UInt16.toNat_or, UInt16.toNat_shiftLeft, UInt16.toNat_shiftRight, h1, h15, hleft,
    Nat.shiftRight_eq_div_pow, ← Nat.shiftLeft_add_eq_or_of_lt (by omega), Nat.shiftLeft_eq]

/-- The bit that is carried round. -/
theorem top_lt (x : UInt16) : x.toNat/32768 < 2 := by
  have hx := x.toNat_lt
  omega

theorem rol1_injective : Injective rol1 := by
  intro x y h
  have hsum := congrArg UInt16.toNat h
  rw [toNat_rol1, toNat_rol1] at hsum
  apply UInt16.toNat_inj.mp
  rw [← Nat.div_add_mod x.toNat 32768, ← Nat.div_add_mod y.toNat 32768]
  have hx := top_lt x
  have hy := top_lt y
  generalize x.toNat/32768 = a, y.toNat/32768 = b, x.toNat%32768 = p, y.toNat%32768 = q at *
  -- the bit that was carried round is the parity
  omega

/-- The two bytes of a word, as the number they make. -/
theorem toNat_bytes (a b : UInt8) :
    (a.toUInt16 <<< 8 ||| b.toUInt16).toNat = a.toNat*256+b.toNat := by
  have ha := a.toNat_lt
  have hb := b.toNat_lt
  have h8 : UInt16.toNat 8 % 16 = 8 := rfl
  have hleft : a.toNat <<< 8 % 2^16 = a.toNat <<< 8 := by
    rw [Nat.shiftLeft_eq]
    omega
  rw [UInt16.toNat_or, UInt16.toNat_shiftLeft, UInt8.toNat_toUInt16, UInt8.toNat_toUInt16, h8,
    hleft, ← Nat.shiftLeft_add_eq_or_of_lt hb, Nat.shiftLeft_eq]

theorem bytes_inj {a b a' b' : UInt8} :
    a.toUInt16 <<< 8 ||| b.toUInt16 = a'.toUInt16 <<< 8 ||| b'.toUInt16 ↔ a = a' ∧ b = b' := by
  constructor
  · intro h
    have hn := congrArg UInt16.toNat h
    rw [toNat_bytes, toNat_bytes] at hn
    have hb := b.toNat_lt
    have hb' := b'.toNat_lt
    constructor
    · apply UInt8.toNat_inj.mp
      omega
    · apply UInt8.toNat_inj.mp
      omega
  · rintro ⟨rfl,rfl⟩
    rfl

/-- Swapping the bytes keeps words apart and together. -/
theorem swappedWord_eq_iff :
    swappedWord mem si = swappedWord mem' si ↔ frameWord mem si = frameWord mem' si := by
  rw [swappedWord, swappedWord, frameWord, frameWord, bytes_inj, bytes_inj, and_comm]

/-! The loop. -/

theorem checksumLoop_injective (mem : FrameBuffer) (n : ℕ) (si : UInt16) :
    Injective (checksumLoop mem n si) := by
  induction n generalizing si with
  | zero => exact injective_id
  | succ n ih =>
    intro dx dx' h
    exact (UInt16.add_left_inj _).mp (rol1_injective (ih (si+2) h))

/-- The position of the `j`-th word. -/
def wordAt (si : UInt16) (j : ℕ) : UInt16 := si+2*UInt16.ofNat j

@[simp] theorem wordAt_zero (si : UInt16) : wordAt si 0 = si := by
  show si+2*0 = si
  simp

theorem wordAt_succ (si : UInt16) (j : ℕ) : wordAt si (j+1) = wordAt (si+2) j := by
  have hj : UInt16.ofNat (j+1) = UInt16.ofNat j+1 := UInt16.ofNat_add j 1
  rw [wordAt, wordAt, hj, UInt16.mul_add, UInt16.add_comm (2*_), UInt16.add_assoc]
  rfl

theorem checksumLoop_congr {n : ℕ}
    (h : ∀ j < n, frameWord mem (wordAt si j) = frameWord mem' (wordAt si j)) :
    checksumLoop mem n si dx = checksumLoop mem' n si dx := by
  induction n generalizing si dx with
  | zero => rfl
  | succ n ih =>
    have h0 := h 0 n.succ_pos
    rw [wordAt_zero] at h0
    rw [checksumLoop, checksumLoop, swappedWord_eq_iff.mpr h0]
    apply ih
    intro j hj
    rw [← wordAt_succ]
    exact h (j+1) (Nat.succ_lt_succ hj)

/-- From the word that differs on the sums differ. -/
theorem checksumLoop_ne {n k : ℕ} (hk : k < n)
    (hne : frameWord mem (wordAt si k) ≠ frameWord mem' (wordAt si k))
    (heq : ∀ j < n, j ≠ k → frameWord mem (wordAt si j) = frameWord mem' (wordAt si j)) :
    checksumLoop mem n si dx ≠ checksumLoop mem' n si dx := by
  induction n generalizing si dx k with
  | zero => omega
  | succ n ih =>
    rw [checksumLoop, checksumLoop]
    cases k with
    | zero =>
      rw [wordAt_zero] at hne
      have hrest (dx : UInt16) :
          checksumLoop mem n (si+2) dx = checksumLoop mem' n (si+2) dx := by
        apply checksumLoop_congr
        intro j hj
        rw [← wordAt_succ]
        exact heq (j+1) (Nat.succ_lt_succ hj) j.succ_ne_zero
      rw [hrest]
      intro h
      have hsum := rol1_injective (checksumLoop_injective mem' n (si+2) h)
      exact hne (swappedWord_eq_iff.mp ((UInt16.add_right_inj _).mp hsum))
    | succ k =>
      have h0 := heq 0 n.succ_pos k.succ_ne_zero.symm
      rw [wordAt_zero] at h0
      rw [swappedWord_eq_iff.mpr h0]
      rw [wordAt_succ] at hne
      refine ih (Nat.lt_of_succ_lt_succ hk) hne fun j hj hjk => ?_
      rw [← wordAt_succ]
      exact heq (j+1) (Nat.succ_lt_succ hj) (by omega)

/-- The registers after some iterations. -/
theorem iterate_checksumBody (n : ℕ) (r : ChecksumRegs) :
    ((checksumBody mem)^[n] r).cx = r.cx-UInt16.ofNat n ∧
      ((checksumBody mem)^[n] r).dx = checksumLoop mem n r.si r.dx := by
  induction n generalizing r with
  | zero =>
    constructor
    · show r.cx = r.cx-0
      simp
    · rfl
  | succ n ih =>
    obtain ⟨hcx,hdx⟩ := ih (checksumBody mem r)
    have hn : UInt16.ofNat (n+1) = UInt16.ofNat n+1 := UInt16.ofNat_add n 1
    rw [iterate_succ_apply]
    refine ⟨?_,hdx⟩
    rw [hcx, hn]
    show r.cx-1-UInt16.ofNat n = r.cx-(UInt16.ofNat n+1)
    rw [UInt16.sub_eq_iff_eq_add, UInt16.sub_eq_iff_eq_add, UInt16.add_assoc,
      UInt16.sub_add_cancel]

theorem loopEnds_checksum (mem : FrameBuffer) (si dx : UInt16) {words : UInt16} (hw : 1 ≤ words) :
    LoopEnds mem ⟨si,words,dx⟩ words.toNat := by
  rw [UInt16.le_iff_toNat_le] at hw
  have hlt := words.toNat_lt
  refine ⟨hw,?_,?_⟩
  · rw [(iterate_checksumBody _ _).1, UInt16.ofNat_toNat]
    exact UInt16.sub_self words
  · intro m _ hm
    rw [(iterate_checksumBody _ _).1]
    intro h
    have heq := congrArg UInt16.toNat (UInt16.sub_eq_iff_eq_add.mp h)
    rw [UInt16.zero_add, UInt16.toNat_ofNat', Nat.mod_eq_of_lt (hm.trans hlt)] at heq
    exact absurd heq hm.ne'

/-- Two screens that differ in one of the words have different checksums, and the loop runs once
for each word. -/
theorem videoChecksum_oneWord (mem mem' : FrameBuffer) (offset words : UInt16) (hw : 1 ≤ words)
    (k : ℕ) (hk : k < words.toNat)
    (hne : frameWord mem (wordAt offset k) ≠ frameWord mem' (wordAt offset k))
    (heq : ∀ j < words.toNat, j ≠ k →
      frameWord mem (wordAt offset j) = frameWord mem' (wordAt offset j)) :
    videoChecksumFrameBuffer mem offset words ≠ videoChecksumFrameBuffer mem' offset words ∧
      LoopEnds mem ⟨offset,words,0⟩ words.toNat ∧
      ((checksumBody mem)^[words.toNat] ⟨offset,words,0⟩).dx =
        videoChecksumFrameBuffer mem offset words := by
  have hpos : words ≠ 0 := by
    rintro rfl
    exact absurd hw (by decide)
  simp only [videoChecksumFrameBuffer, if_neg hpos]
  exact ⟨checksumLoop_ne hk hne heq,loopEnds_checksum mem offset 0 hw,
    (iterate_checksumBody _ _).2⟩

theorem videoChecksum_oneWord_blank :
    videoChecksumFrameBuffer (fun _ => 0) 0 2 ≠
        videoChecksumFrameBuffer (fun i => if i = 2 then 1 else 0) 0 2 ∧
      LoopEnds (fun _ => 0) ⟨0,2,0⟩ 2 ∧
      ((checksumBody fun _ => 0)^[2] ⟨0,2,0⟩).dx = videoChecksumFrameBuffer (fun _ => 0) 0 2 :=
  videoChecksum_oneWord (fun _ => 0) (fun i => if i = 2 then 1 else 0) 0 2 (by decide) 1
    (by decide) (by decide) (by decide)

end RmtDos
