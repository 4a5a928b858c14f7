import RmtDos.Lib.Bytes
import RmtDos.Lib.Traced

/-! `x86_read_asciiz`, which copies a string out of another segment. The loop counts the room down
after each character, and the terminator is stored behind the loop. -/
namespace RmtDos
open Memory Bytes

/-- The position of `seg:off`. -/
def linear (seg off : UInt16) : ℕ := (seg.toNat*16+off.toNat)%2^20

/-- The registers that `x86_read_asciiz` changes, and the memory. -/
structure AsciizRegs where
  ax : UInt16
  cx : UInt16
  si : UInt16
  di : UInt16
  memory : Traced

/-- From the label `copy_loop` to the label `done`. -/
def x86CopyLoop (es ds : UInt16) (r : AsciizRegs) : AsciizRegs :=
  let bl := r.memory.mem (linear es r.si)
  if bl = 0 then r
  else
    let memory := r.memory.put (linear ds r.di) bl
    if r.cx-1 = 0 then ⟨r.ax+1,r.cx-1,r.si+1,r.di+1,memory⟩
    else x86CopyLoop es ds ⟨r.ax+1,r.cx-1,r.si+1,r.di+1,memory⟩
termination_by (r.cx-1).toNat
decreasing_by
  next h =>
    have h1 : UInt16.toNat 1 = 1 := rfl
    rw [← UInt16.toNat_inj] at h
    rw [UInt16.toNat_sub_of_le, h1]
    · have h0 : UInt16.toNat 0 = 0 := rfl
      omega
    · have h0 : UInt16.toNat 0 = 0 := rfl
      rw [UInt16.le_iff_toNat_le, h1]
      omega

/-- `x86_read_asciiz`: the value that it returns in `ax`, and the memory. -/
def x86ReadAsciiz (ds dest maxlen segment offset : UInt16) (t : Traced) : UInt16 × Traced :=
  let r := x86CopyLoop segment ds ⟨0,maxlen,offset,dest,t⟩
  (r.ax,r.memory.put (linear ds r.di) 0)

/-- The position of an index of the array at `ds:dest`. -/
def arrayPos (ds dest : UInt16) (k : ℕ) : ℕ := linear ds (dest+UInt16.ofNat k)

/-- A terminated string at `segment:offset`. -/
structure AsciizAt (m : Mem) (segment offset : UInt16) (s : CString) : Prop where
  chars : ∀ j (hj : j < s.bytes.length), m (arrayPos segment offset j) = s.bytes[j]
  terminated : m (arrayPos segment offset s.bytes.length) = 0

/-- The string does not reach into the array of `maxlen` bytes at `ds:dest`. -/
def AsciizApart (ds dest maxlen segment offset : UInt16) (s : CString) : Prop :=
  ∀ j ≤ s.bytes.length, ∀ k < maxlen.toNat, arrayPos segment offset j ≠ arrayPos ds dest k

/-- What `x86_read_asciiz` is for: it stores in the array only, and leaves there as much of the
string as fits with its terminator. -/
structure AsciizRead (ds dest maxlen : UInt16) (s : CString) (t : Traced) : Prop where
  inside : ∀ i ∈ t.written, ∃ k < maxlen.toNat, i = arrayPos ds dest k
  holds : s.bytes.take (maxlen.toNat-1) ++ [0] <+: view (arrayPos ds dest) t.mem 0 maxlen.toNat

/-! `pktdrv_init` reads the name of the driver. -/

def pktdrvNameMaxlen : ℕ := 64

/-- `offsetof (struct PktDrvInfo, name)`. -/
def pktdrvInfoName : UInt16 := 13

/-- The call of `pktdrv_init` with `g_pktdrv_info` at `ds:info` and the name at `regs.ds:regs.si`. -/
def pktdrvReadName (ds info regsDs regsSi : UInt16) (t : Traced) : UInt16 × Traced :=
  x86ReadAsciiz ds (info+pktdrvInfoName) (UInt16.ofNat (pktdrvNameMaxlen+1)) regsDs regsSi t

variable {ds dest maxlen segment offset : UInt16} {s : CString} {m : Mem} {t : Traced}

theorem arrayPos_injOn : Set.InjOn (arrayPos ds dest) (Set.Iio 65536) := by
  intro a ha b hb h
  have hlt (k : ℕ) : (dest+UInt16.ofNat k).toNat < 65536 := UInt16.toNat_lt _
  have ha' := hlt a
  have hb' := hlt b
  have hoff : (dest+UInt16.ofNat a).toNat = (dest+UInt16.ofNat b).toNat := by
    unfold arrayPos linear at h
    omega
  rw [UInt16.toNat_add, UInt16.toNat_add, UInt16.toNat_ofNat', UInt16.toNat_ofNat'] at hoff
  have ha'' : a < 65536 := ha
  have hb'' : b < 65536 := hb
  have hd : dest.toNat < 65536 := UInt16.toNat_lt _
  omega

theorem arrayPos_succ (k : ℕ) :
    dest+UInt16.ofNat k+1 = dest+UInt16.ofNat (k+1) := by
  rw [UInt16.ofNat_add, UInt16.add_assoc]
  rfl

/-- The loop copies until the string or the room is used up, whichever is first. -/
theorem x86CopyLoop_eq {bs : List UInt8} {k : ℕ} {ax cx : UInt16} (hpos : 0 < cx.toNat)
    (hchars : ∀ j (hj : j < bs.length), t.mem (arrayPos segment offset (k+j)) = bs[j])
    (hnul : t.mem (arrayPos segment offset (k+bs.length)) = 0) (hfree : 0 ∉ bs)
    (hapart : ∀ j ≤ bs.length, ∀ i, k ≤ i → i < k+cx.toNat →
      arrayPos segment offset (k+j) ≠ arrayPos ds dest i) :
    x86CopyLoop segment ds ⟨ax,cx,offset+UInt16.ofNat k,dest+UInt16.ofNat k,t⟩ =
      let n := min bs.length cx.toNat
      ⟨ax+UInt16.ofNat n,cx-UInt16.ofNat n,offset+UInt16.ofNat (k+n),dest+UInt16.ofNat (k+n),
        t.fill (arrayPos ds dest) k (bs.take n)⟩ := by
  induction bs generalizing k ax cx t with
  | nil =>
    have hbl : t.mem (linear segment (offset+UInt16.ofNat k)) = 0 := hnul
    rw [x86CopyLoop, if_pos hbl]
    simp [Traced.fill]
  | cons b bs ih =>
    have hbl : t.mem (linear segment (offset+UInt16.ofNat k)) = b := hchars 0 (by simp)
    have hb : ¬ b = 0 := by
      rintro rfl
      exact hfree List.mem_cons_self
    have h1 : UInt16.toNat 1 = 1 := rfl
    have hpred : (cx-1).toNat = cx.toNat-1 := by
      rw [UInt16.toNat_sub_of_le, h1]
      rw [UInt16.le_iff_toNat_le, h1]
      omega
    rw [x86CopyLoop]
    simp only [hbl, if_neg hb, arrayPos_succ]
    by_cases hlast : cx-1 = 0
    · have hcx : cx.toNat = 1 := by
        rw [hlast] at hpred
        have h0 : UInt16.toNat 0 = 0 := rfl
        omega
      have hmin : min (bs.length+1) 1 = 1 := by omega
      rw [if_pos hlast, List.length_cons, hcx, hmin]
      rfl
    · have hmore : 0 < (cx-1).toNat := by
        rw [← UInt16.toNat_inj] at hlast
        exact Nat.pos_of_ne_zero hlast
      -- the rest of the string is read past the character that has been stored
      have hkept (j : ℕ) (hj : j ≤ bs.length) :
          (t.put (arrayPos ds dest k) b).mem (arrayPos segment offset (k+1+j)) =
            t.mem (arrayPos segment offset (k+(j+1))) := by
        have hne := hapart (j+1) (Nat.succ_le_succ hj) k le_rfl (by omega)
        have hk : k+1+j = k+(j+1) := by omega
        rw [hk]
        exact Function.update_of_ne hne _ _
      have hrest := @ih (t.put (arrayPos ds dest k) b) (k+1) (ax+1) (cx-1) hmore
        (fun j hj => (hkept j hj.le).trans (hchars (j+1) (Nat.succ_lt_succ hj)))
        ((hkept bs.length le_rfl).trans hnul) (fun h => hfree (List.mem_cons_of_mem _ h))
        (fun j hj i hl hu => by
          have hk : k+1+j = k+(j+1) := by omega
          rw [hk]
          exact hapart (j+1) (Nat.succ_le_succ hj) i (by omega) (by omega))
      have hmin : min (bs.length+1) cx.toNat = min bs.length (cx.toNat-1)+1 := by omega
      have hsum (x : UInt16) (n : ℕ) : x+1+UInt16.ofNat n = x+UInt16.ofNat (n+1) := by
        rw [UInt16.ofNat_add, UInt16.add_assoc, UInt16.add_comm 1]
        rfl
      have hsub (x : UInt16) (n : ℕ) : x-1-UInt16.ofNat n = x-UInt16.ofNat (n+1) := by
        rw [UInt16.ofNat_add, UInt16.sub_eq_iff_eq_add, UInt16.sub_eq_iff_eq_add, UInt16.add_assoc]
        exact (UInt16.sub_add_cancel _ _).symm
      have hk (n : ℕ) : k+1+n = k+(n+1) := by omega
      rw [if_neg hlast]
      refine hrest.trans ?_
      simp only [List.length_cons, hmin, hpred, hsum, hsub, hk, List.take_succ_cons, Traced.fill]

/-- The whole routine: the characters that fit, and the terminator behind them. -/
theorem x86ReadAsciiz_eq (hm : 0 < maxlen.toNat) (hs : AsciizAt m segment offset s)
    (ha : AsciizApart ds dest maxlen segment offset s) :
    x86ReadAsciiz ds dest maxlen segment offset ⟨m,[]⟩ =
      (UInt16.ofNat (min s.bytes.length maxlen.toNat),
        Traced.fill (arrayPos ds dest) ⟨m,[]⟩ 0 (s.bytes.take maxlen.toNat ++ [0])) := by
  have hzero (x : UInt16) : x+UInt16.ofNat 0 = x := UInt16.add_zero x
  have hloop := @x86CopyLoop_eq ds dest segment offset ⟨m,[]⟩ s.bytes 0 0 maxlen hm
    (fun j hj => by rw [Nat.zero_add]; exact hs.chars j hj) (by rw [Nat.zero_add]; exact hs.terminated)
    s.noNul (fun j hj i _ hi => by rw [Nat.zero_add] at hi ⊢; exact ha j hj i hi)
  rw [hzero, hzero] at hloop
  rw [x86ReadAsciiz, hloop, Traced.fill_append, Traced.fill_singleton]
  have htake : s.bytes.take (min s.bytes.length maxlen.toNat) = s.bytes.take maxlen.toNat := by
    rw [← List.take_take]
    exact List.take_of_length_le (List.length_take_le' _ _)
  simp only [htake, UInt16.zero_add, List.length_take, Nat.zero_add, Nat.min_comm maxlen.toNat]
  rfl

/-- The terminator of a string that is too long is stored behind the array. -/
theorem x86ReadAsciiz_inside_iff (hm : 0 < maxlen.toNat) (hs : AsciizAt m segment offset s)
    (ha : AsciizApart ds dest maxlen segment offset s) :
    (∀ i ∈ (x86ReadAsciiz ds dest maxlen segment offset ⟨m,[]⟩).2.written,
      ∃ k < maxlen.toNat, i = arrayPos ds dest k) ↔ s.bytes.length < maxlen.toNat := by
  rw [x86ReadAsciiz_eq hm hs ha]
  have hmax : maxlen.toNat < 65536 := UInt16.toNat_lt _
  constructor
  · intro h
    by_contra hlong
    rw [Nat.not_lt] at hlong
    have hlast : arrayPos ds dest maxlen.toNat ∈ (Traced.fill (arrayPos ds dest) ⟨m,[]⟩ 0
        (s.bytes.take maxlen.toNat ++ [0])).written := by
      refine Traced.mem_written_fill.mpr (.inr ⟨_,Nat.zero_le _,?_,rfl⟩)
      rw [List.length_append, List.length_take, Nat.min_eq_left hlong, Nat.zero_add]
      exact Nat.lt_succ_self _
    obtain ⟨k,hk,he⟩ := h _ hlast
    have := arrayPos_injOn hmax (hk.trans hmax) he
    omega
  · intro hshort i hi
    obtain hi | ⟨k,-,hk,rfl⟩ := Traced.mem_written_fill.mp hi
    · exact absurd hi List.not_mem_nil
    · rw [List.length_append, List.length_take, List.length_singleton] at hk
      exact ⟨k,by omega,rfl⟩

theorem x86ReadAsciiz_holds (hs : AsciizAt m segment offset s)
    (ha : AsciizApart ds dest maxlen segment offset s) (hshort : s.bytes.length < maxlen.toNat) :
    s.bytes ++ [0] <+: view (arrayPos ds dest)
      (x86ReadAsciiz ds dest maxlen segment offset ⟨m,[]⟩).2.mem 0 maxlen.toNat := by
  have hmax : maxlen.toNat < 65536 := UInt16.toNat_lt _
  have hlen : (s.bytes ++ [0]).length ≤ maxlen.toNat := by
    rw [List.length_append, List.length_singleton]
    omega
  have hview := @Traced.view_fill (arrayPos ds dest) ⟨m,[]⟩ 0 _ (s.bytes ++ [0])
    arrayPos_injOn (by omega)
  have hfront := @view_front (arrayPos ds dest)
    (Traced.fill (arrayPos ds dest) ⟨m,[]⟩ 0 (s.bytes ++ [0])).mem 0 _ _ hlen
  rw [hview] at hfront
  rwa [x86ReadAsciiz_eq (by omega) hs ha, List.take_of_length_le hshort.le]

/-- `x86_read_asciiz` keeps to its array exactly if the string is shorter than `maxlen`, so the name
of a packet driver must be shorter than its field. -/
theorem x86ReadAsciiz_read_iff (ds dest maxlen segment offset : UInt16) (s : CString) (m : Mem)
    (hm : 0 < maxlen.toNat) (hs : AsciizAt m segment offset s)
    (ha : AsciizApart ds dest maxlen segment offset s) :
    (AsciizRead ds dest maxlen s (x86ReadAsciiz ds dest maxlen segment offset ⟨m,[]⟩).2 ↔
        s.bytes.length < maxlen.toNat) ∧
      ∀ info, dest = info+pktdrvInfoName → maxlen = 65 →
        ((∀ i ∈ (pktdrvReadName ds info segment offset ⟨m,[]⟩).2.written,
          ∃ k < pktdrvNameMaxlen+1, i = arrayPos ds (info+pktdrvInfoName) k) ↔
            s.bytes.length < pktdrvNameMaxlen+1) := by
  have hinside := x86ReadAsciiz_inside_iff hm hs ha
  refine ⟨⟨fun h => hinside.mp h.inside,fun hshort => ⟨hinside.mpr hshort,?_⟩⟩,?_⟩
  · rw [List.take_of_length_le (by omega)]
    exact x86ReadAsciiz_holds hs ha hshort
  · rintro info rfl rfl
    exact hinside

/-! A driver with a name of `n` letters at 2000:0000, and `g_pktdrv_info` at 1000:0000. -/

def letters (n : ℕ) : CString := ⟨List.replicate n 65,by simp⟩

def lettersAt (n : ℕ) : Mem := fun i => if 0x20000 ≤ i ∧ i < 0x20000+n then 65 else 0

theorem lettersAt_pos {n j : ℕ} (hn : n < 65536) (hj : j ≤ n) :
    arrayPos 0x2000 0 j = 0x20000+j := by
  have h2 : UInt16.toNat 0x2000 = 0x2000 := rfl
  rw [arrayPos, linear, UInt16.zero_add, UInt16.toNat_ofNat', h2]
  omega

theorem letters_asciizAt {n : ℕ} (hn : n < 65536) : AsciizAt (lettersAt n) 0x2000 0 (letters n) := by
  constructor
  · intro j hj
    have hj' : j < n := by simpa [letters] using hj
    rw [lettersAt_pos hn hj'.le]
    simp [lettersAt, letters, hj']
  · have hlen : (letters n).bytes.length = n := List.length_replicate
    rw [hlen, lettersAt_pos hn le_rfl]
    simp [lettersAt]

theorem letters_apart {n : ℕ} (hn : n < 65536) (dest maxlen : UInt16) :
    AsciizApart 0x1000 dest maxlen 0x2000 0 (letters n) := by
  intro j hj k _
  have hlen : (letters n).bytes.length = n := List.length_replicate
  rw [hlen] at hj
  rw [lettersAt_pos hn hj, arrayPos, linear]
  have h1 : UInt16.toNat 0x1000 = 0x1000 := rfl
  have hd := (dest+UInt16.ofNat k).toNat_lt
  rw [h1]
  omega

/-- A name that fits. -/
theorem x86ReadAsciiz_read_letters :
    AsciizRead 0x1000 13 65 (letters 64)
      (x86ReadAsciiz 0x1000 13 65 0x2000 0 ⟨lettersAt 64,[]⟩).2 :=
  (x86ReadAsciiz_read_iff 0x1000 13 65 0x2000 0 (letters 64) (lettersAt 64) (by decide)
    (letters_asciizAt (by decide)) (letters_apart (by decide) 13 65)).1.mpr (by decide)

/-- A name of 65 letters is ended behind its field. -/
theorem pktdrvReadName_outside :
    ¬ ∀ ds dest maxlen segment offset s m, 0 < maxlen.toNat → AsciizAt m segment offset s →
      AsciizApart ds dest maxlen segment offset s →
        AsciizRead ds dest maxlen s (x86ReadAsciiz ds dest maxlen segment offset ⟨m,[]⟩).2 := by
  intro h
  have hread := h 0x1000 13 65 0x2000 0 (letters 65) (lettersAt 65) (by decide)
    (letters_asciizAt (by decide)) (letters_apart (by decide) 13 65)
  have hinside := (x86ReadAsciiz_inside_iff (by decide) (letters_asciizAt (by decide))
    (letters_apart (by decide) 13 65)).mp hread.inside
  exact absurd hinside (by decide)

end RmtDos
