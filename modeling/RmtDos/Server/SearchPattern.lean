import RmtDos.Lib.Traced
import RmtDos.Server.FileTransfer

/-! The stores of `build_dir_pattern` into the array of its caller, with the indices of 16 bits that
it computes with. -/
namespace RmtDos
open Memory Bytes

/-- The `while` loop from index `i` on: where it stops, and what is left of the path there. -/
def copyDirPath (dest : ℕ) (destLen : UInt16) :
    List UInt8 → UInt16 → Traced → UInt16 × List UInt8 × Traced
  | [], i, t => (i,[],t)
  | ch::path, i, t =>
    if i+1 < destLen then
      copyDirPath dest destLen path (i+1) (t.put (dest+i.toNat) (if ch = 0x2f then 0x5c else ch))
    else (i,ch::path,t)

/-- `strcpy (dest+len, s)`. -/
def strcpyAt (dest : ℕ) (len : UInt16) (s : CString) (t : Traced) : Traced :=
  t.fill (dest+·) len.toNat (s.bytes ++ [0])

def starDotStar : CString := ⟨[0x2a,0x2e,0x2a],by decide⟩
def backslashStarDotStar : CString := ⟨[0x5c,0x2a,0x2e,0x2a],by decide⟩

/-- `build_dir_pattern` from `len = i` on: its return value, and what it stores. -/
def appendPattern (dest : ℕ) (destLen len : UInt16) (t : Traced) : ℤ × Traced :=
  if len = 0 then (-1,t)
  else if t.mem (dest+(len-1).toNat) = 0x5c then
    if len+4 ≥ destLen then (-1,t) else (0,strcpyAt dest len starDotStar t)
  else if t.mem (dest+(len-1).toNat) = 0x3a then
    if len+5 ≥ destLen then (-1,t) else (0,strcpyAt dest len backslashStarDotStar t)
  else
    if len+5 ≥ destLen then (-1,t) else (0,strcpyAt dest len backslashStarDotStar t)

/-- `build_dir_pattern` in memory. -/
def buildDirPatternInto (dest : ℕ) (destLen : UInt16) (path : CString) (t : Traced) : ℤ × Traced :=
  let path := if path.bytes = [] then [0x2e] else path.bytes
  let (i,rest,t) := copyDirPath dest destLen path 0 t
  if rest ≠ [] then (-1,t)
  else
    let t := t.put (dest+i.toNat) 0
    if hasWildcard (cstr (slice t.mem dest (i.toNat+1))) then (0,t)
    else appendPattern dest destLen i t

/-- The pattern that finds the entries of a directory, or the files that a pattern names. -/
def searchPattern (path : List UInt8) : List UInt8 :=
  let q := (if path = [] then [0x2e] else path).map fun ch => if ch = 0x2f then 0x5c else ch
  if 0x2a ∈ q ∨ 0x3f ∈ q then q
  else (if q.getLast? = some 0x5c then q else q ++ [0x5c]) ++ [0x2a,0x2e,0x2a]

variable {dest : ℕ} {destLen : UInt16} {path : CString} {t : Traced}

theorem hasWildcard_iff {q : List UInt8} : hasWildcard q = true ↔ 0x2a ∈ q ∨ 0x3f ∈ q := by
  simp only [hasWildcard, List.any_eq_true, decide_eq_true_eq]
  constructor
  · rintro ⟨ch,hch,rfl | rfl⟩
    · exact .inl hch
    · exact .inr hch
  · rintro (h | h)
    · exact ⟨_,h,.inl rfl⟩
    · exact ⟨_,h,.inr rfl⟩

/-- With the buffer of `collect_dir_entries` every path of the record has its pattern. -/
theorem buildDirPattern_short {path : List UInt8} (h : path.length ≤ 127) :
    buildDirPattern 133 path = some (searchPattern path) := by
  unfold buildDirPattern searchPattern
  extract_lets q dest
  have hq : q.length ≤ 127 := by
    simp only [q]
    split
    · decide
    · exact h
  have hdest : dest.length = q.length := List.length_map ..
  rw [if_neg (by omega)]
  by_cases hwild : hasWildcard dest = true
  · rw [if_pos hwild, if_pos (hasWildcard_iff.mp hwild)]
  rw [if_neg hwild, if_neg fun hmem => hwild (hasWildcard_iff.mpr hmem)]
  split
  · rw [if_neg (by omega)]
  · rw [if_neg (by omega), List.append_assoc]
    rfl

/-- The loop copies up to the last place but one. -/
theorem copyDirPath_eq {path : List UInt8} {i : UInt16} (hlen : destLen.toNat < 32768)
    (hi : i.toNat < destLen.toNat) :
    copyDirPath dest destLen path i t =
      let n := min path.length (destLen.toNat-1-i.toNat)
      (i+UInt16.ofNat n,path.drop n,t.fill (dest+·) i.toNat
        ((path.take n).map fun ch => if ch = 0x2f then 0x5c else ch)) := by
  induction path generalizing i t with
  | nil => simp [copyDirPath, Traced.fill]
  | cons ch path ih =>
    have hnext : (i+1).toNat = i.toNat+1 := by
      have h1 : UInt16.toNat 1 = 1 := rfl
      rw [UInt16.toNat_add, h1]
      omega
    unfold copyDirPath
    by_cases hroom : i+1 < destLen
    · have hroom' := UInt16.lt_iff_toNat_lt.mp hroom
      rw [if_pos hroom, ih (by omega)]
      have hmin : min (path.length+1) (destLen.toNat-1-i.toNat) =
          min path.length (destLen.toNat-1-(i.toNat+1))+1 := by omega
      have hsum (n : ℕ) : i+1+UInt16.ofNat n = i+UInt16.ofNat (n+1) := by
        rw [UInt16.ofNat_add, UInt16.add_assoc, UInt16.add_comm 1]
        rfl
      simp only [List.length_cons, hmin, hnext, hsum, List.drop_succ_cons, List.take_succ_cons,
        List.map_cons, Traced.fill]
    · have hfull : destLen.toNat-1-i.toNat = 0 := by
        rw [UInt16.lt_iff_toNat_lt] at hroom
        omega
      rw [if_neg hroom, hfull]
      simp [Traced.fill]

/-- The characters of the path in the array, and the NUL behind them. -/
theorem slice_fill_front (t : Traced) (dest : ℕ) (bs : List UInt8) :
    slice (t.fill (dest+·) 0 bs).mem dest bs.length = bs := by
  have hinj : Set.InjOn (dest+·) (Set.Iio bs.length) := fun a _ b _ => Nat.add_left_cancel
  have hview := Traced.view_fill (t := t) hinj (Nat.zero_add _).le
  rwa [view_add, Nat.add_zero] at hview

/-- A string behind the characters of another one takes the place of its NUL. -/
theorem slice_strcpyAt {q : List UInt8} {len : UInt16} (s : CString) (hlen : len.toNat = q.length) :
    slice (strcpyAt dest len s (t.fill (dest+·) 0 (q ++ [0]))).mem dest
        ((q ++ s.bytes).length+1) = q ++ s.bytes ++ [0] := by
  have hinj (n : ℕ) : Set.InjOn (dest+·) (Set.Iio n) := fun a _ b _ => Nat.add_left_cancel
  have hq : slice (t.fill (dest+·) 0 (q ++ [0])).mem dest q.length = q := by
    have hall := slice_fill_front t dest (q ++ [0])
    rw [List.length_append] at hall
    exact (slice_eq_append hall rfl).1
  have hback := @Traced.view_fill (dest+·) (t.fill (dest+·) 0 (q ++ [0])) q.length _
    (s.bytes ++ [0]) (hinj _) le_rfl
  have hfront := @Traced.view_fill_before (dest+·) (t.fill (dest+·) 0 (q ++ [0])) q.length _
    (s.bytes ++ [0]) (hinj _) 0 q.length le_rfl (Nat.zero_add _).le
  rw [view_add] at hback
  rw [view_add, view_add, Nat.add_zero, hq] at hfront
  rw [strcpyAt, hlen, List.length_append, Nat.add_assoc, ← slice_append, hfront, List.append_assoc]
  rw [List.length_append] at hback
  exact congrArg (q ++ ·) hback

/-- The stores since `t` are in the array. -/
def StoresInside (dest n : ℕ) (t t' : Traced) : Prop :=
  ∀ i ∈ t'.written, i ∈ t.written ∨ dest ≤ i ∧ i < dest+n

theorem StoresInside.fill {n k : ℕ} {t' : Traced} {bs : List UInt8} (h : StoresInside dest n t t')
    (hk : k+bs.length ≤ n) : StoresInside dest n t (t'.fill (dest+·) k bs) := by
  intro i hi
  obtain hi | ⟨j,-,hj,rfl⟩ := Traced.mem_written_fill.mp hi
  · exact h i hi
  · exact .inr ⟨Nat.le_add_right _ _,by omega⟩

theorem storesInside_self (dest n : ℕ) (t : Traced) : StoresInside dest n t t := fun _ => .inl

/-- A path that does not fit. -/
theorem copyDirPath_long {q : List UInt8} (hlen : destLen.toNat < 32768)
    (hq : destLen.toNat ≤ q.length) (hne : q ≠ []) :
    (copyDirPath dest destLen q 0 t).2.1 ≠ [] ∧
      StoresInside dest destLen.toNat t (copyDirPath dest destLen q 0 t).2.2 := by
  obtain h0 | hpos := Nat.eq_zero_or_pos destLen.toNat
  · obtain ⟨ch,path,rfl⟩ := List.exists_cons_of_ne_nil hne
    have hroom : ¬ (0+1 : UInt16) < destLen := by
      rw [UInt16.lt_iff_toNat_lt, h0]
      exact Nat.not_lt_zero _
    rw [copyDirPath, if_neg hroom]
    exact ⟨nofun,storesInside_self _ _ _⟩
  · have hzero : UInt16.toNat 0 = 0 := rfl
    rw [copyDirPath_eq hlen (hzero ▸ hpos), hzero]
    refine ⟨?_,(storesInside_self _ _ _).fill ?_⟩
    · dsimp only
      rw [ne_eq, List.drop_eq_nil_iff]
      omega
    · rw [List.length_map, List.length_take]
      omega

/-- A path that fits is copied whole. -/
theorem copyDirPath_fits {q : List UInt8} (hlen : destLen.toNat < 32768)
    (hq : q.length < destLen.toNat) :
    copyDirPath dest destLen q 0 t = (UInt16.ofNat q.length,[],t.fill (dest+·) 0
      (q.map fun ch => if ch = 0x2f then 0x5c else ch)) := by
  have hzero : UInt16.toNat 0 = 0 := rfl
  have hmin : min q.length (destLen.toNat-1-0) = q.length := by omega
  rw [copyDirPath_eq hlen (by rw [hzero]; omega), hzero, hmin]
  simp

/-- The last character before the NUL. -/
theorem last_of_slice {m : Mem} {q : List UInt8} (hne : q ≠ [])
    (h : slice m dest (q.length+1) = q ++ [0]) : some (m (dest+(q.length-1))) = q.getLast? := by
  have hlast : q.length-1 < q.length :=
    Nat.sub_lt (List.length_pos_of_ne_nil hne) Nat.one_pos
  have hget := congrArg (fun bs => bs[q.length-1]?) h
  simp only [List.getElem?_append_left hlast] at hget
  rw [List.getElem?_eq_getElem (by rw [length_slice]; omega), getElem_slice] at hget
  rw [hget, List.getLast?_eq_getElem?]

/-- What is to be left in the array of `destLen` bytes: the pattern, if there is one. -/
def LeavesPattern (dest : ℕ) (destLen : UInt16) (t : Traced) (pattern : Option (List UInt8))
    (r : ℤ × Traced) : Prop :=
  StoresInside dest destLen.toNat t r.2 ∧
    match pattern with
    | none => r.1 = -1
    | some p => r.1 = 0 ∧ p.length < destLen.toNat ∧ slice r.2.mem dest (p.length+1) = p ++ [0]

/-- The string that the loop has stored. -/
theorem leaves_copied {q : List UInt8} (hq : q.length < destLen.toNat) :
    LeavesPattern dest destLen t (some q) (0,t.fill (dest+·) 0 (q ++ [0])) := by
  have hslice := slice_fill_front t dest (q ++ [0])
  rw [List.length_append] at hslice
  refine ⟨(storesInside_self _ _ _).fill ?_,rfl,hq,hslice⟩
  rw [List.length_append, List.length_singleton]
  omega

theorem leaves_nothing {pattern : List UInt8} {t' : Traced}
    (h : LeavesPattern dest destLen t (some pattern) (0,t')) :
    LeavesPattern dest destLen t none (-1,t') :=
  ⟨h.1,rfl⟩

/-- A suffix that fits behind it. -/
theorem leaves_strcpy {q : List UInt8} {len : UInt16} (s : CString) (hlen : len.toNat = q.length)
    (hs : q.length+s.bytes.length+1 ≤ destLen.toNat) :
    LeavesPattern dest destLen t (some (q ++ s.bytes))
      (0,strcpyAt dest len s (t.fill (dest+·) 0 (q ++ [0]))) := by
  obtain ⟨hin,-⟩ := @leaves_copied dest destLen t q (by omega)
  refine ⟨hin.fill ?_,rfl,?_,slice_strcpyAt s hlen⟩
  · rw [hlen, List.length_append, List.length_singleton]
    omega
  · rw [List.length_append]
    omega

/-- The three suffix cases: two of them do the same. -/
theorem appendPattern_pattern {q : List UInt8} {len : UInt16} (hd : destLen.toNat < 32768)
    (hlen : len.toNat = q.length) (hne : q ≠ []) (hq : q.length < destLen.toNat) :
    LeavesPattern dest destLen t
      (if q.getLast? = some 0x5c then
        if destLen.toNat ≤ q.length+4 then none else some (q ++ [0x2a,0x2e,0x2a])
      else if destLen.toNat ≤ q.length+5 then none else some (q ++ [0x5c,0x2a,0x2e,0x2a]))
      (appendPattern dest destLen len (t.fill (dest+·) 0 (q ++ [0]))) := by
  have hleft := @leaves_copied dest destLen t q hq
  have hpos : 0 < q.length := List.length_pos_of_ne_nil hne
  have hlen0 : ¬ len = 0 := by
    rintro rfl
    exact hpos.ne hlen
  have h1 : UInt16.toNat 1 = 1 := rfl
  have h4 : UInt16.toNat 4 = 4 := rfl
  have h5 : UInt16.toNat 5 = 5 := rfl
  have hpred : (len-1).toNat = q.length-1 := by
    rw [UInt16.toNat_sub_of_le, hlen, h1]
    rw [UInt16.le_iff_toNat_le, hlen, h1]
    omega
  have hlast : (t.fill (dest+·) 0 (q ++ [0])).mem (dest+(q.length-1)) = 0x5c ↔
      q.getLast? = some 0x5c := by
    rw [← last_of_slice hne hleft.2.2.2, Option.some_inj]
  have hroom (n : UInt16) (hn : n.toNat ≤ 5) :
      len+n ≥ destLen ↔ destLen.toNat ≤ q.length+n.toNat := by
    rw [ge_iff_le, UInt16.le_iff_toNat_le, UInt16.toNat_add, hlen]
    omega
  unfold appendPattern
  simp only [if_neg hlen0, hpred, hlast, hroom 4 (by decide), hroom 5 (by decide), h4, h5, ite_self]
  split
  · split
    · exact leaves_nothing hleft
    · have hs : starDotStar.bytes.length = 3 := rfl
      exact leaves_strcpy starDotStar hlen (by omega)
  · split
    · exact leaves_nothing hleft
    · have hs : backslashStarDotStar.bytes.length = 4 := rfl
      exact leaves_strcpy backslashStarDotStar hlen (by omega)

theorem slashed_noNul {q : List UInt8} (h : 0 ∉ q) :
    0 ∉ q.map fun ch => if ch = 0x2f then 0x5c else ch := by
  rw [List.mem_map, not_exists]
  rintro ch ⟨hch,h0⟩
  split at h0
  · exact absurd h0 (by decide)
  · exact h (h0 ▸ hch)

/-- The stores of `build_dir_pattern` stay in the array, and leave the pattern there. -/
theorem buildDirPatternInto_pattern (hlen : destLen.toNat < 32768) :
    LeavesPattern dest destLen t (buildDirPattern destLen.toNat path.bytes)
      (buildDirPatternInto dest destLen path t) := by
  unfold buildDirPatternInto buildDirPattern
  have hne : (if path.bytes = [] then [0x2e] else path.bytes) ≠ [] := by
    split
    · nofun
    · assumption
  have hnul : 0 ∉ (if path.bytes = [] then [0x2e] else path.bytes) := by
    split
    · decide
    · exact path.noNul
  generalize (if path.bytes = [] then [0x2e] else path.bytes) = q at hne hnul
  by_cases hfit : destLen.toNat ≤ q.length
  · obtain ⟨hrest,hin⟩ := @copyDirPath_long dest destLen t q hlen hfit hne
    simp only [if_pos hfit, if_pos hrest]
    exact ⟨hin,rfl⟩
  rw [Nat.not_le] at hfit
  have hcstr := cstr_append_zero (r := []) (slashed_noNul hnul)
  have hmapped : (q.map fun ch => if ch = 0x2f then 0x5c else ch).length = q.length :=
    List.length_map ..
  have hi : (UInt16.ofNat q.length).toNat = q.length := by
    rw [UInt16.toNat_ofNat']
    omega
  simp only [if_neg (Nat.not_le.mpr hfit), copyDirPath_fits hlen hfit, ne_eq, not_true_eq_false,
    if_false, hi]
  generalize UInt16.ofNat q.length = len at hi
  rw [← hmapped] at hfit hi ⊢
  have hpne : (q.map fun ch => if ch = 0x2f then 0x5c else ch) ≠ [] := by simpa using hne
  generalize (q.map fun ch => if ch = 0x2f then 0x5c else ch) = p at hcstr hfit hi hpne ⊢
  have hput : (t.fill (dest+·) 0 p).put (dest+p.length) 0 = t.fill (dest+·) 0 (p ++ [0]) := by
    rw [Traced.fill_append, Traced.fill_singleton, Nat.zero_add]
  have hleft := @leaves_copied dest destLen t p hfit
  rw [hput, hleft.2.2.2, hcstr]
  by_cases hwild : hasWildcard p = true
  · rw [if_pos hwild, if_pos hwild]
    exact hleft
  · rw [if_neg hwild, if_neg hwild]
    exact appendPattern_pattern hlen hi hpne hfit

theorem buildDirPattern_noNul {n : ℕ} {pattern : List UInt8}
    (h : buildDirPattern n path.bytes = some pattern) : 0 ∉ pattern := by
  have hnul : 0 ∉ (if path.bytes = [] then [0x2e] else path.bytes) := by
    split
    · decide
    · exact path.noNul
  replace hnul := slashed_noNul hnul
  unfold buildDirPattern at h
  extract_lets q dq at h
  have hsuffix {s : List UInt8} (hs : 0 ∉ s) : 0 ∉ dq ++ s := fun hm =>
    (List.mem_append.mp hm).elim hnul hs
  split_ifs at h <;> obtain rfl := Option.some.inj h
  · exact hnul
  · exact hsuffix (by decide)
  · exact hsuffix (by decide)

/-- `build_dir_pattern` stores in its array only and leaves a string there if it returns 0. With the
buffer of `collect_dir_entries` it does so for every path that fits into the record. -/
theorem buildDirPatternInto_safe (dest : ℕ) (destLen : UInt16) (path : CString) (t : Traced)
    (hlen : destLen.toNat < 32768) :
    StoresInside dest destLen.toNat t (buildDirPatternInto dest destLen path t).2 ∧
      ((buildDirPatternInto dest destLen path t).1 = 0 →
        ∃ s : CString, s.bytes.length < destLen.toNat ∧
          slice (buildDirPatternInto dest destLen path t).2.mem dest (s.bytes.length+1) =
            s.bytes ++ [0]) ∧
      (path.bytes.length ≤ 127 → destLen = 133 →
        (buildDirPatternInto dest destLen path t).1 = 0 ∧
          slice (buildDirPatternInto dest destLen path t).2.mem dest
              ((searchPattern path.bytes).length+1) =
            searchPattern path.bytes ++ [0]) := by
  obtain ⟨hin,hpattern⟩ := @buildDirPatternInto_pattern dest destLen path t hlen
  refine ⟨hin,fun hrc => ?_,?_⟩
  · cases hb : buildDirPattern destLen.toNat path.bytes with
    | none =>
      rw [hb] at hpattern
      rw [hpattern] at hrc
      exact absurd hrc (by decide)
    | some pattern =>
      rw [hb] at hpattern
      exact ⟨⟨pattern,buildDirPattern_noNul hb⟩,hpattern.2⟩
  · rintro hpath rfl
    have h133 : UInt16.toNat 133 = 133 := rfl
    rw [h133, buildDirPattern_short hpath] at hpattern
    exact ⟨hpattern.1,hpattern.2.2⟩

/-- The current directory of a drive. -/
theorem buildDirPatternInto_safe_drive :
    (buildDirPatternInto 4096 133 ⟨[67,58],by decide⟩ ⟨fun _ => 0,[]⟩).1 = 0 ∧
      slice (buildDirPatternInto 4096 133 ⟨[67,58],by decide⟩ ⟨fun _ => 0,[]⟩).2.mem 4096 7 =
        [67,58,0x5c,0x2a,0x2e,0x2a,0] :=
  (buildDirPatternInto_safe 4096 133 ⟨[67,58],by decide⟩ ⟨fun _ => 0,[]⟩ (by decide)).2.2
    (by decide) rfl

end RmtDos
