import Mathlib.Data.List.FinRange
import Mathlib.Data.List.Induction
import RmtDos.Lib.Bytes

/-! A table of slots that is searched from the front. Records have a key; a record with a new key goes
to the first empty slot, and no record is removed. Such a table is a list of records, and the keys of
the list are the distinct keys in the order in which they came, as far as the table has room. -/
namespace SlotTable
variable {R K : Type} {n : ℕ}

/-- Slots that are empty or have a record. -/
abbrev Table (R : Type) (n : ℕ) := Vector (Option R) n

/-- The first slot that passes a test. -/
def find (p : Option R → Bool) (t : Table R n) : Option (Fin n) :=
  (List.finRange n).find? fun i => p (t.slot i)

/-- The first slot from `iter` on with a record, and the slot behind it. -/
def next (t : Table R n) (iter : ℕ) : Option (Fin n × ℕ) :=
  if h : iter < n then
    if t[iter].isSome then some (⟨iter,h⟩,iter+1) else next t (iter+1)
  else none
termination_by n-iter

section register
variable [DecidableEq K] (key : R → K) (create : ℕ → K → R) (update : R → R) (k : K)

/-- Updates the record with the key, which is created before if there is none and a slot is empty. -/
def register (t : Table R n) : Table R n :=
  match find (fun s => s.any fun r => key r = k) t with
  | some i => t.put i ((t.slot i).map update)
  | none =>
    match find Option.isNone t with
    | some i => t.put i (some (update (create i k)))
    | none => t

/-- The same for a list with room for `n` records. -/
def enter (n : ℕ) (l : List R) : List R :=
  if k ∈ l.map key then l.map fun r => if key r = k then update r else r
  else if l.length < n then l ++ [update (create l.length k)] else l

end register

/-- The table has the records of the list, from the front. -/
structure Holds (t : Table R n) (l : List R) : Prop where
  room : l.length ≤ n
  slot : ∀ i : Fin n, t.slot i = l[i.val]?

variable {t : Table R n} {l : List R} {p : Option R → Bool}

theorem find_eq_some {i : Fin n} (hi : p (t.slot i) = true) (hj : ∀ j < i, p (t.slot j) = false) :
    find p t = some i := by
  refine List.find?_eq_some_iff_getElem.mpr ⟨hi,i,by simp,by simp,fun j hji => ?_⟩
  have hjn : j < n := hji.trans i.isLt
  simpa using hj ⟨j,hjn⟩ hji

theorem find_eq_none (h : ∀ i : Fin n, p (t.slot i) = false) : find p t = none := by
  rw [find, List.find?_eq_none]
  intro i _
  rw [h i]
  exact Bool.false_ne_true

/-- The empty table. -/
theorem holds_nil : Holds (Vector.replicate n none : Table R n) [] := by
  constructor
  · exact Nat.zero_le n
  · intro i
    simp

/-- The first empty slot is the one behind the list. -/
theorem Holds.find_empty (h : Holds t l) :
    find Option.isNone t = if hl : l.length < n then some ⟨l.length,hl⟩ else none := by
  split
  next hl =>
    apply find_eq_some
    · rw [h.slot]
      simp
    · intro j hj
      rw [h.slot, List.getElem?_eq_getElem hj]
      rfl
  next hl =>
    apply find_eq_none
    intro i
    have hi : i.val < l.length := i.isLt.trans_le (Nat.not_lt.mp hl)
    rw [h.slot, List.getElem?_eq_getElem hi]
    rfl

section keys
variable [DecidableEq K] {key : R → K} {create : ℕ → K → R} {update : R → R} {k : K}

/-- A key that no record has. -/
theorem Holds.find_absent (h : Holds t l) (hk : k ∉ l.map key) :
    find (fun s => s.any fun r => key r = k) t = none := by
  apply find_eq_none
  intro i
  rw [h.slot]
  cases hr : l[i.val]? with
  | none => rfl
  | some r =>
    simp only [Option.any_some, decide_eq_false_iff_not]
    rintro rfl
    exact hk (List.mem_map_of_mem (List.mem_of_getElem? hr))

omit [DecidableEq K] in
/-- Where no two records of the list have the same key, a key is in one slot only. -/
theorem Holds.slot_unique (h : Holds t l) (hd : (l.map key).Nodup) {i j : Fin n} {r r' : R}
    (hi : t.slot i = some r) (hj : t.slot j = some r') (hkey : key r' = key r) : j = i := by
  rw [h.slot] at hi hj
  have hsame : (l.map key)[j.val]? = (l.map key)[i.val]? := by
    rw [List.getElem?_map, List.getElem?_map, hj, hi, Option.map_some, Option.map_some, hkey]
  have hjl : j.val < (l.map key).length := by
    rw [List.length_map]
    exact (List.getElem?_eq_some_iff.mp hj).1
  exact Fin.ext ((List.getElem?_inj hjl hd).mp hsame)

/-- The slot of a record is found by its key. -/
theorem Holds.find_key (h : Holds t l) (hd : (l.map key).Nodup) {i : Fin n} {r : R}
    (hr : t.slot i = some r) : find (fun s => s.any fun r' => key r' = key r) t = some i := by
  apply find_eq_some
  · rw [hr]
    simp
  · intro j hj
    cases hrj : (t.slot j) with
    | none => rfl
    | some r' =>
      simp only [Option.any_some, decide_eq_false_iff_not]
      intro hkey
      exact hj.ne (h.slot_unique hd hr hrj hkey)

/-- A table follows its list. -/
theorem Holds.register (h : Holds t l) (hd : (l.map key).Nodup) :
    Holds (register key create update k t) (enter key create update k n l) := by
  unfold SlotTable.register enter
  by_cases hk : k ∈ l.map key
  · obtain ⟨r,hr,rfl⟩ := List.mem_map.mp hk
    obtain ⟨i,hi,hri⟩ := List.mem_iff_getElem.mp hr
    have hslot : t.slot ⟨i,hi.trans_le h.room⟩ = some r := by
      rw [h.slot, List.getElem?_eq_getElem hi, hri]
    rw [if_pos hk, h.find_key hd hslot]
    constructor
    · rw [List.length_map]
      exact h.room
    · intro j
      rw [Vector.slot_put, List.getElem?_map]
      split_ifs with he
      · rw [← he, List.getElem?_eq_getElem hi, hri, hslot, Option.map_some, Option.map_some,
          if_pos rfl]
      · have hj := h.slot j
        rw [hj]
        cases hrj : l[j.val]? with
        | none => rfl
        | some r' =>
          have hne : ¬ key r' = key r := fun hkey =>
            he (h.slot_unique hd hslot (hj.trans hrj) hkey).symm
          rw [Option.map_some, if_neg hne]
  · rw [if_neg hk, h.find_absent hk, h.find_empty]
    by_cases hl : l.length < n
    · rw [dif_pos hl, if_pos hl]
      constructor
      · rw [List.length_append]
        exact hl
      · intro j
        have hj := h.slot j
        rw [Vector.slot_put]
        split_ifs with he
        · rw [← he]
          simp
        · rw [hj]
          obtain hlt | hgt := Nat.lt_or_gt_of_ne fun hval => he (Fin.ext hval)
          · rw [List.getElem?_eq_none hlt.le,
              List.getElem?_eq_none (by simpa using Nat.succ_le_of_lt hlt)]
          · rw [List.getElem?_append_left hgt]
    · rw [dif_neg hl, if_neg hl]
      exact h

/-- What a new key does to the keys of a list with room for `n`. -/
theorem map_key_enter (hcreate : ∀ i, key (create i k) = k) (hupdate : ∀ r, key (update r) = key r) :
    (enter key create update k n l).map key =
      if k ∈ l.map key then l.map key
      else if l.length < n then l.map key ++ [k] else l.map key := by
  unfold enter
  split_ifs
  · rw [List.map_map]
    apply List.map_congr_left
    intro r _
    simp only [Function.comp_apply]
    split_ifs
    · exact hupdate r
    · rfl
  · rw [List.map_append, List.map_singleton, hupdate, hcreate]
  · rfl

/-- The distinct keys in the order in which they came. -/
def arrivals (ks : List K) : List K := ks.eraseDups

theorem mem_arrivals {ks : List K} : k ∈ arrivals ks ↔ k ∈ ks := List.mem_eraseDups

theorem arrivals_concat (ks : List K) :
    arrivals (ks ++ [k]) = if k ∈ ks then arrivals ks else arrivals ks ++ [k] := by
  rw [arrivals, List.eraseDups_append]
  split_ifs with hk
  · simp [List.removeAll, hk, arrivals]
  · simp [List.removeAll, hk, List.eraseDups_cons, arrivals]

theorem nodup_arrivals (ks : List K) : (arrivals ks).Nodup := by
  induction ks using List.reverseRecOn with
  | nil => exact List.nodup_nil
  | append_singleton ks k ih =>
    rw [arrivals_concat]
    split_ifs with hk
    · exact ih
    · rw [← List.concat_eq_append]
      exact ih.concat (by rwa [mem_arrivals])

/-- The first `n` distinct keys, when one more key comes. -/
theorem take_arrivals_concat (ks : List K) :
    (arrivals (ks ++ [k])).take n =
      if k ∈ (arrivals ks).take n then (arrivals ks).take n
      else if ((arrivals ks).take n).length < n then (arrivals ks).take n ++ [k]
      else (arrivals ks).take n := by
  rw [arrivals_concat]
  by_cases hk : k ∈ ks
  · rw [if_pos hk]
    split_ifs with hin hroom
    · rfl
    · -- with room left every key has been taken
      rw [List.length_take] at hroom
      rw [List.take_of_length_le (by omega), mem_arrivals] at hin
      exact absurd hk hin
    · rfl
  · have hout : k ∉ (arrivals ks).take n := fun hin =>
      hk (mem_arrivals.mp (List.mem_of_mem_take hin))
    rw [if_neg hk, if_neg hout, List.length_take]
    split_ifs with hroom
    · rw [List.take_of_length_le (by rw [List.length_append, List.length_singleton]; omega),
        List.take_of_length_le (by omega)]
    · rw [List.take_append_of_le_length (by omega)]

/-- A list that has taken in keys, in order: its keys are the first `n` distinct ones, and the records
are numbered. -/
structure Entered (key : R → K) (number : R → ℕ) (n : ℕ) (ks : List K) (l : List R) : Prop where
  keys : l.map key = (arrivals ks).take n
  numbered : ∀ i r, l[i]? = some r → number r = i

variable {number : R → ℕ} {ks : List K}

theorem Entered.nodup (h : Entered key number n ks l) : (l.map key).Nodup := by
  rw [h.keys]
  exact (nodup_arrivals ks).take

theorem Entered.enter (h : Entered key number n ks l) (hcreate : ∀ i, key (create i k) = k)
    (hupdate : ∀ r, key (update r) = key r) (hnumber : ∀ i, number (create i k) = i)
    (hkeep : ∀ r, number (update r) = number r) :
    Entered key number n (ks ++ [k]) (enter key create update k n l) := by
  constructor
  · rw [map_key_enter hcreate hupdate, take_arrivals_concat, ← h.keys, List.length_map]
  · intro i r hr
    unfold SlotTable.enter at hr
    split_ifs at hr with hk hroom
    · rw [List.getElem?_map] at hr
      obtain ⟨r',hr',rfl⟩ := Option.map_eq_some_iff.mp hr
      split_ifs
      · rw [hkeep, h.numbered i r' hr']
      · exact h.numbered i r' hr'
    · obtain hlt | hge := Nat.lt_or_ge i l.length
      · rw [List.getElem?_append_left hlt] at hr
        exact h.numbered i r hr
      · rw [List.getElem?_append_right hge] at hr
        obtain ⟨hi,rfl⟩ := List.getElem?_eq_some_iff.mp hr
        rw [List.length_singleton] at hi
        have hil : i = l.length := by omega
        simp [hkeep, hnumber, hil]
    · exact h.numbered i r hr

/-- A table that has taken in keys, in order. -/
def Registers (key : R → K) (number : R → ℕ) (ks : List K) (t : Table R n) : Prop :=
  ∃ l, Holds t l ∧ Entered key number n ks l

theorem registers_nil : Registers key number [] (Vector.replicate n none : Table R n) :=
  ⟨[],holds_nil,⟨List.take_nil.symm,nofun⟩⟩

theorem Registers.register (h : Registers key number ks t) (hcreate : ∀ i, key (create i k) = k)
    (hupdate : ∀ r, key (update r) = key r) (hnumber : ∀ i, number (create i k) = i)
    (hkeep : ∀ r, number (update r) = number r) :
    Registers key number (ks ++ [k]) (register key create update k t) := by
  obtain ⟨l,hl,he⟩ := h
  exact ⟨_,hl.register he.nodup,he.enter hcreate hupdate hnumber hkeep⟩

/-- The keys of the slots are the distinct keys in the order in which they came. -/
theorem Registers.slot_key (h : Registers key number ks t) (i : Fin n) :
    (t.slot i).map key = (arrivals ks)[i.val]? := by
  obtain ⟨l,hl,he⟩ := h
  rw [hl.slot, ← List.getElem?_map, he.keys, List.getElem?_take_of_lt i.isLt]

theorem Registers.slot_number (h : Registers key number ks t) {i : Fin n} {r : R}
    (hr : t.slot i = some r) : number r = i.val := by
  obtain ⟨l,hl,he⟩ := h
  exact he.numbered i.val r (by rw [← hl.slot, hr])

theorem Registers.slot_unique (h : Registers key number ks t) {i j : Fin n} {r r' : R}
    (hi : t.slot i = some r) (hj : t.slot j = some r') (hkey : key r' = key r) : j = i := by
  obtain ⟨l,hl,he⟩ := h
  exact hl.slot_unique he.nodup hi hj hkey

theorem Registers.find_key (h : Registers key number ks t) {i : Fin n} {r : R}
    (hr : t.slot i = some r) : find (fun s => s.any fun r' => key r' = key r) t = some i := by
  obtain ⟨l,hl,he⟩ := h
  exact hl.find_key he.nodup hr

/-- A slot keeps its key when more keys come. -/
theorem Registers.slot_stays {ks' : List K} {t' : Table R n} (h : Registers key number ks t)
    (h' : Registers key number (ks ++ ks') t') {i : Fin n} {r : R} (hr : t.slot i = some r) :
    ∃ r', t'.slot i = some r' ∧ key r' = key r ∧ number r' = number r := by
  have hkey := h.slot_key i
  rw [hr, Option.map_some] at hkey
  obtain ⟨hi,-⟩ := List.getElem?_eq_some_iff.mp hkey.symm
  have hkey' := h'.slot_key i
  have hfront : arrivals (ks ++ ks') = arrivals ks ++ arrivals (ks'.removeAll ks) :=
    List.eraseDups_append
  rw [hfront, List.getElem?_append_left hi, ← hkey] at hkey'
  obtain ⟨r',hr',hsame⟩ := Option.map_eq_some_iff.mp hkey'
  exact ⟨r',hr',hsame,(h'.slot_number hr').trans (h.slot_number hr).symm⟩

end keys

/-! Visiting the records. -/

/-- An iterator goes from slot `iter` on through the slots of the list and then ends. -/
inductive Visits (step : ℕ → Option (Fin n × ℕ)) : ℕ → List (Fin n) → Prop
  | stop {iter : ℕ} (h : step iter = none) : Visits step iter []
  | visit {iter iter' : ℕ} {slot : Fin n} {slots : List (Fin n)}
      (h : step iter = some (slot,iter')) (rest : Visits step iter' slots) :
      Visits step iter (slot :: slots)

theorem Visits.of_step {step : ℕ → Option (Fin n × ℕ)} {iter iter' : ℕ} {slots : List (Fin n)}
    (h : Visits step iter slots) (hs : step iter' = step iter) : Visits step iter' slots := by
  cases h with
  | stop h => exact .stop (hs.trans h)
  | visit h rest => exact .visit (hs.trans h) rest

theorem visits_from (t : Table R n) (iter : ℕ) :
    Visits (next t) iter (((List.finRange n).drop iter).filter fun i => (t.slot i).isSome) := by
  induction hd : n-iter generalizing iter with
  | zero =>
    have hge : n ≤ iter := Nat.sub_eq_zero_iff_le.mp hd
    rw [List.drop_eq_nil_of_le (by simpa using hge)]
    exact .stop (by rw [next, dif_neg (Nat.not_lt.mpr hge)])
  | succ d ih =>
    have hlt : iter < n := by omega
    have hrest := ih (iter+1) (by omega)
    rw [List.drop_eq_getElem_cons (by simpa using hlt), List.filter_cons, List.getElem_finRange]
    have hnext : next t iter =
        if t[iter].isSome then some (⟨iter,hlt⟩,iter+1) else next t (iter+1) := by
      rw [next, dif_pos hlt]
    by_cases hs : t[iter].isSome = true
    · rw [if_pos hs] at hnext
      rw [if_pos (by simpa using hs)]
      exact .visit hnext hrest
    · rw [if_neg hs] at hnext
      rw [if_neg (by simpa using hs)]
      exact hrest.of_step hnext

/-- From the front, every record is visited once. -/
theorem visits_all (t : Table R n) :
    Visits (next t) 0 ((List.finRange n).filter fun i => (t.slot i).isSome) :=
  visits_from t 0

end SlotTable
