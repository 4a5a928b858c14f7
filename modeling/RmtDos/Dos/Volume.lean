import RmtDos.Dos.Files

/-! A DOS file system without media errors, as a function of the service called: a tree of
files and directories, one handle table, and the search behind the DTA of the TSR. How a name
resolves and what a search finds are parameters. -/
namespace RmtDos.Dos

/-- The components of a path from the root. -/
abbrev Path := List (List UInt8)

inductive Node
  | file (content : List UInt8)
  | dir
  deriving DecidableEq

structure Volume where
  entries : List (Path × Node)
  deriving DecidableEq

namespace Volume

def find (v : Volume) (p : Path) : Option Node := if p = [] then some .dir else v.entries.lookup p

def remove (v : Volume) (p : Path) : Volume := ⟨v.entries.filter fun e => e.1 ≠ p⟩

def put (v : Volume) (p : Path) (n : Node) : Volume := ⟨(p,n) :: (v.remove p).entries⟩

/-- `p` can name an entry: its directory exists. -/
def Placed (v : Volume) (p : Path) : Prop := p ≠ [] ∧ v.find p.dropLast = some .dir

def HasChild (v : Volume) (p : Path) : Prop := ∃ e ∈ v.entries, p <+: e.1 ∧ e.1 ≠ p

/-- A renamed entry takes what is below it along. -/
def moved (source target p : Path) : Path :=
  if source <+: p then target ++ p.drop source.length else p

def move (v : Volume) (source target : Path) : Volume :=
  ⟨v.entries.map fun e => (moved source target e.1,e.2)⟩

instance (v : Volume) (p : Path) : Decidable (v.Placed p) := inferInstanceAs (Decidable (_ ∧ _))

instance (v : Volume) (p : Path) : Decidable (v.HasChild p) :=
  inferInstanceAs (Decidable (∃ e ∈ v.entries, p <+: e.1 ∧ e.1 ≠ p))

variable {v : Volume} {p q : Path} {n m : Node}

theorem lookup_filter_ne (l : List (Path × Node)) (h : q ≠ p) :
    (l.filter fun e => e.1 ≠ p).lookup q = l.lookup q := by
  induction l with
  | nil => rfl
  | cons e l ih =>
    obtain ⟨r,x⟩ := e
    by_cases hr : r = p
    · have hq : (q == r) = false := by simpa [hr] using h
      rw [List.filter_cons_of_neg (by simpa using hr), ih, List.lookup_cons, hq]
    · rw [List.filter_cons_of_pos (by simpa using hr), List.lookup_cons, List.lookup_cons, ih]

theorem lookup_filter_self (l : List (Path × Node)) :
    (l.filter fun e => e.1 ≠ p).lookup p = none := by
  rw [List.lookup_eq_none_iff]
  intro e he
  have hne : e.1 ≠ p := by simpa using (List.mem_filter.mp he).2
  simpa using hne.symm

theorem find_put_of_ne (h : q ≠ p) : (v.put p n).find q = v.find q := by
  have hq : (q == p) = false := by simpa using h
  have hl : (v.put p n).entries.lookup q = v.entries.lookup q := by
    rw [put, List.lookup_cons, hq]
    exact lookup_filter_ne _ h
  rw [find, find, hl]

theorem find_put_self (h : p ≠ []) : (v.put p n).find p = some n := by
  simp [find, put, h]

theorem find_remove (h : p ≠ []) : (v.remove p).find p = none := by
  rw [find, if_neg h]
  exact lookup_filter_self _

@[simp] theorem put_put : (v.put p m).put p n = v.put p n := by
  simp [put, remove]

/-- Two volumes that become one by writing `p` agree everywhere else. -/
theorem find_eq_of_put {w : Volume} (h : v.put p n = w.put p n) (hq : q ≠ p) :
    v.find q = w.find q := by
  rw [← @find_put_of_ne v p q n hq, h, find_put_of_ne hq]

theorem dropLast_ne (h : p ≠ []) : p.dropLast ≠ p := by
  intro he
  have := congrArg List.length he
  have := List.length_pos_iff.mpr h
  simp only [List.length_dropLast] at *
  omega

theorem Placed.of_put {w : Volume} (h : v.put p n = w.put p n) (hp : v.Placed p) : w.Placed p :=
  ⟨hp.1,(find_eq_of_put h (dropLast_ne hp.1)).symm.trans hp.2⟩

/-- Nothing is left under the old name of an entry that is moved out of itself. -/
theorem find_move {source target : Path} (hs : source ≠ []) (h : ¬ target <+: source) :
    (v.move source target).find source = none := by
  rw [find, if_neg hs, List.lookup_eq_none_iff]
  intro e he
  obtain ⟨x,-,rfl⟩ := List.mem_map.mp he
  suffices hne : source ≠ moved source target x.1 by simpa using hne
  unfold moved
  split_ifs with hx
  · intro heq
    exact h ⟨_,heq.symm⟩
  · rintro rfl
    exact hx (List.prefix_refl _)

end Volume

/-- DOS: the volume, the open handles with their positions, and the entries the search in the
DTA of the TSR has not returned yet. -/
structure Machine where
  volume : Volume
  handles : UInt16 → Option (Path × ℕ)
  search : List (Vector UInt8 43)

/-- The lowest free entry of the handle table. -/
def freeHandle (handles : UInt16 → Option (Path × ℕ)) : Option UInt16 :=
  ((List.range 20).map UInt16.ofNat).find? fun h => handles h = none

theorem freeHandle_spec {handles : UInt16 → Option (Path × ℕ)} {h : UInt16}
    (hf : freeHandle handles = some h) : handles h = none ∧ h < 0x8000 := by
  have hn : handles h = none := by simpa using List.find?_some hf
  obtain ⟨i,hi,rfl⟩ := List.mem_map.mp (List.mem_of_find?_eq_some hf)
  refine ⟨hn,?_⟩
  rw [List.mem_range] at hi
  have hs : i < UInt16.size := by
    simp only [UInt16.size]
    omega
  rw [UInt16.lt_iff_toNat_lt, UInt16.toNat_ofNat_of_lt' hs]
  simp only [UInt16.reduceToNat]
  omega

def refused : DosRegs := ⟨true,0,0,0,0,[]⟩

def returns (ax : UInt16) (data : List UInt8) : DosRegs := ⟨false,ax,0,0,0,data⟩

variable (resolve : List UInt8 → Path) (listing : Volume → List UInt8 → List (Vector UInt8 43))

/-- The reply of a search with the entries `l` left. -/
def entryFound : List (Vector UInt8 43) → DosRegs
  | [] => refused
  | e::_ => returns 0 e.toList

def Machine.nextEntry (d : Machine) (l : List (Vector UInt8 43)) : DosRegs × Machine :=
  (entryFound l,{ d with search := l.tail })

/-- The file and position behind a handle, with the content of the file. -/
def Machine.behind (d : Machine) (h : UInt16) : Option (Path × ℕ × List UInt8) :=
  match d.handles h with
  | none => none
  | some (p,pos) =>
    match d.volume.find p with
    | some (.file content) => some (p,pos,content)
    | _ => none

def Machine.setPos (d : Machine) (h : UInt16) (p : Path) (pos : ℕ) : Machine :=
  { d with handles := Function.update d.handles h (some (p,pos)) }

def Machine.int21 (d : Machine) : DosCall → DosRegs × Machine
  | .create name =>
    match freeHandle d.handles with
    | none => (refused,d)
    | some h =>
      if hasWildcard name = false ∧ d.volume.Placed (resolve name) ∧
          d.volume.find (resolve name) ≠ some .dir then
        (returns h [],
          { d.setPos h (resolve name) 0 with volume := d.volume.put (resolve name) (.file []) })
      else (refused,d)
  | .openRead name =>
    match freeHandle d.handles, d.volume.find (resolve name) with
    | some h, some (.file _) =>
      if hasWildcard name then (refused,d) else (returns h [],d.setPos h (resolve name) 0)
    | _, _ => (refused,d)
  | .close h =>
    if d.handles h = none then (refused,d)
    else (returns 0 [],{ d with handles := Function.update d.handles h none })
  | .read h count =>
    match d.behind h with
    | none => (refused,d)
    | some (p,pos,content) =>
      let data := (content.drop pos).take count.toNat
      (returns (UInt16.ofNat data.length) data,d.setPos h p (pos+data.length))
  | .write h data =>
    match d.behind h with
    | none => (refused,d)
    | some (p,pos,content) =>
      (returns (UInt16.ofNat data.length) [],
        { d.setPos h p (pos+data.length) with
          volume := d.volume.put p (.file (writeAt content pos data)) })
  | .seek h origin offset =>
    match d.behind h with
    | none => (refused,d)
    | some (p,pos,content) =>
      let base := if origin = 0 then 0 else if origin = 1 then pos else content.length
      let pos := UInt32.ofNat (base+offset.toNat)
      (⟨false,pos.toUInt16,0,(pos >>> 16).toUInt16,0,[]⟩,d.setPos h p pos.toNat)
  | .mkdir name =>
    if hasWildcard name = false ∧ d.volume.Placed (resolve name) ∧
        d.volume.find (resolve name) = none then
      (returns 0 [],{ d with volume := d.volume.put (resolve name) .dir })
    else (refused,d)
  | .rmdir name =>
    if resolve name ≠ [] ∧ d.volume.find (resolve name) = some .dir ∧
        ¬ d.volume.HasChild (resolve name) then
      (returns 0 [],{ d with volume := d.volume.remove (resolve name) })
    else (refused,d)
  | .unlink name =>
    match d.volume.find (resolve name) with
    | some (.file _) =>
      if hasWildcard name then (refused,d)
      else (returns 0 [],{ d with volume := d.volume.remove (resolve name) })
    | _ => (refused,d)
  | .rename source target =>
    if hasWildcard source = false ∧ hasWildcard target = false ∧ resolve source ≠ [] ∧
        d.volume.find (resolve source) ≠ none ∧ d.volume.Placed (resolve target) ∧
        d.volume.find (resolve target) = none ∧ ¬ resolve source <+: resolve target ∧
        ¬ resolve target <+: resolve source then
      (returns 0 [],{ d with
        volume := d.volume.move (resolve source) (resolve target)
        handles := fun h => (d.handles h).map fun x =>
          (Volume.moved (resolve source) (resolve target) x.1,x.2) })
    else (refused,d)
  | .setDta | .getDta | .restoreDta .. => (returns 0 [],d)
  | .findFirst pattern => d.nextEntry (listing d.volume pattern)
  | .findNext => d.nextEntry d.search

/-- DOS as an environment of the TSR. -/
def machine (d : Machine) (c : DosCall) (r : DosRegs) (d' : Machine) : Prop :=
  d.int21 resolve listing c = (r,d')

/-! When a service succeeds, and what it leaves. -/

def Machine.created (d : Machine) (h : UInt16) (p : Path) : Machine :=
  { d.setPos h p 0 with volume := d.volume.put p (.file []) }

def Machine.closed (d : Machine) (h : UInt16) : Machine :=
  { d with handles := Function.update d.handles h none }

variable {resolve} {listing} {d d' : Machine} {r : DosRegs} {name : List UInt8} {h : UInt16}

/-- Opening a free handle and closing it again. -/
theorem closed_setPos {p : Path} {pos : ℕ} (hf : d.handles h = none) :
    (d.setPos h p pos).closed h = d := by
  have hu : Function.update d.handles h none = d.handles := Function.update_eq_self_iff.mpr hf.symm
  simp only [Machine.closed, Machine.setPos, Function.update_idem, hu]

theorem machine_create (hr : r.carry = false) :
    machine resolve listing d (.create name) r d' ↔
      (hasWildcard name = false ∧ d.volume.Placed (resolve name) ∧
        d.volume.find (resolve name) ≠ some .dir) ∧
      ∃ h, freeHandle d.handles = some h ∧ r = returns h [] ∧ d' = d.created h (resolve name) := by
  simp only [machine, Machine.int21]
  cases freeHandle d.handles with
  | none =>
    simp only [reduceCtorEq, false_and, exists_false, and_false, iff_false]
    rintro ⟨rfl,-⟩
    cases hr
  | some h =>
    simp only [Option.some.injEq, exists_eq_left']
    split_ifs with hc
    · simp only [hc, Prod.mk.injEq, ne_eq, not_false_eq_true, and_self, true_and, eq_comm,
        Machine.created]
    · simp only [hc, false_and, iff_false, Prod.mk.injEq, not_and]
      rintro rfl
      cases hr

theorem machine_openRead (hr : r.carry = false) :
    machine resolve listing d (.openRead name) r d' ↔
      (hasWildcard name = false ∧ ∃ content, d.volume.find (resolve name) = some (.file content)) ∧
      ∃ h, freeHandle d.handles = some h ∧ r = returns h [] ∧
        d' = d.setPos h (resolve name) 0 := by
  simp only [machine, Machine.int21]
  have hno (e : (refused,d) = (r,d')) : False := by
    obtain ⟨rfl,-⟩ := Prod.mk.inj e
    cases hr
  cases freeHandle d.handles with
  | none => simpa using hno
  | some h =>
    cases hv : d.volume.find (resolve name) with
    | none => simpa using hno
    | some n =>
      cases n with
      | dir => simpa using hno
      | file content =>
        cases hasWildcard name
        · simp [Prod.mk.injEq, eq_comm]
        · simpa using hno

theorem machine_close (hh : d.handles h ≠ none) :
    machine resolve listing d (.close h) r d' ↔ r = returns 0 [] ∧ d' = d.closed h := by
  simp only [machine, Machine.int21, hh, if_false, Prod.mk.injEq, eq_comm, Machine.closed]

theorem machine_write {p : Path} {pos : ℕ} {content data : List UInt8}
    (hb : d.behind h = some (p,pos,content)) :
    machine resolve listing d (.write h data) r d' ↔ r = returns (UInt16.ofNat data.length) [] ∧
      d' = { d.setPos h p (pos+data.length) with
        volume := d.volume.put p (.file (writeAt content pos data)) } := by
  simp only [machine, Machine.int21, hb, Prod.mk.injEq, eq_comm]

theorem machine_findFirst {pattern : List UInt8} :
    machine resolve listing d (.findFirst pattern) r d' ↔
      r = entryFound (listing d.volume pattern) ∧
        d' = { d with search := (listing d.volume pattern).tail } := by
  simp only [machine, Machine.int21, Machine.nextEntry, Prod.mk.injEq, eq_comm]

theorem machine_findNext : machine resolve listing d .findNext r d' ↔
    r = entryFound d.search ∧ d' = { d with search := d.search.tail } := by
  simp only [machine, Machine.int21, Machine.nextEntry, Prod.mk.injEq, eq_comm]

/-- Calls that succeed and leave no trace in this model. -/
theorem machine_dta {c : DosCall} (hc : c = .setDta ∨ c = .getDta ∨ ∃ s o, c = .restoreDta s o) :
    machine resolve listing d c r d' ↔ r = returns 0 [] ∧ d' = d := by
  rcases hc with rfl | rfl | ⟨s,o,rfl⟩ <;>
    simp only [machine, Machine.int21, Prod.mk.injEq, eq_comm]

@[simp] theorem setPos_setPos (p : Path) (m n : ℕ) :
    (d.setPos h p m).setPos h p n = d.setPos h p n := by
  simp [Machine.setPos]

theorem machine_seek {p : Path} {pos : ℕ} {content : List UInt8} {offset : UInt32}
    (hb : d.behind h = some (p,pos,content)) :
    machine resolve listing d (.seek h 0 offset) r d' ↔
      r = ⟨false,offset.toUInt16,0,(offset >>> 16).toUInt16,0,[]⟩ ∧
        d' = d.setPos h p offset.toNat := by
  simp only [machine, Machine.int21, hb, if_true, Nat.zero_add, UInt32.ofNat_toNat, Prod.mk.injEq,
    eq_comm]

/-- A seek or a read that does not fail has a file behind its handle. -/
theorem behind_of_machine {c : DosCall} (hc : (∃ o n, c = .seek h o n) ∨ ∃ n, c = .read h n)
    (hr : r.carry = false) (hm : machine resolve listing d c r d') :
    ∃ p pos content, d.behind h = some (p,pos,content) := by
  cases hb : d.behind h with
  | some x => exact ⟨_,_,_,rfl⟩
  | none =>
    rcases hc with ⟨o,n,rfl⟩ | ⟨n,rfl⟩ <;>
    · simp only [machine, Machine.int21, hb, Prod.mk.injEq] at hm
      obtain ⟨rfl,-⟩ := hm
      cases hr

theorem machine_read {p : Path} {pos : ℕ} {content : List UInt8} {count : UInt16}
    (hb : d.behind h = some (p,pos,content)) :
    machine resolve listing d (.read h count) r d' ↔
      r = returns (UInt16.ofNat ((content.drop pos).take count.toNat).length)
        ((content.drop pos).take count.toNat) ∧
      d' = d.setPos h p (pos+((content.drop pos).take count.toNat).length) := by
  simp only [machine, Machine.int21, hb, Prod.mk.injEq, eq_comm]

/-- The size query finds what the search on its own finds. -/
theorem machine_sizeQuery {found : DosRegs} :
    SizeQuery (machine resolve listing) name d found d' ↔
      found = entryFound (listing d.volume name) ∧
        d' = { d with search := (listing d.volume name).tail } := by
  constructor
  · rintro ⟨saved,d₁,r₁,d₂,d₃,r₃,h₁,h₂,h₃,h₄⟩
    obtain ⟨-,rfl⟩ := (machine_dta (.inr (.inl rfl))).mp h₁
    obtain ⟨-,rfl⟩ := (machine_dta (.inl rfl)).mp h₂
    obtain ⟨-,rfl⟩ := (machine_dta (.inr (.inr ⟨_,_,rfl⟩))).mp h₄
    exact machine_findFirst.mp h₃
  · intro hf
    exact ⟨_,d,_,d,d',_,(machine_dta (.inr (.inl rfl))).mpr ⟨rfl,rfl⟩,
      (machine_dta (.inl rfl)).mpr ⟨rfl,rfl⟩,machine_findFirst.mpr hf,
      (machine_dta (.inr (.inr ⟨_,_,rfl⟩))).mpr ⟨rfl,rfl⟩⟩

theorem behind_eq_some {p : Path} {pos : ℕ} {content : List UInt8} :
    d.behind h = some (p,pos,content) ↔
      d.handles h = some (p,pos) ∧ d.volume.find p = some (.file content) := by
  unfold Machine.behind
  constructor
  · intro hb
    split at hb
    · cases hb
    · rename_i q n hh
      split at hb
      · rename_i c hq
        obtain ⟨rfl,rfl,rfl⟩ : q = p ∧ n = pos ∧ c = content := by simpa using hb
        exact ⟨hh,hq⟩
      · cases hb
  · rintro ⟨hh,hf⟩
    simp only [hh, hf]

theorem behind_setPos {p : Path} {m n : ℕ} {content : List UInt8}
    (hb : d.behind h = some (p,m,content)) : (d.setPos h p n).behind h = some (p,n,content) := by
  rw [behind_eq_some] at hb ⊢
  exact ⟨by simp [Machine.setPos],hb.2⟩

end RmtDos.Dos
