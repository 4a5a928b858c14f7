import RmtDos.Dos.Files

/-! DOS files on a disk that can fill up. A write may store the front of its bytes; a read returns
nothing only at the end of the file. -/
namespace RmtDos.Dos
open Resumable

variable {F : Type} [DecidableEq F] (resolve : List UInt8 → F)

/-- A read makes progress, and a write that is not refused stores all its bytes. -/
def Progress (d : Files F) (c : DosCall) (r : DosRegs) : Prop :=
  match c with
  | .read h count =>
    r.carry = false → r.ax = 0 → count = 0 ∨
      ∀ f pos, d.handles h = some (f,pos) → (d.content f).length ≤ pos
  | .write _ data => r.carry = true ∨ r.ax.toNat = data.length
  | _ => True

/-- What a write that stores `k` bytes leaves; storing none of some bytes leaves the file alone. -/
def storedFront (content : List UInt8) (pos : ℕ) (data : List UInt8) (k : ℕ) : List UInt8 :=
  if k = 0 then content else writeAt content pos (data.take k)

/-- The services of `Step` with progress, and the write that finds too little room. -/
inductive DiskStep (d : Files F) : DosCall → DosRegs → Files F → Prop
  | full {c : DosCall} {r : DosRegs} {d' : Files F} (hs : Step resolve d c r d')
      (hp : Progress d c r) : DiskStep d c r d'
  | short (h : UInt16) (data : List UInt8) (r : DosRegs) (f : F) (pos k : ℕ)
      (hh : d.handles h = some (f,pos)) (hc : r.carry = false) (hk : k < data.length)
      (hax : r.ax.toNat = k) :
      DiskStep d (.write h data) r
        ⟨Function.update d.content f (storedFront (d.content f) pos data k),
          Function.update d.handles h (some (f,pos+k))⟩

/-- Appending at the end of a file. -/
theorem writeAt_length (content data : List UInt8) :
    writeAt content content.length data = content ++ data := by
  by_cases hd : data = []
  · simp [writeAt, hd]
  · simp [writeAt, hd]

/-- The next bytes, behind those already copied. -/
theorem take_append_next {content data : List UInt8} {pos : ℕ} (h : data <+: content.drop pos) :
    content.take pos ++ data = content.take (pos+data.length) := by
  obtain ⟨rest,hrest⟩ := h
  rw [List.take_add, ← hrest, List.take_left]

variable {resolve} {d d' : Files F} {c : DosCall} {r : DosRegs} {h : UInt16} {f : F} {x : F × ℕ}

/-- Every call can be refused. -/
theorem diskStep_refused (d : Files F) (c : DosCall) :
    DiskStep resolve d c ⟨true,0,0,0,0,[]⟩ d := by
  refine .full (.failed _ _ rfl) ?_
  cases c with
  | read h count => exact fun hc => absurd hc (by decide)
  | write h data => exact .inl rfl
  | _ => trivial

/-- Apart from writes the disk is as it was. -/
theorem DiskStep.toStep (hs : DiskStep resolve d c r d') (hc : ∀ h data, c ≠ .write h data) :
    Step resolve d c r d' := by
  cases hs with
  | full hs => exact hs
  | short h data => exact absurd rfl (hc h data)

theorem DiskStep.handle_frame (hs : DiskStep resolve d c r d') (hc : ¬ OnHandle h c)
    (hh : d.handles h = some x) : d'.handles h = some x := by
  cases hs with
  | full hs => exact hs.handle_frame hc hh
  | short k => exact (Function.update_of_ne (Ne.symm hc) _ _).trans hh

theorem DiskStep.content_frame (hs : DiskStep resolve d c r d') (hc : SparesFile resolve d f c) :
    d'.content f = d.content f := by
  cases hs with
  | full hs => exact hs.content_frame hc
  | short k data _ f' pos n hh => exact Function.update_of_ne (Ne.symm (hc _ hh)) _ _

/-- A read fails, or it ends at the end of the file, or it brings the next bytes. -/
theorem DiskStep.read_cases {count : UInt16} {pos : ℕ} (hs : DiskStep resolve d (.read h count) r d')
    (hh : d.handles h = some (f,pos)) (hcount : count ≠ 0) :
    (r.carry = true ∧ d' = d) ∨
      (r.carry = false ∧ r.ax = 0 ∧ (d.content f).length ≤ pos ∧
        d' = { d with handles := Function.update d.handles h (some (f,pos)) }) ∨
      (r.carry = false ∧ r.ax ≠ 0 ∧ r.ax ≤ count ∧ r.data.length = r.ax.toNat ∧
        r.data <+: (d.content f).drop pos ∧
        d' = { d with handles := Function.update d.handles h (some (f,pos+r.ax.toNat)) }) := by
  cases hs with
  | full hs hp =>
    cases hs with
    | failed _ _ hc => exact .inl ⟨hc,rfl⟩
    | read _ _ _ f' pos' hh' hc hpre hn hl =>
      obtain ⟨rfl,rfl⟩ : f' = f ∧ pos' = pos := by simpa [hh'] using hh
      by_cases hzero : r.ax = 0
      · refine .inr (.inl ⟨hc,hzero,(hp hc hzero).resolve_left hcount f' pos' hh,?_⟩)
        simp [hzero]
      · exact .inr (.inr ⟨hc,hzero,hl,hn,hpre,rfl⟩)

/-- A write is refused, or it stores all, or the front. -/
theorem DiskStep.write_cases {data : List UInt8} {pos : ℕ}
    (hs : DiskStep resolve d (.write h data) r d') (hh : d.handles h = some (f,pos)) :
    (r.carry = true ∧ d' = d) ∨
      (r.carry = false ∧ r.ax.toNat = data.length ∧
        d' = ⟨Function.update d.content f (writeAt (d.content f) pos data),
          Function.update d.handles h (some (f,pos+data.length))⟩) ∨
      (r.carry = false ∧ r.ax.toNat < data.length ∧
        d' = ⟨Function.update d.content f (storedFront (d.content f) pos data r.ax.toNat),
          Function.update d.handles h (some (f,pos+r.ax.toNat))⟩) := by
  have hsame {f' : F} {pos' : ℕ} (hh' : d.handles h = some (f',pos')) : f' = f ∧ pos' = pos := by
    simpa [hh'] using hh
  cases hs with
  | full hs hp =>
    cases hs with
    | failed _ _ hc => exact .inl ⟨hc,rfl⟩
    | write _ _ _ f' pos' hh' hc hn =>
      obtain ⟨rfl,rfl⟩ := hsame hh'
      exact .inr (.inl ⟨hc,hn,rfl⟩)
    | writeNone _ _ _ hn => exact .inl ⟨hp.resolve_right hn,rfl⟩
  | short _ _ _ f' pos' k hh' hc hk hax =>
    obtain ⟨rfl,rfl⟩ := hsame hh'
    subst hax
    exact .inr (.inr ⟨hc,hk,rfl⟩)

/-- A write that stores some of its bytes, but not all. -/
def ShortWrite : DosCall → DosRegs → Prop
  | .write _ data, r => r.carry = false ∧ 0 < r.ax.toNat ∧ r.ax.toNat < data.length
  | _, _ => False

variable (resolve) in
/-- The disk while no write is short. -/
def WholeStep (d : Files F) (c : DosCall) (r : DosRegs) (d' : Files F) : Prop :=
  DiskStep resolve d c r d' ∧ ¬ ShortWrite c r

/-- Then a write stores all its bytes, or none, and says so. -/
theorem WholeStep.write_cases {data : List UInt8} {pos : ℕ}
    (hs : WholeStep resolve d (.write h data) r d') (hh : d.handles h = some (f,pos)) :
    (r.carry = false ∧ r.ax.toNat = data.length ∧
      d' = ⟨Function.update d.content f (writeAt (d.content f) pos data),
        Function.update d.handles h (some (f,pos+data.length))⟩) ∨
      ((r.carry = true ∨ r.ax.toNat ≠ data.length) ∧ d' = d) := by
  obtain ⟨hc,rfl⟩ | ⟨hc,hn,rfl⟩ | ⟨hc,hlt,rfl⟩ := hs.1.write_cases hh
  · exact .inr ⟨.inl hc,rfl⟩
  · exact .inl ⟨hc,hn,rfl⟩
  · have hzero : r.ax.toNat = 0 := by
      by_contra hne
      exact hs.2 ⟨hc,Nat.pos_of_ne_zero hne,hlt⟩
    refine .inr ⟨.inr hlt.ne,?_⟩
    rw [hzero, storedFront, if_pos rfl, Nat.add_zero, ← hh, Function.update_eq_self,
      Function.update_eq_self]

/-- A search changes no file and no handle. -/
theorem Step.of_searches (hs : Step resolve d c r d') (hc : Searches c) : d' = d := by
  cases hs with
  | failed | getDta | setDta | restoreDta | findFirst | findNext => rfl
  | _ => exact hc.elim

theorem DiskStep.of_searches (hs : DiskStep resolve d c r d') (hc : Searches c) : d' = d := by
  refine (hs.toStep ?_).of_searches hc
  rintro h data rfl
  exact hc

variable (resolve) in
/-- Any disk: a read may bring nothing at all, and a write may be short. -/
def LooseStep (d : Files F) (c : DosCall) (r : DosRegs) (d' : Files F) : Prop :=
  Step resolve d c r d' ∨ DiskStep resolve d c r d'

theorem LooseStep.toStep (hs : LooseStep resolve d c r d') (hc : ∀ h data, c ≠ .write h data) :
    Step resolve d c r d' :=
  hs.elim id fun hs => hs.toStep hc

end RmtDos.Dos
