import Mathlib.Logic.Function.Basic
import RmtDos.Server.Atomic

/-! DOS files and handles as the TSR meets them: what each service may return and how it
changes the files. Any call may fail; a write stores all its bytes or none; a read returns a
prefix of what is left. -/
namespace RmtDos.Dos
open Resumable

/-- The contents of the files, and for every open handle its file and position. -/
structure Files (F : Type) where
  content : F → List UInt8
  handles : UInt16 → Option (F × ℕ)

/-- A write beyond the end fills the gap; a write of no bytes cuts the file at the position. -/
def writeAt (content : List UInt8) (pos : ℕ) (data : List UInt8) : List UInt8 :=
  let padded := content ++ List.replicate (pos-content.length) 0
  padded.take pos ++ data ++ if data = [] then [] else padded.drop (pos+data.length)

/-- Cutting a file twice at one position cuts it once. -/
theorem writeAt_nil_nil (content : List UInt8) (pos : ℕ) :
    writeAt (writeAt content pos []) pos [] = writeAt content pos [] := by
  have hl : (writeAt content pos []).length = pos := by
    simp only [writeAt, if_true, List.append_nil, List.length_take, List.length_append,
      List.length_replicate]
    omega
  have hcut (c : List UInt8) (hc : c.length = pos) : writeAt c pos [] = c := by
    simp [writeAt, hc, List.take_of_length_le hc.le]
  exact hcut _ hl

/-- The file size in a directory entry. -/
def entrySize (dta : List UInt8) : ℕ :=
  (dtaGetU32 (Bytes.overwrite (Vector.replicate 43 0) dta) 26).toNat

/-- What is behind a handle: the file, the position and the content of the file. -/
def Files.view {F : Type} (d : Files F) (h : UInt16) : Option (F × ℕ × List UInt8) :=
  (d.handles h).map fun x => (x.1,x.2,d.content x.1)

theorem view_eq {F : Type} {d : Files F} {h : UInt16} {x : F × ℕ} (hh : d.handles h = some x) :
    d.view h = some (x.1,x.2,d.content x.1) := by
  simp [Files.view, hh]

variable {F : Type} [DecidableEq F] (resolve : List UInt8 → F)

/-- `resolve` gives the file a name stands for. The handle of a new open is free, and never
negative as an `int`; no name with a wildcard can be opened or created. -/
inductive Step (d : Files F) : DosCall → DosRegs → Files F → Prop
  | failed (c : DosCall) (r : DosRegs) (hc : r.carry = true) : Step d c r d
  | create (name : List UInt8) (r : DosRegs) (hc : r.carry = false) (hr : r.ax < 0x8000)
      (hf : d.handles r.ax = none) (hw : hasWildcard name = false) :
      Step d (.create name) r
        ⟨Function.update d.content (resolve name) [],
          Function.update d.handles r.ax (some (resolve name,0))⟩
  | openRead (name : List UInt8) (r : DosRegs) (hc : r.carry = false) (hr : r.ax < 0x8000)
      (hf : d.handles r.ax = none) (hw : hasWildcard name = false) :
      Step d (.openRead name) r
        { d with handles := Function.update d.handles r.ax (some (resolve name,0)) }
  | close (h : UInt16) (r : DosRegs) :
      Step d (.close h) r { d with handles := Function.update d.handles h none }
  | read (h count : UInt16) (r : DosRegs) (f : F) (pos : ℕ) (hh : d.handles h = some (f,pos))
      (hc : r.carry = false) (hp : r.data <+: (d.content f).drop pos)
      (hn : r.data.length = r.ax.toNat) (hl : r.ax ≤ count) :
      Step d (.read h count) r
        { d with handles := Function.update d.handles h (some (f,pos+r.ax.toNat)) }
  | write (h : UInt16) (data : List UInt8) (r : DosRegs) (f : F) (pos : ℕ)
      (hh : d.handles h = some (f,pos)) (hc : r.carry = false) (hn : r.ax.toNat = data.length) :
      Step d (.write h data) r
        ⟨Function.update d.content f (writeAt (d.content f) pos data),
          Function.update d.handles h (some (f,pos+data.length))⟩
  | writeNone (h : UInt16) (data : List UInt8) (r : DosRegs) (hn : r.ax.toNat ≠ data.length) :
      Step d (.write h data) r d
  | seek (h : UInt16) (offset : UInt32) (r : DosRegs) (f : F) (pos : ℕ)
      (hh : d.handles h = some (f,pos)) (hp : positionOf r = offset) :
      Step d (.seek h 0 offset) r
        { d with handles := Function.update d.handles h (some (f,offset.toNat)) }
  | mkdir (name : List UInt8) (r : DosRegs) : Step d (.mkdir name) r d
  | rmdir (name : List UInt8) (r : DosRegs) : Step d (.rmdir name) r d
  | unlink (name : List UInt8) (r : DosRegs) (hc : r.carry = false) (content : F → List UInt8)
      (hf : ∀ f, f ≠ resolve name → content f = d.content f) :
      Step d (.unlink name) r { d with content := content }
  | rename (source target : List UInt8) (r : DosRegs) (hc : r.carry = false)
      (content : F → List UInt8)
      (hf : ∀ f, f ≠ resolve source → f ≠ resolve target → content f = d.content f) :
      Step d (.rename source target) r { d with content := content }
  | setDta (r : DosRegs) : Step d .setDta r d
  | getDta (r : DosRegs) : Step d .getDta r d
  | restoreDta (segment offset : UInt16) (r : DosRegs) : Step d (.restoreDta segment offset) r d
  | findFirst (pattern : List UInt8) (r : DosRegs) (hc : r.carry = false)
      (hl : r.data.length = 43)
      (hs : hasWildcard pattern = false → entrySize r.data = (d.content (resolve pattern)).length) :
      Step d (.findFirst pattern) r d
  | findNext (r : DosRegs) (hc : r.carry = false) (hl : r.data.length = 43) : Step d .findNext r d

/-- The calls that take a handle. -/
def OnHandle (h : UInt16) : DosCall → Prop
  | .close k | .read k _ | .write k _ | .seek k .. => k = h
  | _ => False

/-- The call cannot change the content of `f`. -/
def SparesFile (d : Files F) (f : F) : DosCall → Prop
  | .create name | .unlink name => resolve name ≠ f
  | .rename source target => resolve source ≠ f ∧ resolve target ≠ f
  | .write k _ => ∀ x, d.handles k = some x → x.1 ≠ f
  | _ => True

variable {resolve} {d d' d₂ : Files F} {c : DosCall} {r : DosRegs} {h : UInt16} {f : F}
  {x : F × ℕ}

/-- An open handle changes only in calls that take it. -/
theorem Step.handle_frame (hs : Step resolve d c r d') (hc : ¬ OnHandle h c)
    (hh : d.handles h = some x) : d'.handles h = some x := by
  have hfree {k : UInt16} {y : F × ℕ} (hk : d.handles k = none) :
      Function.update d.handles k (some y) h = some x := by
    have hne : h ≠ k := by
      rintro rfl
      rw [hk] at hh
      cases hh
    rwa [Function.update_of_ne hne]
  cases hs with
  | create name _ hc' hr hf hw => exact hfree hf
  | openRead name _ hc' hr hf hw => exact hfree hf
  | close k => simpa only [Function.update_of_ne (Ne.symm hc)] using hh
  | read k => simpa only [Function.update_of_ne (Ne.symm hc)] using hh
  | write k => simpa only [Function.update_of_ne (Ne.symm hc)] using hh
  | seek k => simpa only [Function.update_of_ne (Ne.symm hc)] using hh
  | _ => exact hh

/-- A handle names the same file until it is closed. -/
theorem Step.handle_file {pos : ℕ} (hs : Step resolve d c r d') (hc : c ≠ .close h)
    (hh : d.handles h = some (f,pos)) : ∃ pos', d'.handles h = some (f,pos') := by
  by_cases hon : OnHandle h c
  swap
  · exact ⟨pos,hs.handle_frame hon hh⟩
  have hsame {k : UInt16} {f' : F} {p p' : ℕ} (hk : k = h) (hf : d.handles k = some (f',p)) :
      ∃ pos', Function.update d.handles k (some (f',p')) h = some (f,pos') := by
    obtain rfl := hk
    obtain ⟨rfl,rfl⟩ : f' = f ∧ p = pos := by simpa [hf] using hh
    exact ⟨p',by simp⟩
  cases hs with
  | failed => exact ⟨pos,hh⟩
  | close k => exact absurd (congrArg DosCall.close hon) hc
  | read k count _ f' p hf => exact hsame hon hf
  | write k data _ f' p hf => exact hsame hon hf
  | writeNone => exact ⟨pos,hh⟩
  | seek k offset _ f' p hf => exact hsame hon hf
  | _ => exact hon.elim

theorem Step.content_frame (hs : Step resolve d c r d') (hc : SparesFile resolve d f c) :
    d'.content f = d.content f := by
  cases hs with
  | create name => simp only [Function.update_of_ne (Ne.symm hc)]
  | write k data _ f' pos hh => simp only [Function.update_of_ne (Ne.symm (hc _ hh))]
  | unlink name _ hc' content hf => exact hf _ (Ne.symm hc)
  | rename source target _ hc' content hf => exact hf _ (Ne.symm hc.1) (Ne.symm hc.2)
  | _ => rfl

theorem Step.view_frame (hs : Step resolve d c r d') (hc : ¬ OnHandle h c)
    (hf : ∀ x, d.handles h = some x → SparesFile resolve d x.1 c) (hh : d.handles h = some x) :
    d'.view h = d.view h := by
  rw [view_eq hh, view_eq (hs.handle_frame hc hh), hs.content_frame (hf x hh)]

/-- An open fails, or it takes a free handle to the start of the file. -/
theorem Step.openRead_cases {name : List UInt8} (hs : Step resolve d (.openRead name) r d') :
    (handleOf r < 0 ∧ d' = d) ∨
      (¬ handleOf r < 0 ∧ hasWildcard name = false ∧ r.ax < 0x8000 ∧ (handleOf r).toUInt16 = r.ax ∧
        d.handles r.ax = none ∧
        d' = { d with handles := Function.update d.handles r.ax (some (resolve name,0)) }) := by
  cases hs with
  | failed _ _ hc => exact .inl ⟨by simp [handleOf, hc],rfl⟩
  | openRead _ _ hc hr hf hw =>
    exact .inr ⟨handleOf_nonneg hc hr,hw,hr,toUInt16_handleOf hc,hf,rfl⟩

/-- A create fails, or it empties the file and takes a free handle to it. -/
theorem Step.create_cases {name : List UInt8} (hs : Step resolve d (.create name) r d') :
    (handleOf r < 0 ∧ d' = d) ∨
      (¬ handleOf r < 0 ∧ hasWildcard name = false ∧ r.ax < 0x8000 ∧ (handleOf r).toUInt16 = r.ax ∧
        d.handles r.ax = none ∧
        d' = ⟨Function.update d.content (resolve name) [],
          Function.update d.handles r.ax (some (resolve name,0))⟩) := by
  cases hs with
  | failed _ _ hc => exact .inl ⟨by simp [handleOf, hc],rfl⟩
  | create _ _ hc hr hf hw =>
    exact .inr ⟨handleOf_nonneg hc hr,hw,hr,toUInt16_handleOf hc,hf,rfl⟩

/-- No handle is negative as an `int`. -/
def Files.LowHandles {F : Type} (d : Files F) : Prop := ∀ h x, d.handles h = some x → h < 0x8000

theorem Files.LowHandles.step {resolve : List UInt8 → F} {d d' : Files F} {c : DosCall}
    {r : DosRegs} (hd : d.LowHandles) (hs : Step resolve d c r d') : d'.LowHandles := by
  have hset {k : UInt16} {y : Option (F × ℕ)} (hk : y ≠ none → k < 0x8000) (h : UInt16) (x : F × ℕ)
      (hx : Function.update d.handles k y h = some x) : h < 0x8000 := by
    by_cases he : h = k
    · obtain rfl := he
      rw [Function.update_self] at hx
      exact hk (by simp [hx])
    · rw [Function.update_of_ne he] at hx
      exact hd h x hx
  cases hs with
  | create name _ hc hr => exact hset fun _ => hr
  | openRead name _ hc hr => exact hset fun _ => hr
  | close => exact hset (absurd rfl)
  | read k count _ f pos hh => exact hset fun _ => hd _ _ hh
  | write k data _ f pos hh => exact hset fun _ => hd _ _ hh
  | seek k offset _ f pos hh => exact hset fun _ => hd _ _ hh
  | _ => exact hd

theorem Files.LowHandles.none_of_neg {F : Type} {d : Files F} {h : Int16} (hd : d.LowHandles)
    (hh : h < 0) : d.handles h.toUInt16 = none := by
  cases hx : d.handles h.toUInt16 with
  | none => rfl
  | some x =>
    have hlt := hd _ _ hx
    rw [Int16.lt_iff_toInt_lt] at hh
    rw [UInt16.lt_iff_toNat_lt] at hlt
    exfalso
    have hbits : h.toUInt16.toNat = h.toBitVec.toNat := rfl
    have hcond := BitVec.toInt_eq_toNat_cond h.toBitVec
    simp only [Int16.toInt_toBitVec, Int16.toInt_zero, UInt16.reduceToNat] at hh hcond hlt
    split at hcond <;> omega

theorem closed_exists (resolve : List UInt8 → F) (d : Files F) (k : Int16) :
    ∃ d', Closed (Step resolve) true k d d' := by
  by_cases hk : k < 0
  · exact ⟨d,by simp [Closed, hk]⟩
  · exact ⟨_,by simpa [Closed, hk] using ⟨⟨false,0,0,0,0,[]⟩,Step.close _ _⟩⟩

/-- A guarded close of another handle leaves a handle and the files alone. -/
theorem closed_frame {b : Bool} {k : Int16} (hc : Closed (Step resolve) b k d d')
    (hk : k.toUInt16 ≠ h) (hh : d.handles h = some x) :
    d'.handles h = some x ∧ d'.content = d.content := by
  unfold Closed at hc
  split_ifs at hc
  · obtain ⟨q,hq⟩ := hc
    refine ⟨hq.handle_frame hk hh,?_⟩
    cases hq <;> rfl
  · obtain rfl := hc
    exact ⟨hh,rfl⟩

/-- What a write or a close of a handle may do depends only on what is behind the handle. -/
theorem Step.write_local {data : List UInt8} (hs : Step resolve d (.write h data) r d')
    (hv : d.view h = d₂.view h) :
    ∃ d₂', Step resolve d₂ (.write h data) r d₂' ∧ d'.view h = d₂'.view h := by
  cases hs with
  | failed _ _ hc => exact ⟨d₂,.failed _ _ hc,hv⟩
  | writeNone _ _ _ hn => exact ⟨d₂,.writeNone _ _ _ hn,hv⟩
  | write _ _ _ f pos hh hc hn =>
    rw [view_eq hh] at hv
    obtain ⟨y,hy,hxy⟩ := Option.map_eq_some_iff.mp hv.symm
    obtain ⟨rfl,rfl,hcont⟩ : y.1 = f ∧ y.2 = pos ∧ d₂.content y.1 = d.content f := by
      simpa using hxy
    refine ⟨_,.write _ _ _ y.1 y.2 hy hc hn,?_⟩
    simp [Files.view, hcont]

theorem Step.close_local (hs : Step resolve d (.close h) r d') (hv : d.view h = d₂.view h) :
    ∃ d₂', Step resolve d₂ (.close h) r d₂' ∧ d'.view h = d₂'.view h := by
  cases hs with
  | failed _ _ hc => exact ⟨d₂,.failed _ _ hc,hv⟩
  | close => exact ⟨_,.close _ _,by simp [Files.view]⟩

end RmtDos.Dos
