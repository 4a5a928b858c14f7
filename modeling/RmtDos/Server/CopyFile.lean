import RmtDos.Dos.Files

/-! The copy operation against DOS: the handles it opens are new and its own, so it leaves
every other handle alone, and every file but its target. -/
namespace RmtDos
open Resumable Prog Dos

variable {F : Type} [DecidableEq F] {resolve : List UInt8 → F} {fuel : ℕ}
  {g g' : FileTransferState} {d d' : Files F} {os : List Reply} {result : Bool × UInt32}

/-- The loop leaves a handle alone that is not its own, and every file but the one it writes. -/
theorem copyLoop_frame {hin hout : Int16} {n : UInt32} {h : UInt16} {x y : F × ℕ}
    (hx : d.handles h = some x) (hi : hin.toUInt16 ≠ h) (ho : hout.toUInt16 ≠ h)
    (hy : d.handles hout.toUInt16 = some y)
    (he : Exec (Step resolve) (copyLoop hin hout fuel n) g d os result g' d') :
    d'.handles h = some x ∧ (y.1 ≠ x.1 → d'.content x.1 = d.content x.1) := by
  have hI := he.invariant (fun e =>
    (e.handles h = some x ∧ (y.1 ≠ x.1 → e.content x.1 = d.content x.1)) ∧
      ∃ pos, e.handles hout.toUInt16 = some (y.1,pos)) (copyLoop_callsIn hin hout n) ?_
    ⟨⟨hx,fun _ => rfl⟩,y.2,hy⟩
  · exact hI.1
  · rintro e c r e₁ hc hs ⟨⟨h₁,h₂⟩,pos,h₃⟩
    have hon : ¬ OnHandle h c ∧ c ≠ .close hout.toUInt16 ∧
        (y.1 ≠ x.1 → SparesFile resolve e x.1 c) := by
      cases c with
      | read k count =>
        obtain rfl : k = hin.toUInt16 := hc
        exact ⟨hi,nofun,fun _ => trivial⟩
      | write k data =>
        obtain rfl : k = hout.toUInt16 := hc
        refine ⟨ho,nofun,fun hxy z hz => ?_⟩
        obtain rfl : (y.1,pos) = z := Option.some.inj (h₃.symm.trans hz)
        exact hxy
      | _ => exact hc.elim
    exact ⟨⟨hs.handle_frame hon.1 h₁,fun hxy => (hs.content_frame (hon.2.2 hxy)).trans (h₂ hxy)⟩,
      hs.handle_file hon.2.1 h₃⟩

/-- A copy leaves an open handle alone, and its file if that is not the target. -/
theorem dosCopyFile_frame {h : UInt16} {x : F × ℕ} (hx : d.handles h = some x)
    (he : Exec (Step resolve) (dosCopyFile fuel) g d os result g' d') :
    d'.handles h = some x ∧
      (resolve (targetStr g) ≠ x.1 → d'.content x.1 = d.content x.1) := by
  obtain ⟨-,r,d₁,hs,⟨-,-,-,rfl⟩ | ⟨hr,q,d₂,hq,hend⟩⟩ := exec_dosCopyFile.mp he
  · exact ⟨hs.handle_frame id hx,fun _ => hs.content_frame trivial⟩
  have hx₁ := hs.handle_frame id hx
  have hc₁ : d₁.content x.1 = d.content x.1 := hs.content_frame trivial
  have hx₂ := hq.handle_frame id hx₁
  have hc₂ (ht : resolve (targetStr g) ≠ x.1) : d₂.content x.1 = d₁.content x.1 :=
    hq.content_frame ht
  obtain ⟨hn,-⟩ | ⟨-,-,-,hin,hf,-⟩ := hs.openRead_cases
  · exact absurd hn hr
  have hne : (handleOf r).toUInt16 ≠ h := by
    rintro rfl
    rw [hin] at hx
    cases hf.symm.trans hx
  rcases hend with ⟨hn,-,-,hc⟩ | ⟨hn,d₃,d₄,hl,h₁,h₂⟩
  · obtain ⟨hx₃,hc₃⟩ := closed_frame hc hne hx₂
    exact ⟨hx₃,fun ht => by rw [hc₃, hc₂ ht, hc₁]⟩
  obtain ⟨hn',-⟩ | ⟨-,-,-,hout,hf',hd₂⟩ := hq.create_cases
  · exact absurd hn' hn
  have hne' : (handleOf q).toUInt16 ≠ h := by
    rintro rfl
    rw [hout] at hx₁
    cases hf'.symm.trans hx₁
  have hy : d₂.handles (handleOf q).toUInt16 = some (resolve (targetStr g),0) := by
    simp [hd₂, hout]
  obtain ⟨hx₃,hc₃⟩ := copyLoop_frame hx₂ hne hne' hy hl
  obtain ⟨hx₄,hc₄⟩ := closed_frame h₁ hne' hx₃
  obtain ⟨hx₅,hc₅⟩ := closed_frame h₂ hne hx₄
  exact ⟨hx₅,fun ht => by rw [hc₅, hc₄, hc₃ ht, hc₂ ht, hc₁]⟩

/-- DOS can copy at least one byte from `source` to `target`. -/
def CanCopy (resolve : List UInt8 → F) (d : Files F) (source target : List UInt8) : Prop :=
  hasWildcard source = false ∧ hasWildcard target = false ∧ resolve source ≠ resolve target ∧
    d.content (resolve source) ≠ [] ∧
    ∃ a b : UInt16, a ≠ b ∧ a < 0x8000 ∧ b < 0x8000 ∧ d.handles a = none ∧ d.handles b = none

/-- Nothing is copied from an empty file. -/
theorem copyLoop_empty {hin hout : Int16} {n : UInt32} {f : F} {pos : ℕ}
    (hh : d.handles hin.toUInt16 = some (f,pos)) (hf : d.content f = [])
    (he : Exec (Step resolve) (copyLoop hin hout fuel n) g d os result g' d') :
    result.2 = n := by
  cases fuel with
  | zero => exact he.elim
  | succ fuel =>
    obtain ⟨r,d₁,hr,⟨-,-,rfl,-⟩ | ⟨-,-,rfl,-⟩ | ⟨hn,hz,-⟩⟩ := exec_copyLoop_succ.mp he
    · rfl
    · rfl
    · cases hr with
      | failed _ _ hc => simp [handleOf, hc] at hn
      | read _ _ _ f' pos' hh' hc hp hlen =>
        obtain ⟨rfl,rfl⟩ : f' = f ∧ pos' = pos := by simpa [hh'] using hh
        have hd : r.data = [] := by simpa [hf] using hp
        have hax : r.ax = 0 := by
          rw [hd] at hlen
          exact UInt16.toNat_inj.mp hlen.symm
        simp [handleOf, hc, hax] at hz

/-- Where no byte can be copied, a copy reports no byte copied. -/
theorem dosCopyFile_zero (hn : ¬ CanCopy resolve d (filenameStr g) (targetStr g))
    (he : Exec (Step resolve) (dosCopyFile fuel) g d os result g' d') : result.2 = 0 := by
  obtain ⟨-,r,d₁,hs,⟨-,rfl,-⟩ | ⟨hr,q,d₂,hq,⟨-,rfl,-⟩ | ⟨hr',d₃,d₄,hl,-⟩⟩⟩ := exec_dosCopyFile.mp he
  · rfl
  · rfl
  obtain ⟨hn',-⟩ | ⟨-,hw,hlt,hin,hf,hd₁⟩ := hs.openRead_cases
  · exact absurd hn' hr
  obtain ⟨hn',-⟩ | ⟨-,hw',hlt',hout,hf',hd₂⟩ := hq.create_cases
  · exact absurd hn' hr'
  have hne : r.ax ≠ q.ax := by
    intro h
    simp [hd₁, h] at hf'
  have hfree : d.handles q.ax = none := by simpa [hd₁, Function.update_of_ne hne.symm] using hf'
  have hsrc : resolve (filenameStr g) = resolve (targetStr g) ∨
      d.content (resolve (filenameStr g)) = [] := by
    by_contra hcon
    rw [not_or] at hcon
    exact hn ⟨hw,hw',hcon.1,hcon.2,r.ax,q.ax,hne,hlt,hlt',hf,hfree⟩
  have hempty : d₂.content (resolve (filenameStr g)) = [] := by
    by_cases hst : resolve (filenameStr g) = resolve (targetStr g)
    · simp [hd₂, hst]
    · simpa [hd₂, Function.update_of_ne hst, hd₁] using hsrc.resolve_left hst
  have hh : d₂.handles (handleOf r).toUInt16 = some (resolve (filenameStr g),0) := by
    simp [hd₂, hin, Function.update_of_ne hne, hd₁]
  exact copyLoop_empty hh hempty hl

/-- The open of a copy may fail. -/
theorem dosCopyFile_refused : Exec (Step resolve) (dosCopyFile 0) g d [] (false,0) g d :=
  exec_dosCopyFile.mpr ⟨rfl,⟨true,0,0,0,0,[]⟩,d,.failed _ _ rfl,.inl ⟨by decide,rfl,rfl,rfl⟩⟩

/-- Where a byte can be copied, a copy may end after the first one. -/
theorem dosCopyFile_one (hc : CanCopy resolve d (filenameStr g) (targetStr g)) :
    ∃ g' d', Exec (Step resolve) (dosCopyFile 2) g d [] (false,1) g' d' := by
  obtain ⟨hws,hwt,hst,hne,a,b,hab,ha,hb,hfa,hfb⟩ := hc
  obtain ⟨byte,rest,hcont⟩ := List.exists_cons_of_ne_nil hne
  have hna : ¬ handleOf ⟨false,a,0,0,0,[]⟩ < 0 := handleOf_nonneg rfl ha
  have hnb : ¬ handleOf ⟨false,b,0,0,0,[]⟩ < 0 := handleOf_nonneg rfl hb
  have hia : (handleOf ⟨false,a,0,0,0,[]⟩).toUInt16 = a := toUInt16_handleOf rfl
  have hib : (handleOf ⟨false,b,0,0,0,[]⟩).toUInt16 = b := toUInt16_handleOf rfl
  let d₁ : Files F :=
    { d with handles := Function.update d.handles a (some (resolve (filenameStr g),0)) }
  let d₂ : Files F :=
    ⟨Function.update d₁.content (resolve (targetStr g)) [],
      Function.update d₁.handles b (some (resolve (targetStr g),0))⟩
  have h₁ : Step resolve d (.openRead (filenameStr g)) ⟨false,a,0,0,0,[]⟩ d₁ :=
    .openRead _ _ rfl ha hfa hws
  have h₂ : Step resolve d₁ (.create (targetStr g)) ⟨false,b,0,0,0,[]⟩ d₂ :=
    .create _ _ rfl hb (by simp [d₁, Function.update_of_ne (Ne.symm hab), hfb]) hwt
  have ha₂ : d₂.handles a = some (resolve (filenameStr g),0) := by
    simp [d₂, d₁, Function.update_of_ne hab]
  have hs₂ : d₂.content (resolve (filenameStr g)) = byte :: rest := by
    simp [d₂, d₁, Function.update_of_ne hst, hcont]
  -- one byte is read and written, and the next read fails
  let d₃ : Files F :=
    { d₂ with handles := Function.update d₂.handles a (some (resolve (filenameStr g),0+1)) }
  have h₃ : Step resolve d₂ (.read a 512) ⟨false,1,0,0,0,[byte]⟩ d₃ :=
    .read _ _ _ _ _ ha₂ rfl (by simp [hs₂]) rfl (show (1 : UInt16) ≤ 512 by decide)
  have hb₃ : d₃.handles b = some (resolve (targetStr g),0) := by
    simp [d₃, d₂, Function.update_of_ne (Ne.symm hab)]
  have hlen (v : Vector UInt8 512) : (v.toList.take 1).length = 1 := by simp
  have h₄ (data : List UInt8) (hd : data.length = 1) :
      ∃ d₄, Step resolve d₃ (.write b data) ⟨false,1,0,0,0,[]⟩ d₄ :=
    ⟨_,.write _ _ _ _ _ hb₃ rfl hd.symm⟩
  obtain ⟨d₄,h₄⟩ := h₄ _ (hlen (storeChunk ⟨false,1,0,0,0,[byte]⟩ g).chunk)
  obtain ⟨d₅,h₅⟩ := closed_exists resolve d₄ (handleOf ⟨false,b,0,0,0,[]⟩)
  obtain ⟨d₆,h₆⟩ := closed_exists resolve d₅ (handleOf ⟨false,a,0,0,0,[]⟩)
  have hone : handleOf ⟨false,1,0,0,0,[byte]⟩ = 1 := rfl
  have hloop : Exec (Step resolve) (copyLoop (handleOf ⟨false,a,0,0,0,[]⟩)
      (handleOf ⟨false,b,0,0,0,[]⟩) 2 0) g d₂ [] (false,1)
      (storeChunk ⟨false,1,0,0,0,[byte]⟩ g) d₄ := by
    refine exec_copyLoop_succ.mpr ⟨_,d₃,hia.symm ▸ h₃,.inr (.inr ⟨hone ▸ by decide,hone ▸ by decide,
      _,d₄,hib.symm ▸ h₄,.inl ⟨rfl,?_⟩⟩)⟩
    rw [hone]
    have hfail : storeChunk ⟨true,0,0,0,0,[]⟩ (storeChunk ⟨false,1,0,0,0,[byte]⟩ g) =
        storeChunk ⟨false,1,0,0,0,[byte]⟩ g := if_pos rfl
    exact exec_copyLoop_succ.mpr ⟨⟨true,0,0,0,0,[]⟩,d₄,.failed _ _ rfl,
      .inl ⟨by decide,rfl,by decide,hfail.symm,rfl⟩⟩
  exact ⟨_,d₆,exec_dosCopyFile.mpr
    ⟨rfl,_,d₁,h₁,.inr ⟨hna,_,d₂,h₂,.inr ⟨hnb,d₄,d₅,hloop,h₅,h₆⟩⟩⟩⟩

end RmtDos
