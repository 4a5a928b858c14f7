import Mathlib.Algebra.Group.Nat.Defs
import RmtDos.Dos.Disk

/-! `dos_copy_file` on a disk that can fail at any point: it ends, a copy that succeeds is exact, the
source stays as it is, and each handle is closed once. -/
namespace RmtDos
open Resumable Prog Dos

variable {F : Type} [DecidableEq F] {resolve : List UInt8 → F} {fuel : ℕ}
  {g g' : FileTransferState} {d d' : Files F} {os : List Reply} {result : Bool × UInt32}
  {src tgt : F} {hin hout : Int16} {n : UInt32}

/-- The two files between two rounds of the loop: the first `pos` bytes are copied. -/
structure Copied (d : Files F) (src tgt : F) (hin hout : Int16) (pos : ℕ) : Prop where
  reads : d.handles hin.toUInt16 = some (src,pos)
  writes : d.handles hout.toUInt16 = some (tgt,pos)
  bound : pos ≤ (d.content src).length
  content : d.content tgt = (d.content src).take pos

/-- The outcome of the loop and of the copy. -/
def CopyExact (source : List UInt8) (d' : Files F) (src tgt : F) (result : Bool × UInt32) : Prop :=
  d'.content src = source ∧
    (result.1 = true → d'.content tgt = source ∧ result.2 = UInt32.ofNat source.length)

/-- One round copies the bytes that it read. -/
theorem Copied.next {r : DosRegs} {d₁ d₂ : Files F} {pos : ℕ}
    (h : Copied d src tgt hin hout pos) (hst : src ≠ tgt) (hne : hin.toUInt16 ≠ hout.toUInt16)
    (hlen : r.data.length = r.ax.toNat)
    (hpre : r.data <+: (d.content src).drop pos)
    (hd₁ : d₁ = { d with
      handles := Function.update d.handles hin.toUInt16 (some (src,pos+r.ax.toNat)) })
    (hd₂ : d₂ = ⟨Function.update d₁.content tgt (writeAt (d₁.content tgt) pos r.data),
      Function.update d₁.handles hout.toUInt16 (some (tgt,pos+r.data.length))⟩) :
    Copied d₂ src tgt hin hout (pos+r.ax.toNat) ∧ d₂.content src = d.content src := by
  have hsrc : d₂.content src = d.content src := by
    rw [hd₂, hd₁]
    exact Function.update_of_ne hst _ _
  have hin₂ : d₂.handles hin.toUInt16 = some (src,pos+r.ax.toNat) := by
    rw [hd₂, hd₁]
    simp [Function.update_of_ne hne]
  have hpos : pos = (d.content tgt).length := by
    rw [h.content, List.length_take, Nat.min_eq_left h.bound]
  have htgt : d₂.content tgt = (d.content src).take (pos+r.ax.toNat) := by
    rw [hd₂, hd₁, ← hlen, ← take_append_next hpre, ← h.content]
    simp only [Function.update_self]
    rw [hpos, writeAt_length]
  have hbound : pos+r.ax.toNat ≤ (d.content src).length := by
    have hle := hpre.length_le
    rw [List.length_drop, hlen] at hle
    have := h.bound
    omega
  refine ⟨⟨hin₂,?_,?_,?_⟩,hsrc⟩
  · rw [hd₂, ← hlen]
    exact Function.update_self ..
  · rwa [hsrc]
  · rwa [hsrc]

theorem handleOf_eq_zero {r : DosRegs} (hc : r.carry = false) : handleOf r = 0 ↔ r.ax = 0 := by
  constructor
  · intro h
    rw [← toUInt16_handleOf hc, h]
    rfl
  · intro h
    rw [handleOf, hc, h]
    rfl

/-- The loop ends, whatever DOS answers; if it succeeds, the target has all the bytes. -/
theorem copyLoop_total {pos : ℕ} (h : Copied d src tgt hin hout pos) (hst : src ≠ tgt)
    (hne : hin.toUInt16 ≠ hout.toUInt16) (hn : n = UInt32.ofNat pos)
    (hfuel : (d.content src).length-pos < fuel) :
    Total (DiskStep resolve) (copyLoop hin hout fuel n) g d fun os result _ d' =>
      os = [] ∧ CopyExact (d.content src) d' src tgt result := by
  induction fuel generalizing d g n pos with
  | zero => exact absurd hfuel (Nat.not_lt_zero _)
  | succ fuel ih =>
    simp only [copyLoop, dosReadFile_eq, dosWriteFile_eq, bind_eq, call_bind, done_bind, pure_eq]
    refine ⟨⟨_,_,diskStep_refused d _⟩,fun r d₁ hr => ?_⟩
    dsimp only
    obtain ⟨hc,rfl⟩ | ⟨hc,hz,hend,hd₁⟩ | ⟨hc,hnz,hle,hlen,hpre,hd₁⟩ :=
      hr.read_cases h.reads (by decide)
    · have hneg : handleOf r < 0 := by
        rw [handleOf, if_pos hc]
        decide
      rw [if_pos hneg]
      exact ⟨rfl,rfl,by simp⟩
    · have hzero : handleOf r = 0 := (handleOf_eq_zero hc).mpr hz
      rw [if_neg (by rw [hzero]; decide), if_pos hzero]
      have hall : pos = (d.content src).length := le_antisymm h.bound hend
      refine ⟨rfl,by rw [hd₁],fun _ => ⟨?_,?_⟩⟩
      · rw [hd₁]
        exact h.content.trans (List.take_of_length_le hall.ge)
      · rw [hn, hall]
    · have hsmall : r.ax < 0x8000 :=
        UInt16.lt_of_le_of_lt hle (by decide : (512 : UInt16) < 0x8000)
      rw [if_neg (handleOf_nonneg hc hsmall), if_neg fun hz => hnz ((handleOf_eq_zero hc).mp hz),
        toUInt16_handleOf hc]
      refine ⟨⟨_,_,diskStep_refused d₁ _⟩,fun q d₂ hq => ?_⟩
      have hbytes : r.data.length ≤ 512 := by
        rw [hlen]
        exact hle
      have hdata : (storeChunk r g).chunk.toList.take r.ax.toNat = r.data := by
        rw [storeChunk, hc, ← hlen]
        exact Bytes.take_overwrite _ _ hbytes
      have hwrites : d₁.handles hout.toUInt16 = some (tgt,pos) := by
        rw [hd₁]
        exact (Function.update_of_ne hne.symm _ _).trans h.writes
      have hsrc₁ : d₁.content src = d.content src := by rw [hd₁]
      dsimp only at hq ⊢
      rw [hdata] at hq
      obtain ⟨hcq,rfl⟩ | ⟨hcq,hax,hd₂⟩ | ⟨hcq,hax,hd₂⟩ := hq.write_cases hwrites
      · have hfail : writeOk r.ax q = false := by simp [writeOk, hcq]
        rw [if_neg (by simp [hfail])]
        exact ⟨rfl,hsrc₁,by simp⟩
      · have hok : writeOk r.ax q = true := by
          simp [writeOk, hcq, ← UInt16.toNat_inj, hax, hlen]
        rw [if_pos hok]
        obtain ⟨hnext,hsrc⟩ := h.next hst hne hlen hpre hd₁ hd₂
        rw [← hsrc]
        refine ih hnext ?_ ?_
        · rw [hn, UInt32.ofNat_add, ← UInt16.toNat_toUInt32, UInt32.ofNat_toNat]
        · rw [hsrc]
          have hpos : 0 < r.ax.toNat := Nat.pos_of_ne_zero fun hz => hnz (UInt16.toNat_inj.mp hz)
          have hbound := hnext.bound
          rw [hsrc] at hbound
          omega
      · have hfail : writeOk r.ax q = false := by
          simp [writeOk, hcq, ← UInt16.toNat_inj]
          omega
        rw [if_neg (by simp [hfail])]
        refine ⟨rfl,?_,by simp⟩
        rw [hd₂]
        exact (Function.update_of_ne hst _ _).trans hsrc₁

theorem total_dosCloseFile_bind {α : Type} {h : Int16} {k : Unit → Tsr α}
    {Q : List Reply → α → FileTransferState → Files F → Prop}
    (hk : ∀ d₁, d₁.content = d.content → Total (DiskStep resolve) (k ()) g d₁ Q) :
    Total (DiskStep resolve) ((dosCloseFile h).bind k) g d Q := by
  rw [dosCloseFile_eq]
  split_ifs
  · exact hk d rfl
  · refine ⟨⟨_,_,diskStep_refused d _⟩,fun r d₁ hr => hk d₁ ?_⟩
    funext f
    exact hr.content_frame trivial

/-- The whole copy. -/
theorem dosCopyFile_total (hst : resolve (filenameStr g) ≠ resolve (targetStr g))
    (hfuel : (d.content (resolve (filenameStr g))).length < fuel) :
    Total (DiskStep resolve) (dosCopyFile fuel) g d fun os result _ d' =>
      os = [] ∧ CopyExact (d.content (resolve (filenameStr g))) d' (resolve (filenameStr g))
        (resolve (targetStr g)) result := by
  simp only [dosCopyFile, dosOpenReadFile_eq, dosCreateFile_eq, bind_eq, call_bind, done_bind,
    pure_eq]
  refine ⟨⟨_,_,diskStep_refused d _⟩,fun r d₁ hr => ?_⟩
  dsimp only [keep]
  obtain ⟨hneg,rfl⟩ | ⟨hopen,-,-,hin,hfree,hd₁⟩ := (hr.toStep (by simp)).openRead_cases
  · rw [if_pos hneg]
    refine total_dosCloseFile_bind fun d₂ h₂ => total_dosCloseFile_bind fun d₃ h₃ => ?_
    exact ⟨rfl,by rw [h₃, h₂],by simp⟩
  rw [if_neg hopen]
  refine ⟨⟨_,_,diskStep_refused d₁ _⟩,fun q d₂ hq => ?_⟩
  dsimp only [keep]
  obtain ⟨hneg,rfl⟩ | ⟨hcreate,-,-,hout,hfree₂,hd₂⟩ := (hq.toStep (by simp)).create_cases
  · rw [if_pos hneg]
    refine total_dosCloseFile_bind fun d₃ h₃ => total_dosCloseFile_bind fun d₄ h₄ => ?_
    exact ⟨rfl,by rw [h₄, h₃, hd₁],by simp⟩
  rw [if_neg hcreate]
  have hne : r.ax ≠ q.ax := by
    intro h
    simp [hd₁, h] at hfree₂
  have hsrc : d₂.content (resolve (filenameStr g)) = d.content (resolve (filenameStr g)) := by
    rw [hd₂, hd₁]
    exact Function.update_of_ne hst _ _
  have hcopied : Copied d₂ (resolve (filenameStr g)) (resolve (targetStr g)) (handleOf r)
      (handleOf q) 0 := by
    refine ⟨?_,?_,Nat.zero_le _,?_⟩
    · simp [hd₂, hd₁, hin, Function.update_of_ne hne]
    · simp [hd₂, hout]
    · simp [hd₂]
  refine (copyLoop_total hcopied hst (by rwa [hin, hout]) rfl (by rwa [hsrc])).bind ?_
  rintro os result g' d' ⟨rfl,hexact⟩
  refine total_dosCloseFile_bind fun d₃ h₃ => total_dosCloseFile_bind fun d₄ h₄ => ?_
  rw [hsrc] at hexact
  exact ⟨rfl,by rw [h₄, h₃]; exact hexact.1,by rw [h₄, h₃]; exact hexact.2⟩

/-! The handles it opens and closes. -/

/-- The handle that a call has opened. -/
def openedBy : DosCall × DosRegs → Option UInt16
  | (.create _,r) | (.openRead _,r) => if r.carry then none else some r.ax
  | _ => none

/-- The handle that a call closes. -/
def closedBy : DosCall × DosRegs → Option UInt16
  | (.close h,_) => some h
  | _ => none

/-- Every handle that was opened was closed once, the last one first. -/
def ClosedOnce (log : List (DosCall × DosRegs)) : Prop :=
  (log.filterMap openedBy).Nodup ∧ log.filterMap closedBy = (log.filterMap openedBy).reverse

section Log
variable {env : Files F → DosCall → DosRegs → Files F → Prop}
  {l l' : Files F × List (DosCall × DosRegs)}

omit [DecidableEq F] in
theorem copyLoop_logged
    (h : Exec (Logged env) (copyLoop hin hout fuel n) g l os result g' l') :
    l'.2.filterMap openedBy = l.2.filterMap openedBy ∧
      l'.2.filterMap closedBy = l.2.filterMap closedBy := by
  refine h.invariant (fun m => m.2.filterMap openedBy = l.2.filterMap openedBy ∧
    m.2.filterMap closedBy = l.2.filterMap closedBy) (copyLoop_callsIn hin hout n) ?_ ⟨rfl,rfl⟩
  rintro m c r m' hc ⟨-,hlog⟩ ⟨ho,hcl⟩
  rw [hlog, List.filterMap_append, List.filterMap_append, ho, hcl]
  cases c with
  | read => simp [openedBy, closedBy]
  | write => simp [openedBy, closedBy]
  | _ => exact hc.elim

omit [DecidableEq F] in
/-- A close that is made is in the log. -/
theorem closed_logged {h : Int16} (hn : ¬ h < 0) (hc : Closed (Logged env) true h l l') :
    l'.2.filterMap openedBy = l.2.filterMap openedBy ∧
      l'.2.filterMap closedBy = l.2.filterMap closedBy ++ [h.toUInt16] := by
  rw [Closed, if_pos ⟨rfl,hn⟩] at hc
  obtain ⟨r,-,hlog⟩ := hc
  rw [hlog]
  simp [openedBy, closedBy]

end Log

/-- What the log shows of an open or a create. -/
theorem openedBy_eq {r : DosRegs} {c : DosCall} {name : List UInt8}
    (hc : c = .openRead name ∨ c = .create name) (hs : DiskStep resolve d c r d') :
    openedBy (c,r) = if handleOf r < 0 then none else some (handleOf r).toUInt16 := by
  have hcarry (h : r.carry = true) : handleOf r < 0 := by
    rw [handleOf, if_pos h]
    decide
  obtain rfl | rfl := hc
  · cases hs.toStep (by simp) with
    | failed _ _ h => rw [if_pos (hcarry h), openedBy, if_pos h]
    | openRead _ _ h hr => simp [openedBy, h, handleOf_nonneg h hr, toUInt16_handleOf h]
  · cases hs.toStep (by simp) with
    | failed _ _ h => rw [if_pos (hcarry h), openedBy, if_pos h]
    | create _ _ h hr => simp [openedBy, h, handleOf_nonneg h hr, toUInt16_handleOf h]

/-- On every path the handles of a copy are closed once. -/
theorem dosCopyFile_closedOnce {l' : Files F × List (DosCall × DosRegs)}
    (h : Exec (Logged (DiskStep resolve)) (dosCopyFile fuel) g (d,[]) os result g' l') :
    ClosedOnce l'.2 := by
  obtain ⟨-,r,l₁,⟨hr,hlog₁⟩,hend⟩ := exec_dosCopyFile.mp h
  have hr₁ := openedBy_eq (.inl rfl) hr
  rw [List.nil_append] at hlog₁
  obtain ⟨hneg,-,-,rfl⟩ | ⟨hopen,q,l₂,⟨hq,hlog₂⟩,hend⟩ := hend
  · simp [ClosedOnce, hlog₁, hr₁, hneg, closedBy]
  have hq₁ := openedBy_eq (.inr rfl) hq
  rw [hlog₁] at hlog₂
  obtain ⟨hneg,-,-,hclose⟩ | ⟨hcreate,l₃,l₄,hloop,hclose₁,hclose₂⟩ := hend
  · obtain ⟨ho,hc⟩ := closed_logged hopen hclose
    rw [ClosedOnce, ho, hc, hlog₂]
    simp [hr₁, hq₁, hopen, hneg, closedBy]
  · -- the second handle is another one than the first, which is open
    have hne : (handleOf r).toUInt16 ≠ (handleOf q).toUInt16 := by
      obtain ⟨hneg,-⟩ | ⟨-,-,-,hin,-,hd₁⟩ := (hr.toStep nofun).openRead_cases
      · exact absurd hneg hopen
      obtain ⟨hneg,-⟩ | ⟨-,-,-,hout,hfree,-⟩ := (hq.toStep nofun).create_cases
      · exact absurd hneg hcreate
      rw [hin, hout]
      intro heq
      simp [hd₁, heq] at hfree
    obtain ⟨ho,hc⟩ := copyLoop_logged hloop
    obtain ⟨ho₁,hc₁⟩ := closed_logged hcreate hclose₁
    obtain ⟨ho₂,hc₂⟩ := closed_logged hopen hclose₂
    rw [ClosedOnce, ho₂, hc₂, ho₁, hc₁, ho, hc, hlog₂]
    simp [hr₁, hq₁, hopen, hcreate, closedBy, hne]

/-- Whatever DOS answers, a copy to another file ends; if it succeeds the target has the bytes of the
source and they are counted; the source is unchanged, and each handle is closed once. -/
theorem dosCopyFile_exact (resolve : List UInt8 → F) (g : FileTransferState) (d : Files F)
    (fuel : ℕ) (hst : resolve (filenameStr g) ≠ resolve (targetStr g))
    (hfuel : (d.content (resolve (filenameStr g))).length < fuel) :
    Total (Logged (DiskStep resolve)) (dosCopyFile fuel) g (d,[]) fun _ result _ d' =>
      (result.1 = true →
        d'.1.content (resolve (targetStr g)) = d.content (resolve (filenameStr g)) ∧
          result.2.toNat = (d.content (resolve (filenameStr g))).length % 2^32) ∧
      d'.1.content (resolve (filenameStr g)) = d.content (resolve (filenameStr g)) ∧
      ClosedOnce d'.2 := by
  refine ((dosCopyFile_total hst hfuel).logged []).strengthen ?_
  rintro os result g' d' hexec ⟨-,hsrc,hok⟩
  refine ⟨fun h => ⟨(hok h).1,?_⟩,hsrc,dosCopyFile_closedOnce hexec⟩
  rw [(hok h).2, UInt32.toNat_ofNat']

/-! A file of three bytes. -/

def threeBytes : Files (List UInt8) :=
  ⟨fun f => if f = [65] then [1,2,3] else [],fun _ => none⟩

def copyAB : FileTransferState :=
  { fileTransferInit with
    filename := Bytes.overwrite (Vector.replicate 64 0) [65]
    target := Bytes.overwrite (Vector.replicate 64 0) [66] }

theorem dosCopyFile_exact_threeBytes :
    Total (Logged (DiskStep id)) (dosCopyFile 4) copyAB (threeBytes,[]) fun _ result _ d' =>
      (result.1 = true →
        d'.1.content (id (targetStr copyAB)) = threeBytes.content (id (filenameStr copyAB)) ∧
          result.2.toNat = (threeBytes.content (id (filenameStr copyAB))).length % 2^32) ∧
      d'.1.content (id (filenameStr copyAB)) = threeBytes.content (id (filenameStr copyAB)) ∧
      ClosedOnce d'.2 :=
  dosCopyFile_exact id copyAB threeBytes 4 (by decide) (by decide)

end RmtDos
