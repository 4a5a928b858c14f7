import Mathlib.Logic.Relation
import RmtDos.Dos.Disk
import RmtDos.Server.PacketSpec

/-! What `COPY` does to its source. `dos_path_equal` compares spellings, and DOS takes several
spellings to one file; the create then empties the file before the first read. -/
namespace RmtDos
open Resumable Prog Dos

variable {F : Type}

/-- The two names can be opened and created. -/
def CanOpenBoth (d : Files F) (source target : List UInt8) : Prop :=
  hasWildcard source = false ∧ hasWildcard target = false ∧ ∃ a b : UInt16,
    a ≠ b ∧ a < 0x8000 ∧ b < 0x8000 ∧ d.handles a = none ∧ d.handles b = none

/-- The names stand for one file, which has something to lose. -/
def Clobbers (resolve : List UInt8 → F) (d : Files F) (source target : List UInt8) : Prop :=
  resolve source = resolve target ∧ d.content (resolve source) ≠ [] ∧ CanOpenBoth d source target

variable [DecidableEq F] {resolve : List UInt8 → F} {fuel : ℕ} {g g' : FileTransferState}
  {d d' : Files F} {os : List Reply} {result : Bool × UInt32} {src tgt : F} {hin hout k : Int16}
  {n : UInt32} {h : UInt16} {mac : MacAddr} {sent : List Reply}

/-- Only a close frees a handle. -/
theorem handles_none {c : DosCall} {r : DosRegs} (hs : DiskStep resolve d c r d')
    (hc : ∀ k, c ≠ .close k) (hd : d'.handles h = none) : d.handles h = none := by
  have hset {k : UInt16} {x : F × ℕ} (hu : Function.update d.handles k (some x) h = none) :
      d.handles h = none := by
    by_cases hk : h = k
    · rw [hk, Function.update_self] at hu
      cases hu
    · rwa [Function.update_of_ne hk] at hu
  cases hs with
  | full hs =>
    cases hs with
    | close k => exact absurd rfl (hc k)
    | create => exact hset hd
    | openRead => exact hset hd
    | read => exact hset hd
    | write => exact hset hd
    | seek => exact hset hd
    | _ => exact hd
  | short => exact hset hd

/-- A close changes no file, and frees its handle at most. -/
theorem closed_none (hc : Closed (DiskStep resolve) true k d d') :
    d'.content = d.content ∧ (d'.handles h = none → h = k.toUInt16 ∨ d.handles h = none) := by
  unfold Closed at hc
  split_ifs at hc
  · obtain ⟨r,hr⟩ := hc
    refine ⟨funext fun f => hr.content_frame trivial,fun hd => ?_⟩
    by_contra hcon
    rw [not_or] at hcon
    obtain ⟨x,hx⟩ := Option.ne_none_iff_exists'.mp hcon.2
    have hkeep := hr.handle_frame (h := h) (fun he => hcon.1 (Eq.symm he)) hx
    exact absurd (hkeep.symm.trans hd) (by simp)
  · rw [hc]
    exact ⟨rfl,.inr⟩

theorem copyLoop_none
    (hx : Exec (DiskStep resolve) (copyLoop hin hout fuel n) g d os result g' d') :
    d'.handles h = none → d.handles h = none := by
  refine hx.invariant (fun e => e.handles h = none → d.handles h = none)
    (copyLoop_callsIn hin hout n)
    (fun e c r e₁ hc hs hI hn => hI (handles_none hs ?_ hn)) id
  rintro k rfl
  exact hc

/-- The loop writes behind its second handle only. -/
theorem copyLoop_source {pos : ℕ} (hst : src ≠ tgt) (hne : hin.toUInt16 ≠ hout.toUInt16)
    (hh : d.handles hout.toUInt16 = some (tgt,pos))
    (hx : Exec (DiskStep resolve) (copyLoop hin hout fuel n) g d os result g' d') :
    d'.content src = d.content src := by
  refine (hx.invariant (fun e => e.content src = d.content src ∧
    ∃ pos, e.handles hout.toUInt16 = some (tgt,pos)) (copyLoop_callsIn hin hout n) ?_
    ⟨rfl,pos,hh⟩).1
  rintro e c r e₁ hc hs ⟨hcont,pos,hpos⟩
  cases c with
  | read j count =>
    obtain rfl : j = hin.toUInt16 := hc
    exact ⟨(hs.content_frame trivial).trans hcont,pos,hs.handle_frame hne hpos⟩
  | write j data =>
    obtain rfl : j = hout.toUInt16 := hc
    obtain ⟨-,rfl⟩ | ⟨-,-,rfl⟩ | ⟨-,-,rfl⟩ := hs.write_cases hpos
    · exact ⟨hcont,pos,hpos⟩
    · exact ⟨(Function.update_of_ne hst _ _).trans hcont,_,Function.update_self _ _ _⟩
    · exact ⟨(Function.update_of_ne hst _ _).trans hcont,_,Function.update_self _ _ _⟩
  | _ => exact hc.elim

/-- From an empty file nothing is copied, not even to itself. -/
theorem copyLoop_nothing {pos : ℕ} (hh : d.handles hin.toUInt16 = some (src,pos))
    (he : d.content src = [])
    (hx : Exec (DiskStep resolve) (copyLoop hin hout fuel n) g d os result g' d') :
    d'.content src = [] := by
  cases fuel with
  | zero => exact hx.elim
  | succ fuel =>
    obtain ⟨r,d₁,hr,hend⟩ := exec_copyLoop_succ.mp hx
    have hsame : d₁.content src = [] := (hr.content_frame trivial).trans he
    obtain ⟨-,-,-,-,rfl⟩ | ⟨-,-,-,-,rfl⟩ | ⟨hnn,hnz,-⟩ := hend
    · exact hsame
    · exact hsame
    · exfalso
      obtain ⟨hc,-⟩ | ⟨hc,hz,-⟩ | ⟨hc,hz,-,hlen,hpre,-⟩ := hr.read_cases hh (by decide)
      · simp [handleOf, hc] at hnn
      · simp [handleOf, hc, hz] at hnz
      · rw [he, List.drop_nil, List.prefix_nil] at hpre
        rw [hpre] at hlen
        exact hz (UInt16.toNat_inj.mp hlen.symm)

/-- A copy that does not empty its source leaves it as it was, and no more handles free. -/
theorem dosCopyFile_spares (hn : ¬ Clobbers resolve d (filenameStr g) (targetStr g))
    (hx : Exec (DiskStep resolve) (dosCopyFile fuel) g d os result g' d') :
    d'.content (resolve (filenameStr g)) = d.content (resolve (filenameStr g)) ∧
      ∀ h, d'.handles h = none → d.handles h = none := by
  obtain ⟨-,r,d₁,hr,⟨-,-,-,rfl⟩ | ⟨hopen,q,d₂,hq,hend⟩⟩ := exec_dosCopyFile.mp hx
  · exact ⟨hr.content_frame trivial,fun h => handles_none hr nofun⟩
  obtain ⟨hneg,-⟩ | ⟨-,hw,hlt,hin,hfree,hd₁⟩ := (hr.toStep nofun).openRead_cases
  · exact absurd hneg hopen
  have hc₁ : d₁.content = d.content := by rw [hd₁]
  have hnone₁ {h : UInt16} (hh : h = (handleOf r).toUInt16 ∨ d₁.handles h = none) :
      d.handles h = none := by
    obtain rfl | hh := hh
    · rwa [hin]
    · exact handles_none hr nofun hh
  obtain ⟨hneg,-,-,hcl⟩ | ⟨hcreate,d₃,d₄,hloop,hcl₁,hcl₂⟩ := hend
  · obtain ⟨-,rfl⟩ | ⟨hcreate,-⟩ := (hq.toStep nofun).create_cases
    · refine ⟨?_,fun h hh => hnone₁ ((closed_none hcl).2 hh)⟩
      rw [(closed_none (h := 0) hcl).1, hc₁]
    · exact absurd hneg hcreate
  obtain ⟨hneg,-⟩ | ⟨-,hw',hlt',hout,hfree',hd₂⟩ := (hq.toStep nofun).create_cases
  · exact absurd hneg hcreate
  have hne : r.ax ≠ q.ax := by
    intro heq
    simp [hd₁, heq] at hfree'
  refine ⟨?_,fun h hh => hnone₁ ?_⟩
  · rw [(closed_none (h := 0) hcl₂).1, (closed_none (h := 0) hcl₁).1]
    by_cases hst : resolve (filenameStr g) = resolve (targetStr g)
    · have hempty : d.content (resolve (filenameStr g)) = [] := by
        by_contra hcont
        refine hn ⟨hst,hcont,hw,hw',r.ax,q.ax,hne,hlt,hlt',hfree,?_⟩
        simpa [hd₁, Function.update_of_ne hne.symm] using hfree'
      rw [hempty]
      have hh : d₂.handles (handleOf r).toUInt16 = some (resolve (filenameStr g),0) := by
        simp [hin, hd₂, hd₁, Function.update_of_ne hne]
      exact copyLoop_nothing hh (by simp [hd₂, hst]) hloop
    · have hh : d₂.handles (handleOf q).toUInt16 = some (resolve (targetStr g),0) := by
        simp [hout, hd₂]
      rw [copyLoop_source hst (by rwa [hin, hout]) hh hloop, hd₂, hd₁]
      exact Function.update_of_ne hst _ _
  · obtain rfl | hh := (closed_none hcl₂).2 hh
    · exact .inl rfl
    obtain rfl | hh := (closed_none hcl₁).2 hh
    · rw [hout]
      exact .inr hfree'
    · exact .inr (handles_none hq nofun (copyLoop_none hloop hh))

/-- Where nothing fails, the copy of a file to itself empties the file and succeeds. -/
theorem dosCopyFile_clobbers (hc : Clobbers resolve d (filenameStr g) (targetStr g)) :
    ∃ g' d', Exec (DiskStep resolve) (dosCopyFile 1) g d [] (true,0) g' d' ∧
      d'.content (resolve (filenameStr g)) = [] := by
  obtain ⟨hst,-,hws,hwt,a,b,hab,ha,hb,hfa,hfb⟩ := hc
  have hna : ¬ handleOf ⟨false,a,0,0,0,[]⟩ < 0 := handleOf_nonneg rfl ha
  have hnb : ¬ handleOf ⟨false,b,0,0,0,[]⟩ < 0 := handleOf_nonneg rfl hb
  have hia : (handleOf ⟨false,a,0,0,0,[]⟩).toUInt16 = a := toUInt16_handleOf rfl
  have hib : (handleOf ⟨false,b,0,0,0,[]⟩).toUInt16 = b := toUInt16_handleOf rfl
  let d₁ : Files F :=
    { d with handles := Function.update d.handles a (some (resolve (filenameStr g),0)) }
  let d₂ : Files F :=
    ⟨Function.update d₁.content (resolve (targetStr g)) [],
      Function.update d₁.handles b (some (resolve (targetStr g),0))⟩
  let d₃ : Files F :=
    { d₂ with handles := Function.update d₂.handles a (some (resolve (filenameStr g),0+0)) }
  have h₁ : DiskStep resolve d (.openRead (filenameStr g)) ⟨false,a,0,0,0,[]⟩ d₁ :=
    .full (.openRead _ _ rfl ha hfa hws) trivial
  have h₂ : DiskStep resolve d₁ (.create (targetStr g)) ⟨false,b,0,0,0,[]⟩ d₂ :=
    .full (.create _ _ rfl hb (by simp [d₁, Function.update_of_ne hab.symm, hfb]) hwt) trivial
  have ha₂ : d₂.handles a = some (resolve (filenameStr g),0) := by
    simp [d₂, d₁, Function.update_of_ne hab]
  have hs₂ : d₂.content (resolve (filenameStr g)) = [] := by simp [d₂, hst]
  have h₃ : DiskStep resolve d₂ (.read a 512) ⟨false,0,0,0,0,[]⟩ d₃ := by
    refine .full (.read _ _ _ _ _ ha₂ rfl ?_ rfl (UInt16.zero_le)) fun _ _ => .inr ?_
    · exact List.nil_prefix
    · intro f pos hf
      obtain ⟨rfl,rfl⟩ : resolve (filenameStr g) = f ∧ 0 = pos := by simpa [ha₂] using hf
      rw [hs₂]
      exact Nat.le_refl 0
  have hclose (e : Files F) (k : Int16) : ∃ e', Closed (DiskStep resolve) true k e e' := by
    by_cases hk : k < 0
    · exact ⟨e,by simp [Closed, hk]⟩
    · exact ⟨_,by simpa [Closed, hk] using ⟨⟨false,0,0,0,0,[]⟩,.full (.close _ _) trivial⟩⟩
  obtain ⟨d₄,h₄⟩ := hclose d₃ (handleOf ⟨false,b,0,0,0,[]⟩)
  obtain ⟨d₅,h₅⟩ := hclose d₄ (handleOf ⟨false,a,0,0,0,[]⟩)
  have hloop : Exec (DiskStep resolve)
      (copyLoop (handleOf ⟨false,a,0,0,0,[]⟩) (handleOf ⟨false,b,0,0,0,[]⟩) 1 0) g d₂ [] (true,0)
      (storeChunk ⟨false,0,0,0,0,[]⟩ g) d₃ :=
    exec_copyLoop_succ.mpr ⟨_,d₃,hia.symm ▸ h₃,.inr (.inl ⟨rfl,rfl,rfl,rfl,rfl⟩)⟩
  have hx := exec_dosCopyFile.mpr
    ⟨rfl,_,d₁,h₁,.inr ⟨hna,_,d₂,h₂,.inr ⟨hnb,d₃,d₄,hloop,h₄,h₅⟩⟩⟩
  refine ⟨_,d₅,hx,?_⟩
  rw [(closed_none (h := 0) h₅).1, (closed_none (h := 0) h₄).1]
  exact hs₂

/-! The packet, which the client may send more than once. -/

/-- The server takes the packet up and does its idle step. -/
def ServedPacket (resolve : List UInt8 → F) (mac : MacAddr) (p : Packet)
    (s : FileTransferState × Files F) (sent : List Reply) (s' : FileTransferState × Files F) : Prop :=
  s.1.pendingOp = .none ∧ ∃ fuel, Exec (DiskStep resolve) (fileTransferProcessIdle mac fuel)
    (fileTransferHandlePacket p s.1) s.2 sent () s'.1 s'.2

/-- Once or more. -/
def ServedAgain (resolve : List UInt8 → F) (mac : MacAddr) (p : Packet) :
    FileTransferState × Files F → FileTransferState × Files F → Prop :=
  Relation.TransGen fun s s' => ∃ sent, ServedPacket resolve mac p s sent s'

variable {s s' : FileTransferState × Files F} {p : Packet} {t : UInt32} {source target : FileName}

omit [DecidableEq F] in
theorem Clobbers.mono {src' tgt' : List UInt8} (hc : Clobbers resolve d' src' tgt')
    (hcont : d'.content (resolve src') = d.content (resolve src'))
    (hfree : ∀ h, d'.handles h = none → d.handles h = none) : Clobbers resolve d src' tgt' := by
  obtain ⟨hst,hne,hws,hwt,a,b,hab,ha,hb,hfa,hfb⟩ := hc
  exact ⟨hst,hcont ▸ hne,hws,hwt,a,b,hab,ha,hb,hfree a hfa,hfree b hfb⟩

/-- The record with the copy queued. -/
def copyQueued (p : Packet) (t : UInt32) (source target : FileName) (g : FileTransferState) :
    FileTransferState :=
  { rememberClient p g with
    transferId := t, filename := Bytes.terminate source, target := Bytes.terminate target
    pendingOp := .copy }

theorem handlePacket_copy (hp : p.payload = .fileCopy t source target) (hl : p.LongEnough)
    (hn : g.pendingOp = .none) : fileTransferHandlePacket p g = copyQueued p t source target g := by
  rw [fileTransferHandlePacket, if_neg (not_not.mpr hn), if_neg (not_not.mpr hl), hp]
  rfl

/-- Guarded by the comparison, or with nothing to lose, a copy leaves the source alone. -/
theorem served_spares (hp : p.payload = .fileCopy t source target) (hl : p.LongEnough)
    (hn : dosPathEqual (nameOf source) (nameOf target) = true ∨
      ¬ Clobbers resolve s.2 (nameOf source) (nameOf target)) (h : ServedPacket resolve mac p s sent s') :
    s'.2.content (resolve (nameOf source)) = s.2.content (resolve (nameOf source)) ∧
      ∀ h, s'.2.handles h = none → s.2.handles h = none := by
  obtain ⟨g,d⟩ := s
  obtain ⟨g',d'⟩ := s'
  obtain ⟨hg,fuel,hx⟩ := h
  rw [handlePacket_copy hp hl hg] at hx
  obtain ⟨hnone,-⟩ | ⟨-,hx⟩ := exec_idle.mp hx
  · cases hnone
  obtain ⟨-,rfl,-⟩ | ⟨hne,result,g₁,hx,-⟩ := exec_copy.mp hx
  · exact ⟨rfl,fun _ => id⟩
  · refine dosCopyFile_spares (hn.resolve_left ?_) hx
    intro heq
    exact absurd (heq.symm.trans hne) (by decide)

theorem servedAgain_spares (hp : p.payload = .fileCopy t source target) (hl : p.LongEnough)
    (hn : dosPathEqual (nameOf source) (nameOf target) = true ∨
      ¬ Clobbers resolve s.2 (nameOf source) (nameOf target)) (h : ServedAgain resolve mac p s s') :
    s'.2.content (resolve (nameOf source)) = s.2.content (resolve (nameOf source)) ∧
      ∀ h, s'.2.handles h = none → s.2.handles h = none := by
  induction h with
  | single h =>
    obtain ⟨sent,h⟩ := h
    exact served_spares hp hl hn h
  | tail _ h ih =>
    obtain ⟨sent,h⟩ := h
    obtain ⟨hcont,hfree⟩ := ih
    obtain ⟨hcont',hfree'⟩ :=
      served_spares hp hl (hn.imp_right fun hn hc => hn (hc.mono hcont hfree)) h
    exact ⟨hcont'.trans hcont,fun h hh => hfree h (hfree' h hh)⟩

/-- A copy of a file to itself under another spelling can empty it, and reports success. -/
theorem served_clobbers (hp : p.payload = .fileCopy t source target) (hl : p.LongEnough)
    (hg : s.1.pendingOp = .none) (hne : dosPathEqual (nameOf source) (nameOf target) = false)
    (hc : Clobbers resolve s.2 (nameOf source) (nameOf target)) :
    ∃ a s', ServedPacket resolve mac p s [a] s' ∧ a.body = .fileAck t .copy .ok 0 ∧
      s'.2.content (resolve (nameOf source)) = [] := by
  obtain ⟨g₁,d₁,hx,hempty⟩ :=
    dosCopyFile_clobbers (g := (copyQueued p t source target s.1).taken) hc
  have hkeep := eq_of_sansChunk (hx.keeps dosCopyFile_keeps)
  let g₂ : FileTransferState := { g₁ with expectedOffset := 0 }
  refine ⟨ackOf mac g₂ .copy .ok 0,(g₂,d₁),⟨hg,1,?_⟩,?_,hempty⟩
  · rw [handlePacket_copy hp hl hg]
    exact exec_idle.mpr (.inr ⟨nofun,exec_copy.mpr (.inr ⟨hne,(true,0),g₁,hx,rfl,rfl⟩)⟩)
  · have ht : g₁.transferId = t := by
      rw [hkeep]
      rfl
    exact congrArg (ReplyBody.fileAck · .copy .ok 0) ht

/-- A copy that may be done again spares its source exactly if it is guarded or cannot clobber. -/
theorem copySpares_iff (hp : p.payload = .fileCopy t source target) (hl : p.LongEnough)
    (hg : s.1.pendingOp = .none) :
    (∀ s', ServedAgain resolve mac p s s' →
      s'.2.content (resolve (nameOf source)) = s.2.content (resolve (nameOf source))) ↔
    dosPathEqual (nameOf source) (nameOf target) = true ∨
      ¬ Clobbers resolve s.2 (nameOf source) (nameOf target) := by
  constructor
  · intro h
    by_contra hcon
    rw [not_or, not_not, Bool.not_eq_true] at hcon
    obtain ⟨a,s',hs,-,hempty⟩ := served_clobbers hp hl hg hcon.1 hcon.2
    have hsame := h s' (.single ⟨_,hs⟩)
    exact hcon.2.2.1 (hsame.symm.trans hempty)
  · exact fun hn s' hs => (servedAgain_spares hp hl hn hs).1

end RmtDos
