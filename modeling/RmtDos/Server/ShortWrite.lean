import RmtDos.Lib.Runs
import RmtDos.Server.Upload

/-! Uploads to a disk that fills up. `dos_write_file` reports a short write as an error, and the
offset stays; but the bytes that did fit are in the file, and its position has moved on. -/
namespace RmtDos
open Resumable Prog Dos Runs

variable {F : Type}

/-- The record, and the disk. -/
abbrev DiskState (F : Type) := FileTransferState × Files F

/-- The position of the file behind the handle of an upload is the offset that is expected. -/
def Synced (s : DiskState F) : Prop :=
  s.1.active = true → s.1.mode = .put →
    ∃ f pos, s.2.handles s.1.handle.toUInt16 = some (f,pos) ∧ UInt32.ofNat pos = s.1.expectedOffset

/-- No chunk is written in part. -/
def NoShortWrite (s : DiskState F) : DiskEvent → Prop
  | .idle calls _ => s.1.pendingOp = .putData → ∀ x ∈ calls, ¬ ShortWrite x.1 x.2
  | .packet _ => True

/-- No copy is done during an upload: `COPY` sets `expected_offset` to its own byte count. -/
def NoCopyOver (s : DiskState F) : DiskEvent → Prop
  | .idle .. => s.1.pendingOp = .copy → ¬ (s.1.active = true ∧ s.1.mode = .put)
  | .packet _ => True

/-- The packets are those of the upload or carry other ids. -/
def Upload.Only (u : Upload) : DiskEvent → Prop
  | .packet p => u.Request true p.payload ∨ p.payload.transferId? ≠ some u.transferId
  | .idle .. => True

/-- The server reports the success of the upload. -/
def Upload.Succeeds (u : Upload) : DiskEvent → Prop
  | .packet _ => False
  | .idle _ sent => ∃ a ∈ sent, ∃ offset, a.body = .fileAck u.transferId .end .ok offset

/-- What holds between two steps. -/
structure InStep (s : DiskState F) : Prop where
  synced : Synced s
  chunk : s.1.pendingOp = .putData →
    s.1.active = true ∧ s.1.mode = .put ∧ s.1.chunkCount.toNat ≤ 512
  ack : s.1.pendingOp = .ack → s.1.ackOffset = s.1.expectedOffset

variable {s s' : DiskState F} {g g' : FileTransferState} {d d' : Files F} {p : Packet}

theorem inStep_init (d : Files F) : InStep (fileTransferInit,d) := ⟨nofun,nofun,nofun⟩

/-- Packets keep it so; a chunk is queued only when it fits the buffer. -/
theorem InStep.packet (h : InStep (g,d)) : InStep (fileTransferHandlePacket p g,d) := by
  obtain ⟨hs,hc,hk⟩ := h
  rcases handlePacket_cases p g with he | ⟨⟨hn,-⟩,he⟩
  · rw [he]
    exact ⟨hs,hc,hk⟩
  generalize fileTransferHandlePacket p g = g' at he
  cases he with
  | putData t offset count data hp ha hm ht ho hcount =>
    exact ⟨hs,fun _ => ⟨ha,hm,Nat.le_of_not_lt fun h => hcount (.inl h)⟩,nofun⟩
  | reAck => exact ⟨hs,nofun,fun _ => rfl⟩
  | badChunk => exact ⟨hs,nofun,fun _ => rfl⟩
  | dirListBegin => exact ⟨nofun,fun hp => (nomatch hn.symm.trans hp),hk⟩
  | dirListEnd => exact ⟨nofun,fun hp => (nomatch hn.symm.trans hp),hk⟩
  | _ => exact ⟨hs,nofun,nofun⟩

/-- A record that has no operation left needs to be in step only. -/
theorem InStep.of_synced (h : Synced s) (hn : s.1.pendingOp = .none) : InStep s :=
  ⟨h,fun hp => (nomatch hn.symm.trans hp),fun hp => (nomatch hn.symm.trans hp)⟩

variable [DecidableEq F] (resolve : List UInt8 → F) (mac : MacAddr)

/-- The server over the disk. The idle step uses any amount of fuel that lets it return. -/
def DiskRun (s : DiskState F) : DiskEvent → DiskState F → Prop
  | .packet p, s' => s' = (fileTransferHandlePacket p s.1,s.2)
  | .idle calls sent, s' => ∃ fuel,
    Exec (Logged (DiskStep resolve)) (fileTransferProcessIdle mac fuel) s.1 (s.2,[]) sent ()
      s'.1 (s'.2,calls)

variable {resolve} {mac} {op : FileOp} {fuel : ℕ} {sent : List Reply}
  {calls : List (DosCall × DosRegs)}

/-- Operations that leave the transfer and its handle alone keep it in step. -/
theorem Synced.frame {c : DosCall} {r : DosRegs} (h : Synced (g,d))
    (hs : DiskStep resolve d c r d') (hc : ∀ k, ¬ OnHandle k c) : Synced (g,d') := by
  intro ha hm
  obtain ⟨f,pos,hh,hpos⟩ := h ha hm
  exact ⟨f,pos,hs.handle_frame (hc _) hh,hpos⟩

/-- The operations other than the writing of a chunk keep an upload in step with its file,
however much the disk takes. -/
theorem InStep.idle (h : InStep (g,d)) (hdata : g.pendingOp ≠ .putData)
    (hcopy : g.pendingOp = .copy → ¬ (g.active = true ∧ g.mode = .put))
    (hop : g.pendingOp ≠ .none)
    (hx : Exec (DiskStep resolve) (idleOp mac fuel g.pendingOp) g.taken d sent () g' d') :
    Synced (g',d') := by
  obtain ⟨hs,-,hk⟩ := h
  have hs' : Synced (g.taken,d) := hs
  cases hp : g.pendingOp with
  | none => exact absurd hp hop
  | putData => exact absurd hp hdata
  | putBegin =>
    rw [hp] at hx
    obtain ⟨d₁,r,-,hc,rfl,-⟩ := exec_putBegin.mp hx
    intro ha hm
    obtain ⟨hneg,-⟩ | ⟨-,-,-,hax,-,rfl⟩ := (hc.toStep (by nofun)).create_cases
    · exact absurd (of_decide_eq_true ha) (Int16.not_le.mpr hneg)
    · exact ⟨_,0,by rw [hax]; exact Function.update_self _ _ _,rfl⟩
  | putEnd =>
    rw [hp] at hx
    obtain ⟨-,rfl,-⟩ := exec_putEnd.mp hx
    exact nofun
  | ack =>
    rw [hp] at hx
    obtain ⟨rfl,rfl,-⟩ := exec_ack.mp hx
    rw [show g.taken.ackOffset = g.taken.expectedOffset from hk hp]
    exact hs'
  | getBegin =>
    rw [hp] at hx
    obtain ⟨d₁,r,d₂,-,-,⟨-,-,rfl,-⟩ | ⟨-,found,d₃,-,⟨-,-,rfl,-⟩ | ⟨-,-,rfl,-⟩⟩⟩ := exec_getBegin.mp hx
    · exact nofun
    · exact nofun
    · exact nofun
  | getDataReq =>
    rw [hp] at hx
    by_cases hm : g.mode = .put
    · have href : getRefused g.taken = true := by simp [getRefused, FileTransferState.taken, hm]
      obtain ⟨-,rfl,rfl,-⟩ | ⟨hr,-⟩ := exec_getDataReq.mp hx
      · exact hs'
      · exact absurd href (by simp [hr])
    · obtain ⟨chunk,count,offset,rfl⟩ := getDataReq_record hx
      exact fun _ hm' => absurd hm' hm
  | getEnd =>
    rw [hp] at hx
    obtain ⟨-,rfl,-⟩ := exec_getEnd.mp hx
    exact nofun
  | dirListDataReq =>
    rw [hp] at hx
    obtain ⟨result,hc,-⟩ := exec_dirListDataReq.mp hx
    have hd : d' = d := hc.invariant (· = d) collectDirEntries_callsIn
      (fun _ _ _ _ hc he hI => (he.of_searches hc).trans hI) rfl
    rw [eq_of_sansDir (hc.keeps collectDirEntries_keeps), hd]
    exact hs'
  | mkdir =>
    rw [hp] at hx
    obtain ⟨r,hr,rfl,-⟩ := exec_mkdir.mp hx
    exact hs'.frame hr fun _ => id
  | delete =>
    rw [hp] at hx
    obtain ⟨r,hr,rfl,-⟩ := exec_delete.mp hx
    refine hs'.frame hr fun k => ?_
    unfold deleteCall
    split <;> exact id
  | rename =>
    rw [hp] at hx
    obtain ⟨-,rfl,rfl,-⟩ | ⟨-,r,hr,rfl,-⟩ := exec_rename.mp hx
    · exact hs'
    · exact hs'.frame hr fun _ => id
  | copy =>
    rw [hp] at hx
    have hno := hcopy hp
    obtain ⟨-,rfl,rfl,-⟩ | ⟨-,result,g₁,hc,rfl,-⟩ := exec_copy.mp hx
    · exact fun ha hm => absurd ⟨ha,hm⟩ hno
    · rw [eq_of_sansChunk (hc.keeps dosCopyFile_keeps)]
      exact fun ha hm => absurd ⟨ha,hm⟩ hno

/-- The chunk is written as a whole or not at all. -/
theorem InStep.putData (h : InStep (g,d)) (hp : g.pendingOp = .putData)
    (hx : Exec (WholeStep resolve) (idleOp mac fuel .putData) g.taken d sent () g' d') :
    Synced (g',d') := by
  obtain ⟨hs,hc,-⟩ := h
  have hs' : Synced (g.taken,d) := hs
  obtain ⟨ha,hm,hcount⟩ := hc hp
  have hlen : (g.taken.chunk.toList.take g.taken.chunkCount.toNat).length = g.chunkCount.toNat := by
    rw [List.length_take, Vector.length_toList]
    exact Nat.min_eq_left hcount
  obtain ⟨f,pos,hh,hpos⟩ := hs' ha hm
  obtain ⟨-,rfl,rfl,-⟩ | ⟨-,r,hr,hcase⟩ := exec_putData.mp hx
  · exact hs'
  obtain ⟨hcar,hn,rfl⟩ | ⟨hbad,rfl⟩ := hr.write_cases hh
  · have hok : writeOk g.taken.chunkCount r = true := by
      rw [hlen] at hn
      simp [writeOk, hcar, ← UInt16.toNat_inj, hn, FileTransferState.taken]
    obtain ⟨-,rfl,-⟩ | ⟨hfail,-⟩ := hcase
    · refine fun _ _ => ⟨f,pos+g.chunkCount.toNat,?_,?_⟩
      · rw [hlen]
        exact Function.update_self _ _ _
      · rw [UInt32.ofNat_add, hpos]
        exact congrArg _ (UInt32.ofNat_uInt16ToNat g.chunkCount)
    · exact absurd hok (by simp [hfail])
  · have hfail : writeOk g.taken.chunkCount r = false := by
      rw [hlen] at hbad
      rcases hbad with hcar | hn
      · simp [writeOk, hcar]
      · simp [writeOk, ← UInt16.toNat_inj, hn, FileTransferState.taken]
    obtain ⟨hok,-⟩ | ⟨-,rfl,-⟩ := hcase
    · exact absurd hok (by simp [hfail])
    · exact hs'

/-- An idle step does nothing, or one operation; with no short write it is one over whole writes. -/
theorem diskRun_idle (h : DiskRun resolve mac (g,d) (.idle calls sent) (g',d')) :
    (sent = [] ∧ g' = g ∧ d' = d) ∨ (g.pendingOp ≠ .none ∧ ∃ fuel,
      Exec (DiskStep resolve) (idleOp mac fuel g.pendingOp) g.taken d sent () g' d' ∧
      (NoShortWrite (g,d) (.idle calls sent) → g.pendingOp = .putData →
        Exec (WholeStep resolve) (idleOp mac fuel .putData) g.taken d sent () g' d')) := by
  obtain ⟨fuel,hx⟩ := h
  obtain ⟨-,rfl,rfl,hd⟩ | ⟨hop,hx⟩ := exec_idle.mp hx
  · exact .inl ⟨rfl,rfl,(Prod.mk.inj hd).1⟩
  refine .inr ⟨hop,fuel,?_,fun hshort hdata => ?_⟩
  · obtain ⟨log,-,hall⟩ := hx.of_logged (P := fun _ _ => True)
    exact (hall fun _ _ => trivial).mono fun _ _ _ _ he => he.1
  · obtain ⟨log,rfl,hall⟩ := hx.of_logged (P := fun c r => ¬ ShortWrite c r)
    rw [hdata] at hall
    exact hall (hshort hdata)

theorem inStep_step (h : InStep s) {e : DiskEvent} (hstep : DiskRun resolve mac s e s')
    (hcopy : NoCopyOver s e) (hshort : NoShortWrite s e) : InStep s' := by
  obtain ⟨g,d⟩ := s
  obtain ⟨g',d'⟩ := s'
  cases e with
  | packet p =>
    obtain ⟨rfl,rfl⟩ := Prod.mk.inj hstep
    exact h.packet
  | idle calls sent =>
    obtain ⟨-,rfl,rfl⟩ | ⟨hop,fuel,hx,hwhole⟩ := diskRun_idle hstep
    · exact h
    · obtain ⟨hlast,-⟩ := idleOp_answer hop hx
      simp only [lasting, Prod.mk.injEq] at hlast
      refine .of_synced ?_ hlast.2.1
      by_cases hdata : g.pendingOp = .putData
      · exact h.putData hdata (hwhole hshort hdata)
      · exact h.idle hdata hcopy hop hx

/-- A chunk written in part spoils the upload: the position moves, and the offset stays. -/
theorem noShortWrite_of_synced (h : InStep s) {e : DiskEvent} (hstep : DiskRun resolve mac s e s')
    (hs' : Synced s') : NoShortWrite s e := by
  obtain ⟨g,d⟩ := s
  cases e with
  | packet p => trivial
  | idle calls sent =>
    intro hp
    obtain ⟨hs,hc,-⟩ := h
    obtain ⟨ha,hm,hcount⟩ := hc hp
    obtain ⟨f,pos,hh,hpos⟩ := hs ha hm
    obtain ⟨fuel,hx⟩ := hstep
    obtain ⟨hn,-⟩ | ⟨-,hx⟩ := exec_idle.mp hx
    · exact nomatch hp.symm.trans hn
    rw [show g.pendingOp = .putData from hp] at hx
    obtain ⟨-,hd,-⟩ | ⟨-,r,⟨hr,hlog⟩,hcase⟩ := exec_putData.mp hx
    · obtain ⟨-,rfl⟩ := Prod.mk.inj hd
      simp
    rw [List.nil_append] at hlog
    obtain rfl : calls = _ := hlog
    intro x hx hshort
    obtain rfl := List.mem_singleton.mp hx
    obtain ⟨hcar,hzero,hlt⟩ : r.carry = false ∧ 0 < r.ax.toNat ∧
      r.ax.toNat < (g.taken.chunk.toList.take g.taken.chunkCount.toNat).length := hshort
    obtain ⟨hcar',-⟩ | ⟨-,hn,-⟩ | ⟨-,-,hd'⟩ := hr.write_cases hh
    · exact absurd hcar (by simp [hcar'])
    · exact absurd hn hlt.ne
    have hlen : (g.taken.chunk.toList.take g.taken.chunkCount.toNat).length =
        g.chunkCount.toNat := by
      rw [List.length_take, Vector.length_toList]
      exact Nat.min_eq_left hcount
    rw [hlen] at hlt
    have hfail : writeOk g.taken.chunkCount r = false := by
      simp [writeOk, ← UInt16.toNat_inj, hlt.ne, FileTransferState.taken]
    obtain ⟨hok,-⟩ | ⟨-,hg,-⟩ := hcase
    · exact absurd hok (by simp [hfail])
    obtain ⟨g',d'⟩ := s'
    obtain rfl : g' = g.taken := hg
    obtain rfl : d' = _ := hd'
    obtain ⟨f',pos',hh',hpos'⟩ := hs' ha hm
    obtain ⟨-,rfl⟩ : f = f' ∧ pos+r.ax.toNat = pos' := by
      simpa [FileTransferState.taken] using hh'
    have hcount' : g.chunkCount.toNat ≤ 512 := hcount
    have heq : UInt32.ofNat (pos+r.ax.toNat) = UInt32.ofNat pos := hpos'.trans hpos.symm
    rw [← UInt32.toNat_inj, UInt32.toNat_ofNat', UInt32.toNat_ofNat'] at heq
    have hax := r.ax.toNat_lt
    omega

theorem Upload.tracks_step {u : Upload} (h : u.Tracks resolve true s.1 s.2) {e : DiskEvent}
    (hstep : DiskRun resolve mac s e s') (hshort : NoShortWrite s e) (honly : u.Only e) :
    u.Tracks resolve true s'.1 s'.2 ∧ (u.Succeeds e → s'.2.content (u.file resolve) = u.content) := by
  obtain ⟨g,d⟩ := s
  obtain ⟨g',d'⟩ := s'
  cases e with
  | packet p =>
    obtain ⟨rfl,rfl⟩ := Prod.mk.inj hstep
    exact ⟨h.packet honly,False.elim⟩
  | idle calls sent =>
    obtain ⟨rfl,rfl,rfl⟩ | ⟨hop,fuel,hx,hwhole⟩ := diskRun_idle hstep
    · exact ⟨h,by rintro ⟨a,ha,-⟩; cases ha⟩
    · obtain ⟨hnext,hend⟩ := h.idle hop hx (hwhole hshort)
      exact ⟨hnext,fun ⟨a,ha,offset,hbody⟩ => hend a ha offset hbody⟩

/-- Apart from short writes and copies, every run keeps uploads in step with their files; a short
write never does. And as long as no write of a chunk is short, an upload that is told of its
success is there byte for byte. -/
theorem synced_iff {d₀ : Files F} {tr : List (DiskEvent × DiskState F)}
    (hrun : Run (DiskRun resolve mac) (fileTransferInit,d₀) tr) :
    (Along NoCopyOver (fileTransferInit,d₀) tr →
      ((∀ x ∈ tr, Synced x.2) ↔ Along NoShortWrite (fileTransferInit,d₀) tr)) ∧
    ∀ u : Upload, (∀ x ∈ tr, u.Only x.1) → Along NoShortWrite (fileTransferInit,d₀) tr →
      ∀ x ∈ tr, u.Succeeds x.1 → x.2.2.content (u.file resolve) = u.content := by
  refine ⟨fun hcopy => ?_,fun u honly hshort => ?_⟩
  · have hrun' := hrun.restrict (P := fun _ => True) hcopy fun _ _ => trivial
    exact hrun'.exact InStep Synced (fun s e s' hI ho hs => inStep_step hI hs.1 hs.2.1 ho)
      (fun s hI => hI.synced) (fun s e s' hI hs hg => noShortWrite_of_synced hI hs.1 hg)
      (inStep_init d₀)
  · have hrun' := hrun.restrict (P := u.Only) hshort honly
    exact hrun'.each (fun s => u.Tracks resolve true s.1 s.2)
      (fun e s' => u.Succeeds e → s'.2.content (u.file resolve) = u.content)
      (fun s e s' hI hs => Upload.tracks_step hI hs.1 hs.2.1 hs.2.2) u.tracks_init

/-! A note of two bytes is sent to a disk; what fits of it is told by the first write. -/

def note : Upload := ⟨7,Vector.replicate 64 0x41,[0x58,0x59],by decide⟩

def noteBegin : Packet := ⟨Vector.replicate 6 1,1,72,.filePutBegin 7 2 note.filename⟩
def noteChunk : Packet := ⟨Vector.replicate 6 1,1,12,.filePutData 7 0 2 [0x58,0x59]⟩
def noteEnd : Packet := ⟨Vector.replicate 6 1,1,8,.filePutEnd 7 2⟩

/-- One file, and handle 5. -/
def noteFile (content : List UInt8) (pos : Option ℕ) : Files Unit :=
  ⟨fun _ => content,Function.update (fun _ => none) 5 (pos.map ((),·))⟩

abbrev NoteRun : DiskState Unit → DiskEvent → DiskState Unit → Prop :=
  DiskRun (fun _ => ()) (Vector.replicate 6 0)

def noteBegun : FileTransferState :=
  { (fileTransferHandlePacket noteBegin fileTransferInit).taken with
    handle := 5, active := true, mode := .put }

/-- The record with the chunk queued, and with the chunk queued again. -/
def noteQueued : FileTransferState := fileTransferHandlePacket noteChunk noteBegun
def noteQueuedAgain : FileTransferState := fileTransferHandlePacket noteChunk noteQueued.taken

theorem noteFile_update (old content : List UInt8) (pos : Option ℕ) (next : Option (Unit × ℕ)) :
    (⟨Function.update (noteFile old pos).content () content,
      Function.update (noteFile old pos).handles 5 next⟩ : Files Unit) =
      noteFile content (next.map Prod.snd) := by
  simp only [noteFile, Function.update_idem, Files.mk.injEq]
  exact ⟨funext fun u => by simp,by cases next <;> rfl⟩

theorem note_begin : NoteRun (fileTransferHandlePacket noteBegin fileTransferInit,noteFile [] none)
    (.idle [(.create (nameOf note.filename),⟨false,5,0,0,0,[]⟩)]
      [ackOf (Vector.replicate 6 0) noteBegun .begin .ok 0]) (noteBegun,noteFile [] (some 0)) := by
  refine ⟨0,exec_idle.mpr (.inr ⟨by decide,?_⟩)⟩
  refine exec_putBegin.mpr ⟨(noteFile [] none,[]),⟨false,5,0,0,0,[]⟩,rfl,⟨?_,rfl⟩,rfl,rfl⟩
  have hc := @Dos.Step.create Unit _ (fun _ => ()) (noteFile [] none) (nameOf note.filename)
    ⟨false,5,0,0,0,[]⟩ rfl (show (5 : UInt16) < 0x8000 by decide) (by simp [noteFile]) (by decide)
  exact .full (noteFile_update [] [] none (some ((),0)) ▸ hc) trivial

/-- What the idle step does with the chunk when DOS stores `k` bytes of it. -/
theorem note_write {g : FileTransferState} {old content : List UInt8} {pos next : ℕ} {k : UInt16}
    (hp : g.pendingOp = .putData) (hh : g.handle = 5) (hc : g.chunkCount = 2)
    (ho : g.chunkOffset = g.expectedOffset) (hd : g.chunk.toList.take 2 = [0x58,0x59])
    (hs : DiskStep (fun _ => ()) (noteFile old (some pos)) (.write 5 [0x58,0x59])
      ⟨false,k,0,0,0,[]⟩ (noteFile content (some next))) :
    NoteRun (g,noteFile old (some pos))
      (.idle [(.write 5 [0x58,0x59],⟨false,k,0,0,0,[]⟩)] [if k = 2 then
        ackOf (Vector.replicate 6 0) g .data .ok (g.expectedOffset+2) else
        ackOf (Vector.replicate 6 0) g .data .error g.expectedOffset])
      (if k = 2 then { g.taken with expectedOffset := g.expectedOffset+2 } else g.taken,
        noteFile content (some next)) := by
  refine ⟨0,exec_idle.mpr (.inr ⟨by rw [hp]; decide,?_⟩)⟩
  rw [hp]
  have hcall : (DosCall.write g.taken.handle.toUInt16
      (g.taken.chunk.toList.take g.taken.chunkCount.toNat)) = .write 5 [0x58,0x59] := by
    rw [show g.taken.handle = 5 from hh, show g.taken.chunkCount = 2 from hc]
    exact congrArg _ hd
  have hok : writeOk g.taken.chunkCount ⟨false,k,0,0,0,[]⟩ = decide (k = 2) := by
    rw [show g.taken.chunkCount = 2 from hc]
    simp [writeOk]
  have hcount : g.chunkCount.toUInt32 = 2 := by
    rw [hc]
    rfl
  refine exec_putData.mpr (.inr ⟨ho,⟨false,k,0,0,0,[]⟩,by rw [hcall]; exact ⟨hs,rfl⟩,?_⟩)
  rw [hok]
  by_cases hk : k = 2
  · refine .inl ⟨decide_eq_true hk,?_,?_⟩
    · rw [if_pos hk, ← hcount]
      rfl
    · rw [if_pos hk, ← hcount]
      rfl
  · refine .inr ⟨decide_eq_false hk,?_,?_⟩
    · rw [if_neg hk]
    · rw [if_neg hk]
      rfl

/-- One byte of the chunk fits, or all of it. -/
theorem note_short : DiskStep (fun _ => ()) (noteFile [] (some 0)) (.write 5 [0x58,0x59])
    ⟨false,1,0,0,0,[]⟩ (noteFile [0x58] (some 1)) := by
  have hs := @DiskStep.short Unit _ (fun _ => ()) (noteFile [] (some 0)) 5 [0x58,0x59]
    ⟨false,1,0,0,0,[]⟩ () 0 1 (by simp [noteFile]) rfl (by decide) rfl
  exact noteFile_update [] [0x58] (some 0) (some ((),1)) ▸ hs

theorem note_whole (old : List UInt8) : DiskStep (fun _ => ()) (noteFile old (some old.length))
    (.write 5 [0x58,0x59]) ⟨false,2,0,0,0,[]⟩
    (noteFile (old ++ [0x58,0x59]) (some (old.length+2))) := by
  have hs := @Dos.Step.write Unit _ (fun _ => ()) (noteFile old (some old.length)) 5 [0x58,0x59]
    ⟨false,2,0,0,0,[]⟩ () old.length (by simp [noteFile]) rfl rfl
  have hw : writeAt ((noteFile old (some old.length)).content ()) old.length [0x58,0x59] =
      old ++ [0x58,0x59] := writeAt_length old _
  rw [hw] at hs
  exact .full (noteFile_update old _ (some old.length) (some ((),old.length+2)) ▸ hs) (.inr rfl)

/-- The end of the note: the record `g` has reached its size. -/
theorem note_end {g : FileTransferState} {content : List UInt8} {pos : ℕ}
    (hp : g.pendingOp = .putEnd) (hh : g.handle = 5) (ho : g.expectedOffset = g.size) :
    NoteRun (g,noteFile content (some pos)) (.idle [(.close 5,⟨false,0,0,0,0,[]⟩)]
        [ackOf (Vector.replicate 6 0) g .end .ok g.expectedOffset])
      ({ g.taken with handle := -1, active := false, mode := .none },noteFile content none) := by
  refine ⟨0,exec_idle.mpr (.inr ⟨by rw [hp]; decide,?_⟩)⟩
  rw [hp]
  refine exec_putEnd.mpr ⟨?_,rfl,?_⟩
  · rw [show g.taken.handle = 5 from hh]
    have hc : DiskStep (fun _ => ()) (noteFile content (some pos)) (.close 5) ⟨false,0,0,0,0,[]⟩
        (noteFile content none) := by
      have hs := @Dos.Step.close Unit _ (fun _ => ()) (noteFile content (some pos)) 5
        ⟨false,0,0,0,0,[]⟩
      refine .full ?_ trivial
      convert hs using 1
      exact congrArg (Files.mk _) (Function.update_idem _ _ _).symm
    exact ⟨⟨false,0,0,0,0,[]⟩,hc,rfl⟩
  · exact (congrArg (fun st => [ackOf (Vector.replicate 6 0) g .end st g.expectedOffset])
      (if_neg (not_not.mpr ho))).symm

/-- The note from its `BEGIN` to its first chunk. -/
def noteStart : List (DiskEvent × DiskState Unit) :=
  [(.packet noteBegin,fileTransferHandlePacket noteBegin fileTransferInit,noteFile [] none),
    (.idle [(.create (nameOf note.filename),⟨false,5,0,0,0,[]⟩)]
      [ackOf (Vector.replicate 6 0) noteBegun .begin .ok 0],noteBegun,noteFile [] (some 0)),
    (.packet noteChunk,noteQueued,noteFile [] (some 0))]

/-- The chunk that the record `g` has queued is stored behind `old`, and the note ends. -/
def noteFinish (g : FileTransferState) (old : List UInt8) : List (DiskEvent × DiskState Unit) :=
  let stored := { g.taken with expectedOffset := g.expectedOffset+2 }
  let closing := fileTransferHandlePacket noteEnd stored
  let content := old ++ [0x58,0x59]
  [(.idle [(.write 5 [0x58,0x59],⟨false,2,0,0,0,[]⟩)]
      [ackOf (Vector.replicate 6 0) g .data .ok (g.expectedOffset+2)],
      stored,noteFile content (some (old.length+2))),
    (.packet noteEnd,closing,noteFile content (some (old.length+2))),
    (.idle [(.close 5,⟨false,0,0,0,0,[]⟩)]
      [ackOf (Vector.replicate 6 0) closing .end .ok closing.expectedOffset],
      { closing.taken with handle := -1, active := false, mode := .none },noteFile content none)]

theorem noteStart_run : Run NoteRun (fileTransferInit,noteFile [] none) noteStart :=
  .cons rfl (.cons note_begin (.cons rfl (.nil _)))

theorem noteFinish_run : Run NoteRun (noteQueued,noteFile [] (some 0)) (noteFinish noteQueued []) :=
  .cons (note_write rfl rfl rfl rfl (Bytes.take_overwrite noteBegun.chunk [0x58,0x59] (by decide))
    (note_whole [])) (.cons rfl (.cons (note_end rfl rfl rfl) (.nil _)))

theorem noteStart_only : ∀ x ∈ noteStart, note.Only x.1 := by
  simp only [noteStart, List.forall_mem_cons]
  exact ⟨.inl ⟨rfl,rfl,rfl⟩,trivial,.inl ⟨rfl,rfl,by decide,rfl⟩,List.forall_mem_nil _⟩

theorem noteFinish_only (g : FileTransferState) (old : List UInt8) :
    ∀ x ∈ noteFinish g old, note.Only x.1 := by
  simp only [noteFinish, List.forall_mem_cons]
  exact ⟨trivial,.inl ⟨rfl,rfl,rfl⟩,trivial,List.forall_mem_nil _⟩

/-- With the whole chunk stored at once, the offset is that of the file and the note is there. -/
theorem synced_iff_note :
    (∀ x ∈ noteStart ++ noteFinish noteQueued [], Synced x.2) ∧
      ∀ x ∈ noteStart ++ noteFinish noteQueued [], note.Succeeds x.1 →
        x.2.2.content () = [0x58,0x59] := by
  have hshort : Along NoShortWrite (fileTransferInit,noteFile [] none)
      (noteStart ++ noteFinish noteQueued []) := by
    refine ⟨trivial,nofun,trivial,fun _ x hx => ?_,trivial,nofun,trivial⟩
    obtain rfl := List.mem_singleton.mp hx
    exact fun h => absurd h.2.2 (by decide)
  obtain ⟨hiff,hdone⟩ := @synced_iff Unit _ (fun _ => ()) (Vector.replicate 6 0) (noteFile [] none) _
    (noteStart_run.append noteFinish_run)
  refine ⟨(hiff ⟨trivial,nofun,trivial,nofun,trivial,nofun,trivial⟩).mpr hshort,
    hdone note (List.forall_mem_append.mpr ⟨noteStart_only,noteFinish_only _ _⟩) hshort⟩

/-- The disk takes one byte of the chunk, and the whole chunk when it comes again. -/
def noteTwice : List (DiskEvent × DiskState Unit) :=
  noteStart ++ (.idle [(.write 5 [0x58,0x59],⟨false,1,0,0,0,[]⟩)]
      [ackOf (Vector.replicate 6 0) noteQueued .data .error 0],
    noteQueued.taken,noteFile [0x58] (some 1)) ::
    (.packet noteChunk,noteQueuedAgain,noteFile [0x58] (some 1)) :: noteFinish noteQueuedAgain [0x58]

/-- The position is 1 where 0 is expected, and the note that is reported as stored has three bytes. -/
theorem note_spoiled :
    Run NoteRun (fileTransferInit,noteFile [] none) noteTwice ∧
      (∀ x ∈ noteTwice, note.Only x.1) ∧
      (∃ x ∈ noteTwice, ¬ Synced x.2) ∧
      ∃ x ∈ noteTwice, note.Succeeds x.1 ∧ x.2.2.content () = [0x58,0x58,0x59] := by
  refine ⟨noteStart_run.append (.cons ?_ (.cons rfl (.cons ?_ (.cons rfl
    (.cons (note_end rfl rfl rfl) (.nil _)))))),?_,?_,?_⟩
  · exact note_write rfl rfl rfl rfl
      (Bytes.take_overwrite noteBegun.chunk [0x58,0x59] (by decide)) note_short
  · exact note_write rfl rfl rfl rfl
      (Bytes.take_overwrite noteQueued.chunk [0x58,0x59] (by decide)) (note_whole [0x58])
  · refine List.forall_mem_append.mpr ⟨noteStart_only,List.forall_mem_cons.mpr ⟨trivial,?_⟩⟩
    exact List.forall_mem_cons.mpr ⟨.inl ⟨rfl,rfl,by decide,rfl⟩,noteFinish_only _ _⟩
  · refine ⟨_,List.mem_append_right _ List.mem_cons_self,fun h => ?_⟩
    obtain ⟨f,pos,hh,hpos⟩ := h rfl rfl
    obtain rfl : pos = 1 := (Prod.mk.inj (Option.some.inj hh)).2.symm
    exact absurd hpos (by decide)
  · refine ⟨_,List.mem_append_right _ (List.mem_cons_of_mem _ (List.mem_cons_of_mem _
      (List.mem_of_getLast? rfl))),?_,rfl⟩
    exact ⟨_,List.mem_singleton_self _,2,rfl⟩

end RmtDos
