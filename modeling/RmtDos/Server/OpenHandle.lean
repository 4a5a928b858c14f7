import RmtDos.Server.CopyFile

/-! In every state the TSR reaches, the handle of an active transfer is open. -/
namespace RmtDos
open Resumable Prog Runs Dos

variable {F : Type} [DecidableEq F] {resolve : List UInt8 → F} {mac : MacAddr} {fuel : ℕ}
  {g g' : FileTransferState} {d d' : Files F} {os : List Reply} {x : F × ℕ} {h : UInt16}

/-- The handle of a transfer is a handle DOS has open. -/
def HandleOpen (g : FileTransferState) (d : Files F) : Prop :=
  InTransfer g → ¬ g.handle < 0 ∧ ∃ x, d.handles g.handle.toUInt16 = some x

theorem sizeQuery_handle {name : List UInt8} {found : DosRegs}
    (hq : SizeQuery (Step resolve) name d found d') (hx : d.handles h = some x) :
    d'.handles h = some x := by
  obtain ⟨_,d₁,_,d₂,d₃,_,h₀,h₁,h₂,h₃⟩ := hq
  exact h₃.handle_frame id (h₂.handle_frame id (h₁.handle_frame id (h₀.handle_frame id hx)))

theorem collectDirEntries_handle {result : FileAckStatus × UInt16} (hx : d.handles h = some x)
    (he : Exec (Step resolve) (collectDirEntries fuel) g d os result g' d') :
    d'.handles h = some x := by
  refine he.invariant (fun e => e.handles h = some x) collectDirEntries_callsIn ?_ hx
  rintro e c r e₁ hc hs hI
  refine hs.handle_frame ?_ hI
  cases c <;> first | exact id | exact hc.elim

/-- The invariant depends on three fields, and on DOS keeping the handle open. -/
theorem HandleOpen.keep {F : Type} {d d' : Files F} (hI : HandleOpen g d) (hh : g'.handle = g.handle)
    (ha : g'.active = g.active) (hm : g'.mode = g.mode)
    (hd : ∀ x, d.handles g.handle.toUInt16 = some x → ∃ y, d'.handles g.handle.toUInt16 = some y) :
    HandleOpen g' d' := by
  intro hin
  rw [InTransfer, ha, hm] at hin
  obtain ⟨hn,x,hx⟩ := hI hin
  rw [hh]
  exact ⟨hn,hd x hx⟩

/-- A call that takes no handle, or takes it without closing it, keeps it open. -/
theorem HandleOpen.call {c : DosCall} {r : DosRegs} (hI : HandleOpen g d) (hh : g'.handle = g.handle)
    (ha : g'.active = g.active) (hm : g'.mode = g.mode) (hs : Step resolve d c r d')
    (hc : c ≠ .close g.handle.toUInt16) : HandleOpen g' d' := by
  refine hI.keep hh ha hm fun x hx => ?_
  obtain ⟨pos,hp⟩ := hs.handle_file hc hx
  exact ⟨_,hp⟩

theorem handleOpen_packet {F : Type} {d : Files F} {p : Packet} (hI : HandleOpen g d) :
    HandleOpen (fileTransferHandlePacket p g) d := by
  intro ht
  rw [handlePacket_handle]
  exact hI (inTransfer_of_handlePacket ht)

theorem handleOpen_idle (hI : HandleOpen g d)
    (he : Exec (Step resolve) (fileTransferProcessIdle mac fuel) g d os () g' d') :
    HandleOpen g' d' := by
  rcases exec_idle.mp he with ⟨-,-,rfl,rfl⟩ | ⟨hn,he⟩
  · exact hI
  have ht : HandleOpen g.taken d := hI
  revert he hn
  generalize g.pendingOp = op
  generalize g.taken = g at ht
  intro hn he
  cases op with
  | none => exact absurd rfl hn
  | putBegin =>
    obtain ⟨d₁,r,-,hs,rfl,-⟩ := exec_putBegin.mp he
    rintro ⟨hact,-⟩
    have hr : ¬ handleOf r < 0 := by simpa using hact
    obtain ⟨hn',-⟩ | ⟨-,-,-,hh,-,rfl⟩ := hs.create_cases
    · exact absurd hn' hr
    · exact ⟨hr,(resolve (filenameStr g),0),by simp [hh]⟩
  | putData =>
    rcases exec_putData.mp he with ⟨-,rfl,rfl,-⟩ | ⟨-,r,hs,⟨-,rfl,-⟩ | ⟨-,rfl,-⟩⟩
    · exact ht
    · exact ht.call rfl rfl rfl hs (by simp)
    · exact ht.call rfl rfl rfl hs (by simp)
  | putEnd =>
    obtain ⟨-,rfl,-⟩ := exec_putEnd.mp he
    exact fun hin => by simp [InTransfer] at hin
  | ack =>
    obtain ⟨rfl,rfl,-⟩ := exec_ack.mp he
    exact ht
  | getBegin =>
    obtain ⟨d₁,r,d₂,-,hs,⟨-,-,rfl,-⟩ | ⟨hr,found,d₃,hq,⟨-,rfl,rfl,-⟩ | ⟨-,-,rfl,-⟩⟩⟩ :=
      exec_getBegin.mp he
    · exact fun hin => by simp [InTransfer, getClosed] at hin
    · obtain ⟨hn',-⟩ | ⟨-,-,-,hh,-,rfl⟩ := hs.openRead_cases
      · exact absurd hn' hr
      · have hx : (Function.update d₁.handles r.ax (some (resolve (filenameStr g),0)))
            (handleOf r).toUInt16 = some (resolve (filenameStr g),0) := by simp [hh]
        exact fun _ => ⟨hr,_,sizeQuery_handle hq hx⟩
    · exact fun hin => by simp [InTransfer, getClosed] at hin
  | getDataReq =>
    rcases exec_getDataReq.mp he with ⟨-,rfl,rfl,-⟩ |
      ⟨-,r,d₁,hs,⟨-,rfl,rfl,-⟩ | ⟨-,q,hq,⟨-,rfl,-⟩ | ⟨-,rfl,-⟩⟩⟩
    · exact ht
    · exact ht.call rfl rfl rfl hs (by simp)
    · have h₁ : HandleOpen g d₁ := ht.call rfl rfl rfl hs (by simp)
      rw [eq_of_sansChunk (sansChunk_storeChunk q)]
      exact h₁.call rfl rfl rfl hq (by simp)
    · have h₁ : HandleOpen g d₁ := ht.call rfl rfl rfl hs (by simp)
      rw [eq_of_sansChunk (sansChunk_storeChunk q)]
      exact h₁.call rfl rfl rfl hq (by simp)
  | getEnd =>
    obtain ⟨-,rfl,-⟩ := exec_getEnd.mp he
    exact fun hin => by simp [InTransfer] at hin
  | dirListDataReq =>
    obtain ⟨result,hs,-⟩ := exec_dirListDataReq.mp he
    rw [eq_of_sansDir (hs.keeps collectDirEntries_keeps)]
    exact ht.keep rfl rfl rfl fun x hx => ⟨x,collectDirEntries_handle hx hs⟩
  | mkdir =>
    obtain ⟨r,hs,rfl,-⟩ := exec_mkdir.mp he
    exact ht.call rfl rfl rfl hs (by simp)
  | delete =>
    obtain ⟨r,hs,rfl,-⟩ := exec_delete.mp he
    rw [deleteCall] at hs
    split_ifs at hs <;> exact ht.call rfl rfl rfl hs (by simp)
  | rename =>
    rcases exec_rename.mp he with ⟨-,rfl,rfl,-⟩ | ⟨-,r,hs,rfl,-⟩
    · exact ht
    · exact ht.call rfl rfl rfl hs (by simp)
  | copy =>
    rcases exec_copy.mp he with ⟨-,rfl,rfl,-⟩ | ⟨-,result,g₁,hs,rfl,-⟩
    · exact ht
    · rw [eq_of_sansChunk (hs.keeps dosCopyFile_keeps)]
      exact ht.keep rfl rfl rfl fun x hx => ⟨x,(dosCopyFile_frame hx hs).1⟩

theorem handleOpen_step {s s' : FileTransferState × Files F} {e : TsrEvent}
    (hI : HandleOpen s.1 s.2) (hs : TsrStep (Step resolve) mac s e s') :
    HandleOpen s'.1 s'.2 := by
  cases e with
  | packet p =>
    obtain rfl := hs
    exact handleOpen_packet hI
  | idle sent =>
    obtain ⟨fuel,he⟩ := hs
    exact handleOpen_idle hI he

/-- The handle of an active transfer is open after every run from the initial record. -/
theorem handleOpen_run {tr : List (TsrEvent × (FileTransferState × Files F))}
    (h : Run (TsrStep (Step resolve) mac) (fileTransferInit,d) tr) :
    HandleOpen (final (fileTransferInit,d) tr).1 (final (fileTransferInit,d) tr).2 := by
  refine h.final_invariant (fun s => HandleOpen s.1 s.2) ?_ ?_
  · exact fun s e s' hI hs => handleOpen_step hI hs
  · exact fun hin => by simp [InTransfer, fileTransferInit] at hin

end RmtDos
