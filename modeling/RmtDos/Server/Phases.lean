import RmtDos.Server.IdleSpec

/-! The upload operations between their DOS calls: what is left of the idle step behind each
call, and how far it runs undisturbed. -/
namespace RmtDos
open Resumable Prog

section Programs
variable (mac : MacAddr)

/-- `PUT_BEGIN` behind its create. -/
def beginEnd (r : DosRegs) : Tsr Unit := do
  setFile fun g =>
    { g with
      handle := handleOf r, expectedOffset := 0, active := 0 ≤ handleOf r
      mode := if 0 ≤ handleOf r then .put else .none }
  idleReply mac .putBegin (.begin,statusOf (0 ≤ handleOf r))

def beginCreate : Tsr Unit := .call (fun g => .create (filenameStr g)) keep (beginEnd mac)

def beginClose (handle : Int16) : Tsr Unit :=
  .call (fun _ => .close handle.toUInt16) keep fun _ => beginCreate mac

/-- `PUT_DATA` behind its write. -/
def dataEnd (count : UInt16) (r : DosRegs) : Tsr Unit :=
  if writeOk count r then do
    setFile fun g => { g with expectedOffset := g.expectedOffset+g.chunkCount.toUInt32 }
    idleReply mac .putData (.data,.ok)
  else idleReply mac .putData (.data,.error)

def dataWrite (handle : Int16) (count : UInt16) : Tsr Unit :=
  .call (fun g => .write handle.toUInt16 (g.chunk.toList.take count.toNat)) keep (dataEnd mac count)

/-- `PUT_END` behind its close. -/
def endEnd (status : FileAckStatus) : Tsr Unit := do
  setFile fun g => { g with handle := -1, active := false, mode := .none }
  idleReply mac .putEnd (.end,status)

def endClose (status : FileAckStatus) (handle : Int16) : Tsr Unit :=
  .call (fun _ => .close handle.toUInt16) keep fun _ => endEnd mac status

end Programs

variable {mac : MacAddr} {fuel : ℕ} {g : FileTransferState}

theorem idleOp_putBegin :
    idleOp mac fuel .putBegin = closeActive.bind fun _ => beginCreate mac := by
  simp only [idleOp, idlePutBegin, dosCreateFile_eq, bind_eq, bind_assoc]
  rfl

theorem advance_putBegin :
    (idleOp mac fuel .putBegin).advance g = ([],g,
      if g.active = true ∧ ¬ g.handle < 0 then beginClose mac g.handle else beginCreate mac) := by
  rw [idleOp_putBegin]
  simp only [closeActive, getFile, dosCloseFile_eq, bind_eq, get_bind, done_bind, pure_eq, ite_bind,
    call_bind, advance]
  cases g.active
  · simp [beginCreate, advance]
  · by_cases hh : g.handle < 0
    · simp [hh, beginCreate, advance]
    · simp [hh, advance, beginClose]

theorem advance_putData :
    (idleOp mac fuel .putData).advance g =
      if g.chunkOffset ≠ g.expectedOffset then
        ([ackOf mac g .data .error g.expectedOffset],g,.done ())
      else ([],g,dataWrite mac g.handle g.chunkCount) := by
  simp only [idleOp, idlePutData, getFile, dosWriteFile_eq, bind_eq, get_bind, done_bind, pure_eq,
    advance, call_bind, ite_bind, bind_assoc]
  split
  · rfl
  · rfl

theorem advance_putEnd :
    (idleOp mac fuel .putEnd).advance g =
      if g.handle < 0 then
        (endEnd mac (if g.expectedOffset ≠ g.size then .error else .ok)).advance g
      else ([],g,endClose mac (if g.expectedOffset ≠ g.size then .error else .ok) g.handle) := by
  simp only [idleOp, idlePutEnd, getFile, dosCloseFile_eq, bind_eq, get_bind, done_bind, pure_eq,
    advance, call_bind, ite_bind, bind_assoc]
  split <;> rfl

theorem advance_ack :
    (idleOp mac fuel .ack).advance g =
      ([ackOf mac g g.ackCommand g.ackStatus g.ackOffset],
        { g with expectedOffset := g.ackOffset },.done ()) := rfl

theorem advance_beginEnd {r : DosRegs} :
    (beginEnd mac r).advance g =
      ([ackOf mac g .begin (statusOf (0 ≤ handleOf r)) 0],
        { g with
          handle := handleOf r, expectedOffset := 0, active := 0 ≤ handleOf r
          mode := if 0 ≤ handleOf r then .put else .none },.done ()) := rfl

theorem advance_dataEnd {count : UInt16} {r : DosRegs} :
    (dataEnd mac count r).advance g =
      if writeOk count r then
        ([ackOf mac g .data .ok (g.expectedOffset+g.chunkCount.toUInt32)],
          { g with expectedOffset := g.expectedOffset+g.chunkCount.toUInt32 },.done ())
      else ([ackOf mac g .data .error g.expectedOffset],g,.done ()) := by
  rw [dataEnd]
  split <;> rfl

theorem advance_endEnd {status : FileAckStatus} :
    (endEnd mac status).advance g =
      ([ackOf mac g .end status g.expectedOffset],
        { g with handle := -1, active := false, mode := .none },.done ()) := rfl

theorem advance_idle (hn : g.pendingOp ≠ .none) :
    (fileTransferProcessIdle mac fuel).advance g = (idleOp mac fuel g.pendingOp).advance g.taken := by
  simp only [fileTransferProcessIdle, getFile, setFile, bind_eq, get_bind, modify_bind, done_bind,
    pure_eq, advance, hn, if_false]
  rfl

end RmtDos
