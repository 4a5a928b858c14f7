import RmtDos.Server.FileTransfer

/-! What each case of the idle step does, for any behaviour `env` of DOS: the calls it makes,
the record it leaves and the frame it sends. Every later argument about the idle step starts
from these statements. -/
namespace RmtDos
open Resumable Prog

/-- The handle in `ax`, or -1 when the carry flag reports an error. -/
def handleOf (regs : DosRegs) : Int16 := if regs.carry then -1 else regs.ax.toInt16

theorem handleOf_nonneg {r : DosRegs} (hc : r.carry = false) (hr : r.ax < 0x8000) : ¬ handleOf r < 0 := by
  have hx : r.ax.toNat < 0x8000 := by simpa [UInt16.lt_iff_toNat_lt] using hr
  have hi : r.ax.toInt16.toInt = r.ax.toNat := by
    rw [← Int16.toInt_toBitVec, UInt16.toBitVec_toInt16]
    exact BitVec.toInt_eq_toNat_of_lt (by simp; omega)
  simp [handleOf, hc, Int16.lt_iff_toInt_lt, hi]

theorem toUInt16_handleOf {r : DosRegs} (hc : r.carry = false) : (handleOf r).toUInt16 = r.ax := by
  simp [handleOf, hc]

theorem dosCreateFile_eq (f : FileTransferState → List UInt8) :
    dosCreateFile f = .call (fun g => .create (f g)) keep fun r => .done (handleOf r) := by
  simp only [dosCreateFile, int21, handleOf, bind_eq, call_bind, done_bind, pure_eq]
  congr
  funext r
  split <;> rfl

theorem dosOpenReadFile_eq (f : FileTransferState → List UInt8) :
    dosOpenReadFile f = .call (fun g => .openRead (f g)) keep fun r => .done (handleOf r) := by
  simp only [dosOpenReadFile, int21, handleOf, bind_eq, call_bind, done_bind, pure_eq]
  congr
  funext r
  split <;> rfl

theorem dosReadFile_eq (h : Int16) (count : UInt16) :
    dosReadFile h count =
      .call (fun _ => .read h.toUInt16 count) storeChunk fun r => .done (handleOf r) := by
  simp only [dosReadFile, int21, handleOf, bind_eq, call_bind, done_bind, pure_eq]
  congr
  funext r
  split <;> rfl

/-- Success of a write: no carry and all bytes written. -/
def writeOk (count : UInt16) (regs : DosRegs) : Bool := !regs.carry && regs.ax = count

theorem dosWriteFile_eq (h : Int16) (count : UInt16) :
    dosWriteFile h count =
      .call (fun g => .write h.toUInt16 (g.chunk.toList.take count.toNat)) keep
        fun r => .done (writeOk count r) := by
  simp only [dosWriteFile, int21, writeOk, bind_eq, call_bind, done_bind, pure_eq]
  congr
  funext r
  cases r.carry <;> rfl

theorem dosCloseFile_eq (h : Int16) :
    dosCloseFile h = if h < 0 then .done () else
      .call (fun _ => .close h.toUInt16) keep fun _ => .done () := by
  simp only [dosCloseFile, int21, bind_eq, call_bind, done_bind, pure_eq]

theorem dosPathCall_eq (c : FileTransferState → DosCall) :
    dosPathCall c = .call c keep fun r => .done (!r.carry) := rfl

variable {D : Type} {env : D → DosCall → DosRegs → D → Prop} {mac : MacAddr} {fuel : ℕ}
  {g g' : FileTransferState} {d d' : D} {os : List Reply}

/-- `dos_close_file`, guarded by `b`: a negative handle makes no call. -/
def Closed (env : D → DosCall → DosRegs → D → Prop) (b : Bool) (h : Int16) (d d' : D) : Prop :=
  if b ∧ ¬ h < 0 then ∃ r, env d (.close h.toUInt16) r d' else d' = d

theorem exec_dosCloseFile_bind {β : Type} {h : Int16} {k : Unit → Tsr β} {b : β} :
    Exec env ((dosCloseFile h).bind k) g d os b g' d' ↔
      ∃ d₁, Closed env true h d d₁ ∧ Exec env (k ()) g d₁ os b g' d' := by
  rw [dosCloseFile_eq]
  by_cases hh : h < 0
  · simp [Closed, hh]
  · simp only [hh, if_false, call_bind, done_bind, exec_call, Closed, keep, not_false_eq_true,
      and_self, if_true]
    constructor
    · rintro ⟨r,d₁,he,h⟩
      exact ⟨d₁,⟨r,he⟩,h⟩
    · rintro ⟨d₁,⟨r,he⟩,h⟩
      exact ⟨r,d₁,he,h⟩

/-- The closing of an old transfer at the start of `PUT_BEGIN` and `GET_BEGIN`. -/
theorem exec_closeActive_bind {β : Type} {k : Unit → Tsr β} {b : β} :
    Exec env (closeActive.bind k) g d os b g' d' ↔
      ∃ d₁, Closed env g.active g.handle d d₁ ∧ Exec env (k ()) g d₁ os b g' d' := by
  simp only [closeActive, getFile, bind_eq, get_bind, done_bind, exec_get, pure_eq, ite_bind]
  cases g.active
  · simp [Closed]
  · simpa using exec_dosCloseFile_bind

/-- The acknowledgement a record leads to. -/
def ackOf (mac : MacAddr) (g : FileTransferState) (command : FileAckCommand)
    (status : FileAckStatus) (offset : UInt32) : Reply :=
  ⟨g.clientMac,mac,g.sessionId,12,.fileAck g.transferId command status offset⟩

theorem exec_idleReply {op : FileOp} {answer : FileAckCommand × FileAckStatus} :
    Exec env (idleReply mac op answer) g d os () g' d' ↔
      g' = g ∧ d' = d ∧ os = [ackOf mac g answer.1 answer.2
        (if op = .getBegin ∧ answer.2 = .ok then g.size else g.expectedOffset)] := by
  simp only [idleReply, sendFileAck, getFile, pktdrvSend, bind_eq, get_bind, done_bind, exec_get,
    exec_emit, exec_done, ackOf]
  constructor
  · rintro ⟨_,rfl,rfl,-,rfl,rfl⟩
    exact ⟨rfl,rfl,rfl⟩
  · rintro ⟨rfl,rfl,rfl⟩
    exact ⟨[],rfl,rfl,trivial,rfl,rfl⟩

/-- The record with the pending operation taken off. -/
def FileTransferState.taken (g : FileTransferState) : FileTransferState :=
  { g with pendingOp := .none }

theorem exec_idle :
    Exec env (fileTransferProcessIdle mac fuel) g d os () g' d' ↔
      (g.pendingOp = .none ∧ os = [] ∧ g' = g ∧ d' = d) ∨
      (g.pendingOp ≠ .none ∧ Exec env (idleOp mac fuel g.pendingOp) g.taken d os () g' d') := by
  simp only [fileTransferProcessIdle, getFile, setFile, bind_eq, get_bind, modify_bind, done_bind,
    exec_get, pure_eq, exec_ite, exec_done, exec_modify, true_and, ne_eq]
  rfl

theorem exec_putBegin :
    Exec env (idleOp mac fuel .putBegin) g d os () g' d' ↔ ∃ d₁ r,
      Closed env g.active g.handle d d₁ ∧ env d₁ (.create (filenameStr g)) r d' ∧
      g' = { g with
        handle := handleOf r, expectedOffset := 0, active := 0 ≤ handleOf r
        mode := if 0 ≤ handleOf r then .put else .none } ∧
      os = [ackOf mac g' .begin (statusOf (0 ≤ handleOf r)) 0] := by
  simp only [idleOp, idlePutBegin, setFile, dosCreateFile_eq, bind_eq, modify_bind, done_bind,
    pure_eq, bind_assoc, exec_closeActive_bind, call_bind, exec_call, keep, exec_modify,
    exec_idleReply]
  constructor
  · rintro ⟨d₁,hc,r,d₂,he,rfl,rfl,rfl⟩
    exact ⟨d₁,r,hc,he,rfl,rfl⟩
  · rintro ⟨d₁,r,hc,he,rfl,rfl⟩
    exact ⟨d₁,hc,r,d',he,rfl,rfl,rfl⟩

theorem exec_putData :
    Exec env (idleOp mac fuel .putData) g d os () g' d' ↔
      (g.chunkOffset ≠ g.expectedOffset ∧ d' = d ∧ g' = g ∧
        os = [ackOf mac g .data .error g.expectedOffset]) ∨
      (g.chunkOffset = g.expectedOffset ∧ ∃ r,
        env d (.write g.handle.toUInt16 (g.chunk.toList.take g.chunkCount.toNat)) r d' ∧
        ((writeOk g.chunkCount r ∧
          g' = { g with expectedOffset := g.expectedOffset+g.chunkCount.toUInt32 } ∧
          os = [ackOf mac g .data .ok (g.expectedOffset+g.chunkCount.toUInt32)]) ∨
        (writeOk g.chunkCount r = false ∧ g' = g ∧
          os = [ackOf mac g .data .error g.expectedOffset]))) := by
  simp only [idleOp, idlePutData, getFile, setFile, dosWriteFile_eq, bind_eq, get_bind,
    modify_bind, done_bind, pure_eq, exec_get, call_bind, exec_call, keep, exec_modify,
    exec_idleReply, exec_ite, ite_bind]
  constructor
  · rintro (⟨hne,rfl,rfl,rfl⟩ | ⟨heq,r,d₁,he,⟨hw,rfl,rfl,rfl⟩ | ⟨hw,rfl,rfl,rfl⟩⟩)
    · exact .inl ⟨hne,rfl,rfl,rfl⟩
    · exact .inr ⟨not_not.mp heq,r,he,.inl ⟨hw,rfl,rfl⟩⟩
    · exact .inr ⟨not_not.mp heq,r,he,.inr ⟨by simpa using hw,rfl,rfl⟩⟩
  · rintro (⟨hne,rfl,rfl,rfl⟩ | ⟨heq,r,he,⟨hw,rfl,rfl⟩ | ⟨hw,rfl,rfl⟩⟩)
    · exact .inl ⟨hne,rfl,rfl,rfl⟩
    · exact .inr ⟨not_not.mpr heq,r,d',he,.inl ⟨hw,rfl,rfl,rfl⟩⟩
    · exact .inr ⟨not_not.mpr heq,r,d',he,.inr ⟨by simp [hw],rfl,rfl,rfl⟩⟩

theorem exec_putEnd :
    Exec env (idleOp mac fuel .putEnd) g d os () g' d' ↔
      Closed env true g.handle d d' ∧ g' = { g with handle := -1, active := false, mode := .none } ∧
      os = [ackOf mac g .end (if g.expectedOffset ≠ g.size then .error else .ok)
        g.expectedOffset] := by
  simp only [idleOp, idlePutEnd, getFile, setFile, bind_eq, get_bind, modify_bind, done_bind,
    pure_eq, bind_assoc, exec_get, exec_dosCloseFile_bind, exec_modify, exec_idleReply]
  constructor
  · rintro ⟨d₁,hc,rfl,rfl,rfl⟩
    exact ⟨hc,rfl,rfl⟩
  · rintro ⟨hc,rfl,rfl⟩
    exact ⟨d',hc,rfl,rfl,rfl⟩

theorem exec_ack :
    Exec env (idleOp mac fuel .ack) g d os () g' d' ↔
      d' = d ∧ g' = { g with expectedOffset := g.ackOffset } ∧
      os = [ackOf mac g g.ackCommand g.ackStatus g.ackOffset] := by
  simp only [idleOp, idleAck, getFile, setFile, bind_eq, get_bind, modify_bind, done_bind,
    pure_eq, exec_get, exec_modify, exec_idleReply]
  constructor
  · rintro ⟨rfl,rfl,rfl⟩
    exact ⟨rfl,rfl,rfl⟩
  · rintro ⟨rfl,rfl,rfl⟩
    exact ⟨rfl,rfl,rfl⟩

theorem exec_getEnd :
    Exec env (idleOp mac fuel .getEnd) g d os () g' d' ↔
      Closed env true g.handle d d' ∧ g' = { g with handle := -1, active := false, mode := .none } ∧
      os = [ackOf mac g .end .ok g.expectedOffset] := by
  simp only [idleOp, idleGetEnd, getFile, setFile, bind_eq, get_bind, modify_bind, done_bind,
    pure_eq, bind_assoc, exec_get, exec_dosCloseFile_bind, exec_modify, exec_idleReply]
  constructor
  · rintro ⟨d₁,hc,rfl,rfl,rfl⟩
    exact ⟨hc,rfl,rfl⟩
  · rintro ⟨hc,rfl,rfl⟩
    exact ⟨d',hc,rfl,rfl,rfl⟩

/-- `dos_get_file_size`: the DTA is switched over and back around one search. -/
def SizeQuery (env : D → DosCall → DosRegs → D → Prop) (name : List UInt8) (d : D)
    (found : DosRegs) (d' : D) : Prop :=
  ∃ saved d₁ r₁ d₂ d₃ r₃, env d .getDta saved d₁ ∧ env d₁ .setDta r₁ d₂ ∧
    env d₂ (.findFirst name) found d₃ ∧ env d₃ (.restoreDta saved.es saved.bx) r₃ d'

def sizeFound (found : DosRegs) (g : FileTransferState) : UInt32 :=
  if found.carry then 0xffffffff else dtaGetU32 (storeDta found g).dta 26

theorem exec_dosGetFileSize_bind {β : Type} {k : UInt32 → Tsr β} {b : β} :
    Exec env (dosGetFileSize.bind k) g d os b g' d' ↔
      ∃ found d₁, SizeQuery env (filenameStr g) d found d₁ ∧
        Exec env (k (sizeFound found g)) (storeDta found g) d₁ os b g' d' := by
  simp only [dosGetFileSize, dosGetDta, dosSetDta, dosFindFirst, dosRestoreDta, int21, getFile,
    bind_eq, get_bind, call_bind, done_bind, pure_eq, ite_bind, exec_call, exec_ite, exec_get, keep,
    SizeQuery, sizeFound]
  constructor
  · rintro ⟨saved,d₁,h₀,r₁,d₂,h₁,found,d₃,h₂,⟨hf,r₃,d₄,h₃,h⟩ | ⟨hf,r₃,d₄,h₃,h⟩⟩
    · refine ⟨found,d₄,⟨saved,d₁,r₁,d₂,d₃,r₃,h₀,h₁,h₂,h₃⟩,?_⟩
      simpa [show found.carry = false by simpa using hf] using h
    · refine ⟨found,d₄,⟨saved,d₁,r₁,d₂,d₃,r₃,h₀,h₁,h₂,h₃⟩,?_⟩
      simpa [show found.carry = true by simpa using hf] using h
  · rintro ⟨found,d₄,⟨saved,d₁,r₁,d₂,d₃,r₃,h₀,h₁,h₂,h₃⟩,h⟩
    refine ⟨saved,d₁,h₀,r₁,d₂,h₁,found,d₃,h₂,?_⟩
    cases hf : found.carry
    · exact .inl ⟨by simp,r₃,d₄,h₃,by simpa [hf] using h⟩
    · exact .inr ⟨by simp,r₃,d₄,h₃,by simpa [hf] using h⟩

/-- The record after a `GET_BEGIN`: no transfer, or one open for reading. -/
def getClosed (size : UInt32) (g : FileTransferState) : FileTransferState :=
  { g with handle := -1, active := false, mode := .none, expectedOffset := 0, size := size }

def getOpened (handle : Int16) (size : UInt32) (g : FileTransferState) : FileTransferState :=
  { g with handle := handle, active := true, mode := .get, expectedOffset := 0, size := size }

@[simp] theorem storeDta_getReset (found : DosRegs) (h : Int16) :
    storeDta found (getReset h g) = getReset h (storeDta found g) := by
  unfold storeDta
  split <;> rfl

@[simp] theorem sizeFound_getReset (found : DosRegs) (h : Int16) :
    sizeFound found (getReset h g) = sizeFound found g := by
  rw [sizeFound, storeDta_getReset]
  rfl

@[simp] theorem filenameStr_getReset (h : Int16) : filenameStr (getReset h g) = filenameStr g :=
  rfl

theorem getSized_getReset (h : Int16) {size : UInt32} (hs : size ≠ 0xffffffff) :
    getSized size (getReset h g) = getOpened h size g := by
  simp [getSized, hs, getReset, getOpened]

theorem exec_getBeginEnd_bind :
    Exec env (getBeginEnd.bind (idleReply mac .getBegin)) g d os () g' d' ↔
      (g.active ∧ g' = g ∧ d' = d ∧ os = [ackOf mac g .begin .ok g.size]) ∨
      (g.active = false ∧ Closed env true g.handle d d' ∧ g' = forgetHandle g ∧
        os = [ackOf mac g' .begin .error g.expectedOffset]) := by
  simp only [getBeginEnd, getFile, setFile, bind_eq, get_bind, done_bind, pure_eq, ite_bind,
    bind_assoc, modify_bind, exec_get, exec_ite, exec_idleReply, exec_dosCloseFile_bind,
    exec_modify]
  constructor
  · rintro (⟨ha,rfl,rfl,rfl⟩ | ⟨ha,d₁,hc,rfl,rfl,rfl⟩)
    · exact .inl ⟨ha,rfl,rfl,rfl⟩
    · exact .inr ⟨by simpa using ha,hc,rfl,rfl⟩
  · rintro (⟨ha,rfl,rfl,rfl⟩ | ⟨ha,hc,rfl,rfl⟩)
    · exact .inl ⟨ha,rfl,rfl,rfl⟩
    · exact .inr ⟨by simp [ha],d',hc,rfl,rfl,rfl⟩

theorem exec_getBegin :
    Exec env (idleOp mac fuel .getBegin) g d os () g' d' ↔ ∃ d₁ r d₂,
      Closed env g.active g.handle d d₁ ∧ env d₁ (.openRead (filenameStr g)) r d₂ ∧
      ((handleOf r < 0 ∧ d' = d₂ ∧ g' = getClosed 0 g ∧ os = [ackOf mac g' .begin .error 0]) ∨
      (¬ handleOf r < 0 ∧ ∃ found d₃, SizeQuery env (filenameStr g) d₂ found d₃ ∧
        ((sizeFound found g ≠ 0xffffffff ∧ d' = d₃ ∧
          g' = getOpened (handleOf r) (sizeFound found g) (storeDta found g) ∧
          os = [ackOf mac g' .begin .ok (sizeFound found g)]) ∨
        (sizeFound found g = 0xffffffff ∧ Closed env true (handleOf r) d₃ d' ∧
          g' = getClosed 0xffffffff (storeDta found g) ∧
          os = [ackOf mac g' .begin .error 0])))) := by
  simp only [idleOp, idleGetBegin, setFile, dosOpenReadFile_eq, bind_eq, modify_bind,
    done_bind, bind_assoc, exec_closeActive_bind, call_bind, exec_call, keep,
    exec_modify, ite_bind, exec_ite, exec_dosGetFileSize_bind, exec_getBeginEnd_bind,
    storeDta_getReset, sizeFound_getReset, filenameStr_getReset, Int16.not_lt]
  constructor
  · rintro ⟨d₁,hc,r,d₂,he,⟨hr,found,d₃,hq,h⟩ | ⟨hr,h⟩⟩
    · refine ⟨d₁,r,d₂,hc,he,.inr ⟨hr,found,d₃,hq,?_⟩⟩
      by_cases hs : sizeFound found g = 0xffffffff
      · rw [hs] at h
        rcases h with ⟨ha,-⟩ | ⟨-,hcl,rfl,rfl⟩
        · cases ha
        · exact .inr ⟨hs,hcl,rfl,rfl⟩
      · rw [getSized_getReset _ hs] at h
        rcases h with ⟨-,rfl,rfl,rfl⟩ | ⟨ha,-⟩
        · exact .inl ⟨hs,rfl,rfl,rfl⟩
        · cases ha
    · have hr' : handleOf r < 0 := by simpa using hr
      rcases h with ⟨ha,-⟩ | ⟨-,hcl,rfl,rfl⟩
      · cases ha
      · have hd : d' = d₂ := by simpa [Closed, getReset, hr'] using hcl
        exact ⟨d₁,r,d₂,hc,he,.inl ⟨hr',hd,rfl,rfl⟩⟩
  · rintro ⟨d₁,r,d₂,hc,he,⟨hr,rfl,rfl,rfl⟩ | ⟨hr,found,d₃,hq,h⟩⟩
    · refine ⟨d₁,hc,r,d',he,.inr ⟨by simpa using hr,.inr ⟨rfl,?_,rfl,rfl⟩⟩⟩
      simp [Closed, getReset, hr]
    · refine ⟨d₁,hc,r,d₂,he,.inl ⟨hr,found,d₃,hq,?_⟩⟩
      rcases h with ⟨hs,rfl,rfl,rfl⟩ | ⟨hs,hcl,rfl,rfl⟩
      · rw [getSized_getReset _ hs]
        exact .inl ⟨rfl,rfl,rfl,rfl⟩
      · rw [hs]
        exact .inr ⟨rfl,hcl,rfl,rfl⟩

/-- The position a seek returns, with the error value of the source. -/
def positionOf (regs : DosRegs) : UInt32 :=
  if regs.carry then 0xffffffff else regs.dx.toUInt32 <<< 16 ||| regs.ax.toUInt32

theorem dosSeekFile_eq (h : Int16) (origin : UInt8) (offset : UInt32) :
    dosSeekFile h origin offset =
      .call (fun _ => .seek h.toUInt16 origin offset) keep fun r => .done (positionOf r) := by
  simp only [dosSeekFile, int21, positionOf, bind_eq, call_bind, done_bind, pure_eq]
  congr
  funext r
  split <;> rfl

/-- The data frame a record leads to; its chunk is empty when the status is an error. -/
def dataOf (mac : MacAddr) (g : FileTransferState) (status : FileAckStatus) : Reply :=
  ⟨g.clientMac,mac,g.sessionId,12+g.chunkCount,.fileGetData g.transferId g.chunkOffset
    g.chunkCount status (g.chunk.toList.take g.chunkCount.toNat)⟩

theorem exec_sendFileGetData_ok :
    Exec env (sendFileGetData mac .ok) g d os () g' d' ↔
      g' = g ∧ d' = d ∧ os = [dataOf mac g .ok] := by
  simp only [sendFileGetData, getFile, pktdrvSend, bind_eq, get_bind, done_bind, pure_eq,
    if_true, exec_get, exec_emit, exec_done, dataOf]
  constructor
  · rintro ⟨_,rfl,rfl,-,rfl,rfl⟩
    exact ⟨rfl,rfl,rfl⟩
  · rintro ⟨rfl,rfl,rfl⟩
    exact ⟨[],rfl,rfl,trivial,rfl,rfl⟩

theorem exec_sendFileGetData_error :
    Exec env (sendFileGetData mac .error) g d os () g' d' ↔
      g' = noChunk g ∧ d' = d ∧ os = [dataOf mac (noChunk g) .error] := by
  simp only [sendFileGetData, getFile, setFile, pktdrvSend, bind_eq, get_bind, modify_bind,
    done_bind, pure_eq, reduceCtorEq, if_false, exec_get, exec_modify, exec_emit, exec_done, dataOf]
  constructor
  · rintro ⟨_,rfl,rfl,-,rfl,rfl⟩
    exact ⟨rfl,rfl,rfl⟩
  · rintro ⟨rfl,rfl,rfl⟩
    exact ⟨[],rfl,rfl,trivial,rfl,rfl⟩

theorem noChunk_noChunk : noChunk (noChunk g) = noChunk g := rfl

/-- A data request fails before any call, at the seek, or at the read, or it reads. -/
theorem exec_getDataReq :
    Exec env (idleOp mac fuel .getDataReq) g d os () g' d' ↔
      (getRefused g ∧ d' = d ∧ g' = noChunk g ∧ os = [dataOf mac g' .error]) ∨
      (getRefused g = false ∧ ∃ r d₁, env d (.seek g.handle.toUInt16 0 g.chunkOffset) r d₁ ∧
        ((positionOf r = 0xffffffff ∧ d' = d₁ ∧ g' = noChunk g ∧ os = [dataOf mac g' .error]) ∨
        (positionOf r ≠ 0xffffffff ∧ ∃ q, env d₁ (.read g.handle.toUInt16 g.chunkCount) q d' ∧
          ((handleOf q < 0 ∧ g' = noChunk (storeChunk q g) ∧ os = [dataOf mac g' .error]) ∨
          (¬ handleOf q < 0 ∧ g' = chunkRead (handleOf q).toUInt16 (storeChunk q g) ∧
            os = [dataOf mac g' .ok]))))) := by
  simp only [idleOp, idleGetDataReq, getFile, setFile, dosSeekFile_eq, dosReadFile_eq, bind_eq,
    get_bind, call_bind, modify_bind, done_bind, pure_eq, exec_get, exec_ite, exec_call,
    exec_modify, keep, exec_sendFileGetData_ok, exec_sendFileGetData_error, noChunk_noChunk,
    decide_eq_true_eq, Bool.not_eq_true]
  constructor
  · rintro (⟨hr,⟨-,rfl,rfl,rfl⟩ | ⟨h,-⟩⟩ | ⟨hr,r,d₁,he,⟨hp,rfl,rfl,rfl⟩ | ⟨hp,q,d₂,hq,h⟩⟩)
    · exact .inl ⟨hr,rfl,rfl,rfl⟩
    · simp at h
    · exact .inr ⟨hr,r,d',he,.inl ⟨hp,rfl,rfl,rfl⟩⟩
    · refine .inr ⟨hr,r,d₁,he,.inr ⟨by simpa using hp,q,?_⟩⟩
      rcases h with ⟨hn,rfl,rfl,rfl⟩ | ⟨hn,rfl,rfl,rfl⟩
      · exact ⟨hq,.inl ⟨hn,rfl,rfl⟩⟩
      · exact ⟨hq,.inr ⟨hn,rfl,rfl⟩⟩
  · rintro (⟨hr,rfl,rfl,rfl⟩ | ⟨hr,r,d₁,he,⟨hp,rfl,rfl,rfl⟩ | ⟨hp,q,hq,h⟩⟩)
    · exact .inl ⟨hr,.inl ⟨trivial,rfl,rfl,rfl⟩⟩
    · exact .inr ⟨hr,r,d',he,.inl ⟨hp,rfl,rfl,rfl⟩⟩
    · refine .inr ⟨hr,r,d₁,he,.inr ⟨by simpa using hp,q,d',hq,?_⟩⟩
      rcases h with ⟨hn,rfl,rfl⟩ | ⟨hn,rfl,rfl⟩
      · exact .inl ⟨hn,rfl,rfl,rfl⟩
      · exact .inr ⟨hn,rfl,rfl,rfl⟩

/-- The directory page a record leads to. -/
def pageOf (mac : MacAddr) (g : FileTransferState) (status : FileAckStatus) (count : UInt16) :
    Reply :=
  ⟨g.clientMac,mac,g.sessionId,if status = .ok then 10+count*74 else 10,
    .dirListData g.dirRequestId g.dirStartIndex (if status = .ok then count else 0) status
      (g.dirEntries.toList.take (if status = .ok then count else 0).toNat)⟩

theorem exec_sendDirListData {status : FileAckStatus} {count : UInt16} :
    Exec env (sendDirListData mac status count) g d os () g' d' ↔
      g' = g ∧ d' = d ∧ os = [pageOf mac g status count] := by
  simp only [sendDirListData, getFile, pktdrvSend, bind_eq, get_bind, done_bind, exec_get,
    exec_emit, exec_done, pageOf]
  constructor
  · rintro ⟨_,rfl,rfl,-,rfl,rfl⟩
    exact ⟨rfl,rfl,rfl⟩
  · rintro ⟨rfl,rfl,rfl⟩
    exact ⟨[],rfl,rfl,trivial,rfl,rfl⟩

theorem exec_mkdir :
    Exec env (idleOp mac fuel .mkdir) g d os () g' d' ↔ ∃ r,
      env d (.mkdir (filenameStr g)) r d' ∧ g' = g ∧
      os = [ackOf mac g .mkdir (statusOf !r.carry) g.expectedOffset] := by
  simp only [idleOp, idleMkdir, dosMkdir, dosPathCall_eq, bind_eq, call_bind, done_bind, pure_eq,
    exec_call, keep, exec_idleReply]
  constructor
  · rintro ⟨r,d₁,he,rfl,rfl,rfl⟩
    exact ⟨r,he,rfl,rfl⟩
  · rintro ⟨r,he,rfl,rfl⟩
    exact ⟨r,d',he,rfl,rfl,rfl⟩

/-- The call a `DELETE` makes: the directory flag chooses between the two services. -/
def deleteCall (g : FileTransferState) : DosCall :=
  if g.pathOpFlags &&& filePathOpDirectory ≠ 0 then .rmdir (filenameStr g)
  else .unlink (filenameStr g)

theorem exec_delete :
    Exec env (idleOp mac fuel .delete) g d os () g' d' ↔ ∃ r,
      env d (deleteCall g) r d' ∧ g' = g ∧
      os = [ackOf mac g .delete (statusOf !r.carry) g.expectedOffset] := by
  simp only [idleOp, idleDelete, dosRmdir, dosUnlink, dosPathCall_eq, getFile, bind_eq, get_bind,
    call_bind, done_bind, pure_eq, ite_bind, exec_get, exec_ite, exec_call, keep, exec_idleReply,
    deleteCall]
  constructor
  · rintro (⟨hf,r,d₁,he,rfl,rfl,rfl⟩ | ⟨hf,r,d₁,he,rfl,rfl,rfl⟩)
    · exact ⟨r,by simpa [hf] using he,rfl,rfl⟩
    · exact ⟨r,by rwa [if_neg hf],rfl,rfl⟩
  · rintro ⟨r,he,rfl,rfl⟩
    split_ifs at he with hf
    · exact .inl ⟨hf,r,d',he,rfl,rfl,rfl⟩
    · exact .inr ⟨hf,r,d',he,rfl,rfl,rfl⟩

theorem exec_rename :
    Exec env (idleOp mac fuel .rename) g d os () g' d' ↔
      (dosPathEqual (filenameStr g) (targetStr g) ∧ d' = d ∧ g' = g ∧
        os = [ackOf mac g .rename .ok g.expectedOffset]) ∨
      (dosPathEqual (filenameStr g) (targetStr g) = false ∧ ∃ r,
        env d (.rename (filenameStr g) (targetStr g)) r d' ∧ g' = g ∧
        os = [ackOf mac g .rename (statusOf !r.carry) g.expectedOffset]) := by
  simp only [idleOp, idleRename, dosRename, dosPathCall_eq, getFile, bind_eq, get_bind,
    call_bind, done_bind, pure_eq, ite_bind, exec_get, exec_ite, exec_call, keep, exec_idleReply]
  constructor
  · rintro (⟨hq,rfl,rfl,rfl⟩ | ⟨hq,r,d₁,he,rfl,rfl,rfl⟩)
    · exact .inl ⟨hq,rfl,rfl,rfl⟩
    · exact .inr ⟨by simpa using hq,r,he,rfl,rfl⟩
  · rintro (⟨hq,rfl,rfl,rfl⟩ | ⟨hq,r,he,rfl,rfl⟩)
    · exact .inl ⟨hq,rfl,rfl,rfl⟩
    · exact .inr ⟨by simp [hq],r,d',he,rfl,rfl,rfl⟩

/-! The two loops: what they may call, what they may change, and that they send nothing. -/

/-- All of the record but the chunk buffer. -/
def sansChunk (g : FileTransferState) (chunk : Vector UInt8 512) : FileTransferState :=
  { g with chunk := chunk }

/-- All of the record but the DTA and the page of entries. -/
def sansDir (g : FileTransferState) (dta : Vector UInt8 43) (entries : Vector DirListEntry 16) :
    FileTransferState :=
  { g with dta := dta, dirEntries := entries }

@[simp] theorem sansChunk_update (chunk : Vector UInt8 512) :
    sansChunk { g with chunk := chunk } = sansChunk g := rfl

@[simp] theorem sansDir_dta (dta : Vector UInt8 43) : sansDir { g with dta := dta } = sansDir g :=
  rfl

@[simp] theorem sansDir_entries (entries : Vector DirListEntry 16) :
    sansDir { g with dirEntries := entries } = sansDir g := rfl

@[simp] theorem sansChunk_storeChunk (r : DosRegs) :
    sansChunk (storeChunk r g) = sansChunk g := by
  unfold storeChunk
  split
  · rfl
  · exact sansChunk_update _

@[simp] theorem sansDir_storeDta (r : DosRegs) : sansDir (storeDta r g) = sansDir g := by
  unfold storeDta
  split
  · rfl
  · exact sansDir_dta _

theorem eq_of_sansChunk (h : sansChunk g' = sansChunk g) : g' = { g with chunk := g'.chunk } :=
  congrFun h g'.chunk

theorem eq_of_sansDir (h : sansDir g' = sansDir g) :
    g' = { g with dta := g'.dta, dirEntries := g'.dirEntries } :=
  congrFun (congrFun h g'.dta) g'.dirEntries

/-- What a data request may change of the record. -/
theorem getDataReq_record (h : Exec env (idleOp mac fuel .getDataReq) g d os () g' d') :
    ∃ chunk count offset, g' = { g with
      chunk := chunk, chunkCount := count, expectedOffset := offset } := by
  have hstore (q : DosRegs) := eq_of_sansChunk (@sansChunk_storeChunk g q)
  obtain ⟨-,-,rfl,-⟩ | ⟨-,-,-,-,⟨-,-,rfl,-⟩ | ⟨-,q,-,⟨-,rfl,-⟩ | ⟨-,rfl,-⟩⟩⟩ := exec_getDataReq.mp h
  · exact ⟨_,_,_,rfl⟩
  · exact ⟨_,_,_,rfl⟩
  · exact ⟨_,_,_,by rw [hstore q]; rfl⟩
  · exact ⟨_,_,_,by rw [hstore q]; rfl⟩

/-- The calls of the copy loop. -/
def ReadsOrWrites (hin hout : UInt16) : DosCall → Prop
  | .read h _ => h = hin
  | .write h _ => h = hout
  | _ => False

theorem copyLoop_callsIn (hin hout : Int16) (n : UInt32) :
    (copyLoop hin hout fuel n).CallsIn (ReadsOrWrites hin.toUInt16 hout.toUInt16) := by
  induction fuel generalizing n with
  | zero => trivial
  | succ fuel ih => simp [copyLoop, dosReadFile_eq, dosWriteFile_eq, ReadsOrWrites, ih]

theorem copyLoop_keeps (hin hout : Int16) (n : UInt32) :
    (copyLoop hin hout fuel n).Keeps sansChunk := by
  induction fuel generalizing n with
  | zero => trivial
  | succ fuel ih =>
    simp [copyLoop, dosReadFile_eq, dosWriteFile_eq, keep, ih]

theorem copyLoop_silent (hin hout : Int16) (n : UInt32) :
    (copyLoop hin hout fuel n).Silent := by
  induction fuel generalizing n with
  | zero => trivial
  | succ fuel ih => simp [copyLoop, dosReadFile_eq, dosWriteFile_eq, ih]

/-- One turn of the copy loop: the read fails, is at the end, or is followed by a write. -/
theorem exec_copyLoop_succ {hin hout : Int16} {n : UInt32} {result : Bool × UInt32} :
    Exec env (copyLoop hin hout (fuel+1) n) g d os result g' d' ↔
      ∃ r d₁, env d (.read hin.toUInt16 512) r d₁ ∧
      ((handleOf r < 0 ∧ os = [] ∧ result = (false,n) ∧ g' = storeChunk r g ∧ d' = d₁) ∨
      (handleOf r = 0 ∧ os = [] ∧ result = (true,n) ∧ g' = storeChunk r g ∧ d' = d₁) ∨
      (¬ handleOf r < 0 ∧ handleOf r ≠ 0 ∧ ∃ q d₂,
        env d₁ (.write hout.toUInt16
          ((storeChunk r g).chunk.toList.take (handleOf r).toUInt16.toNat)) q d₂ ∧
        ((writeOk (handleOf r).toUInt16 q ∧
          Exec env (copyLoop hin hout fuel (n+(handleOf r).toUInt16.toUInt32))
            (storeChunk r g) d₂ os result g' d') ∨
        (writeOk (handleOf r).toUInt16 q = false ∧ os = [] ∧ result = (false,n) ∧
          g' = storeChunk r g ∧ d' = d₂)))) := by
  simp only [copyLoop, dosReadFile_eq, dosWriteFile_eq, bind_eq, call_bind, done_bind, pure_eq,
    exec_call, exec_ite, exec_done, keep]
  constructor
  · rintro ⟨r,d₁,hr,⟨hn,h⟩ | ⟨hn,⟨hz,h⟩ | ⟨hz,q,d₂,hq,h⟩⟩⟩
    · exact ⟨r,d₁,hr,.inl ⟨hn,h⟩⟩
    · exact ⟨r,d₁,hr,.inr (.inl ⟨hz,h⟩)⟩
    · exact ⟨r,d₁,hr,.inr (.inr ⟨hn,hz,q,d₂,hq,by simpa using h⟩)⟩
  · rintro ⟨r,d₁,hr,⟨hn,h⟩ | ⟨hz,h⟩ | ⟨hn,hz,q,d₂,hq,h⟩⟩
    · exact ⟨r,d₁,hr,.inl ⟨hn,h⟩⟩
    · exact ⟨r,d₁,hr,.inr ⟨by simp [hz],.inl ⟨hz,h⟩⟩⟩
    · exact ⟨r,d₁,hr,.inr ⟨hn,.inr ⟨hz,q,d₂,hq,by simpa using h⟩⟩⟩

theorem dosCloseFile_keeps (h : Int16) : (dosCloseFile h).Keeps sansChunk := by
  simp [dosCloseFile_eq, keep]

theorem dosCloseFile_silent (h : Int16) : (dosCloseFile h).Silent := by
  simp [dosCloseFile_eq]

theorem dosCopyFile_keeps : (dosCopyFile fuel).Keeps sansChunk := by
  simp only [dosCopyFile, dosOpenReadFile_eq, dosCreateFile_eq, bind_eq, call_bind, done_bind,
    pure_eq, keeps_call, keeps_ite, keep, implies_true, true_and]
  have hend (h k : Int16) (r : Bool × UInt32) :
      ((dosCloseFile h).bind fun _ => (dosCloseFile k).bind fun _ => .done r).Keeps sansChunk :=
    (dosCloseFile_keeps h).bind fun _ => (dosCloseFile_keeps k).bind fun _ => trivial
  exact fun r => ⟨fun _ => hend _ _ _,fun _ r' => ⟨fun _ => hend _ _ _,
    fun _ => (copyLoop_keeps _ _ _).bind fun _ => hend _ _ _⟩⟩

theorem dosCopyFile_silent : (dosCopyFile fuel).Silent := by
  simp only [dosCopyFile, dosOpenReadFile_eq, dosCreateFile_eq, bind_eq, call_bind, done_bind,
    pure_eq, silent_call, silent_ite]
  have hend (h k : Int16) (r : Bool × UInt32) :
      ((dosCloseFile h).bind fun _ => (dosCloseFile k).bind fun _ => .done r : Tsr _).Silent :=
    (dosCloseFile_silent h).bind fun _ => (dosCloseFile_silent k).bind fun _ => trivial
  exact fun r => ⟨fun _ => hend _ _ _,fun _ r' => ⟨fun _ => hend _ _ _,
    fun _ => (copyLoop_silent _ _ _).bind fun _ => hend _ _ _⟩⟩

/-- A copy fails at the open or at the create, or it runs the loop between both closes. -/
theorem exec_dosCopyFile {result : Bool × UInt32} :
    Exec env (dosCopyFile fuel) g d os result g' d' ↔ os = [] ∧
      ∃ r d₁, env d (.openRead (filenameStr g)) r d₁ ∧
      ((handleOf r < 0 ∧ result = (false,0) ∧ g' = g ∧ d' = d₁) ∨
      (¬ handleOf r < 0 ∧ ∃ q d₂, env d₁ (.create (targetStr g)) q d₂ ∧
        ((handleOf q < 0 ∧ result = (false,0) ∧ g' = g ∧ Closed env true (handleOf r) d₂ d') ∨
        (¬ handleOf q < 0 ∧ ∃ d₃ d₄,
          Exec env (copyLoop (handleOf r) (handleOf q) fuel 0) g d₂ [] result g' d₃ ∧
          Closed env true (handleOf q) d₃ d₄ ∧ Closed env true (handleOf r) d₄ d')))) := by
  simp only [dosCopyFile, dosOpenReadFile_eq, dosCreateFile_eq, bind_eq, call_bind, done_bind,
    pure_eq, exec_call, exec_ite, exec_dosCloseFile_bind, exec_silent_bind (copyLoop_silent _ _ _),
    exec_done, keep]
  constructor
  · rintro ⟨r,d₁,ho,⟨hr,d₂,h₁,d₃,h₂,rfl,rfl,rfl,rfl⟩ |
      ⟨hr,q,d₂,hq,⟨hn,d₃,h₁,d₄,h₂,rfl,rfl,rfl,rfl⟩ |
        ⟨hn,res,g₁,d₃,hl,d₄,h₁,d₅,h₂,rfl,rfl,rfl,rfl⟩⟩⟩
    · have e₁ : d₂ = d₁ := by simpa [Closed] using h₁
      have e₂ : d' = d₂ := by simpa [Closed, hr] using h₂
      exact ⟨rfl,r,d₁,ho,.inl ⟨hr,rfl,rfl,e₂.trans e₁⟩⟩
    · have e₁ : d₃ = d₂ := by simpa [Closed, hn] using h₁
      exact ⟨rfl,r,d₁,ho,.inr ⟨hr,q,d₂,hq,.inl ⟨hn,rfl,rfl,e₁ ▸ h₂⟩⟩⟩
    · exact ⟨rfl,r,d₁,ho,.inr ⟨hr,q,d₂,hq,.inr ⟨hn,d₃,d₄,hl,h₁,h₂⟩⟩⟩
  · rintro ⟨rfl,r,d₁,ho,⟨hr,rfl,rfl,rfl⟩ | ⟨hr,q,d₂,hq,⟨hn,rfl,rfl,h₂⟩ | ⟨hn,d₃,d₄,hl,h₁,h₂⟩⟩⟩
    · exact ⟨r,d',ho,.inl ⟨hr,d',by simp [Closed],d',by simp [Closed, hr],rfl,rfl,rfl,rfl⟩⟩
    · exact ⟨r,d₁,ho,.inr ⟨hr,q,d₂,hq,.inl ⟨hn,d₂,by simp [Closed, hn],d',h₂,rfl,rfl,rfl,rfl⟩⟩⟩
    · exact ⟨r,d₁,ho,.inr ⟨hr,q,d₂,hq,.inr ⟨hn,result,g',d₃,hl,d₄,h₁,d',h₂,rfl,rfl,rfl,rfl⟩⟩⟩

theorem exec_copy :
    Exec env (idleOp mac fuel .copy) g d os () g' d' ↔
      (dosPathEqual (filenameStr g) (targetStr g) ∧ d' = d ∧ g' = { g with expectedOffset := 0 } ∧
        os = [ackOf mac g' .copy .error 0]) ∨
      (dosPathEqual (filenameStr g) (targetStr g) = false ∧ ∃ result g₁,
        Exec env (dosCopyFile fuel) g d [] result g₁ d' ∧
        g' = { g₁ with expectedOffset := result.2 } ∧
        os = [ackOf mac g' .copy (statusOf result.1) result.2]) := by
  simp only [idleOp, idleCopy, getFile, setFile, bind_eq, get_bind, modify_bind, done_bind, pure_eq,
    ite_bind, bind_assoc, exec_get, exec_ite, exec_modify, exec_silent_bind dosCopyFile_silent,
    exec_idleReply]
  constructor
  · rintro (⟨hq,rfl,rfl,rfl⟩ | ⟨hq,r,g₁,d₁,h,rfl,rfl,rfl⟩)
    · exact .inl ⟨hq,rfl,rfl,rfl⟩
    · exact .inr ⟨by simpa using hq,r,g₁,h,rfl,rfl⟩
  · rintro (⟨hq,rfl,rfl,rfl⟩ | ⟨hq,r,g₁,h,rfl,rfl⟩)
    · exact .inl ⟨hq,rfl,rfl,rfl⟩
    · exact .inr ⟨by simp [hq],r,g₁,d',h,rfl,rfl,rfl⟩

/-- The calls of a directory listing. -/
def Searches : DosCall → Prop
  | .getDta | .setDta | .restoreDta .. | .findFirst _ | .findNext => True
  | _ => False

/-- The page after one entry of the search, and its length. -/
def pageNext (m seen count : UInt16) (g : FileTransferState) : FileTransferState × UInt16 :=
  if g.dirStartIndex ≤ seen ∧ count < m then
    ({ g with dirEntries := g.dirEntries.setIfInBounds count.toNat (dtaEntry g.dta) },count+1)
  else (g,count)

theorem exec_collectLoop_succ {m seen count n : UInt16} :
    Exec env (collectLoop m (fuel+1) seen count) g d os n g' d' ↔
      ((pageNext m seen count g).2 < m ∧ ∃ q d₁, env d .findNext q d₁ ∧
        ((q.carry = false ∧ Exec env (collectLoop m fuel (seen+1) (pageNext m seen count g).2)
          (storeDta q (pageNext m seen count g).1) d₁ os n g' d') ∨
        (q.carry = true ∧ os = [] ∧ n = (pageNext m seen count g).2 ∧
          g' = storeDta q (pageNext m seen count g).1 ∧ d' = d₁))) ∨
      (¬ (pageNext m seen count g).2 < m ∧ os = [] ∧ n = (pageNext m seen count g).2 ∧
        g' = (pageNext m seen count g).1 ∧ d' = d) := by
  simp only [collectLoop, getFile, setFile, dosFindNext, int21, bind_eq, get_bind, done_bind,
    pure_eq, exec_get, modify_bind, call_bind]
  by_cases hc : g.dirStartIndex ≤ seen ∧ count < m
  · rw [if_pos hc, pageNext, if_pos hc]
    simp only [exec_modify, exec_ite, exec_call, exec_done, Bool.not_eq_true', Bool.not_eq_false]
  · rw [if_neg hc, pageNext, if_neg hc]
    simp only [exec_ite, exec_call, exec_done, Bool.not_eq_true', Bool.not_eq_false]

theorem collectLoop_callsIn (m seen count : UInt16) :
    (collectLoop m fuel seen count).CallsIn (· = .findNext) := by
  induction fuel generalizing seen count with
  | zero => trivial
  | succ fuel ih => simp [collectLoop, getFile, setFile, dosFindNext, int21, ih]

theorem collectLoop_keeps (m seen count : UInt16) :
    (collectLoop m fuel seen count).Keeps sansDir := by
  induction fuel generalizing seen count with
  | zero => trivial
  | succ fuel ih =>
    simp [collectLoop, getFile, setFile, dosFindNext, int21, ih]

theorem collectLoop_silent (m seen count : UInt16) :
    (collectLoop m fuel seen count).Silent := by
  induction fuel generalizing seen count with
  | zero => trivial
  | succ fuel ih => simp [collectLoop, getFile, setFile, dosFindNext, int21, ih]

/-- The page size of a listing, capped at 16 entries. -/
def pageLimit (g : FileTransferState) : UInt16 :=
  if 16 < g.dirMaxEntries then 16 else g.dirMaxEntries

/-- The search of a listing, between the two switches of the DTA. -/
def Collected (env : D → DosCall → DosRegs → D → Prop) (fuel : ℕ) (pattern : List UInt8)
    (g : FileTransferState) (d : D) (count : UInt16) (g' : FileTransferState) (d' : D) : Prop :=
  ∃ found d₁, env d (.findFirst pattern) found d₁ ∧
    if found.carry then count = 0 ∧ g' = g ∧ d' = d₁
    else Exec env (collectLoop (pageLimit g) fuel 0 0) (storeDta found g) d₁ [] count g' d'

/-- A listing whose path gives no pattern makes no call; otherwise it searches on its own DTA. -/
theorem exec_collectDirEntries {result : FileAckStatus × UInt16} :
    Exec env (collectDirEntries fuel) g d os result g' d' ↔ os = [] ∧
      ((buildDirPattern 133 (dirPathStr g) = none ∧ result = (.error,0) ∧ g' = g ∧ d' = d) ∨
      (∃ pattern count saved d₁ r₁ d₂ d₃ r₃, buildDirPattern 133 (dirPathStr g) = some pattern ∧
        env d .getDta saved d₁ ∧ env d₁ .setDta r₁ d₂ ∧
        Collected env fuel pattern g d₂ count g' d₃ ∧
        env d₃ (.restoreDta saved.es saved.bx) r₃ d' ∧ result = (.ok,count))) := by
  simp only [collectDirEntries, getFile, dosGetDta, dosSetDta, dosFindFirst, dosRestoreDta, int21,
    bind_eq, get_bind, pure_eq, exec_get, done_bind]
  cases buildDirPattern 133 (dirPathStr g) with
  | none => simp
  | some pattern =>
    simp only [call_bind, done_bind, exec_call, exec_ite, keep,
      exec_silent_bind (collectLoop_silent _ _ _), exec_done]
    constructor
    · rintro ⟨saved,d₁,h₁,r₁,d₂,h₂,found,d₃,h₃,
        ⟨hf,count,g₁,d₄,hl,r₄,d₅,h₄,rfl,rfl,rfl,rfl⟩ | ⟨hf,r₄,d₅,h₄,rfl,rfl,rfl,rfl⟩⟩
      · refine ⟨rfl,.inr ⟨pattern,count,saved,d₁,r₁,d₂,d₄,r₄,rfl,h₁,h₂,⟨found,d₃,h₃,?_⟩,h₄,rfl⟩⟩
        rwa [if_neg (by simpa using hf)]
      · refine ⟨rfl,.inr ⟨pattern,0,saved,d₁,r₁,d₂,d₃,r₄,rfl,h₁,h₂,⟨found,d₃,h₃,?_⟩,h₄,rfl⟩⟩
        have hf' : found.carry = true := by simpa using hf
        simp [hf', storeDta]
    · rintro ⟨rfl,⟨⟨⟩,-⟩ | ⟨_,count,saved,d₁,r₁,d₂,d₄,r₄,⟨rfl⟩,h₁,h₂,⟨found,d₃,h₃,hl⟩,h₄,rfl⟩⟩
      refine ⟨saved,d₁,h₁,r₁,d₂,h₂,found,d₃,h₃,?_⟩
      split_ifs at hl with hf
      · obtain ⟨rfl,rfl,rfl⟩ := hl
        exact .inr ⟨by simp [hf],r₄,d',h₄,rfl,rfl,by simp [hf, storeDta],rfl⟩
      · exact .inl ⟨by simpa using hf,count,g',d₄,hl,r₄,d',h₄,rfl,rfl,rfl,rfl⟩

theorem collectDirEntries_callsIn : (collectDirEntries fuel).CallsIn Searches := by
  simp only [collectDirEntries, getFile, dosGetDta, dosSetDta, dosFindFirst, dosRestoreDta, int21,
    bind_eq, get_bind, pure_eq, callsIn_get, done_bind]
  intro g
  split
  · trivial
  · have hend (saved : UInt16 × UInt16) (a : FileAckStatus × UInt16) :
        ((dosRestoreDta saved).bind fun _ => (.done a : Tsr _)).CallsIn Searches :=
      ⟨fun _ => trivial,fun _ => trivial⟩
    refine ⟨fun _ => trivial,fun _ => ⟨fun _ => trivial,fun _ => ⟨fun _ => trivial,fun r => ?_⟩⟩⟩
    refine callsIn_ite.mpr ⟨fun _ => ?_,fun _ => hend _ _⟩
    exact ((collectLoop_callsIn _ _ _).imp fun _ h => h ▸ trivial).bind fun _ => hend _ _

theorem collectDirEntries_keeps : (collectDirEntries fuel).Keeps sansDir := by
  simp only [collectDirEntries, getFile, dosGetDta, dosSetDta, dosFindFirst, dosRestoreDta, int21,
    bind_eq, get_bind, pure_eq, keeps_get, done_bind]
  intro g
  split
  · trivial
  · simp only [call_bind, done_bind, keeps_call, keeps_ite, keep, sansDir_storeDta, implies_true,
      true_and, keeps_done, and_true]
    exact fun _ _ _ _ => (collectLoop_keeps _ _ _).bind fun _ => by simp [keep]

theorem collectDirEntries_silent : (collectDirEntries fuel).Silent := by
  simp only [collectDirEntries, getFile, dosGetDta, dosSetDta, dosFindFirst, dosRestoreDta, int21,
    bind_eq, get_bind, pure_eq, silent_get, done_bind]
  intro g
  split
  · trivial
  · simp only [call_bind, done_bind, silent_call, silent_ite, implies_true, silent_done, and_true]
    exact fun _ _ _ _ => (collectLoop_silent _ _ _).bind fun _ => by simp

theorem exec_dirListDataReq :
    Exec env (idleOp mac fuel .dirListDataReq) g d os () g' d' ↔ ∃ result,
      Exec env (collectDirEntries fuel) g d [] result g' d' ∧
      os = [pageOf mac g' result.1 result.2] := by
  simp only [idleOp, idleDirListDataReq, bind_eq, exec_silent_bind collectDirEntries_silent,
    exec_sendDirListData]
  constructor
  · rintro ⟨r,g₁,d₁,h,rfl,rfl,rfl⟩
    exact ⟨r,h,rfl⟩
  · rintro ⟨r,h,rfl⟩
    exact ⟨r,g',d',h,rfl,rfl,rfl⟩


/-! More fuel changes nothing about a step that returns. -/

section Fuel
variable {more : ℕ}

theorem copyLoop_mono {hin hout : Int16} {n : UInt32} {result : Bool × UInt32} (hle : fuel ≤ more)
    (h : Exec env (copyLoop hin hout fuel n) g d os result g' d') :
    Exec env (copyLoop hin hout more n) g d os result g' d' := by
  induction fuel generalizing more n g d with
  | zero => exact h.elim
  | succ fuel ih =>
    obtain ⟨more,rfl⟩ := Nat.exists_eq_succ_of_ne_zero (by omega : more ≠ 0)
    obtain ⟨r,d₁,hr,hn | hz | ⟨hn,hz,q,d₂,hq,⟨hok,h⟩ | hf⟩⟩ := exec_copyLoop_succ.mp h
    · exact exec_copyLoop_succ.mpr ⟨r,d₁,hr,.inl hn⟩
    · exact exec_copyLoop_succ.mpr ⟨r,d₁,hr,.inr (.inl hz)⟩
    · have h' := ih (Nat.le_of_succ_le_succ hle) h
      exact exec_copyLoop_succ.mpr ⟨r,d₁,hr,.inr (.inr ⟨hn,hz,q,d₂,hq,.inl ⟨hok,h'⟩⟩)⟩
    · exact exec_copyLoop_succ.mpr ⟨r,d₁,hr,.inr (.inr ⟨hn,hz,q,d₂,hq,.inr hf⟩)⟩

theorem collectLoop_mono {m seen count n : UInt16} (hle : fuel ≤ more)
    (h : Exec env (collectLoop m fuel seen count) g d os n g' d') :
    Exec env (collectLoop m more seen count) g d os n g' d' := by
  induction fuel generalizing more seen count g d with
  | zero => exact h.elim
  | succ fuel ih =>
    obtain ⟨more,rfl⟩ := Nat.exists_eq_succ_of_ne_zero (by omega : more ≠ 0)
    obtain ⟨hlt,q,d₁,hq,⟨hc,h⟩ | hc⟩ | hend := exec_collectLoop_succ.mp h
    · have h' := ih (Nat.le_of_succ_le_succ hle) h
      exact exec_collectLoop_succ.mpr (.inl ⟨hlt,q,d₁,hq,.inl ⟨hc,h'⟩⟩)
    · exact exec_collectLoop_succ.mpr (.inl ⟨hlt,q,d₁,hq,.inr hc⟩)
    · exact exec_collectLoop_succ.mpr (.inr hend)

theorem idleOp_mono {op : FileOp} (hle : fuel ≤ more)
    (h : Exec env (idleOp mac fuel op) g d os () g' d') :
    Exec env (idleOp mac more op) g d os () g' d' := by
  cases op with
  | dirListDataReq =>
    obtain ⟨result,hc,ho⟩ := exec_dirListDataReq.mp h
    refine exec_dirListDataReq.mpr ⟨result,?_,ho⟩
    obtain ⟨-,hnone | ⟨pattern,count,saved,d₁,r₁,d₂,d₃,r₃,hp,h₁,h₂,⟨found,d₄,h₃,hl⟩,h₄⟩⟩ :=
      exec_collectDirEntries.mp hc
    · exact exec_collectDirEntries.mpr ⟨rfl,.inl hnone⟩
    · refine exec_collectDirEntries.mpr ⟨rfl,.inr ⟨pattern,count,saved,d₁,r₁,d₂,d₃,r₃,hp,h₁,h₂,
        ⟨found,d₄,h₃,?_⟩,h₄⟩⟩
      split_ifs at hl ⊢
      · exact hl
      · exact collectLoop_mono hle hl
  | copy =>
    obtain heq | ⟨hne,result,g₁,hc,hg,ho⟩ := exec_copy.mp h
    · exact exec_copy.mpr (.inl heq)
    · obtain ⟨-,r,d₁,hr,hf | ⟨hn,q,d₂,hq,hf | ⟨hn',d₃,d₄,hl,h₁,h₂⟩⟩⟩ := exec_dosCopyFile.mp hc
      · exact exec_copy.mpr (.inr ⟨hne,result,g₁,
          exec_dosCopyFile.mpr ⟨rfl,r,d₁,hr,.inl hf⟩,hg,ho⟩)
      · exact exec_copy.mpr (.inr ⟨hne,result,g₁,
          exec_dosCopyFile.mpr ⟨rfl,r,d₁,hr,.inr ⟨hn,q,d₂,hq,.inl hf⟩⟩,hg,ho⟩)
      · exact exec_copy.mpr (.inr ⟨hne,result,g₁,exec_dosCopyFile.mpr ⟨rfl,r,d₁,hr,
          .inr ⟨hn,q,d₂,hq,.inr ⟨hn',d₃,d₄,copyLoop_mono hle hl,h₁,h₂⟩⟩⟩,hg,ho⟩)
  | _ => exact h

end Fuel

end RmtDos
