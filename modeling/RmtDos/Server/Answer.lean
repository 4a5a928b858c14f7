import RmtDos.Server.IdleSpec

/-! What the answer of an idle step carries over from the record: the address and session of the
client, the ids, and the position that was asked for. -/
namespace RmtDos
open Resumable Prog

/-- The command of an acknowledgement; two operations answer with data. -/
def ackCommandOf (g : FileTransferState) : FileOp → Option FileAckCommand
  | .putBegin | .getBegin => some .begin
  | .putData => some .data
  | .putEnd | .getEnd => some .end
  | .ack => some g.ackCommand
  | .mkdir => some .mkdir
  | .delete => some .delete
  | .rename => some .rename
  | .copy => some .copy
  | .none | .getDataReq | .dirListDataReq => none

/-- What an operation on the record can answer with. -/
inductive AnswerBody (g : FileTransferState) (op : FileOp) : ReplyBody → Prop
  | ack {command : FileAckCommand} (hc : ackCommandOf g op = some command)
      (status : FileAckStatus) (offset : UInt32) :
      AnswerBody g op (.fileAck g.transferId command status offset)
  | data (hop : op = .getDataReq) (count : UInt16) (status : FileAckStatus) (data : List UInt8) :
      AnswerBody g op (.fileGetData g.transferId g.chunkOffset count status data)
  | page (hop : op = .dirListDataReq) (count : UInt16) (status : FileAckStatus)
      (entries : List DirListEntry) :
      AnswerBody g op (.dirListData g.dirRequestId g.dirStartIndex count status entries)

/-- What no operation changes. -/
def lasting (g : FileTransferState) :=
  (g.transferId,g.pendingOp,g.clientMac,g.sessionId,g.dirRequestId,g.dirPath)

variable {D : Type} {env : D → DosCall → DosRegs → D → Prop} {mac : MacAddr} {fuel : ℕ}
  {g g' : FileTransferState} {d d' : D} {os : List Reply} {op : FileOp}

/-- An operation answers its client with one frame, and keeps the ids. -/
theorem idleOp_answer (hop : op ≠ .none) (h : Exec env (idleOp mac fuel op) g d os () g' d') :
    lasting g' = lasting g ∧ ∃ payloadLen body,
      os = [⟨g.clientMac,mac,g.sessionId,payloadLen,body⟩] ∧ AnswerBody g op body := by
  cases op with
  | none => exact absurd rfl hop
  | putBegin =>
    obtain ⟨d₁,r,-,-,rfl,rfl⟩ := exec_putBegin.mp h
    exact ⟨rfl,_,_,rfl,.ack rfl _ _⟩
  | putData =>
    obtain ⟨-,-,rfl,rfl⟩ | ⟨-,r,-,⟨-,rfl,rfl⟩ | ⟨-,rfl,rfl⟩⟩ := exec_putData.mp h
    · exact ⟨rfl,_,_,rfl,.ack rfl _ _⟩
    · exact ⟨rfl,_,_,rfl,.ack rfl _ _⟩
    · exact ⟨rfl,_,_,rfl,.ack rfl _ _⟩
  | putEnd =>
    obtain ⟨-,rfl,rfl⟩ := exec_putEnd.mp h
    exact ⟨rfl,_,_,rfl,.ack rfl _ _⟩
  | ack =>
    obtain ⟨-,rfl,rfl⟩ := exec_ack.mp h
    exact ⟨rfl,_,_,rfl,.ack rfl _ _⟩
  | getBegin =>
    obtain ⟨d₁,r,d₂,-,-,⟨-,-,rfl,rfl⟩ | ⟨-,found,d₃,-,⟨-,-,rfl,rfl⟩ | ⟨-,-,rfl,rfl⟩⟩⟩ :=
      exec_getBegin.mp h
    · exact ⟨rfl,_,_,rfl,.ack rfl _ _⟩
    · rw [eq_of_sansDir (sansDir_storeDta found)]
      exact ⟨rfl,_,_,rfl,.ack rfl _ _⟩
    · rw [eq_of_sansDir (sansDir_storeDta found)]
      exact ⟨rfl,_,_,rfl,.ack rfl _ _⟩
  | getDataReq =>
    obtain ⟨-,-,rfl,rfl⟩ | ⟨-,r,d₁,-,⟨-,-,rfl,rfl⟩ | ⟨-,q,-,⟨-,rfl,rfl⟩ | ⟨-,rfl,rfl⟩⟩⟩ :=
      exec_getDataReq.mp h
    · exact ⟨rfl,_,_,rfl,.data rfl _ _ _⟩
    · exact ⟨rfl,_,_,rfl,.data rfl _ _ _⟩
    · rw [eq_of_sansChunk (sansChunk_storeChunk q)]
      exact ⟨rfl,_,_,rfl,.data rfl _ _ _⟩
    · rw [eq_of_sansChunk (sansChunk_storeChunk q)]
      exact ⟨rfl,_,_,rfl,.data rfl _ _ _⟩
  | getEnd =>
    obtain ⟨-,rfl,rfl⟩ := exec_getEnd.mp h
    exact ⟨rfl,_,_,rfl,.ack rfl _ _⟩
  | dirListDataReq =>
    obtain ⟨result,hs,rfl⟩ := exec_dirListDataReq.mp h
    rw [eq_of_sansDir (hs.keeps collectDirEntries_keeps)]
    exact ⟨rfl,_,_,rfl,.page rfl _ _ _⟩
  | mkdir =>
    obtain ⟨r,-,rfl,rfl⟩ := exec_mkdir.mp h
    exact ⟨rfl,_,_,rfl,.ack rfl _ _⟩
  | delete =>
    obtain ⟨r,-,rfl,rfl⟩ := exec_delete.mp h
    exact ⟨rfl,_,_,rfl,.ack rfl _ _⟩
  | rename =>
    obtain ⟨-,-,rfl,rfl⟩ | ⟨-,r,-,rfl,rfl⟩ := exec_rename.mp h
    · exact ⟨rfl,_,_,rfl,.ack rfl _ _⟩
    · exact ⟨rfl,_,_,rfl,.ack rfl _ _⟩
  | copy =>
    obtain ⟨-,-,rfl,rfl⟩ | ⟨-,result,g₁,hs,rfl,rfl⟩ := exec_copy.mp h
    · exact ⟨rfl,_,_,rfl,.ack rfl _ _⟩
    · rw [eq_of_sansChunk (hs.keeps dosCopyFile_keeps)]
      exact ⟨rfl,_,_,rfl,.ack rfl _ _⟩

end RmtDos
