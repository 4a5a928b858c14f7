import RmtDos.Lib.Interrupts
import RmtDos.Lib.Runs
import RmtDos.Server.Answer
import RmtDos.Server.PacketSpec

/-! Packets that arrive during an idle step. `process_idle` takes the operation off the record before
it calls DOS, so the handler accepts the next packet at once; the rest of the step then reads the
record as that packet has left it. -/
namespace RmtDos
open Resumable Prog Runs

/-- The packet passes the gates of the handler. -/
def Packet.Passes (p : Packet) (g : FileTransferState) : Prop :=
  p.Admitted g ∧ match p.payload with
  | .filePutData t .. => g.active = true ∧ g.mode = .put ∧ t = g.transferId
  | .filePutEnd t size => g.active = true ∧ g.mode = .put ∧ t = g.transferId ∧ size = g.size
  | .fileGetDataReq t .. | .fileGetEnd t => g.active = true ∧ g.mode = .get ∧ t = g.transferId
  | .dirListDataReq r .. => g.active = true ∧ g.mode = .dir ∧ r = g.dirRequestId
  | .dirListEnd r => r = g.dirRequestId
  | _ => True

/-- The packet comes from the client that the answer goes to. -/
def Packet.FromClient (p : Packet) (g : FileTransferState) : Prop :=
  p.srcMacAddr = g.clientMac ∧ p.sessionId = g.sessionId

/-- The operations that read the names, and those that read the chunk, behind their first call. -/
def FileOp.readsNames : FileOp → Bool
  | .putBegin | .getBegin | .mkdir | .delete | .rename | .copy => true
  | _ => false

def FileOp.readsChunk : FileOp → Bool
  | .putData | .getDataReq | .copy => true
  | _ => false

/-- A packet that passes during `op` stores again what `op` and its answer are made from. -/
def Packet.Spares (p : Packet) (op : FileOp) (g : FileTransferState) : Prop :=
  p.Passes g → match p.payload with
  | .filePutBegin t size name => p.FromClient g ∧ (op ≠ .dirListDataReq → t = g.transferId) ∧
    (op.readsNames = true → Bytes.terminate name = g.filename) ∧ (op = .getBegin → size = g.size)
  | .fileGetBegin t name | .fileMkdir t _ name | .fileDelete t _ name =>
    p.FromClient g ∧ (op ≠ .dirListDataReq → t = g.transferId) ∧
      (op.readsNames = true → Bytes.terminate name = g.filename)
  | .fileRename t source target | .fileCopy t source target =>
    p.FromClient g ∧ (op ≠ .dirListDataReq → t = g.transferId) ∧ (op.readsNames = true →
      Bytes.terminate source = g.filename ∧ Bytes.terminate target = g.target)
  | .filePutData _ offset count data => p.FromClient g ∧
    (op.readsChunk = true → offset = g.expectedOffset → count.toNat ≤ 512 →
      10+count.toNat ≤ p.payloadLen.toNat → offset = g.chunkOffset ∧ count = g.chunkCount ∧
        Bytes.overwrite g.chunk (data.take count.toNat) = g.chunk)
  | .fileGetDataReq _ offset count => p.FromClient g ∧
    (op.readsChunk = true → offset = g.chunkOffset ∧ count = g.chunkCount)
  | .filePutEnd .. | .fileGetEnd _ => p.FromClient g
  | .dirListBegin r _ => p.FromClient g ∧ (op = .dirListDataReq → r = g.dirRequestId) ∧
    (op = .getBegin → g.active = true)
  | .dirListDataReq _ start _ => p.FromClient g ∧ (op = .dirListDataReq → start = g.dirStartIndex)
  | .dirListEnd _ => (op = .dirListDataReq → g.dirRequestId = 0) ∧ (op = .getBegin → g.active = false)

/-- The records agree in all that `op` still reads. -/
structure AlikeFor (op : FileOp) (s t : FileTransferState) : Prop where
  clientMac : s.clientMac = t.clientMac
  sessionId : s.sessionId = t.sessionId
  expectedOffset : s.expectedOffset = t.expectedOffset
  handle : s.handle = t.handle
  dta : s.dta = t.dta
  dirEntries : s.dirEntries = t.dirEntries
  transferId : op ≠ .dirListDataReq → s.transferId = t.transferId
  listing : op = .dirListDataReq →
    s.dirRequestId = t.dirRequestId ∧ s.dirStartIndex = t.dirStartIndex
  names : op.readsNames = true → s.filename = t.filename ∧ s.target = t.target
  chunk : op.readsChunk = true →
    s.chunk = t.chunk ∧ s.chunkCount = t.chunkCount ∧ s.chunkOffset = t.chunkOffset
  getting : op = .getBegin → s.active = t.active ∧ s.size = t.size

variable {op : FileOp} {g s t : FileTransferState} {p : Packet} {mac : MacAddr} {fuel : ℕ}

theorem AlikeFor.refl (g : FileTransferState) : AlikeFor op g g :=
  ⟨rfl,rfl,rfl,rfl,rfl,rfl,fun _ => rfl,fun _ => ⟨rfl,rfl⟩,fun _ => ⟨rfl,rfl⟩,
    fun _ => ⟨rfl,rfl,rfl⟩,fun _ => ⟨rfl,rfl⟩⟩

theorem AlikeFor.client (h : AlikeFor op g t) (hc : p.FromClient g) : AlikeFor op (rememberClient p g) t :=
  { h with
    clientMac := hc.1.trans h.clientMac
    sessionId := hc.2.trans h.sessionId }

/-- A packet that spares the step goes unnoticed. -/
theorem AlikeFor.packet (h : AlikeFor op g t) (hp : p.Spares op g) :
    AlikeFor op (fileTransferHandlePacket p g) t := by
  rcases handlePacket_cases p g with he | ⟨hadm,he⟩
  · rwa [he]
  generalize fileTransferHandlePacket p g = g' at he ⊢
  unfold Packet.Spares Packet.Passes at hp
  cases he with
  | putBegin t' size name hpay =>
    rw [hpay] at hp
    obtain ⟨hc,hid,hname,hsize⟩ := hp ⟨hadm,trivial⟩
    exact { h.client hc with
      transferId := fun hop => (hid hop).trans (h.transferId hop)
      names := fun hop => ⟨(hname hop).trans (h.names hop).1,(h.names hop).2⟩
      getting := fun hop => ⟨(h.getting hop).1,(hsize hop).trans (h.getting hop).2⟩ }
  | reAck t' offset count data hpay ha hm ht ho =>
    rw [hpay] at hp
    obtain ⟨hc,-⟩ := hp ⟨hadm,ha,hm,ht⟩
    exact { h.client hc with
      transferId := fun hop => ht.trans (h.transferId hop) }
  | badChunk t' offset count data hpay ha hm ht ho hbad =>
    rw [hpay] at hp
    obtain ⟨hc,-⟩ := hp ⟨hadm,ha,hm,ht⟩
    exact { h.client hc with
      transferId := fun hop => ht.trans (h.transferId hop) }
  | putData t' offset count data hpay ha hm ht ho hfit =>
    rw [hpay] at hp
    obtain ⟨hc,hchunk⟩ := hp ⟨hadm,ha,hm,ht⟩
    rw [not_or, Nat.not_lt, Nat.not_lt] at hfit
    refine { h.client hc with
      chunk := fun hop => ?_ }
    obtain ⟨hoff,hcount,hdata⟩ := hchunk hop ho hfit.1 hfit.2
    obtain ⟨h₁,h₂,h₃⟩ := h.chunk hop
    exact ⟨hdata.trans h₁,hcount.trans h₂,hoff.trans h₃⟩
  | putEnd t' size hpay ha hm ht hs =>
    rw [hpay] at hp
    have hc := hp ⟨hadm,ha,hm,ht,hs⟩
    exact { h.client hc with }
  | getBegin t' name hpay =>
    rw [hpay] at hp
    obtain ⟨hc,hid,hname⟩ := hp ⟨hadm,trivial⟩
    exact { h.client hc with
      transferId := fun hop => (hid hop).trans (h.transferId hop)
      names := fun hop => ⟨(hname hop).trans (h.names hop).1,(h.names hop).2⟩ }
  | getDataReq t' offset count hpay ha hm ht =>
    rw [hpay] at hp
    obtain ⟨hc,hchunk⟩ := hp ⟨hadm,ha,hm,ht⟩
    refine { h.client hc with
      chunk := fun hop => ?_ }
    obtain ⟨hoff,hcount⟩ := hchunk hop
    obtain ⟨h₁,h₂,h₃⟩ := h.chunk hop
    exact ⟨h₁,hcount.trans h₂,hoff.trans h₃⟩
  | getEnd t' hpay ha hm ht =>
    rw [hpay] at hp
    have hc := hp ⟨hadm,ha,hm,ht⟩
    exact { h.client hc with }
  | dirListBegin r path hpay =>
    rw [hpay] at hp
    obtain ⟨hc,hid,hact⟩ := hp ⟨hadm,trivial⟩
    exact { h.client hc with
      listing := fun hop => ⟨(hid hop).trans (h.listing hop).1,(h.listing hop).2⟩
      getting := fun hop => ⟨(hact hop).symm.trans (h.getting hop).1,(h.getting hop).2⟩ }
  | dirListDataReq r start max hpay ha hm hr =>
    rw [hpay] at hp
    obtain ⟨hc,hstart⟩ := hp ⟨hadm,ha,hm,hr⟩
    exact { h.client hc with
      listing := fun hop => ⟨(h.listing hop).1,(hstart hop).trans (h.listing hop).2⟩ }
  | dirListEnd r hpay hr =>
    rw [hpay] at hp
    obtain ⟨hid,hact⟩ := hp ⟨hadm,hr⟩
    exact { h with
      listing := fun hop => ⟨(hid hop).symm.trans (h.listing hop).1,(h.listing hop).2⟩
      getting := fun hop => ⟨(hact hop).symm.trans (h.getting hop).1,(h.getting hop).2⟩ }
  | mkdir t' flags path hpay =>
    rw [hpay] at hp
    obtain ⟨hc,hid,hname⟩ := hp ⟨hadm,trivial⟩
    exact { h.client hc with
      transferId := fun hop => (hid hop).trans (h.transferId hop)
      names := fun hop => ⟨(hname hop).trans (h.names hop).1,(h.names hop).2⟩ }
  | delete t' flags path hpay =>
    rw [hpay] at hp
    obtain ⟨hc,hid,hname⟩ := hp ⟨hadm,trivial⟩
    exact { h.client hc with
      transferId := fun hop => (hid hop).trans (h.transferId hop)
      names := fun hop => ⟨(hname hop).trans (h.names hop).1,(h.names hop).2⟩ }
  | rename t' source target hpay =>
    rw [hpay] at hp
    obtain ⟨hc,hid,hname⟩ := hp ⟨hadm,trivial⟩
    exact { h.client hc with
      transferId := fun hop => (hid hop).trans (h.transferId hop)
      names := fun hop => ⟨(hname hop).1.trans (h.names hop).1,(hname hop).2.trans (h.names hop).2⟩ }
  | copy t' source target hpay =>
    rw [hpay] at hp
    obtain ⟨hc,hid,hname⟩ := hp ⟨hadm,trivial⟩
    exact { h.client hc with
      transferId := fun hop => (hid hop).trans (h.transferId hop)
      names := fun hop => ⟨(hname hop).1.trans (h.names hop).1,(hname hop).2.trans (h.names hop).2⟩ }

/-! Each operation does the same on records that agree. -/

/-- The end of a step does not matter any more; what goes on in the middle keeps the records alike. -/
abbrev Ended (_ : Unit) (_ : FileTransferState) (_ : Unit) (_ : FileTransferState) : Prop := True

abbrev Kept (op : FileOp) {α : Type} (a : α) (s : FileTransferState) (b : α) (t : FileTransferState) :
    Prop := a = b ∧ AlikeFor op s t

theorem tied_idleReply {answer : FileAckCommand × FileAckStatus} (h : AlikeFor op s t)
    (hop : op ≠ .dirListDataReq) :
    Tied (AlikeFor op) Ended (idleReply mac op answer) s (idleReply mac op answer) t := by
  simp only [idleReply, sendFileAck, getFile, pktdrvSend, bind_eq, get_bind, done_bind, tied_get,
    tied_emit, tied_done, and_true]
  rw [h.clientMac, h.sessionId, h.transferId hop, h.expectedOffset]
  by_cases hg : op = .getBegin ∧ answer.2 = .ok
  · rw [if_pos hg, if_pos hg, (h.getting hg.1).2]
  · rw [if_neg hg, if_neg hg]

theorem tied_dosCloseFile {k : Int16} (h : AlikeFor op s t) :
    Tied (AlikeFor op) (Kept op) (dosCloseFile k) s (dosCloseFile k) t := by
  rw [dosCloseFile_eq]
  split
  · exact ⟨rfl,h⟩
  · exact tied_call h (fun _ _ _ => rfl) (fun _ _ _ h => h) fun _ _ _ h => ⟨rfl,h⟩

/-- A call whose only result are its registers. -/
theorem tied_keep {α : Type} {Q : α → FileTransferState → α → FileTransferState → Prop}
    {c : FileTransferState → DosCall} {k : DosRegs → Tsr α} (h : AlikeFor op s t)
    (hc : ∀ s t, AlikeFor op s t → c s = c t)
    (hk : ∀ r s t, AlikeFor op s t → Tied (AlikeFor op) Q (k r) s (k r) t) :
    Tied (AlikeFor op) Q (.call c keep k) s (.call c keep k) t :=
  tied_call h hc (fun _ _ _ h => h) hk

theorem AlikeFor.filename (h : AlikeFor op s t) (hop : op.readsNames = true) :
    filenameStr s = filenameStr t := by
  rw [filenameStr, (h.names hop).1, filenameStr]

theorem AlikeFor.target (h : AlikeFor op s t) (hop : op.readsNames = true) :
    targetStr s = targetStr t := by
  rw [targetStr, (h.names hop).2, targetStr]

theorem AlikeFor.storeDta (h : AlikeFor op s t) (r : DosRegs) : AlikeFor op (storeDta r s) (storeDta r t) := by
  unfold RmtDos.storeDta
  split
  · exact h
  · have hd : Bytes.overwrite s.dta r.data = Bytes.overwrite t.dta r.data := by rw [h.dta]
    exact ⟨h.clientMac,h.sessionId,h.expectedOffset,h.handle,hd,h.dirEntries,h.transferId,
      h.listing,h.names,h.chunk,h.getting⟩

theorem AlikeFor.storeChunk (h : AlikeFor op s t) (r : DosRegs) :
    AlikeFor op (storeChunk r s) (storeChunk r t) := by
  unfold RmtDos.storeChunk
  split
  · exact h
  · have hd (hop : op.readsChunk = true) :
        Bytes.overwrite s.chunk r.data = Bytes.overwrite t.chunk r.data := by rw [(h.chunk hop).1]
    exact ⟨h.clientMac,h.sessionId,h.expectedOffset,h.handle,h.dta,h.dirEntries,h.transferId,
      h.listing,h.names,fun hop => ⟨hd hop,(h.chunk hop).2⟩,h.getting⟩

theorem tied_closeActive {k : Unit → Tsr Unit} (hk : ∀ s t, AlikeFor op s t →
    Tied (AlikeFor op) Ended (k ()) s (k ()) t) :
    Tied (AlikeFor op) Ended (closeActive.bind k) g (closeActive.bind k) g := by
  refine Tied.bind (Q := Kept op) ?_ fun _ s _ t h => hk s t h.2
  simp only [closeActive, getFile, bind_eq, get_bind, done_bind, tied_get]
  split
  · exact tied_dosCloseFile (.refl g)
  · exact ⟨rfl,.refl g⟩

theorem tied_putBegin :
    Tied (AlikeFor .putBegin) Ended (idleOp mac fuel .putBegin) g (idleOp mac fuel .putBegin) g := by
  simp only [idleOp, idlePutBegin, dosCreateFile_eq, setFile, bind_eq, bind_assoc, call_bind,
    done_bind, modify_bind, pure_eq]
  refine tied_closeActive fun s t h => tied_keep h (fun s t h => ?_) fun r s t h => ?_
  · rw [h.filename rfl]
  · refine tied_modify.mpr (tied_idleReply ?_ (by decide))
    exact { h with handle := rfl, expectedOffset := rfl, getting := by simp }

theorem tied_putData :
    Tied (AlikeFor .putData) Ended (idleOp mac fuel .putData) g (idleOp mac fuel .putData) g := by
  simp only [idleOp, idlePutData, dosWriteFile_eq, getFile, setFile, bind_eq, get_bind, ite_bind,
    call_bind, done_bind, modify_bind, pure_eq, tied_get]
  split
  · exact tied_idleReply (.refl g) (by decide)
  · refine tied_keep (.refl g) (fun s t h => ?_) fun r s t h => ?_
    · rw [(h.chunk rfl).1]
    · split
      · refine tied_modify.mpr (tied_idleReply ?_ (by decide))
        exact { h with expectedOffset := by rw [h.expectedOffset, (h.chunk rfl).2.1] }
      · exact tied_idleReply h (by decide)

theorem tied_putEnd :
    Tied (AlikeFor .putEnd) Ended (idleOp mac fuel .putEnd) g (idleOp mac fuel .putEnd) g := by
  simp only [idleOp, idlePutEnd, getFile, setFile, bind_eq, get_bind, bind_assoc, done_bind,
    modify_bind, pure_eq, tied_get]
  refine (tied_dosCloseFile (.refl g)).bind fun _ s _ t h => ?_
  refine tied_modify.mpr (tied_idleReply ?_ (by decide))
  exact { h.2 with handle := rfl, getting := by simp }

theorem tied_ack : Tied (AlikeFor .ack) Ended (idleOp mac fuel .ack) g (idleOp mac fuel .ack) g := by
  simp only [idleOp, idleAck, getFile, setFile, bind_eq, get_bind, done_bind, modify_bind, pure_eq,
    tied_get, tied_modify]
  exact tied_idleReply (.refl _) (by decide)

theorem tied_getEnd :
    Tied (AlikeFor .getEnd) Ended (idleOp mac fuel .getEnd) g (idleOp mac fuel .getEnd) g := by
  simp only [idleOp, idleGetEnd, getFile, setFile, bind_eq, get_bind, bind_assoc, done_bind,
    modify_bind, pure_eq, tied_get]
  refine (tied_dosCloseFile (.refl g)).bind fun _ s _ t h => ?_
  refine tied_modify.mpr (tied_idleReply ?_ (by decide))
  exact { h.2 with handle := rfl, getting := by simp }

theorem tied_mkdir : Tied (AlikeFor .mkdir) Ended (idleOp mac fuel .mkdir) g (idleOp mac fuel .mkdir) g := by
  simp only [idleOp, idleMkdir, dosMkdir, dosPathCall_eq, bind_eq, call_bind, done_bind, pure_eq]
  refine tied_keep (.refl g) (fun s t h => ?_) fun r s t h => tied_idleReply h (by decide)
  rw [h.filename rfl]

theorem tied_delete :
    Tied (AlikeFor .delete) Ended (idleOp mac fuel .delete) g (idleOp mac fuel .delete) g := by
  simp only [idleOp, idleDelete, dosRmdir, dosUnlink, dosPathCall_eq, getFile, bind_eq, get_bind,
    ite_bind, call_bind, done_bind, pure_eq, tied_get]
  split
  · refine tied_keep (.refl g) (fun s t h => ?_) fun r s t h => tied_idleReply h (by decide)
    rw [h.filename rfl]
  · refine tied_keep (.refl g) (fun s t h => ?_) fun r s t h => tied_idleReply h (by decide)
    rw [h.filename rfl]

theorem tied_rename :
    Tied (AlikeFor .rename) Ended (idleOp mac fuel .rename) g (idleOp mac fuel .rename) g := by
  simp only [idleOp, idleRename, dosRename, dosPathCall_eq, getFile, bind_eq, get_bind, ite_bind,
    call_bind, done_bind, pure_eq, tied_get]
  split
  · exact tied_idleReply (.refl g) (by decide)
  · refine tied_keep (.refl g) (fun s t h => ?_) fun r s t h => tied_idleReply h (by decide)
    rw [h.filename rfl, h.target rfl]

theorem tied_dosFindFirst {α : Type} {Q : α → FileTransferState → α → FileTransferState → Prop}
    {c : FileTransferState → DosCall} {k : DosRegs → Tsr α} (h : AlikeFor op s t)
    (hc : ∀ s t, AlikeFor op s t → c s = c t)
    (hk : ∀ r s t, AlikeFor op s t → Tied (AlikeFor op) Q (k r) s (k r) t) :
    Tied (AlikeFor op) Q (.call c storeDta k) s (.call c storeDta k) t :=
  tied_call h hc (fun _ _ r h => h.storeDta r) hk

theorem tied_dosGetFileSize (h : AlikeFor .getBegin s t) :
    Tied (AlikeFor .getBegin) (Kept .getBegin) dosGetFileSize s dosGetFileSize t := by
  simp only [dosGetFileSize, dosGetDta, dosSetDta, dosFindFirst, dosRestoreDta, int21, getFile,
    bind_eq, get_bind, call_bind, done_bind, pure_eq]
  refine tied_keep h (fun _ _ _ => rfl) fun saved s t h => ?_
  refine tied_keep h (fun _ _ _ => rfl) fun _ s t h => ?_
  refine tied_dosFindFirst h (fun s t h => by rw [h.filename rfl]) fun r s t h => ?_
  split
  · rw [tied_get, h.dta]
    exact tied_keep h (fun _ _ _ => rfl) fun _ s t h => ⟨rfl,h⟩
  · exact tied_keep h (fun _ _ _ => rfl) fun _ s t h => ⟨rfl,h⟩

theorem tied_getBeginEnd (h : AlikeFor .getBegin s t) :
    Tied (AlikeFor .getBegin) Ended (getBeginEnd.bind (idleReply mac .getBegin)) s
      (getBeginEnd.bind (idleReply mac .getBegin)) t := by
  simp only [getBeginEnd, getFile, setFile, bind_eq, get_bind, ite_bind, bind_assoc, done_bind,
    modify_bind, pure_eq, tied_get]
  rw [(h.getting rfl).1, h.handle]
  split
  · exact tied_idleReply h (by decide)
  · refine (tied_dosCloseFile h).bind fun _ s _ t h => ?_
    refine tied_modify.mpr (tied_idleReply ?_ (by decide))
    exact { h.2 with handle := rfl }

theorem AlikeFor.getSized (h : AlikeFor .getBegin s t) (size : UInt32) :
    AlikeFor .getBegin (getSized size s) (getSized size t) := by
  unfold RmtDos.getSized
  split
  · exact { h with getting := fun _ => ⟨rfl,rfl⟩ }
  · exact { h with getting := fun hop => ⟨(h.getting hop).1,rfl⟩ }

theorem tied_getBegin :
    Tied (AlikeFor .getBegin) Ended (idleOp mac fuel .getBegin) g (idleOp mac fuel .getBegin) g := by
  simp only [idleOp, idleGetBegin, dosOpenReadFile_eq, setFile, bind_eq, bind_assoc, call_bind,
    done_bind, modify_bind, ite_bind]
  refine tied_closeActive fun s t h => tied_keep h (fun s t h => ?_) fun r s t h => ?_
  · rw [h.filename rfl]
  have hr : AlikeFor .getBegin (getReset (handleOf r) s) (getReset (handleOf r) t) :=
    { h with handle := rfl, expectedOffset := rfl, getting := fun _ => ⟨rfl,rfl⟩ }
  refine tied_modify.mpr ?_
  split
  · refine (tied_dosGetFileSize hr).bind fun size s _ t h => ?_
    obtain ⟨rfl,h⟩ := h
    exact tied_modify.mpr (tied_getBeginEnd (h.getSized size))
  · exact tied_getBeginEnd hr

theorem AlikeFor.noChunk (h : AlikeFor .getDataReq s t) : AlikeFor .getDataReq (noChunk s) (noChunk t) :=
  { h with chunk := fun hop => ⟨(h.chunk hop).1,rfl,(h.chunk hop).2.2⟩ }

theorem AlikeFor.chunkRead (h : AlikeFor .getDataReq s t) (n : UInt16) :
    AlikeFor .getDataReq (chunkRead n s) (chunkRead n t) := by
  obtain ⟨hd,-,ho⟩ := h.chunk rfl
  have hoff : s.chunkOffset+n.toUInt32 = t.chunkOffset+n.toUInt32 := by rw [ho]
  exact { h with expectedOffset := hoff, chunk := fun _ => ⟨hd,rfl,ho⟩ }

theorem tied_sendFileGetData {status : FileAckStatus} (h : AlikeFor .getDataReq s t) :
    Tied (AlikeFor .getDataReq) Ended (sendFileGetData mac status) s (sendFileGetData mac status) t := by
  have hsend {s t : FileTransferState} (h : AlikeFor .getDataReq s t) :
      dataOf mac s status = dataOf mac t status := by
    obtain ⟨hd,hn,ho⟩ := h.chunk rfl
    rw [dataOf, dataOf, h.clientMac, h.sessionId, h.transferId (by decide), hd, hn, ho]
  by_cases hok : status = .ok
  · have hs := hsend h
    simp only [sendFileGetData, getFile, pktdrvSend, bind_eq, get_bind, done_bind, pure_eq,
      if_pos hok, tied_get, tied_emit, tied_done, and_true]
    exact hs
  · have hs := hsend h.noChunk
    simp only [sendFileGetData, getFile, setFile, pktdrvSend, bind_eq, get_bind, modify_bind,
      done_bind, pure_eq, if_neg hok, tied_get, tied_modify, tied_emit, tied_done, and_true]
    exact hs

theorem tied_getDataReq :
    Tied (AlikeFor .getDataReq) Ended (idleOp mac fuel .getDataReq) g (idleOp mac fuel .getDataReq) g := by
  simp only [idleOp, idleGetDataReq, getFile, setFile, dosSeekFile_eq, dosReadFile_eq, bind_eq,
    get_bind, call_bind, modify_bind, done_bind, pure_eq, tied_get]
  split
  · rw [if_pos trivial]
    exact tied_modify.mpr (tied_sendFileGetData (AlikeFor.refl g).noChunk)
  refine tied_keep (.refl g) (fun _ _ _ => rfl) fun r s t h => ?_
  split
  · exact tied_modify.mpr (tied_sendFileGetData h.noChunk)
  rw [tied_get, h.handle, (h.chunk rfl).2.1]
  refine tied_call h (fun _ _ _ => rfl) (fun _ _ q h => h.storeChunk q) fun q s t h => ?_
  split
  · exact tied_modify.mpr (tied_sendFileGetData h.noChunk)
  · exact tied_modify.mpr (tied_sendFileGetData (h.chunkRead _))

theorem tied_collectLoop {m seen count : UInt16} (h : AlikeFor .dirListDataReq s t) :
    Tied (AlikeFor .dirListDataReq) (Kept .dirListDataReq) (collectLoop m fuel seen count) s
      (collectLoop m fuel seen count) t := by
  induction fuel generalizing seen count s t with
  | zero => trivial
  | succ fuel ih =>
    have hnext {n : UInt16} {s t : FileTransferState} (h : AlikeFor .dirListDataReq s t) :
        Tied (AlikeFor .dirListDataReq) (Kept .dirListDataReq)
          (if n < m then .call (fun _ => .findNext) storeDta fun r =>
            if (!r.carry) = true then collectLoop m fuel (seen+1) n else .done n else .done n) s
          (if n < m then .call (fun _ => .findNext) storeDta fun r =>
            if (!r.carry) = true then collectLoop m fuel (seen+1) n else .done n else .done n) t := by
      split
      · refine tied_dosFindFirst h (fun _ _ _ => rfl) fun r s t h => ?_
        split
        · exact ih h
        · exact ⟨rfl,h⟩
      · exact ⟨rfl,h⟩
    simp only [collectLoop, getFile, setFile, dosFindNext, int21, bind_eq, get_bind, call_bind,
      modify_bind, done_bind, pure_eq, tied_get]
    rw [(h.listing rfl).2]
    split
    · refine tied_modify.mpr (hnext ?_)
      have hentries : s.dirEntries.setIfInBounds count.toNat (dtaEntry s.dta) =
          t.dirEntries.setIfInBounds count.toNat (dtaEntry t.dta) := by
        rw [h.dirEntries, h.dta]
      exact ⟨h.clientMac,h.sessionId,h.expectedOffset,h.handle,h.dta,hentries,h.transferId,
        h.listing,h.names,h.chunk,h.getting⟩
    · exact hnext h

theorem tied_collectDirEntries :
    Tied (AlikeFor .dirListDataReq) (Kept .dirListDataReq) (collectDirEntries fuel) g
      (collectDirEntries fuel) g := by
  simp only [collectDirEntries, getFile, dosGetDta, dosSetDta, dosFindFirst, dosRestoreDta, int21,
    bind_eq, get_bind, pure_eq, done_bind, tied_get]
  cases buildDirPattern 133 (dirPathStr g) with
  | none => exact ⟨rfl,.refl g⟩
  | some pattern =>
    simp only [call_bind, done_bind]
    refine tied_keep (.refl g) (fun _ _ _ => rfl) fun saved s t h => ?_
    refine tied_keep h (fun _ _ _ => rfl) fun _ s t h => ?_
    refine tied_dosFindFirst h (fun _ _ _ => rfl) fun r s t h => ?_
    split
    · refine (tied_collectLoop h).bind fun n s _ t h => ?_
      obtain ⟨rfl,h⟩ := h
      exact tied_keep h (fun _ _ _ => rfl) fun _ s t h => ⟨rfl,h⟩
    · exact tied_keep h (fun _ _ _ => rfl) fun _ s t h => ⟨rfl,h⟩

theorem tied_dirListDataReq :
    Tied (AlikeFor .dirListDataReq) Ended (idleOp mac fuel .dirListDataReq) g
      (idleOp mac fuel .dirListDataReq) g := by
  simp only [idleOp, idleDirListDataReq, bind_eq]
  refine tied_collectDirEntries.bind fun result s _ t h => ?_
  obtain ⟨rfl,h⟩ := h
  simp only [sendDirListData, getFile, pktdrvSend, bind_eq, get_bind, done_bind, tied_get, tied_emit,
    tied_done, and_true]
  rw [h.clientMac, h.sessionId, (h.listing rfl).1, (h.listing rfl).2, h.dirEntries]

theorem tied_copyLoop {hin hout : Int16} {n : UInt32} (h : AlikeFor .copy s t) :
    Tied (AlikeFor .copy) (Kept .copy) (copyLoop hin hout fuel n) s (copyLoop hin hout fuel n) t := by
  induction fuel generalizing n s t with
  | zero => trivial
  | succ fuel ih =>
    simp only [copyLoop, dosReadFile_eq, dosWriteFile_eq, bind_eq, call_bind, done_bind, pure_eq]
    refine tied_call h (fun _ _ _ => rfl) (fun _ _ q h => h.storeChunk q) fun r s t h => ?_
    split
    · exact ⟨rfl,h⟩
    split
    · exact ⟨rfl,h⟩
    refine tied_keep h (fun s t h => by rw [(h.chunk rfl).1]) fun q s t h => ?_
    split
    · exact ih h
    · exact ⟨rfl,h⟩

theorem tied_dosCopyFile (h : AlikeFor .copy s t) :
    Tied (AlikeFor .copy) (Kept .copy) (dosCopyFile fuel) s (dosCopyFile fuel) t := by
  have hclose {a : Bool × UInt32} {j k : Int16} {s t : FileTransferState} (h : AlikeFor .copy s t) :
      Tied (AlikeFor .copy) (Kept .copy)
        ((dosCloseFile j).bind fun _ => (dosCloseFile k).bind fun _ => .done a) s
        ((dosCloseFile j).bind fun _ => (dosCloseFile k).bind fun _ => .done a) t :=
    (tied_dosCloseFile h).bind fun _ _ _ _ h => (tied_dosCloseFile h.2).bind fun _ _ _ _ h =>
      ⟨rfl,h.2⟩
  simp only [dosCopyFile, dosOpenReadFile_eq, dosCreateFile_eq, bind_eq, call_bind, done_bind,
    pure_eq]
  refine tied_keep h (fun s t h => by rw [h.filename rfl]) fun r s t h => ?_
  split
  · exact hclose h
  refine tied_keep h (fun s t h => by rw [h.target rfl]) fun q s t h => ?_
  split
  · exact hclose h
  refine (tied_copyLoop h).bind fun result s _ t h => ?_
  obtain ⟨rfl,h⟩ := h
  exact hclose h

theorem tied_copy : Tied (AlikeFor .copy) Ended (idleOp mac fuel .copy) g (idleOp mac fuel .copy) g := by
  have hend (result : Bool × UInt32) {s t : FileTransferState} (h : AlikeFor .copy s t) :
      Tied (AlikeFor .copy) Ended
        (idleReply mac .copy (.copy,statusOf result.1)) { s with expectedOffset := result.2 }
        (idleReply mac .copy (.copy,statusOf result.1)) { t with expectedOffset := result.2 } :=
    tied_idleReply { h with expectedOffset := rfl } nofun
  simp only [idleOp, idleCopy, getFile, setFile, bind_eq, get_bind, modify_bind, done_bind, pure_eq,
    ite_bind, bind_assoc, tied_get]
  split
  · exact tied_modify.mpr (hend (false,0) (.refl g))
  · refine (tied_dosCopyFile (.refl g)).bind fun result s _ t h => ?_
    obtain ⟨rfl,h⟩ := h
    exact tied_modify.mpr (hend result h)

/-- Every operation, begun on one record. -/
theorem tied_idleOp : Tied (AlikeFor op) Ended (idleOp mac fuel op) g (idleOp mac fuel op) g := by
  cases op with
  | none => trivial
  | putBegin => exact tied_putBegin
  | putData => exact tied_putData
  | putEnd => exact tied_putEnd
  | ack => exact tied_ack
  | getBegin => exact tied_getBegin
  | getDataReq => exact tied_getDataReq
  | getEnd => exact tied_getEnd
  | dirListDataReq => exact tied_dirListDataReq
  | mkdir => exact tied_mkdir
  | delete => exact tied_delete
  | rename => exact tied_rename
  | copy => exact tied_copy

/-! Runs with packets between the idle steps and during them. -/

/-- A packet between the steps, or an idle step: its calls, the frames that it sends, and the packets
that arrive during it, each with the record that it meets. -/
inductive InterruptEvent
  | packet (p : Packet)
  | idle (log : List (DosCall × DosRegs)) (sent : List Reply)
      (arrived : List (FileTransferState × Packet))

section Runs
variable {D : Type} (env : D → DosCall → DosRegs → D → Prop) (mac : MacAddr)

/-- The server over any behaviour of DOS; the handler runs before and behind every call. -/
def InterruptedStep (s : FileTransferState × D) : InterruptEvent → FileTransferState × D → Prop
  | .packet p, s' => s' = (fileTransferHandlePacket p s.1,s.2)
  | .idle log sent arrived, s' => ∃ fuel,
    ExecInt fileTransferHandlePacket (Logged env) (fileTransferProcessIdle mac fuel) s.1 (s.2,[])
      arrived sent () s'.1 (s'.2,log)

/-- The packets that arrive during a step spare it. -/
def RepliesSpared (s : FileTransferState × D) : InterruptEvent → Prop
  | .packet _ => True
  | .idle _ _ arrived => ∀ x ∈ arrived, x.2.Spares s.1.pendingOp x.1

/-- The frames are those of the operation taken up: undisturbed on the record as it was then, it makes
the same calls and for the same replies sends the same. They go to the client of the request with its
session and id, and answer what it asked for. -/
def AnswersClient (s : FileTransferState × D) : InterruptEvent → Prop
  | .packet _ => True
  | .idle log sent _ =>
    (∃ fuel g', Exec Scripted (fileTransferProcessIdle mac fuel) s.1 log sent () g' []) ∧
      ∀ a ∈ sent, a.destMacAddr = s.1.clientMac ∧ a.sessionId = s.1.sessionId ∧
        AnswerBody s.1 s.1.pendingOp a.body

variable {env} {mac} {s s' : FileTransferState × D} {e : InterruptEvent}

theorem AnswerBody.of_taken {op : FileOp} {body : ReplyBody} (h : AnswerBody g.taken op body) :
    AnswerBody g op body := by
  cases h with
  | ack hc status offset =>
    have hsame : ackCommandOf g op = ackCommandOf g.taken op := by cases op <;> rfl
    exact .ack (hsame.trans hc) status offset
  | data hop => exact .data hop _ _ _
  | page hop => exact .page hop _ _ _

/-- One step: what spares it goes unnoticed. -/
theorem answers_step (h : InterruptedStep env mac s e s') (hs : RepliesSpared s e) :
    AnswersClient mac s e := by
  obtain ⟨g,d⟩ := s
  cases e with
  | packet p => trivial
  | idle log sent arrived =>
    obtain ⟨fuel,hx⟩ := h
    by_cases hop : g.pendingOp = .none
    · simp only [fileTransferProcessIdle, getFile, bind_eq, get_bind, done_bind, pure_eq, ExecInt,
        if_pos hop] at hx
      obtain ⟨-,rfl,-,-,hd⟩ := hx
      obtain rfl : log = [] := (Prod.mk.inj hd).2
      exact ⟨⟨fuel,g,exec_idle.mpr (.inl ⟨hop,rfl,rfl,rfl⟩)⟩,by simp⟩
    · simp only [fileTransferProcessIdle, getFile, setFile, bind_eq, get_bind, modify_bind, done_bind,
        pure_eq, ExecInt, if_neg hop] at hx
      obtain ⟨log',_,g',hl,hx',-⟩ := tied_idleOp.exec hx
        fun x hx t ht => ht.packet (hs x hx)
      obtain rfl : log = log' := hl
      refine ⟨⟨fuel,g',exec_idle.mpr (.inr ⟨hop,hx'⟩)⟩,fun a ha => ?_⟩
      obtain ⟨-,payloadLen,body,rfl,hbody⟩ := idleOp_answer hop hx'
      obtain rfl := List.mem_singleton.mp ha
      exact ⟨rfl,rfl,hbody.of_taken⟩

/-- In every run, the steps that are spared by the packets arriving during them answer the request
that they took up. -/
theorem answers_of_spared {tr : List (InterruptEvent × (FileTransferState × D))}
    (hrun : Run (InterruptedStep env mac) s tr) (hs : Along RepliesSpared s tr) :
    Along (AnswersClient mac) s tr :=
  hrun.along_imp (fun _ _ _ => answers_step) hs

end Runs

/-! A directory is made for one client, and a packet comes in before the answer is sent. -/

def mkdirPacket (client : UInt8) (name : UInt8) : Packet :=
  ⟨Vector.replicate 6 client,client.toUInt32,72,
    .fileMkdir client.toUInt32 0 (Vector.replicate 64 name)⟩

/-- The record with the directory `A` of client 1 to be made. -/
def mkdirQueued : FileTransferState := fileTransferHandlePacket (mkdirPacket 1 0x41) fileTransferInit

/-- DOS that makes every directory. -/
def MakesAll (_ : Unit) (_ : DosCall) (r : DosRegs) (_ : Unit) : Prop := r = ⟨false,0,0,0,0,[]⟩

def mkdirLog : List (DosCall × DosRegs) := [(.mkdir (filenameStr mkdirQueued),⟨false,0,0,0,0,[]⟩)]

/-- The step, when `p` arrives behind the call. -/
def mkdirRun (p : Packet) : List (InterruptEvent × (FileTransferState × Unit)) :=
  let g := fileTransferHandlePacket p mkdirQueued.taken
  [(.packet (mkdirPacket 1 0x41),mkdirQueued,()),
    (.idle mkdirLog [ackOf (Vector.replicate 6 0) g .mkdir .ok g.expectedOffset]
      [(mkdirQueued.taken,p)],g,())]

theorem mkdirRun_run (p : Packet) :
    Run (InterruptedStep MakesAll (Vector.replicate 6 0)) (fileTransferInit,()) (mkdirRun p) := by
  refine .cons rfl (.cons ⟨0,?_⟩ (.nil _))
  have hop : mkdirQueued.pendingOp = .mkdir := rfl
  simp only [fileTransferProcessIdle, getFile, setFile, bind_eq, get_bind, modify_bind, done_bind,
    pure_eq, ExecInt, hop, reduceCtorEq, if_false, idleOp, idleMkdir, dosMkdir, dosPathCall_eq,
    call_bind, idleReply, sendFileAck, pktdrvSend]
  exact ⟨[],⟨false,0,0,0,0,[]⟩,((),mkdirLog),[p],[],⟨rfl,rfl⟩,⟨[],rfl,rfl,rfl,trivial,rfl,rfl⟩,rfl⟩

/-- The client sends its own request once more: the answer is its own. -/
theorem answers_of_spared_again :
    Along (AnswersClient (Vector.replicate 6 0)) (fileTransferInit,()) (mkdirRun (mkdirPacket 1 0x41)) := by
  refine answers_of_spared (mkdirRun_run _) ⟨trivial,fun x hx => ?_,trivial⟩
  obtain rfl := List.mem_singleton.mp hx
  exact fun _ => ⟨⟨rfl,rfl⟩,fun _ => rfl,fun _ => rfl⟩

/-- Another client asks for a directory of its own: it is told that this one is made. -/
theorem answer_misdirected :
    Run (InterruptedStep MakesAll (Vector.replicate 6 0)) (fileTransferInit,())
        (mkdirRun (mkdirPacket 2 0x42)) ∧
      ¬ Along (AnswersClient (Vector.replicate 6 0)) (fileTransferInit,()) (mkdirRun (mkdirPacket 2 0x42)) := by
  refine ⟨mkdirRun_run _,fun h => ?_⟩
  have hmac := (h.2.1.2 _ List.mem_cons_self).1
  exact absurd hmac (by decide)

end RmtDos
