import RmtDos.Server.OpenHandle

/-! Whether an operation of another client disturbs an active upload. The next request of the
upload is served from two states, with and without the other operation, and what it leads to is
compared: the operation accepted, what is behind the upload's handle afterwards, and the frames
sent. -/
namespace RmtDos
open Resumable Prog Runs Dos

variable {F : Type} [DecidableEq F] (resolve : List UInt8 → F) (mac : MacAddr)

/-- A server state: the record and DOS. -/
abbrev TsrState (F : Type) := FileTransferState × Files F

/-- What serving a request leads to. -/
structure Outcome (F : Type) where
  accepted : FileOp
  behind : Option (F × ℕ × List UInt8)
  sent : List Reply

/-- A request and the idle step after it, watched through the handle `h`. -/
def Served (s : TsrState F) (r : Packet) (h : UInt16) (o : Outcome F) : Prop :=
  ∃ sent s', TsrStep (Step resolve) mac (fileTransferHandlePacket r s.1,s.2) (.idle sent) s' ∧
    o = ⟨(fileTransferHandlePacket r s.1).pendingOp,s'.2.view h,sent⟩

/-- The requests that continue or end the upload `t`; a receive buffer always has room for a
whole chunk behind the header. -/
def NextRequest (t : UInt32) (r : Packet) : Prop :=
  (∃ offset count data, r.payload = .filePutData t offset count data ∧ 512 ≤ data.length) ∨
    ∃ size, r.payload = .filePutEnd t size

/-- With the packet `q` before the idle step the next request of the upload leads to the same
outcomes as without it. -/
def Undisturbed (s : TsrState F) (q : Packet) : Prop :=
  ∀ r, NextRequest s.1.transferId r → ∀ o,
    (∃ sent s₁, TsrStep (Step resolve) mac (fileTransferHandlePacket q s.1,s.2) (.idle sent) s₁ ∧
      Served resolve mac s₁ r s.1.handle.toUInt16 o) ↔
    ∃ sent s₁, TsrStep (Step resolve) mac s (.idle sent) s₁ ∧
      Served resolve mac s₁ r s.1.handle.toUInt16 o

/-- The directory and path operations. -/
def IndependentOp (q : Packet) : Prop :=
  match q.payload with
  | .dirListBegin .. | .dirListDataReq .. | .dirListEnd .. | .fileMkdir .. | .fileDelete ..
  | .fileRename .. | .fileCopy .. => True
  | _ => False

/-- The files a path operation names. -/
def pathsOf (q : Packet) : List (List UInt8) :=
  match q.payload with
  | .fileMkdir _ _ path | .fileDelete _ _ path => [nameOf path]
  | .fileRename _ source target | .fileCopy _ source target => [nameOf source,nameOf target]
  | _ => []

/-- No path of the operation stands for the file behind the handle of the upload. -/
def OtherFiles (s : TsrState F) (q : Packet) : Prop :=
  ∀ x, s.2.handles s.1.handle.toUInt16 = some x → ∀ name ∈ pathsOf q, resolve name ≠ x.1

/-- The operations that leave the upload alone: the packet is dropped, or it asks for a page
or ends a listing when there is no such listing, or it is a path operation that carries the
upload's own transfer id and leaves its offset as it is. -/
def Harmless (s : TsrState F) (q : Packet) : Prop :=
  q.Admitted s.1 →
    match q.payload with
    | .dirListBegin .. => False
    | .dirListEnd r => r ≠ s.1.dirRequestId
    | .fileMkdir t .. | .fileDelete t .. | .fileRename t .. => t = s.1.transferId
    | .fileCopy t source target =>
      t = s.1.transferId ∧ s.1.expectedOffset = 0 ∧
        (dosPathEqual (nameOf source) (nameOf target) ∨
          ¬ CanCopy resolve s.2 (nameOf source) (nameOf target))
    | _ => True

/-- Two records that differ only in fields the requests of an upload set or do not read. -/
def Alike (g₁ g₂ : FileTransferState) : Prop :=
  ∃ clientMac sessionId filename target pathOpFlags chunk, g₁ = { g₂ with
    clientMac := clientMac, sessionId := sessionId, filename := filename, target := target
    pathOpFlags := pathOpFlags, chunk := chunk }

theorem Alike.symm {g₁ g₂ : FileTransferState} (h : Alike g₁ g₂) : Alike g₂ g₁ := by
  obtain ⟨_,_,_,_,_,_,rfl⟩ := h
  exact ⟨g₂.clientMac,g₂.sessionId,g₂.filename,g₂.target,g₂.pathOpFlags,g₂.chunk,rfl⟩

variable {resolve} {mac} {g g₁ : FileTransferState} {d d₁ : Files F} {s s' : TsrState F}
  {sent : List Reply} {r q : Packet} {o : Outcome F} {h : UInt16}

/-- Two records with the same operation of an upload pending, equal in all that it reads. -/
structure SamePending (gA gB : FileTransferState) : Prop where
  op : gA.pendingOp = gB.pendingOp
  upload : gB.pendingOp = .ack ∨ gB.pendingOp = .putData ∨ gB.pendingOp = .putEnd
  clientMac : gA.clientMac = gB.clientMac
  sessionId : gA.sessionId = gB.sessionId
  transferId : gA.transferId = gB.transferId
  expectedOffset : gA.expectedOffset = gB.expectedOffset
  size : gA.size = gB.size
  handle : gA.handle = gB.handle
  chunkOffset : gA.chunkOffset = gB.chunkOffset
  chunkCount : gA.chunkCount = gB.chunkCount
  chunk : gB.pendingOp = .putData →
    gA.chunk.toList.take gA.chunkCount.toNat = gB.chunk.toList.take gB.chunkCount.toNat
  ack : gA.ackCommand = gB.ackCommand ∧ gA.ackStatus = gB.ackStatus ∧ gA.ackOffset = gB.ackOffset

/-- A request of the upload is dropped in both of two alike records or accepted in both. -/
theorem handlePacket_alike (hr : NextRequest g.transferId r) (hn : g.pendingOp = .none)
    (ha : Alike g₁ g) :
    (fileTransferHandlePacket r g₁ = g₁ ∧ fileTransferHandlePacket r g = g) ∨
      SamePending (fileTransferHandlePacket r g₁) (fileTransferHandlePacket r g) := by
  obtain ⟨clientMac,sessionId,filename,target,pathOpFlags,chunk,rfl⟩ := ha
  by_cases hl : r.LongEnough
  swap
  · have hd (g : FileTransferState) : fileTransferHandlePacket r g = g :=
      handlePacket_of_not_admitted fun h => hl h.2
    exact .inl ⟨hd _,hd _⟩
  rcases hr with ⟨offset,count,data,hp,hd⟩ | ⟨size,hp⟩
  · simp only [fileTransferHandlePacket, hn, hl, hp, ne_eq, not_true, if_false]
    split_ifs with h₁ h₂ h₃
    · exact .inl ⟨rfl,rfl⟩
    · rw [queueAck_of_none hn, queueAck_of_none rfl]
      exact .inr ⟨rfl,.inl rfl,rfl,rfl,rfl,rfl,rfl,rfl,rfl,rfl,(fun h => by cases h),rfl,rfl,rfl⟩
    · refine .inr ⟨rfl,.inr (.inl rfl),rfl,rfl,rfl,rfl,rfl,rfl,rfl,rfl,fun _ => ?_,rfl,rfl,rfl⟩
      have hc : (data.take count.toNat).length = count.toNat := by
        rw [List.length_take]
        omega
      have htake (v : Vector UInt8 512) :
          (Bytes.overwrite v (data.take count.toNat)).toList.take count.toNat =
            data.take count.toNat := by
        have := Bytes.take_overwrite v (data.take count.toNat) (by omega)
        rwa [hc] at this
      exact (htake _).trans (htake _).symm
    · rw [queueAck_of_none hn, queueAck_of_none rfl]
      exact .inr ⟨rfl,.inl rfl,rfl,rfl,rfl,rfl,rfl,rfl,rfl,rfl,(fun h => by cases h),rfl,rfl,rfl⟩
  · simp only [fileTransferHandlePacket, hn, hl, hp, ne_eq, not_true, if_false]
    split_ifs
    · exact .inl ⟨rfl,rfl⟩
    · exact .inr ⟨rfl,.inr (.inr rfl),rfl,rfl,rfl,rfl,rfl,rfl,rfl,rfl,(fun h => by cases h),rfl,rfl,rfl⟩

theorem SamePending.ackOf (hg : SamePending g₁ g) (command : FileAckCommand)
    (status : FileAckStatus) (offset : UInt32) :
    ackOf mac g₁ command status offset = ackOf mac g command status offset := by
  simp only [RmtDos.ackOf, hg.clientMac, hg.sessionId, hg.transferId]

theorem closed_local {d₂ : Files F} {k : Int16} (hc : Closed (Step resolve) true k d₁ d₂)
    (hv : d₁.view k.toUInt16 = d.view k.toUInt16) :
    ∃ d', Closed (Step resolve) true k d d' ∧ d₂.view k.toUInt16 = d'.view k.toUInt16 := by
  by_cases hk : k < 0
  · obtain rfl : d₂ = d₁ := by simpa [Closed, hk] using hc
    exact ⟨d,by simp [Closed, hk],hv⟩
  · simp only [Closed, hk, not_false_eq_true, and_self, if_true] at hc ⊢
    obtain ⟨q,hq⟩ := hc
    obtain ⟨d',hq',hv'⟩ := hq.close_local hv
    exact ⟨d',⟨q,hq'⟩,hv'⟩

/-- With the same operation pending, what the idle step can do depends on DOS only through
what is behind the handle. -/
theorem idle_samePending (hg : SamePending g₁ g)
    (hv : d₁.view g.handle.toUInt16 = d.view g.handle.toUInt16)
    (hs : TsrStep (Step resolve) mac (g₁,d₁) (.idle sent) s') :
    ∃ s₂, TsrStep (Step resolve) mac (g,d) (.idle sent) s₂ ∧
      s'.2.view g.handle.toUInt16 = s₂.2.view g.handle.toUInt16 := by
  have hne : g.pendingOp ≠ .none := by
    rcases hg.upload with h | h | h <;> simp [h]
  simp only [tsrIdle_op (hg.op ▸ hne), hg.op] at hs
  simp only [tsrIdle_op hne]
  obtain ⟨fuel,hs⟩ := hs
  have hack (command status offset) : ackOf mac g₁.taken command status offset =
      ackOf mac g.taken command status offset := hg.ackOf command status offset
  rcases hg.upload with h | h | h
  · rw [h] at hs ⊢
    obtain ⟨hd,-,rfl⟩ := exec_ack.mp hs
    have ho := hg.ack
    refine ⟨(_,d),⟨fuel,exec_ack.mpr ⟨rfl,rfl,?_⟩⟩,hd ▸ hv⟩
    rw [hack]
    simp [FileTransferState.taken, ho]
  · rw [h] at hs ⊢
    have hoff : g₁.taken.expectedOffset = g.taken.expectedOffset := hg.expectedOffset
    have hco : g₁.taken.chunkOffset = g.taken.chunkOffset := hg.chunkOffset
    have hcc : g₁.taken.chunkCount = g.taken.chunkCount := hg.chunkCount
    have hh : g₁.taken.handle = g.taken.handle := hg.handle
    have hch : g₁.taken.chunk.toList.take g.taken.chunkCount.toNat =
        g.taken.chunk.toList.take g.taken.chunkCount.toNat := hcc ▸ hg.chunk h
    simp only [exec_putData, hoff, hco, hcc, hh, hch, hack] at hs
    rcases hs with ⟨ho,hd,-,hsent⟩ | ⟨ho,q,hw,hs⟩
    · exact ⟨(_,d),⟨fuel,exec_putData.mpr (.inl ⟨ho,rfl,rfl,hsent⟩)⟩,hd ▸ hv⟩
    · obtain ⟨d₂,hw',hv'⟩ := hw.write_local hv
      rcases hs with ⟨hok,-,hsent⟩ | ⟨hok,-,hsent⟩
      · exact ⟨(_,d₂),⟨fuel,exec_putData.mpr (.inr ⟨ho,q,hw',.inl ⟨hok,rfl,hsent⟩⟩)⟩,hv'⟩
      · exact ⟨(_,d₂),⟨fuel,exec_putData.mpr (.inr ⟨ho,q,hw',.inr ⟨hok,rfl,hsent⟩⟩)⟩,hv'⟩
  · rw [h] at hs ⊢
    have hoff : g₁.taken.expectedOffset = g.taken.expectedOffset := hg.expectedOffset
    have hsize : g₁.taken.size = g.taken.size := hg.size
    have hh : g₁.taken.handle = g.taken.handle := hg.handle
    simp only [exec_putEnd, hoff, hsize, hh, hack] at hs
    obtain ⟨hc,-,hsent⟩ := hs
    obtain ⟨d₂,hc',hv'⟩ := closed_local hc hv
    exact ⟨(_,d₂),⟨fuel,exec_putEnd.mpr ⟨hc',rfl,hsent⟩⟩,hv'⟩

/-- Serving a request of the upload depends on the record up to `Alike`, and on DOS only
through what is behind the handle. -/
theorem served_alike (hr : NextRequest g.transferId r) (hn : g.pendingOp = .none)
    (ha : Alike g₁ g) (hv : d₁.view g.handle.toUInt16 = d.view g.handle.toUInt16)
    (hs : Served resolve mac (g₁,d₁) r g.handle.toUInt16 o) :
    Served resolve mac (g,d) r g.handle.toUInt16 o := by
  obtain ⟨sent,s',hs,rfl⟩ := hs
  rcases handlePacket_alike hr hn ha with ⟨h₁,h₂⟩ | hp
  · have hn₁ : g₁.pendingOp = .none := by
      obtain ⟨_,_,_,_,_,_,rfl⟩ := ha
      exact hn
    simp only [h₁] at hs ⊢
    obtain ⟨rfl,rfl⟩ := (tsrIdle_none hn₁).mp hs
    refine ⟨[],(g,d),?_,by simp [h₂, hn, hn₁, hv]⟩
    simpa only [h₂] using (tsrIdle_none hn).mpr ⟨rfl,rfl⟩
  · have hh : (fileTransferHandlePacket r g).handle = g.handle := handlePacket_handle r g
    obtain ⟨s₂,hs₂,hv₂⟩ := idle_samePending hp (hh.symm ▸ hv) hs
    exact ⟨sent,s₂,hs₂,by rw [hp.op, ← hh, hv₂]⟩

/-! What the operations that carry the upload's own transfer id do to it. -/

/-- The path operations, with their operation code and transfer id. -/
def PathOp (q : Packet) (t : UInt32) (op : FileOp) : Prop :=
  (op = .mkdir ∧ ∃ flags path, q.payload = .fileMkdir t flags path) ∨
  (op = .delete ∧ ∃ flags path, q.payload = .fileDelete t flags path) ∨
  (op = .rename ∧ ∃ source target, q.payload = .fileRename t source target) ∨
  (op = .copy ∧ ∃ source target, q.payload = .fileCopy t source target)

theorem pathOp_pending {t : UInt32} {op : FileOp} (ha : q.Admitted g) (hp : PathOp q t op) :
    (fileTransferHandlePacket q g).pendingOp = op ∧
      (fileTransferHandlePacket q g).transferId = t := by
  rcases hp with ⟨rfl,_,_,hp⟩ | ⟨rfl,_,_,hp⟩ | ⟨rfl,_,_,hp⟩ | ⟨rfl,_,_,hp⟩ <;>
    simp [fileTransferHandlePacket, ha.1, ha.2, hp]

theorem pathOp_alike {op : FileOp} (ha : q.Admitted g) (hp : PathOp q g.transferId op) :
    Alike (fileTransferHandlePacket q g).taken g := by
  rcases hp with ⟨rfl,_,_,hp⟩ | ⟨rfl,_,_,hp⟩ | ⟨rfl,_,_,hp⟩ | ⟨rfl,_,_,hp⟩ <;>
    exact ⟨_,_,_,_,_,_,by
      simp only [fileTransferHandlePacket, ha.1, ha.2, hp, FileTransferState.taken, rememberClient,
        ne_eq, not_true, if_false]
      rfl⟩

/-- The files the pending path operation names are those of the packet. -/
theorem pathOp_names {t : UInt32} {op : FileOp} (ha : q.Admitted g) (hp : PathOp q t op) :
    filenameStr (fileTransferHandlePacket q g).taken ∈ pathsOf q ∧
      (op = .rename ∨ op = .copy → targetStr (fileTransferHandlePacket q g).taken ∈ pathsOf q) := by
  rcases hp with ⟨rfl,_,_,hp⟩ | ⟨rfl,_,_,hp⟩ | ⟨rfl,_,_,hp⟩ | ⟨rfl,_,_,hp⟩ <;>
    simp [fileTransferHandlePacket, ha.1, ha.2, hp, pathsOf, nameOf, filenameStr, targetStr,
      FileTransferState.taken]

/-- A call on no handle leaves what is behind the upload's handle, unless it may change its
file. -/
theorem view_of_call {c : DosCall} {r : DosRegs} {x : F × ℕ} (hs : Step resolve d c r d₁)
    (hx : d.handles h = some x) (hc : ¬ OnHandle h c) (hf : SparesFile resolve d x.1 c) :
    d₁.view h = d.view h := by
  refine hs.view_frame hc (fun y hy => ?_) hx
  obtain rfl : x = y := Option.some.inj (hx.symm.trans hy)
  exact hf

/-- Directory operations and deletions and renames of other files, carrying the upload's own
transfer id, leave the upload alone. -/
theorem pathOp_leaves {op : FileOp} {x : F × ℕ} (ha : q.Admitted g)
    (hp : PathOp q g.transferId op) (hop : op ≠ .copy) (ho : OtherFiles resolve (g,d) q)
    (hx : d.handles g.handle.toUInt16 = some x)
    (hs : TsrStep (Step resolve) mac (fileTransferHandlePacket q g,d) (.idle sent) s') :
    Alike s'.1 g ∧ s'.2.view g.handle.toUInt16 = d.view g.handle.toUInt16 := by
  have hal := pathOp_alike ha hp
  have hpend := (pathOp_pending ha hp).1
  obtain ⟨hn₁,hn₂⟩ := pathOp_names ha hp
  have hof := ho x hx
  generalize fileTransferHandlePacket q g = g' at *
  have hne : g'.pendingOp ≠ .none := by
    rcases hp with ⟨rfl,-⟩ | ⟨rfl,-⟩ | ⟨rfl,-⟩ | ⟨rfl,-⟩ <;> simp [hpend]
  rw [tsrIdle_op hne, hpend] at hs
  obtain ⟨fuel,hs⟩ := hs
  rcases hp with ⟨rfl,-⟩ | ⟨rfl,-⟩ | ⟨rfl,-⟩ | ⟨rfl,-⟩
  · obtain ⟨r,hr,hg,-⟩ := exec_mkdir.mp hs
    exact ⟨hg ▸ hal,view_of_call hr hx id trivial⟩
  · obtain ⟨r,hr,hg,-⟩ := exec_delete.mp hs
    refine ⟨hg ▸ hal,view_of_call hr hx ?_ ?_⟩
    · rw [deleteCall]
      split_ifs <;> exact id
    · rw [deleteCall]
      split_ifs
      · trivial
      · exact hof _ hn₁
  · rcases exec_rename.mp hs with ⟨-,hd,hg,-⟩ | ⟨-,r,hr,hg,-⟩
    · exact ⟨hg ▸ hal,hd ▸ rfl⟩
    · exact ⟨hg ▸ hal,view_of_call hr hx id ⟨hof _ hn₁,hof _ (hn₂ (.inl rfl))⟩⟩
  · exact absurd rfl hop

theorem Alike.withOffset {n : UInt32} (h : Alike g₁ g) (hn : n = g.expectedOffset) :
    Alike { g₁ with expectedOffset := n } g := by
  obtain ⟨_,_,_,_,_,_,rfl⟩ := h
  subst hn
  exact ⟨_,_,_,_,_,_,rfl⟩

theorem Alike.withChunk {chunk : Vector UInt8 512} (h : Alike g₁ g) :
    Alike { g₁ with chunk := chunk } g := by
  obtain ⟨_,_,_,_,_,_,rfl⟩ := h
  exact ⟨_,_,_,_,_,_,rfl⟩

section Copy
variable {source target : FileName} {t : UInt32}

theorem copy_handled (ha : q.Admitted g) (hp : q.payload = .fileCopy t source target) :
    fileTransferHandlePacket q g = { rememberClient q g with
      transferId := t, filename := Bytes.terminate source, target := Bytes.terminate target
      pendingOp := .copy } := by
  simp [fileTransferHandlePacket, ha.1, ha.2, hp]

/-- A copy that copies nothing, under the upload's own transfer id and at its offset, leaves
the upload alone. -/
theorem copy_leaves {x : F × ℕ} (ha : q.Admitted g)
    (hp : q.payload = .fileCopy g.transferId source target) (h0 : g.expectedOffset = 0)
    (hc : dosPathEqual (nameOf source) (nameOf target) ∨
      ¬ CanCopy resolve d (nameOf source) (nameOf target))
    (ho : OtherFiles resolve (g,d) q) (hx : d.handles g.handle.toUInt16 = some x)
    (hs : TsrStep (Step resolve) mac (fileTransferHandlePacket q g,d) (.idle sent) s') :
    Alike s'.1 g ∧ s'.2.view g.handle.toUInt16 = d.view g.handle.toUInt16 := by
  have hal := pathOp_alike ha (.inr (.inr (.inr ⟨rfl,_,_,hp⟩)))
  have ht : resolve (nameOf target) ≠ x.1 := ho x hx _ (by simp [pathsOf, hp])
  rw [copy_handled ha hp] at hs hal
  rw [tsrIdle_op (by simp)] at hs
  obtain ⟨fuel,hs⟩ := hs
  rcases exec_copy.mp hs with ⟨-,hd,hg,-⟩ | ⟨hne,result,g₁,hcopy,hg,-⟩
  · exact ⟨hg ▸ hal.withOffset h0.symm,hd ▸ rfl⟩
  · have hq : dosPathEqual (nameOf source) (nameOf target) = false := hne
    have hn := hc.resolve_left (by simp [hq])
    have hz : result.2 = 0 := dosCopyFile_zero hn hcopy
    obtain ⟨hx',hcont⟩ := dosCopyFile_frame hx hcopy
    constructor
    · rw [hg, hz, eq_of_sansChunk (hcopy.keeps dosCopyFile_keeps)]
      exact hal.withChunk.withOffset h0.symm
    · rw [view_eq hx, view_eq hx', hcont ht]

end Copy

/-- The idle step of a path operation can return. -/
theorem pathOp_returns {t : UInt32} {op : FileOp} (ha : q.Admitted g) (hp : PathOp q t op) :
    ∃ sent s', TsrStep (Step resolve) mac (fileTransferHandlePacket q g,d) (.idle sent) s' := by
  have hpend := (pathOp_pending ha hp).1
  generalize fileTransferHandlePacket q g = g' at hpend
  have hne : g'.pendingOp ≠ .none := by
    rcases hp with ⟨rfl,-⟩ | ⟨rfl,-⟩ | ⟨rfl,-⟩ | ⟨rfl,-⟩ <;> simp [hpend]
  simp only [tsrIdle_op hne, hpend]
  have hfail (c : DosCall) : Step resolve d c ⟨true,0,0,0,0,[]⟩ d := .failed _ _ rfl
  rcases hp with ⟨rfl,-⟩ | ⟨rfl,-⟩ | ⟨rfl,-⟩ | ⟨rfl,-⟩
  · exact ⟨_,(_,d),0,exec_mkdir.mpr ⟨_,hfail _,rfl,rfl⟩⟩
  · exact ⟨_,(_,d),0,exec_delete.mpr ⟨_,hfail _,rfl,rfl⟩⟩
  · cases hq : dosPathEqual (filenameStr g'.taken) (targetStr g'.taken)
    · exact ⟨_,(_,d),0,exec_rename.mpr (.inr ⟨hq,_,hfail _,rfl,rfl⟩)⟩
    · exact ⟨_,(_,d),0,exec_rename.mpr (.inl ⟨hq,rfl,rfl,rfl⟩)⟩
  · cases hq : dosPathEqual (filenameStr g'.taken) (targetStr g'.taken)
    · exact ⟨_,(_,d),0,exec_copy.mpr (.inr ⟨hq,_,_,dosCopyFile_refused,rfl,rfl⟩)⟩
    · exact ⟨_,(_,d),0,exec_copy.mpr (.inl ⟨hq,rfl,rfl,rfl⟩)⟩

/-- A path operation changes nothing in the record but the chunk and the offset. -/
theorem pathOp_record {t : UInt32} {op : FileOp} (ha : q.Admitted g) (hp : PathOp q t op)
    (hs : TsrStep (Step resolve) mac (fileTransferHandlePacket q g,d) (.idle sent) s') :
    ∃ chunk n, s'.1 = { (fileTransferHandlePacket q g).taken with
      chunk := chunk, expectedOffset := n } := by
  have hpend := (pathOp_pending ha hp).1
  generalize fileTransferHandlePacket q g = g' at hpend hs ⊢
  have hne : g'.pendingOp ≠ .none := by
    rcases hp with ⟨rfl,-⟩ | ⟨rfl,-⟩ | ⟨rfl,-⟩ | ⟨rfl,-⟩ <;> simp [hpend]
  rw [tsrIdle_op hne, hpend] at hs
  obtain ⟨fuel,hs⟩ := hs
  rcases hp with ⟨rfl,-⟩ | ⟨rfl,-⟩ | ⟨rfl,-⟩ | ⟨rfl,-⟩
  · obtain ⟨r,-,hg,-⟩ := exec_mkdir.mp hs
    exact ⟨_,_,hg⟩
  · obtain ⟨r,-,hg,-⟩ := exec_delete.mp hs
    exact ⟨_,_,hg⟩
  · rcases exec_rename.mp hs with ⟨-,-,hg,-⟩ | ⟨-,r,-,hg,-⟩ <;> exact ⟨_,_,hg⟩
  · rcases exec_copy.mp hs with ⟨-,-,hg,-⟩ | ⟨-,result,g₁,hcopy,hg,-⟩
    · exact ⟨_,_,hg⟩
    · rw [eq_of_sansChunk (hcopy.keeps dosCopyFile_keeps)] at hg
      exact ⟨_,_,hg⟩

/-- An operation that leaves the upload alone does not disturb it. -/
theorem undisturbed_of_leaves {t : UInt32} {op : FileOp} (ha : q.Admitted g) (hp : PathOp q t op)
    (hl : ∀ sent s', TsrStep (Step resolve) mac (fileTransferHandlePacket q g,d) (.idle sent) s' →
      Alike s'.1 g ∧ s'.2.view g.handle.toUInt16 = d.view g.handle.toUInt16) :
    Undisturbed resolve mac (g,d) q := by
  intro r hr o
  have hnone {sent : List Reply} {s₁ : TsrState F} :
      TsrStep (Step resolve) mac (g,d) (.idle sent) s₁ ↔ sent = [] ∧ s₁ = (g,d) := tsrIdle_none ha.1
  constructor
  · rintro ⟨sent,s₁,hs,ho⟩
    obtain ⟨hal,hv⟩ := hl _ _ hs
    exact ⟨[],(g,d),hnone.mpr ⟨rfl,rfl⟩,served_alike hr ha.1 hal hv ho⟩
  · rintro ⟨sent,s₁,hs,ho⟩
    obtain ⟨-,rfl⟩ := hnone.mp hs
    have hret : ∃ sent s', TsrStep (Step resolve) mac (fileTransferHandlePacket q g,d)
        (.idle sent) s' := pathOp_returns ha hp
    obtain ⟨sent',s',hs'⟩ := hret
    obtain ⟨hal,hv⟩ := hl _ _ hs'
    refine ⟨sent',s',hs',?_⟩
    obtain ⟨_,_,_,_,_,_,he⟩ := id hal
    have hh : s'.1.handle = g.handle := by rw [he]
    have ht : s'.1.transferId = g.transferId := by rw [he]
    have hn : s'.1.pendingOp = .none := by rw [he]; exact ha.1
    have hs₂ : Served resolve mac (s'.1,s'.2) r s'.1.handle.toUInt16 o :=
      served_alike (ht ▸ hr) hn hal.symm (hh ▸ hv.symm) (hh ▸ ho)
    exact hh ▸ hs₂

/-! The request that ends the upload tells the disturbed upload from the undisturbed one. -/

/-- The request that ends the active upload. -/
def endRequest (g : FileTransferState) : Packet :=
  ⟨Vector.replicate 6 0,0,8,.filePutEnd g.transferId g.size⟩

theorem endRequest_next : NextRequest g.transferId (endRequest g) := .inr ⟨g.size,rfl⟩

theorem endRequest_handled (hn : g.pendingOp = .none) :
    fileTransferHandlePacket (endRequest g₁) g =
      if (!g.active) = true ∨ g.mode ≠ .put ∨ g₁.transferId ≠ g.transferId ∨ g₁.size ≠ g.size then g
      else { rememberClient (endRequest g₁) g with pendingOp := .putEnd } := by
  have hl : (endRequest g₁).LongEnough := by
    simp [Packet.LongEnough, endRequest, Payload.pktType, Payload.structSize]
  rw [fileTransferHandlePacket, if_neg (by simp [hn]), if_neg (by simp [hl])]
  rfl

theorem endRequest_accepted (hn : g.pendingOp = .none) (ha : g.active = true)
    (hm : g.mode = .put) (ht : g.transferId = g₁.transferId) (hsz : g.size = g₁.size) :
    fileTransferHandlePacket (endRequest g₁) g =
      { rememberClient (endRequest g₁) g with pendingOp := .putEnd } := by
  rw [endRequest_handled hn, if_neg (by simp [ha, hm, ht, hsz])]

theorem served_endRequest_exists (hn : g.pendingOp = .none) (ha : g.active = true)
    (hm : g.mode = .put) : ∃ o, Served resolve mac (g,d) (endRequest g) h o := by
  have he := endRequest_accepted hn ha hm rfl rfl
  obtain ⟨d₁,hc⟩ := closed_exists resolve d (fileTransferHandlePacket (endRequest g) g).taken.handle
  have hp : (fileTransferHandlePacket (endRequest g) g).pendingOp = .putEnd := by rw [he]
  exact ⟨_,_,(_,d₁),(tsrIdle_op (by simp [hp])).mpr ⟨0,hp ▸ exec_putEnd.mpr ⟨hc,rfl,rfl⟩⟩,rfl⟩

/-- The frame that answers the end of an upload. -/
theorem served_endRequest (hn : g.pendingOp = .none) (ha : g.active = true)
    (hm : g.mode = .put) (ht : g.transferId = g₁.transferId) (hsz : g.size = g₁.size)
    (hs : Served resolve mac (g,d) (endRequest g₁) h o) :
    o.accepted = .putEnd ∧ o.sent = [⟨Vector.replicate 6 0,mac,0,12,.fileAck g.transferId .end
      (if g.expectedOffset ≠ g.size then .error else .ok) g.expectedOffset⟩] := by
  obtain ⟨sent,s',hs,rfl⟩ := hs
  rw [endRequest_accepted hn ha hm ht hsz] at hs ⊢
  rw [tsrIdle_op (by simp)] at hs
  obtain ⟨fuel,hs⟩ := hs
  obtain ⟨-,-,hsent⟩ := exec_putEnd.mp hs
  exact ⟨rfl,hsent⟩

theorem served_refused (hn : g.pendingOp = .none)
    (hr : g.active = false ∨ g.mode ≠ .put ∨ g₁.transferId ≠ g.transferId)
    (hs : Served resolve mac (g,d) (endRequest g₁) h o) : o.accepted = .none := by
  obtain ⟨sent,s',-,rfl⟩ := hs
  have he : fileTransferHandlePacket (endRequest g₁) g = g := by
    rw [endRequest_handled hn, if_pos]
    rcases hr with h | h | h <;> simp [h]
  simp [he, hn]

/-- A packet after which the end of the upload is refused disturbs it. -/
theorem disturbed_of_refused (hn : g.pendingOp = .none) (ha : g.active = true)
    (hm : g.mode = .put)
    (hr : ∀ sent s', TsrStep (Step resolve) mac (fileTransferHandlePacket q g,d) (.idle sent) s' →
      s'.1.pendingOp = .none ∧
        (s'.1.active = false ∨ s'.1.mode ≠ .put ∨ g.transferId ≠ s'.1.transferId)) :
    ¬ Undisturbed resolve mac (g,d) q := by
  intro hu
  obtain ⟨o,ho⟩ : ∃ o, Served resolve mac (g,d) (endRequest g) g.handle.toUInt16 o :=
    served_endRequest_exists hn ha hm
  obtain ⟨sent,s',hs,hs'⟩ := (hu (endRequest g) endRequest_next o).mpr
    ⟨[],(g,d),(tsrIdle_none hn).mpr ⟨rfl,rfl⟩,ho⟩
  have hacc := (served_endRequest hn ha hm rfl rfl ho).1
  obtain ⟨hn',hr'⟩ := hr sent s' hs
  have href := served_refused hn' hr' hs'
  rw [hacc] at href
  cases href

/-- A packet after which the record has another offset disturbs the upload. -/
theorem disturbed_of_offset {n : UInt32} (hn : g.pendingOp = .none) (ha : g.active = true)
    (hm : g.mode = .put) (hne : n ≠ g.expectedOffset)
    (hs : TsrStep (Step resolve) mac (fileTransferHandlePacket q g,d) (.idle sent) s')
    (hal : Alike { s'.1 with expectedOffset := g.expectedOffset } g)
    (hoff : s'.1.expectedOffset = n) : ¬ Undisturbed resolve mac (g,d) q := by
  intro hu
  obtain ⟨_,_,_,_,_,_,he⟩ := hal
  have hn' : s'.1.pendingOp = .none := (congrArg FileTransferState.pendingOp he).trans hn
  have ha' : s'.1.active = true := (congrArg FileTransferState.active he).trans ha
  have hm' : s'.1.mode = .put := (congrArg FileTransferState.mode he).trans hm
  have ht' : s'.1.transferId = g.transferId :=
    (congrArg FileTransferState.transferId he).trans rfl
  have hz' : s'.1.size = g.size := (congrArg FileTransferState.size he).trans rfl
  obtain ⟨o,ho⟩ : ∃ o, Served resolve mac (s'.1,s'.2) (endRequest g) g.handle.toUInt16 o := by
    have hq : endRequest g = endRequest s'.1 := by simp [endRequest, ht', hz']
    exact hq ▸ served_endRequest_exists hn' ha' hm'
  obtain ⟨sent₀,s₀,hs₀,ho₀⟩ := (hu (endRequest g) endRequest_next o).mp ⟨sent,s',hs,ho⟩
  obtain ⟨-,rfl⟩ := (tsrIdle_none hn).mp hs₀
  have h₁ := (served_endRequest hn' ha' hm' ht' hz' ho).2
  have h₂ := (served_endRequest hn ha hm rfl rfl ho₀).2
  rw [h₁] at h₂
  simp only [List.cons.injEq, Reply.mk.injEq, ReplyBody.fileAck.injEq, true_and, and_true] at h₂
  exact hne (hoff ▸ h₂.2.2)

/-- A path operation under another transfer id disturbs the upload. -/
theorem pathOp_disturbs {t : UInt32} {op : FileOp} (had : q.Admitted g) (ha : g.active = true)
    (hm : g.mode = .put) (hp : PathOp q t op) (ht : t ≠ g.transferId) :
    ¬ Undisturbed resolve mac (g,d) q := by
  refine disturbed_of_refused had.1 ha hm fun sent s' hs => ?_
  obtain ⟨chunk,n,he⟩ := pathOp_record had hp hs
  have hid : s'.1.transferId = t := by
    rw [he]
    exact (pathOp_pending had hp).2
  exact ⟨by rw [he]; rfl,.inr (.inr (hid ▸ ht.symm))⟩

/-- A copy under the upload's own id can leave any offset that a copy of the files can. -/
theorem copy_disturbs {source target : FileName} {result : Bool × UInt32} {fuel : ℕ}
    (had : q.Admitted g) (ha : g.active = true) (hm : g.mode = .put)
    (hp : q.payload = .fileCopy g.transferId source target)
    (hne : dosPathEqual (nameOf source) (nameOf target) = false)
    (hoff : result.2 ≠ g.expectedOffset)
    (hex : ∃ g₁ d₁, Exec (Step resolve) (dosCopyFile fuel)
      (fileTransferHandlePacket q g).taken d [] result g₁ d₁) :
    ¬ Undisturbed resolve mac (g,d) q := by
  obtain ⟨g₁,d₁,hex⟩ := hex
  have hal := pathOp_alike had (.inr (.inr (.inr ⟨rfl,_,_,hp⟩)))
  have hpend : (fileTransferHandlePacket q g).pendingOp = .copy := by rw [copy_handled had hp]
  have hne' : dosPathEqual (filenameStr (fileTransferHandlePacket q g).taken)
      (targetStr (fileTransferHandlePacket q g).taken) = false := by
    rw [copy_handled had hp]
    exact hne
  have hs : TsrStep (Step resolve) mac (fileTransferHandlePacket q g,d) (.idle _)
      ({ g₁ with expectedOffset := result.2 },d₁) :=
    (tsrIdle_op (by simp [hpend])).mpr
      ⟨fuel,hpend ▸ exec_copy.mpr (.inr ⟨hne',result,g₁,hex,rfl,rfl⟩)⟩
  refine disturbed_of_offset had.1 ha hm hoff hs ?_ rfl
  rw [eq_of_sansChunk (hex.keeps dosCopyFile_keeps)]
  exact hal.withChunk.withOffset rfl

/-- The paths of a copy are equal: no DOS call, and the offset becomes zero. -/
theorem copy_same_disturbs {source target : FileName} (had : q.Admitted g)
    (ha : g.active = true) (hm : g.mode = .put)
    (hp : q.payload = .fileCopy g.transferId source target)
    (heq : dosPathEqual (nameOf source) (nameOf target) = true) (hoff : g.expectedOffset ≠ 0) :
    ¬ Undisturbed resolve mac (g,d) q := by
  have hal := pathOp_alike had (.inr (.inr (.inr ⟨rfl,_,_,hp⟩)))
  have hpend : (fileTransferHandlePacket q g).pendingOp = .copy := by rw [copy_handled had hp]
  have heq' : dosPathEqual (filenameStr (fileTransferHandlePacket q g).taken)
      (targetStr (fileTransferHandlePacket q g).taken) = true := by
    rw [copy_handled had hp]
    exact heq
  have hs : TsrStep (Step resolve) mac (fileTransferHandlePacket q g,d) (.idle _)
      ({ (fileTransferHandlePacket q g).taken with expectedOffset := 0 },d) :=
    (tsrIdle_op (by simp [hpend])).mpr ⟨0,hpend ▸ exec_copy.mpr (.inl ⟨heq',rfl,rfl,rfl⟩)⟩
  exact disturbed_of_offset had.1 ha hm hoff.symm hs (hal.withOffset rfl) rfl

theorem undisturbed_of_harmless {x : F × ℕ} (hq : IndependentOp q) (hm : g.mode = .put)
    (ho : OtherFiles resolve (g,d) q) (hx : d.handles g.handle.toUInt16 = some x)
    (hh : Harmless resolve (g,d) q) : Undisturbed resolve mac (g,d) q := by
  have hdrop (he : fileTransferHandlePacket q g = g) : Undisturbed resolve mac (g,d) q := by
    intro r hr o
    simp only [he]
  by_cases had : q.Admitted g
  swap
  · exact hdrop (handlePacket_of_not_admitted had)
  have hh := hh had
  cases hp : q.payload with
  | dirListBegin r path => simp [hp] at hh
  | dirListDataReq r start max =>
    exact hdrop (by simp [fileTransferHandlePacket, had.1, had.2, hp, hm])
  | dirListEnd r =>
    have hr : r ≠ g.dirRequestId := by simpa [hp] using hh
    exact hdrop (by simp [fileTransferHandlePacket, had.1, had.2, hp, hr])
  | fileMkdir t flags path =>
    obtain rfl : t = g.transferId := by simpa [hp] using hh
    have hop : PathOp q g.transferId .mkdir := .inl ⟨rfl,_,_,hp⟩
    exact undisturbed_of_leaves had hop fun _ _ hs => pathOp_leaves had hop (by decide) ho hx hs
  | fileDelete t flags path =>
    obtain rfl : t = g.transferId := by simpa [hp] using hh
    have hop : PathOp q g.transferId .delete := .inr (.inl ⟨rfl,_,_,hp⟩)
    exact undisturbed_of_leaves had hop fun _ _ hs => pathOp_leaves had hop (by decide) ho hx hs
  | fileRename t source target =>
    obtain rfl : t = g.transferId := by simpa [hp] using hh
    have hop : PathOp q g.transferId .rename := .inr (.inr (.inl ⟨rfl,_,_,hp⟩))
    exact undisturbed_of_leaves had hop fun _ _ hs => pathOp_leaves had hop (by decide) ho hx hs
  | fileCopy t source target =>
    rw [hp] at hh
    obtain ⟨rfl,h0,hc⟩ := hh
    have hop : PathOp q g.transferId .copy := .inr (.inr (.inr ⟨rfl,_,_,hp⟩))
    exact undisturbed_of_leaves had hop fun _ _ hs => copy_leaves had hp h0 hc ho hx hs
  | _ => simp [IndependentOp, hp] at hq

theorem harmless_of_undisturbed (ha : g.active = true) (hm : g.mode = .put)
    (hu : Undisturbed resolve mac (g,d) q) : Harmless resolve (g,d) q := by
  intro (had : q.Admitted g)
  cases hp : q.payload with
  | dirListBegin r path =>
    refine disturbed_of_refused had.1 ha hm (fun sent s' hs => ?_) hu
    have he : fileTransferHandlePacket q g = { rememberClient q g with
        dirRequestId := r, dirPath := Bytes.terminate path, active := true, mode := .dir } := by
      simp [fileTransferHandlePacket, had.1, had.2, hp]
    have hn : (fileTransferHandlePacket q g).pendingOp = .none := by rw [he]; exact had.1
    obtain ⟨-,rfl⟩ := (tsrIdle_none hn).mp hs
    exact ⟨hn,.inr (.inl (by simp [he]))⟩
  | dirListEnd r =>
    rintro rfl
    refine disturbed_of_refused had.1 ha hm (fun sent s' hs => ?_) hu
    have he : fileTransferHandlePacket q g =
        { g with active := false, mode := .none, dirRequestId := 0 } := by
      simp [fileTransferHandlePacket, had.1, had.2, hp]
    have hn : (fileTransferHandlePacket q g).pendingOp = .none := by rw [he]; exact had.1
    obtain ⟨-,rfl⟩ := (tsrIdle_none hn).mp hs
    exact ⟨hn,.inl (by simp [he])⟩
  | fileMkdir t flags path =>
    by_contra ht
    exact pathOp_disturbs had ha hm (.inl ⟨rfl,_,_,hp⟩) ht hu
  | fileDelete t flags path =>
    by_contra ht
    exact pathOp_disturbs had ha hm (.inr (.inl ⟨rfl,_,_,hp⟩)) ht hu
  | fileRename t source target =>
    by_contra ht
    exact pathOp_disturbs had ha hm (.inr (.inr (.inl ⟨rfl,_,_,hp⟩))) ht hu
  | fileCopy t source target =>
    have ht : t = g.transferId := by
      by_contra ht
      exact pathOp_disturbs had ha hm (.inr (.inr (.inr ⟨rfl,_,_,hp⟩))) ht hu
    subst ht
    have h0 : g.expectedOffset = 0 := by
      by_contra h0
      cases hq : dosPathEqual (nameOf source) (nameOf target)
      · exact copy_disturbs had ha hm hp hq (Ne.symm h0) ⟨_,_,dosCopyFile_refused⟩ hu
      · exact copy_same_disturbs had ha hm hp hq h0 hu
    refine ⟨rfl,h0,?_⟩
    by_contra hc
    rw [not_or, not_not] at hc
    obtain ⟨hq,hcan⟩ := hc
    have he := copy_handled had hp
    have hex := @dosCopyFile_one F _ resolve (fileTransferHandlePacket q g).taken d (he ▸ hcan)
    exact copy_disturbs had ha hm hp (by simpa using hq) (by simp [h0]) hex hu
  | _ => trivial

/-- In every reachable state with an active upload, the operation of another client on other
files leaves the upload's next request as it was exactly if it is one of the harmless ones. -/
theorem upload_undisturbed_iff {d₀ : Files F}
    {tr : List (TsrEvent × (FileTransferState × Files F))}
    (hrun : Run (TsrStep (Step resolve) mac) (fileTransferInit,d₀) tr)
    (hs : final (fileTransferInit,d₀) tr = s) (ha : s.1.active = true) (hm : s.1.mode = .put)
    (hq : IndependentOp q) (ho : OtherFiles resolve s q) :
    Undisturbed resolve mac s q ↔ Harmless resolve s q := by
  have hopen := hs ▸ handleOpen_run hrun
  obtain ⟨-,x,hx⟩ := hopen ⟨ha,.inl hm⟩
  exact ⟨harmless_of_undisturbed ha hm,undisturbed_of_harmless hq hm ho hx⟩

/-! An upload of one client and a new directory made by another. -/

def begunUpload : Packet :=
  ⟨Vector.replicate 6 1,1,72,.filePutBegin 7 3 (Vector.replicate 64 0x41)⟩

def otherMkdir : Packet :=
  ⟨Vector.replicate 6 2,2,72,.fileMkdir 8 0 (Vector.replicate 64 0x42)⟩

def otherPageReq : Packet := ⟨Vector.replicate 6 2,2,8,.dirListDataReq 9 0 16⟩

def emptyFiles : Files (List UInt8) := ⟨fun _ => [],fun _ => none⟩

/-- The upload after its `BEGIN`, with its file open as handle 5. -/
def begunState : TsrState (List UInt8) :=
  ({ (fileTransferHandlePacket begunUpload fileTransferInit).taken with
      handle := 5, active := true, mode := .put },
    ⟨Function.update emptyFiles.content (nameOf (Vector.replicate 64 0x41)) [],
      Function.update emptyFiles.handles 5 (some (nameOf (Vector.replicate 64 0x41),0))⟩)

def begunTrace : List (TsrEvent × TsrState (List UInt8)) :=
  [(.packet begunUpload,fileTransferHandlePacket begunUpload fileTransferInit,emptyFiles),
    (.idle [ackOf (Vector.replicate 6 0) begunState.1 .begin .ok 0],begunState)]

theorem begunTrace_run : Run (TsrStep (Step id) (Vector.replicate 6 0))
    (fileTransferInit,emptyFiles) begunTrace := by
  refine .cons rfl (.cons ?_ (.nil _))
  refine (tsrIdle_op (by decide)).mpr ⟨0,?_⟩
  have hcreate : Step id emptyFiles (.create (nameOf (Vector.replicate 64 0x41)))
      ⟨false,5,0,0,0,[]⟩ begunState.2 := .create _ _ rfl (by decide) rfl (by decide)
  exact exec_putBegin.mpr ⟨emptyFiles,⟨false,5,0,0,0,[]⟩,rfl,hcreate,rfl,rfl⟩

/-- A page request of another client leaves the upload alone. -/
theorem upload_undisturbed_iff_pageReq :
    Undisturbed id (Vector.replicate 6 0) begunState otherPageReq ↔
      Harmless id begunState otherPageReq :=
  upload_undisturbed_iff begunTrace_run rfl rfl rfl trivial (fun _ _ _ h => by cases h)

/-- A new directory of another client makes the server drop the upload's next chunk. -/
theorem upload_disturbed_by_mkdir :
    Run (TsrStep (Step id) (Vector.replicate 6 0)) (fileTransferInit,emptyFiles) begunTrace ∧
      final (fileTransferInit,emptyFiles) begunTrace = begunState ∧
      (begunState.1.active = true ∧ begunState.1.mode = .put) ∧
      IndependentOp otherMkdir ∧ OtherFiles id begunState otherMkdir ∧
      otherMkdir.sessionId ≠ begunState.1.sessionId ∧
      ¬ Undisturbed id (Vector.replicate 6 0) begunState otherMkdir := by
  refine ⟨begunTrace_run,rfl,⟨rfl,rfl⟩,trivial,?_,by decide,?_⟩
  · intro x hx name hn
    have hopen : begunState.2.handles begunState.1.handle.toUInt16 =
        some (nameOf (Vector.replicate 64 0x41),0) := rfl
    obtain rfl := Option.some.inj (hopen.symm.trans hx)
    obtain rfl : name = nameOf (Vector.replicate 64 0x42) := by
      simpa [pathsOf, otherMkdir] using hn
    decide
  · exact pathOp_disturbs (by decide) rfl rfl (.inl ⟨rfl,_,_,rfl⟩) (by decide)

end RmtDos
