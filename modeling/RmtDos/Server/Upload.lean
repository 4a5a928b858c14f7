import Mathlib.Algebra.Group.Nat.Defs
import RmtDos.Dos.Disk
import RmtDos.Server.Answer
import RmtDos.Server.PacketSpec

/-! The record of the server while a client uploads a file: what it says of the file behind the
handle, as long as it carries the transfer id of the upload. -/
namespace RmtDos
open Resumable Prog Dos

/-- An upload: its transfer id, the name as the packets carry it, and the local file. -/
structure Upload where
  transferId : UInt32
  filename : FileName
  content : List UInt8
  fits : content.length < 2^32

namespace Upload

def size (u : Upload) : UInt32 := UInt32.ofNat u.content.length

theorem toNat_size (u : Upload) : u.size.toNat = u.content.length := by
  rw [size, UInt32.toNat_ofNat']
  exact Nat.mod_eq_of_lt u.fits

/-- The packets of the upload. Until the server has done `PUT_BEGIN` once, that is the only one. -/
def Request (u : Upload) (begun : Bool) : Payload → Prop
  | .filePutBegin t size filename => t = u.transferId ∧ size = u.size ∧ filename = u.filename
  | .filePutData t offset count data =>
    begun = true ∧ t = u.transferId ∧ offset.toNat+count.toNat ≤ u.content.length ∧
      data.take count.toNat = (u.content.drop offset.toNat).take count.toNat
  | .filePutEnd t size => begun = true ∧ t = u.transferId ∧ size = u.size
  | _ => False

variable {F : Type} (resolve : List UInt8 → F)

/-- The file of the upload. -/
def file (u : Upload) : F := resolve (nameOf u.filename)

/-- If a transfer to the server is active, its file holds as much as is acknowledged. -/
def Written (u : Upload) (g : FileTransferState) (d : Files F) : Prop :=
  g.active = true → g.mode = .put → g.size = u.size ∧
    g.expectedOffset.toNat ≤ u.content.length ∧
    d.handles g.handle.toUInt16 = some (u.file resolve,g.expectedOffset.toNat) ∧
    d.content (u.file resolve) = u.content.take g.expectedOffset.toNat

/-- The record before the `PUT_BEGIN` of the upload. -/
def Named (u : Upload) (g : FileTransferState) : Prop :=
  g.size = u.size ∧ g.filename = Bytes.terminate u.filename

/-- The chunk that is to be written. -/
def Chunk (u : Upload) (g : FileTransferState) : Prop :=
  g.chunkOffset.toNat+g.chunkCount.toNat ≤ u.content.length ∧
    g.chunk.toList.take g.chunkCount.toNat =
      (u.content.drop g.chunkOffset.toNat).take g.chunkCount.toNat

/-- The record with an operation of the upload pending, or none. -/
def Pending (u : Upload) (g : FileTransferState) (d : Files F) : FileOp → Prop
  | .none | .dirListDataReq => u.Written resolve g d
  | .putBegin => u.Named g
  | .putData => u.Written resolve g d ∧ g.active = true ∧ g.mode = .put ∧ u.Chunk g
  | .putEnd => u.Written resolve g d ∧ g.active = true ∧ g.mode = .put
  | .ack => u.Written resolve g d ∧ g.ackCommand = .data ∧ g.ackOffset = g.expectedOffset
  | _ => False

/-- The record with nothing of the upload done yet. -/
def Waiting (u : Upload) (g : FileTransferState) : FileOp → Prop
  | .none | .dirListDataReq => True
  | .putBegin => u.Named g
  | _ => False

/-- What the record says while it carries the id of the upload. -/
def Tracks (u : Upload) (begun : Bool) (g : FileTransferState) (d : Files F) : Prop :=
  g.transferId = u.transferId →
    if begun then u.Pending resolve g d g.pendingOp else u.Waiting g g.pendingOp

variable {resolve} {u : Upload} {begun : Bool} {g g' : FileTransferState} {d d' : Files F}
  {p : Packet} {mac : MacAddr} {sent : List Reply}

theorem tracks_init (u : Upload) : u.Tracks resolve true fileTransferInit d := by
  intro _ ha
  cases ha

theorem Tracks.written (h : u.Tracks resolve true g d) (hn : g.pendingOp = .none)
    (ht : g.transferId = u.transferId) : u.Written resolve g d := by
  have := h ht
  rwa [if_pos rfl, hn] at this

/-- A listing leaves nothing of an upload in the record. -/
theorem Tracks.listing (hdir : DirPacket g g') : u.Tracks resolve begun g' d := by
  intro _
  have hwritten : u.Written resolve g' d := by
    intro _ hm
    rcases hdir.mode with h | h
    · rw [h] at hm
      cases hm
    · rw [h] at hm
      cases hm
  rcases hdir.queued with h | h
  · rw [h]
    cases begun
    · trivial
    · exact hwritten
  · rw [h]
    cases begun
    · trivial
    · exact hwritten

/-- Packets of the upload and packets with other ids keep it so. -/
theorem Tracks.packet (h : u.Tracks resolve begun g d)
    (hp : u.Request begun p.payload ∨ p.payload.transferId? ≠ some u.transferId) :
    u.Tracks resolve begun (fileTransferHandlePacket p g) d := by
  rcases handlePacket_cases p g with he | ⟨⟨hn,-⟩,he⟩
  · rwa [he]
  generalize fileTransferHandlePacket p g = g' at he ⊢
  rcases he.transfer_or_dir hn with hid | hdir
  swap
  · exact .listing hdir
  intro ht
  -- a packet with another id takes the record away from the upload
  have hreq := hp.resolve_right fun hne => hne (hid.trans (congrArg some ht))
  cases he with
  | putBegin t size name hpay =>
    rw [hpay] at hreq
    obtain ⟨-,rfl,rfl⟩ := hreq
    cases begun
    · exact ⟨rfl,rfl⟩
    · exact ⟨rfl,rfl⟩
  | reAck t offset count data hpay ha hm htid ho =>
    rw [hpay] at hreq
    obtain ⟨rfl,-⟩ := hreq
    exact ⟨h.written hn (htid.symm.trans ht),rfl,rfl⟩
  | badChunk t offset count data hpay ha hm htid ho hc =>
    rw [hpay] at hreq
    obtain ⟨rfl,-⟩ := hreq
    exact ⟨h.written hn (htid.symm.trans ht),rfl,rfl⟩
  | putData t offset count data hpay ha hm htid ho hc =>
    rw [hpay] at hreq
    obtain ⟨rfl,-,hfit,hdata⟩ := hreq
    rw [not_or, Nat.not_lt] at hc
    refine ⟨h.written hn ht,ha,hm,hfit,?_⟩
    have hlen : (data.take count.toNat).length = count.toNat := by
      rw [hdata, List.length_take, List.length_drop]
      omega
    have htake := Bytes.take_overwrite g.chunk (data.take count.toNat) (by rw [hlen]; exact hc.1)
    rw [hlen] at htake
    exact htake.trans hdata
  | putEnd t size hpay ha hm htid hs =>
    rw [hpay] at hreq
    obtain ⟨rfl,-⟩ := hreq
    exact ⟨h.written hn ht,ha,hm⟩
  | _ =>
    rw [‹p.payload = _›] at hreq
    exact hreq.elim

section Idle
variable [DecidableEq F] {fuel : ℕ} {op : FileOp} {r : DosRegs}

/-- A created file is empty, and the handle is at its start. -/
theorem written_create (hn : u.Named g) (hs : DiskStep resolve d (.create (filenameStr g)) r d')
    (h : g'.handle = handleOf r ∧ g'.expectedOffset = 0 ∧ g'.size = g.size)
    (ha : g'.active = true → ¬ handleOf r < 0) : u.Written resolve g' d' := by
  intro hact hmode
  have hfile : resolve (filenameStr g) = u.file resolve := by
    rw [filenameStr, hn.2]
    rfl
  obtain ⟨hneg,-⟩ | ⟨-,-,-,hax,-,rfl⟩ := (hs.toStep (by nofun)).create_cases
  · exact absurd hneg (ha hact)
  refine ⟨h.2.2.trans hn.1,?_,?_,?_⟩
  · rw [h.2.1]
    exact Nat.zero_le _
  · rw [h.1, h.2.1, hax, hfile]
    exact Function.update_self _ _ _
  · rw [h.2.1, hfile]
    exact Function.update_self _ _ _

/-- A chunk is stored behind what the file has, or not at all. -/
theorem written_chunk (h : u.Written resolve g d) (ha : g.active = true) (hm : g.mode = .put)
    (hchunk : u.Chunk g) (hoff : g.chunkOffset = g.expectedOffset)
    (hs : WholeStep resolve d
      (.write g.handle.toUInt16 (g.chunk.toList.take g.chunkCount.toNat)) r d') :
    u.Written resolve (if writeOk g.chunkCount r then
      { g with expectedOffset := g.expectedOffset+g.chunkCount.toUInt32 } else g) d' := by
  obtain ⟨hsize,hle,hh,hcont⟩ := h ha hm
  obtain ⟨hfit,hdata⟩ := hchunk
  have hlen : (g.chunk.toList.take g.chunkCount.toNat).length = g.chunkCount.toNat := by
    rw [hdata, List.length_take, List.length_drop]
    omega
  have hpos : (d.content (u.file resolve)).length = g.expectedOffset.toNat := by
    rw [hcont, List.length_take, Nat.min_eq_left hle]
  have hfits := u.fits
  have hnext : (g.expectedOffset+g.chunkCount.toUInt32).toNat =
      g.expectedOffset.toNat+g.chunkCount.toNat := by
    rw [UInt32.toNat_add, UInt16.toNat_toUInt32]
    rw [hoff] at hfit
    omega
  rw [hoff] at hfit hdata
  obtain ⟨hc,hn,rfl⟩ | ⟨hbad,rfl⟩ := hs.write_cases hh
  · have hok : writeOk g.chunkCount r = true := by
      simp [writeOk, hc, ← UInt16.toNat_inj, hn, hlen]
    rw [if_pos hok]
    refine fun _ _ => ⟨hsize,?_,?_,?_⟩
    · rw [hnext]
      exact hfit
    · rw [hnext, hlen]
      exact Function.update_self _ _ _
    · rw [hnext]
      have happ (data : List UInt8) :
          writeAt (d.content (u.file resolve)) g.expectedOffset.toNat data =
            d.content (u.file resolve) ++ data := by
        rw [← hpos, writeAt_length]
      simp only [Function.update_self]
      rw [happ, hcont, hdata, ← List.take_add]
  · have hfail : writeOk g.chunkCount r = false := by
      rcases hbad with hc | hn
      · simp [writeOk, hc]
      · simp [writeOk, ← UInt16.toNat_inj, hlen ▸ hn]
    rw [if_neg (by simp [hfail])]
    exact h

/-- An operation of the upload keeps the record in step with the file, and success at the end means
that the file is there. -/
theorem Pending.idle (h : u.Pending resolve g d op) (ht : g.transferId = u.transferId)
    (hop : op ≠ .none) (hx : Exec (DiskStep resolve) (idleOp mac fuel op) g d sent () g' d')
    (hdata : op = .putData → Exec (WholeStep resolve) (idleOp mac fuel .putData) g d sent () g' d') :
    u.Written resolve g' d' ∧ ∀ a ∈ sent, ∀ offset,
      a.body = .fileAck u.transferId .end .ok offset → d'.content (u.file resolve) = u.content := by
  cases op with
  | none => exact absurd rfl hop
  | putBegin =>
    obtain ⟨d₁,r,-,hc,rfl,rfl⟩ := exec_putBegin.mp hx
    refine ⟨written_create h hc ⟨rfl,rfl,rfl⟩ fun ha => ?_,by simp [ackOf]⟩
    rw [Int16.not_lt]
    exact of_decide_eq_true ha
  | putData =>
    obtain ⟨hw,ha,hm,hchunk⟩ := h
    obtain ⟨-,rfl,rfl,rfl⟩ | ⟨hoff,r,hr,hcase⟩ := exec_putData.mp (hdata rfl)
    · exact ⟨hw,by simp [ackOf]⟩
    · have hw' := written_chunk hw ha hm hchunk hoff hr
      obtain ⟨hok,rfl,rfl⟩ | ⟨hfail,rfl,rfl⟩ := hcase
      · rw [if_pos hok] at hw'
        exact ⟨hw',by simp [ackOf]⟩
      · rw [if_neg (by simp [hfail])] at hw'
        exact ⟨hw',by simp [ackOf]⟩
  | putEnd =>
    obtain ⟨hw,ha,hm⟩ := h
    obtain ⟨hsize,hle,hh,hcont⟩ := hw ha hm
    obtain ⟨hcl,rfl,rfl⟩ := exec_putEnd.mp hx
    refine ⟨by rintro ⟨⟩,fun a hmem offset hbody => ?_⟩
    obtain rfl := List.mem_singleton.mp hmem
    have hend : g.expectedOffset = g.size := by
      by_contra hne
      simp [ackOf, hne] at hbody
    have hsame : d'.content = d.content := by
      unfold Closed at hcl
      split_ifs at hcl
      · obtain ⟨r,hr,-⟩ := hcl
        funext f
        exact hr.content_frame trivial
      · rw [hcl]
    rw [hsame, hcont, hend, hsize, toNat_size, List.take_length]
  | ack =>
    obtain ⟨hw,hcmd,hoff⟩ := h
    obtain ⟨rfl,rfl,rfl⟩ := exec_ack.mp hx
    rw [hoff]
    exact ⟨hw,by simp [ackOf, hcmd]⟩
  | dirListDataReq =>
    obtain ⟨result,hs,rfl⟩ := exec_dirListDataReq.mp hx
    have hd : d' = d := hs.invariant (· = d) collectDirEntries_callsIn
      (fun _ _ _ _ hc he hI => (he.of_searches hc).trans hI) rfl
    rw [eq_of_sansDir (hs.keeps collectDirEntries_keeps), hd]
    exact ⟨h,by simp [pageOf]⟩
  | getBegin => exact h.elim
  | getDataReq => exact h.elim
  | getEnd => exact h.elim
  | mkdir => exact h.elim
  | delete => exact h.elim
  | rename => exact h.elim
  | copy => exact h.elim

/-- While no chunk is written in part, an idle step keeps the record in step with the file. -/
theorem Tracks.idle (h : u.Tracks resolve true g d) (hop : g.pendingOp ≠ .none)
    (hx : Exec (DiskStep resolve) (idleOp mac fuel g.pendingOp) g.taken d sent () g' d')
    (hdata : g.pendingOp = .putData →
      Exec (WholeStep resolve) (idleOp mac fuel .putData) g.taken d sent () g' d') :
    u.Tracks resolve true g' d' ∧ ∀ a ∈ sent, ∀ offset,
      a.body = .fileAck u.transferId .end .ok offset → d'.content (u.file resolve) = u.content := by
  obtain ⟨hlast,payloadLen,body,rfl,hbody⟩ := idleOp_answer hop hx
  simp only [lasting, Prod.mk.injEq] at hlast
  obtain ⟨htid,hpend,-⟩ := hlast
  by_cases ht : g.transferId = u.transferId
  · have hp := h ht
    rw [if_pos rfl] at hp
    have hp' : u.Pending resolve g.taken d g.pendingOp := by
      generalize g.pendingOp = op at hp
      cases op <;> exact hp
    obtain ⟨hw,hend⟩ := hp'.idle ht hop hx hdata
    refine ⟨fun _ => ?_,hend⟩
    rw [if_pos rfl, hpend]
    exact hw
  · refine ⟨fun ht' => absurd (htid.symm.trans ht') ht,fun a hmem offset hab => ?_⟩
    obtain rfl := List.mem_singleton.mp hmem
    cases hbody with
    | ack hc status o => exact absurd (ReplyBody.fileAck.inj hab).1 ht
    | data => cases hab
    | page => cases hab

omit [DecidableEq F] in
/-- Only `PUT_END` answers that an upload has ended. -/
theorem Tracks.ended {env : Files F → DosCall → DosRegs → Files F → Prop}
    (h : u.Tracks resolve true g d) (hop : g.pendingOp ≠ .none)
    (hx : Exec env (idleOp mac fuel g.pendingOp) g.taken d sent () g' d') :
    ∀ a ∈ sent, ∀ offset, a.body = .fileAck u.transferId .end .ok offset → g.pendingOp = .putEnd := by
  obtain ⟨-,payloadLen,body,rfl,hbody⟩ := idleOp_answer hop hx
  intro a hmem offset hab
  obtain rfl := List.mem_singleton.mp hmem
  cases hbody with
  | data => cases hab
  | page => cases hab
  | ack hc =>
    obtain ⟨ht,rfl,-⟩ := ReplyBody.fileAck.inj hab
    have hp := h ht
    rw [if_pos rfl] at hp
    generalize g.pendingOp = op at hp hc
    cases op with
    | putEnd => rfl
    | ack =>
      obtain ⟨-,hdata,-⟩ := hp
      have hcmd : g.ackCommand = .end := Option.some.inj hc
      rw [hdata] at hcmd
      cases hcmd
    | getEnd => exact hp.elim
    | _ => cases hc

/-- Before the upload has begun an idle step begins it, or it says nothing about it. -/
theorem Tracks.waiting (h : u.Tracks resolve false g d) (hop : g.pendingOp ≠ .none)
    (hx : Exec (DiskStep resolve) (idleOp mac fuel g.pendingOp) g.taken d sent () g' d') :
    (u.Tracks resolve true g' d' ∨ u.Tracks resolve false g' d' ∧
        ∀ a ∈ sent, ∀ offset, a.body ≠ .fileAck u.transferId .begin .ok offset) ∧
      ∀ a ∈ sent, ∀ offset, a.body ≠ .fileAck u.transferId .end .ok offset := by
  obtain ⟨hlast,payloadLen,body,rfl,hbody⟩ := idleOp_answer hop hx
  simp only [lasting, Prod.mk.injEq] at hlast
  obtain ⟨htid,hpend,-⟩ := hlast
  by_cases ht : g.transferId = u.transferId
  · have hw := h ht
    rw [if_neg nofun] at hw
    generalize g.pendingOp = op at hop hx hbody hw
    cases op with
    | none => exact absurd rfl hop
    | dirListDataReq =>
      refine ⟨.inr ⟨fun _ => ?_,?_⟩,?_⟩
      · rw [if_neg nofun, hpend]
        trivial
      · cases hbody with
        | ack hc => cases hc
        | data => simp
        | page => simp
      · cases hbody with
        | ack hc => cases hc
        | data => simp
        | page => simp
    | putBegin =>
      have hp : u.Pending resolve g.taken d .putBegin := hw
      obtain ⟨hw',-⟩ := hp.idle ht nofun hx nofun
      refine ⟨.inl fun _ => ?_,?_⟩
      · rw [if_pos rfl, hpend]
        exact hw'
      · cases hbody with
        | ack hc =>
          cases hc
          simp
        | data => simp
        | page => simp
    | _ => exact hw.elim
  · refine ⟨.inl fun ht' => absurd (htid.symm.trans ht') ht,?_⟩
    intro a hmem offset hab
    obtain rfl := List.mem_singleton.mp hmem
    cases hbody with
    | ack => exact ht (ReplyBody.fileAck.inj hab).1
    | data => cases hab
    | page => cases hab

end Idle

end Upload
end RmtDos
