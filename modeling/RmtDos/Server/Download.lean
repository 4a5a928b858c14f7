import RmtDos.Dos.Disk
import RmtDos.Server.Answer
import RmtDos.Server.PacketSpec

/-! The record of the server while a client downloads a file: the handle behind it, and what its
replies say of the file, as long as it carries the transfer id of the download. -/
namespace RmtDos
open Resumable Prog Dos

/-- A download: its transfer id, the name as the packets carry it, and what the file holds. -/
structure Download where
  transferId : UInt32
  filename : FileName
  content : List UInt8

namespace Download

/-- The packets of the download. Until the server has done `GET_BEGIN` once, that is the only
one. -/
def Request (u : Download) (begun : Bool) : Payload → Prop
  | .fileGetBegin t filename => t = u.transferId ∧ filename = u.filename
  | .fileGetDataReq t _ _ => begun = true ∧ t = u.transferId
  | .fileGetEnd t => begun = true ∧ t = u.transferId
  | _ => False

/-- What a reply says of the file: its size at the begin, and some of its bytes after that. -/
def Truthful (u : Download) (a : Reply) : Prop :=
  match a.body with
  | .fileAck t command status offset =>
    t = u.transferId → command = .begin → status = .ok → offset.toNat = u.content.length
  | .fileGetData t offset count status data =>
    t = u.transferId → status = .ok → data <+: u.content.drop offset.toNat ∧
      data.length = count.toNat ∧ 12+count.toNat ≤ a.payloadLen.toNat
  | .dirListData .. => True

variable {F : Type} (resolve : List UInt8 → F)

/-- The file of the download. -/
def file (u : Download) : F := resolve (nameOf u.filename)

/-- If a transfer from the server is active, its handle is one of the file. -/
def Opened (u : Download) (g : FileTransferState) (d : Files F) : Prop :=
  g.active = true → g.mode = .get → ∃ pos, d.handles g.handle.toUInt16 = some (u.file resolve,pos)

/-- The record before the `GET_BEGIN` of the download. -/
def Named (u : Download) (g : FileTransferState) : Prop := g.filename = Bytes.terminate u.filename

/-- The record with an operation of the download pending, or none. -/
def Pending (u : Download) (g : FileTransferState) (d : Files F) : FileOp → Prop
  | .none | .dirListDataReq => u.Opened resolve g d
  | .getBegin => u.Named g
  | .getDataReq | .getEnd => u.Opened resolve g d ∧ g.active = true ∧ g.mode = .get
  | _ => False

/-- The record with nothing of the download done yet. -/
def Waiting (u : Download) (g : FileTransferState) : FileOp → Prop
  | .none | .dirListDataReq => True
  | .getBegin => u.Named g
  | _ => False

/-- What the record says while it carries the id of the download. -/
def Tracks (u : Download) (begun : Bool) (g : FileTransferState) (d : Files F) : Prop :=
  g.transferId = u.transferId →
    if begun then u.Pending resolve g d g.pendingOp else u.Waiting g g.pendingOp

variable {resolve} {u : Download} {begun : Bool} {g g' : FileTransferState} {d d' : Files F}
  {p : Packet} {mac : MacAddr} {sent : List Reply}

theorem Tracks.opened (h : u.Tracks resolve true g d) (hn : g.pendingOp = .none)
    (ht : g.transferId = u.transferId) : u.Opened resolve g d := by
  have := h ht
  rwa [if_pos rfl, hn] at this

/-- A listing leaves nothing of a download in the record. -/
theorem Tracks.listing (hdir : DirPacket g g') : u.Tracks resolve begun g' d := by
  intro _
  have hopened : u.Opened resolve g' d := by
    intro _ hm
    rcases hdir.mode with h | h
    · rw [h] at hm
      cases hm
    · rw [h] at hm
      cases hm
  rcases hdir.queued with h | h
  · rw [h]
    cases begun
    · trivial
    · exact hopened
  · rw [h]
    cases begun
    · trivial
    · exact hopened

/-- Packets of the download and packets with other ids keep it so. -/
theorem Tracks.packet (h : u.Tracks resolve begun g d)
    (hp : u.Request begun p.payload ∨ p.payload.transferId? ≠ some u.transferId) :
    u.Tracks resolve begun (fileTransferHandlePacket p g) d := by
  rcases handlePacket_cases p g with he | ⟨⟨hn,-⟩,he⟩
  · rwa [he]
  generalize fileTransferHandlePacket p g = g' at he ⊢
  rcases he.transfer_or_dir hn with hid | hdir
  swap
  · exact .listing hdir
  intro ht
  -- a packet with another id takes the record away from the download
  have hreq := hp.resolve_right fun hne => hne (hid.trans (congrArg some ht))
  cases he with
  | getBegin t name hpay =>
    rw [hpay] at hreq
    obtain ⟨-,rfl⟩ := hreq
    cases begun
    · rfl
    · rfl
  | getDataReq t offset count hpay ha hm hid =>
    rw [hpay] at hreq
    obtain ⟨rfl,-⟩ := hreq
    exact ⟨h.opened hn ht,ha,hm⟩
  | getEnd t hpay ha hm hid =>
    rw [hpay] at hreq
    obtain ⟨rfl,-⟩ := hreq
    exact ⟨h.opened hn ht,ha,hm⟩
  | _ =>
    rw [‹p.payload = _›] at hreq
    exact hreq.elim

section Idle
variable [DecidableEq F] {fuel : ℕ} {op : FileOp} {r : DosRegs}

omit [DecidableEq F] in
/-- The size of the directory entry, as the record keeps it. -/
theorem sizeFound_toNat (hc : r.carry = false) (hl : r.data.length = 43) :
    (sizeFound r g).toNat = entrySize r.data := by
  have hdta : Bytes.overwrite g.dta r.data =
      Bytes.overwrite (Vector.replicate 43 0) r.data := by
    apply Vector.ext
    intro i hi
    simp [Bytes.overwrite, hl]
  rw [sizeFound, storeDta, hc, if_neg (by decide), if_neg (by decide), entrySize, hdta]

/-- The search for the size changes nothing, and finds the size of the file. -/
theorem sizeQuery_found {name : List UInt8} (hw : hasWildcard name = false)
    (h : SizeQuery (LooseStep resolve) name d r d') :
    d' = d ∧ (sizeFound r g ≠ 0xffffffff →
      (sizeFound r g).toNat = (d.content (resolve name)).length) := by
  obtain ⟨saved,d₁,r₁,d₂,d₃,r₃,h₀,h₁,h₂,h₃⟩ := h
  obtain rfl := (h₀.toStep (by simp)).of_searches trivial
  obtain rfl := (h₁.toStep (by simp)).of_searches trivial
  have hfind := h₂.toStep (by simp)
  obtain rfl := hfind.of_searches trivial
  refine ⟨(h₃.toStep (by simp)).of_searches trivial,fun hsize => ?_⟩
  cases hfind with
  | failed _ _ hc => exact absurd (by rw [sizeFound, if_pos hc]) hsize
  | findFirst _ _ hc hl hs => rw [sizeFound_toNat hc hl, hs hw]

/-- A guarded close changes no content. -/
theorem closed_content {b : Bool} {k : Int16} (hc : Closed (LooseStep resolve) b k d d') :
    d'.content = d.content := by
  unfold Closed at hc
  split_ifs at hc
  · obtain ⟨q,hq⟩ := hc
    funext f
    exact (hq.toStep (by simp)).content_frame trivial
  · rw [hc]

/-- What `GET_BEGIN` leaves: no transfer, or the file open and its size reported. -/
theorem getBegin_opened (hn : u.Named g)
    (hx : Exec (LooseStep resolve) (idleOp mac fuel .getBegin) g d sent () g' d')
    (hcontent : d.content (u.file resolve) = u.content) :
    u.Opened resolve g' d' ∧ d'.content = d.content ∧ ∀ a ∈ sent, u.Truthful a := by
  have hname : resolve (filenameStr g) = u.file resolve := by
    rw [filenameStr, hn]
    rfl
  obtain ⟨d₁,r,d₂,hc,ho,h⟩ := exec_getBegin.mp hx
  have hd₁ := closed_content hc
  have hopen := ho.toStep (by simp)
  have hd₂ : d₂.content = d₁.content := by
    funext f
    exact hopen.content_frame trivial
  obtain ⟨-,rfl,rfl,rfl⟩ | ⟨hpos,found,d₃,hq,h⟩ := h
  · refine ⟨fun ha => ?_,hd₂.trans hd₁,by simp [Truthful, ackOf]⟩
    cases ha
  obtain ⟨hneg,-⟩ | ⟨-,hw,-,hax,-,rfl⟩ := hopen.openRead_cases
  · exact absurd hneg hpos
  obtain ⟨rfl,hsize⟩ := sizeQuery_found (g := g) hw hq
  obtain ⟨hfound,rfl,rfl,rfl⟩ | ⟨-,hcl,rfl,rfl⟩ := h
  · refine ⟨fun _ _ => ⟨0,?_⟩,hd₁,?_⟩
    · rw [getOpened, hax, ← hname]
      exact Function.update_self _ _ _
    · have hlen := hsize hfound
      rw [hname, hd₂.trans hd₁, hcontent] at hlen
      simp [Truthful, ackOf, hlen]
  · refine ⟨fun ha => ?_,(closed_content hcl).trans hd₁,by simp [Truthful, ackOf]⟩
    cases ha

/-- The handle of the download is still open after a call that is no close. -/
theorem Opened.call {c : DosCall} (h : u.Opened resolve g d) (hs : Step resolve d c r d')
    (hc : c ≠ .close g.handle.toUInt16)
    (hg : g'.active = g.active ∧ g'.mode = g.mode ∧ g'.handle = g.handle) :
    u.Opened resolve g' d' := by
  obtain ⟨hact,hmode,hhandle⟩ := hg
  intro ha hm
  obtain ⟨pos,hh⟩ := h (hact ▸ ha) (hmode ▸ hm)
  rw [hhandle]
  exact hs.handle_file hc hh

/-- What a read behind a seek brings is what the file has there. -/
theorem read_after_seek {f : F} {d₁ : Files F} {k : UInt16} {offset : UInt32} {count : UInt16}
    {q : DosRegs} (hh : ∃ pos, d.handles k = some (f,pos))
    (hseek : Step resolve d (.seek k 0 offset) r d₁) (hpos : positionOf r ≠ 0xffffffff)
    (hread : Step resolve d₁ (.read k count) q d') (hneg : ¬ handleOf q < 0) :
    q.carry = false ∧ q.data.length = q.ax.toNat ∧ q.ax ≤ count ∧
      q.data <+: (d.content f).drop offset.toNat := by
  obtain ⟨pos,hh⟩ := hh
  cases hseek with
  | failed _ _ hc => exact absurd (by rw [positionOf, if_pos hc]) hpos
  | seek _ _ _ f' pos' hh' =>
    obtain ⟨rfl,rfl⟩ : f' = f ∧ pos' = pos := by simpa [hh] using hh'.symm
    cases hread with
    | failed _ _ hc => exact absurd (by rw [handleOf, if_pos hc]; decide) hneg
    | read _ _ _ f₂ pos₂ hh₂ hc hp hn hl =>
      obtain ⟨rfl,rfl⟩ : f' = f₂ ∧ offset.toNat = pos₂ := by simpa using hh₂
      exact ⟨hc,hn,hl,hp⟩

/-- The data of a reply is what the file has at the offset. -/
theorem getDataReq_opened (ho : u.Opened resolve g d) (ha : g.active = true) (hm : g.mode = .get)
    (hx : Exec (LooseStep resolve) (idleOp mac fuel .getDataReq) g d sent () g' d')
    (hcontent : d.content (u.file resolve) = u.content) :
    u.Opened resolve g' d' ∧ d'.content = d.content ∧ ∀ a ∈ sent, u.Truthful a := by
  obtain ⟨-,rfl,rfl,rfl⟩ | ⟨hgood,r,d₁,hseek,h⟩ := exec_getDataReq.mp hx
  · exact ⟨ho,rfl,by simp [Truthful, dataOf]⟩
  have hs := hseek.toStep (by simp)
  have hd₁ : d₁.content = d.content := by
    funext f
    exact hs.content_frame trivial
  obtain ⟨-,rfl,rfl,rfl⟩ | ⟨hpos,q,hread,h⟩ := h
  · exact ⟨ho.call hs (by simp) ⟨rfl,rfl,rfl⟩,hd₁,by simp [Truthful, dataOf]⟩
  have hq := hread.toStep (by simp)
  have hd' : d'.content = d.content := by
    rw [← hd₁]
    funext f
    exact hq.content_frame trivial
  have hkept : u.Opened resolve g d' := (ho.call hs (by simp) ⟨rfl,rfl,rfl⟩).call hq (by simp)
    ⟨rfl,rfl,rfl⟩
  obtain ⟨-,rfl,rfl⟩ | ⟨hnneg,rfl,rfl⟩ := h
  · rw [eq_of_sansChunk (sansChunk_storeChunk q)]
    exact ⟨hkept,hd',by simp [Truthful, dataOf]⟩
  obtain ⟨hc,hlen,hle,hpre⟩ := read_after_seek (ho ha hm) hs hpos hq hnneg
  have hcount : q.ax.toNat ≤ 512 := by
    have hmax : g.chunkCount ≤ 512 := by
      simp only [getRefused, Bool.or_eq_false_iff, decide_eq_false_iff_not, UInt16.not_lt] at hgood
      exact hgood.1.2
    exact UInt16.le_iff_toNat_le.mp (UInt16.le_trans hle hmax)
  have hdata : (storeChunk q g).chunk.toList.take q.ax.toNat = q.data := by
    rw [storeChunk, hc, if_neg (by decide), ← hlen]
    exact Bytes.take_overwrite _ _ (by rw [hlen]; exact hcount)
  rw [toUInt16_handleOf hc, eq_of_sansChunk (sansChunk_storeChunk q)]
  refine ⟨hkept,hd',fun a hmem => ?_⟩
  obtain rfl := List.mem_singleton.mp hmem
  intro _ _
  have hfit : (12+q.ax).toNat = 12+q.ax.toNat := by
    rw [UInt16.toNat_add]
    have h12 : (12 : UInt16).toNat = 12 := rfl
    omega
  refine ⟨?_,?_,?_⟩
  · change List.take q.ax.toNat (storeChunk q g).chunk.toList <+: _
    rw [hdata, ← hcontent]
    exact hpre
  · exact (congrArg List.length hdata).trans hlen
  · exact hfit.ge

/-- An operation of the download keeps the file open, and what it answers is true. -/
theorem Pending.idle (h : u.Pending resolve g d op) (hop : op ≠ .none)
    (hx : Exec (LooseStep resolve) (idleOp mac fuel op) g d sent () g' d')
    (hcontent : d.content (u.file resolve) = u.content) :
    u.Opened resolve g' d' ∧ d'.content = d.content ∧ ∀ a ∈ sent, u.Truthful a := by
  cases op with
  | none => exact absurd rfl hop
  | getBegin => exact getBegin_opened h hx hcontent
  | getDataReq => exact getDataReq_opened h.1 h.2.1 h.2.2 hx hcontent
  | getEnd =>
    obtain ⟨hcl,rfl,rfl⟩ := exec_getEnd.mp hx
    refine ⟨fun ha => ?_,closed_content hcl,by simp [Truthful, ackOf]⟩
    cases ha
  | dirListDataReq =>
    obtain ⟨result,hs,rfl⟩ := exec_dirListDataReq.mp hx
    have hd : d' = d := hs.invariant (· = d) collectDirEntries_callsIn
      (fun _ _ _ _ hc he hI => ((he.toStep (by rintro _ _ rfl; exact hc)).of_searches hc).trans hI)
      rfl
    rw [eq_of_sansDir (hs.keeps collectDirEntries_keeps), hd]
    exact ⟨h,rfl,by simp [Truthful, pageOf]⟩
  | putBegin => exact h.elim
  | putData => exact h.elim
  | putEnd => exact h.elim
  | ack => exact h.elim
  | mkdir => exact h.elim
  | delete => exact h.elim
  | rename => exact h.elim
  | copy => exact h.elim

omit [DecidableEq F] in
/-- The answers of other transfers say nothing about the file. -/
theorem truthful_other {a : Reply} (ht : g.transferId ≠ u.transferId)
    (h : AnswerBody g op a.body) : u.Truthful a := by
  obtain ⟨dest,src,sessionId,payloadLen,body⟩ := a
  cases h with
  | ack => exact fun ht' => absurd ht' ht
  | data => exact fun ht' => absurd ht' ht
  | page => trivial

/-- An idle step keeps the file open, and what it answers is true. -/
theorem Tracks.idle (h : u.Tracks resolve true g d) (hop : g.pendingOp ≠ .none)
    (hx : Exec (LooseStep resolve) (idleOp mac fuel g.pendingOp) g.taken d sent () g' d')
    (hcontent : d.content (u.file resolve) = u.content) :
    u.Tracks resolve true g' d' ∧ (g.transferId = u.transferId → d'.content = d.content) ∧
      ∀ a ∈ sent, u.Truthful a := by
  obtain ⟨hlast,payloadLen,body,rfl,hbody⟩ := idleOp_answer hop hx
  simp only [lasting, Prod.mk.injEq] at hlast
  obtain ⟨htid,hpend,-⟩ := hlast
  by_cases ht : g.transferId = u.transferId
  · have hp := h ht
    rw [if_pos rfl] at hp
    have hp' : u.Pending resolve g.taken d g.pendingOp := by
      generalize g.pendingOp = op at hp
      cases op <;> exact hp
    obtain ⟨ho,hd,htrue⟩ := hp'.idle hop hx hcontent
    refine ⟨fun _ => ?_,fun _ => hd,htrue⟩
    rw [if_pos rfl, hpend]
    exact ho
  · refine ⟨fun ht' => absurd (htid.symm.trans ht') ht,fun ht' => absurd ht' ht,?_⟩
    exact List.forall_mem_singleton.mpr (truthful_other (g := g.taken) ht hbody)

/-- Before the download has begun an idle step begins it, or it says nothing about it. -/
theorem Tracks.waiting (h : u.Tracks resolve false g d) (hop : g.pendingOp ≠ .none)
    (hx : Exec (LooseStep resolve) (idleOp mac fuel g.pendingOp) g.taken d sent () g' d')
    (hcontent : d.content (u.file resolve) = u.content) :
    (u.Tracks resolve true g' d' ∨ u.Tracks resolve false g' d' ∧
        ∀ a ∈ sent, ∀ offset, a.body ≠ .fileAck u.transferId .begin .ok offset) ∧
      (g.transferId = u.transferId → d'.content = d.content) ∧ ∀ a ∈ sent, u.Truthful a := by
  by_cases ht : g.transferId = u.transferId
  swap
  · -- a record of another transfer is as good as one of a download that has begun
    have htrue : u.Tracks resolve true g d := fun ht' => absurd ht' ht
    obtain ⟨htracks,hrest⟩ := htrue.idle hop hx hcontent
    exact ⟨.inl htracks,hrest⟩
  have hw := h ht
  rw [if_neg (by decide)] at hw
  by_cases hbegin : g.pendingOp = .getBegin
  · have htrue : u.Tracks resolve true g d := by
      intro _
      rw [if_pos rfl, hbegin]
      rwa [hbegin] at hw
    obtain ⟨htracks,hrest⟩ := htrue.idle hop hx hcontent
    exact ⟨.inl htracks,hrest⟩
  · have hdir : g.pendingOp = .dirListDataReq := by
      generalize g.pendingOp = op at hop hbegin hw
      cases op with
      | none => exact absurd rfl hop
      | getBegin => exact absurd rfl hbegin
      | dirListDataReq => rfl
      | _ => exact hw.elim
    obtain ⟨hlast,payloadLen,body,rfl,hbody⟩ := idleOp_answer hop hx
    simp only [lasting, Prod.mk.injEq] at hlast
    rw [hdir] at hx hbody
    obtain ⟨result,hs,-⟩ := exec_dirListDataReq.mp hx
    have hd : d' = d := hs.invariant (· = d) collectDirEntries_callsIn
      (fun _ _ _ _ hc he hI => ((he.toStep (by rintro _ _ rfl; exact hc)).of_searches hc).trans hI)
      rfl
    refine ⟨.inr ⟨fun _ => ?_,?_⟩,fun _ => by rw [hd],?_⟩
    · rw [if_neg (by decide), hlast.2.1]
      trivial
    · cases hbody with
      | ack hc => cases hc
      | data hop' => cases hop'
      | page => simp
    · cases hbody with
      | ack hc => cases hc
      | data hop' => cases hop'
      | page => exact List.forall_mem_singleton.mpr trivial

end Idle

end Download
end RmtDos
