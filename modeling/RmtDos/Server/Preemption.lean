import Mathlib.Algebra.Group.Nat.Defs
import RmtDos.Dos.Files
import RmtDos.Server.Phases

/-! The packet handler preempts the idle step. Between two DOS calls of an upload step packets
may change the record under it, and a chunk handled there can leave an offset behind that no
longer fits the file. -/
namespace RmtDos
open Resumable Prog Runs Dos

/-- The TSR while an idle step is in progress. The last five fields are history: what the step's
write was asked for, whether its create or write has succeeded and whether a packet since has
spoiled it, the bytes written through the newest handle, and for every write the position it
went to with the declared offset of its chunk. -/
structure Preempted (F : Type) where
  file : FileTransferState
  dos : Files F
  running : Option (FileOp × Tsr Unit)
  count : UInt16
  succeeded : Bool
  spoiled : Bool
  written : ℕ
  log : List (ℕ × UInt32)

/-- The handler interrupts between the calls; the idle step goes on from call to call. -/
inductive PreemptEvent
  | packet (p : Packet)
  | start
  | call (r : DosRegs)
  | resume

/-- A `PUT` packet of transfer `t`. -/
def Packet.PutOf (t : UInt32) (p : Packet) : Prop :=
  (∃ size name, p.payload = .filePutBegin t size name) ∨
    (∃ offset count data, p.payload = .filePutData t offset count data) ∨
    ∃ size, p.payload = .filePutEnd t size

/-- The chunk is refused, and the current offset is queued as the answer. -/
def refusedChunk (offset : UInt32) (count : UInt16) (p : Packet) (g : FileTransferState) : Bool :=
  offset ≠ g.expectedOffset || 512 < count.toNat || p.payloadLen.toNat < 10+count.toNat

variable {F : Type}

/-- A chunk that passes the gates of the handler during an idle step and leaves a count or an
offset behind that does not fit what the step is doing: another count for the chunk being
written, or the offset from before the write or the create as the one to answer with. -/
def spoils (s : Preempted F) (p : Packet) : Bool :=
  match s.running, p.payload with
  | some (op,_), .filePutData t offset count _ =>
    p.Admitted s.file && s.file.active && s.file.mode = .put && t = s.file.transferId &&
      match op with
      | .putData =>
        if refusedChunk offset count p s.file then s.count ≠ 0 else count ≠ s.count
      | .putBegin => refusedChunk offset count p s.file && s.file.expectedOffset ≠ 0
      | _ => false
  | _, _ => false

/-- The history a call of the idle step leaves. -/
def Preempted.record (s : Preempted F) (c : DosCall) (r : DosRegs) : Preempted F :=
  match c with
  | .create _ =>
    { s with
      succeeded := ¬ handleOf r < 0
      written := if handleOf r < 0 then s.written else 0 }
  | .write h data =>
    if !r.carry && r.ax.toNat = data.length then
      { s with
        succeeded := true, written := s.written+data.length
        log := (((s.dos.handles h).map Prod.snd).getD 0,s.file.chunkOffset) :: s.log }
    else { s with succeeded := false }
  | _ => { s with succeeded := false }

/-- The idle step has run to its next call, or to its end. -/
def Preempted.reached (s : Preempted F) (op : FileOp)
    (x : List Reply × FileTransferState × Tsr Unit) : Preempted F :=
  { s with
    file := x.2.1
    running := match x.2.2 with
      | .done () => none
      | rest => some (op,rest) }

/-- A packet is handled under the step in progress. -/
def Preempted.handled (s : Preempted F) (p : Packet) : Preempted F :=
  { s with file := fileTransferHandlePacket p s.file, spoiled := s.spoiled || spoils s p }

/-- The history at the start of a step. -/
def Preempted.fresh (s : Preempted F) : Preempted F :=
  { s with count := s.file.chunkCount, succeeded := false, spoiled := false }

/-- DOS keeps file positions in 32 bits. -/
def Bounded (d : Files F) : Prop := ∀ h x, d.handles h = some x → x.2 < 2^32

inductive PreemptStep [DecidableEq F] (resolve : List UInt8 → F) (mac : MacAddr) (t : UInt32)
    (s : Preempted F) : PreemptEvent → Preempted F → Prop
  | packet (p : Packet) (hp : p.PutOf t) : PreemptStep resolve mac t s (.packet p) (s.handled p)
  | start (fuel : ℕ) (hn : s.running = none) : PreemptStep resolve mac t s .start
      (s.fresh.reached s.file.pendingOp ((fileTransferProcessIdle mac fuel).advance s.file))
  | call (op : FileOp) (c : FileTransferState → DosCall)
      (store : DosRegs → FileTransferState → FileTransferState) (k : DosRegs → Tsr Unit)
      (r : DosRegs) (d : Files F) (hr : s.running = some (op,.call c store k))
      (hd : Dos.Step resolve s.dos (c s.file) r d) (hb : Bounded d) :
    PreemptStep resolve mac t s (.call r)
      { s.record (c s.file) r with file := store r s.file, dos := d, running := some (op,k r) }
  | resume (op : FileOp) (rest : Tsr Unit) (hr : s.running = some (op,rest)) :
    PreemptStep resolve mac t s .resume (s.reached op (rest.advance s.file))

/-- No step whose create or write has succeeded goes on spoiled. -/
def Unspoiled (s : Preempted F) : PreemptEvent → Prop
  | .resume => s.succeeded = true → s.spoiled = false
  | _ => True

/-- The newest handle is at `n`, which is what has been written through it. -/
def Preempted.At (s : Preempted F) (h : Int16) (n : ℕ) : Prop :=
  s.written = n ∧ ∃ f, s.dos.handles h.toUInt16 = some (f,n)

/-- The offset of an upload is what has been written through its handle, and every chunk went
to the position it was declared for. -/
def OffsetTracks (s : Preempted F) : Prop :=
  s.running = none → s.file.active = true → s.file.mode = .put →
    s.At s.file.handle s.file.expectedOffset.toNat ∧ ∀ x ∈ s.log, x.1 = x.2.toNat

/-! The invariant, and what a packet may change under a step in progress. -/

variable {mac : MacAddr} {t : UInt32} {s s' : Preempted F} {p : Packet} {op : FileOp} {rest : Tsr Unit}

/-- The operations of an upload. -/
def IsPutOp (op : FileOp) : Prop :=
  op = .none ∨ op = .putBegin ∨ op = .putData ∨ op = .putEnd ∨ op = .ack

/-- What a packet handled under `s` may leave in the record. -/
structure Handled (s : Preempted F) (p : Packet) (g : FileTransferState) : Prop where
  active : g.active = s.file.active
  mode : g.mode = s.file.mode
  handle : g.handle = s.file.handle
  expected : g.expectedOffset = s.file.expectedOffset
  pending : IsPutOp s.file.pendingOp → IsPutOp g.pendingOp
  ack : g.pendingOp = .ack →
    (s.file.pendingOp = .ack ∧ g.ackOffset = s.file.ackOffset) ∨
      (g.ackOffset = s.file.expectedOffset ∧ (spoils s p = false → ∀ rest,
        (s.running = some (.putData,rest) → s.count = 0) ∧
          (s.running = some (.putBegin,rest) → s.file.expectedOffset = 0)))
  chunk : (g.chunkCount = s.file.chunkCount ∧ g.chunkOffset = s.file.chunkOffset) ∨
    (g.chunkCount.toNat ≤ 512 ∧ g.chunkOffset = s.file.expectedOffset ∧ (spoils s p = false →
      ∀ rest, s.running = some (.putData,rest) → g.chunkCount = s.count))

theorem handled_queueAck {offset : UInt32} {count : UInt16} {data : List UInt8}
    {status : FileAckStatus} (hadm : p.Admitted s.file)
    (hp : p.payload = .filePutData s.file.transferId offset count data)
    (ha : s.file.active = true) (hm : s.file.mode = .put)
    (href : refusedChunk offset count p s.file = true) :
    Handled s p (ackQueued p s.file.transferId status s.file) := by
  refine ⟨rfl,rfl,rfl,rfl,fun _ => .inr (.inr (.inr (.inr rfl))),fun _ => .inr ⟨rfl,?_⟩,.inl ⟨rfl,rfl⟩⟩
  refine fun hsp rest => ⟨fun hr => ?_,fun hr => ?_⟩
  · simpa [spoils, hr, hp, hadm, ha, hm, href] using hsp
  · simpa [spoils, hr, hp, hadm, ha, hm, href] using hsp

theorem handled_packet (hp : p.PutOf t) : Handled s p (fileTransferHandlePacket p s.file) := by
  obtain he | ⟨hadm,hacc⟩ := handlePacket_cases p s.file
  · rw [he]
    exact ⟨rfl,rfl,rfl,rfl,id,fun h => .inl ⟨h,rfl⟩,.inl ⟨rfl,rfl⟩⟩
  generalize fileTransferHandlePacket p s.file = g at hacc
  cases hacc with
  | putBegin =>
    exact ⟨rfl,rfl,rfl,rfl,fun _ => .inr (.inl rfl),nofun,.inl ⟨rfl,rfl⟩⟩
  | putEnd =>
    exact ⟨rfl,rfl,rfl,rfl,fun _ => .inr (.inr (.inr (.inl rfl))),nofun,.inl ⟨rfl,rfl⟩⟩
  | reAck t' offset count data hpay ha hm ht ho =>
    obtain rfl := ht
    exact handled_queueAck hadm hpay ha hm (by simp [refusedChunk, ho])
  | badChunk t' offset count data hpay ha hm ht ho hc =>
    obtain rfl := ht
    exact handled_queueAck hadm hpay ha hm (by simpa [refusedChunk, ho] using hc)
  | putData t' offset count data hpay ha hm ht ho hc =>
    obtain rfl := ht
    refine ⟨rfl,rfl,rfl,rfl,fun _ => .inr (.inr (.inl rfl)),nofun,
      .inr ⟨Nat.le_of_not_lt fun h => hc (.inl h),ho,?_⟩⟩
    intro hsp rest hr
    have hok : refusedChunk offset count p s.file = false := by
      simpa [refusedChunk, ho] using hc
    simpa [spoils, hr, hpay, hadm, ha, hm, hok] using hsp
  | _ =>
    rename_i hpay
    simp_all [Packet.PutOf]

/-- No answer with an offset from before the create is queued. -/
def Preempted.BeginClean (s : Preempted F) : Prop :=
  s.spoiled = false → s.file.pendingOp = .ack → s.file.ackOffset = 0

/-- The write of `PUT_DATA` has moved the handle `n` bytes past the offset of the record. -/
structure Writing (s : Preempted F) (n : ℕ) : Prop where
  at' : s.file.active = true → s.At s.file.handle (s.file.expectedOffset.toNat+n)
  ack : s.file.pendingOp = .ack → s.file.ackOffset = s.file.expectedOffset
  clean : s.spoiled = false → s.file.chunkCount = s.count ∧ (s.file.pendingOp = .ack → s.count = 0)

/-- Where the step in progress is, and what holds there. -/
inductive Stage (mac : MacAddr) (s : Preempted F) : FileOp → Tsr Unit → Prop
  | close (h : Int16) (hc : s.BeginClean) : Stage mac s .putBegin (beginClose mac h)
  | create (hc : s.BeginClean) : Stage mac s .putBegin (beginCreate mac)
  | created (r : DosRegs) (hs : s.succeeded = decide (¬ handleOf r < 0)) (hc : s.BeginClean)
      (ha : ¬ handleOf r < 0 → s.At (handleOf r) 0) : Stage mac s .putBegin (beginEnd mac r)
  | write (hl : s.count.toNat ≤ 512) (ho : s.file.chunkOffset = s.file.expectedOffset)
      (hw : Writing s 0) : Stage mac s .putData (dataWrite mac s.file.handle s.count)
  | written (r : DosRegs) (hs : s.succeeded = writeOk s.count r)
      (hw : Writing s (if writeOk s.count r then s.count.toNat else 0)) :
      Stage mac s .putData (dataEnd mac s.count r)
  | endClose (h : Int16) (status : FileAckStatus) : Stage mac s .putEnd (endClose mac status h)
  | ended (status : FileAckStatus) : Stage mac s .putEnd (endEnd mac status)

/-- Between idle steps: the handle is at the offset of the record, and so is the offset that a
queued answer will store. -/
structure AtRest (s : Preempted F) : Prop where
  at' : s.file.active = true → s.At s.file.handle s.file.expectedOffset.toNat
  ack : s.file.pendingOp = .ack → s.file.active = true → s.file.ackOffset = s.file.expectedOffset

structure PreemptInv (mac : MacAddr) (s : Preempted F) : Prop where
  low : s.dos.LowHandles
  bounded : Bounded s.dos
  mode : s.file.active = true → s.file.mode = .put
  closed : s.file.active = false → s.file.handle < 0
  pending : IsPutOp s.file.pendingOp
  chunk : s.file.chunkCount.toNat ≤ 512
  log : ∀ x ∈ s.log, x.1 = x.2.toNat
  rest : s.running = none → AtRest s
  stage : ∀ op rest, s.running = some (op,rest) → Stage mac s op rest

theorem beginClean_handled (hh : Handled s p (fileTransferHandlePacket p s.file))
    (hr : s.running = some (.putBegin,rest)) (hc : s.BeginClean) : (s.handled p).BeginClean := by
  intro hs ha
  obtain ⟨hs₁,hs₂⟩ : s.spoiled = false ∧ spoils s p = false := by simpa [Preempted.handled] using hs
  obtain ⟨hp,ho⟩ | ⟨ho,hz⟩ := hh.ack ha
  · exact ho.trans (hc hs₁ hp)
  · exact ho.trans ((hz hs₂ rest).2 hr)

theorem writing_handled {n : ℕ} (hh : Handled s p (fileTransferHandlePacket p s.file))
    (hr : s.running = some (.putData,rest)) (hw : Writing s n) : Writing (s.handled p) n := by
  refine ⟨?_,?_,?_⟩
  · intro ha
    have := hw.at' (hh.active.symm.trans ha)
    simp only [Preempted.handled, hh.handle, hh.expected]
    exact this
  · intro ha
    obtain ⟨hp,ho⟩ | ⟨ho,-⟩ := hh.ack ha
    · exact (ho.trans (hw.ack hp)).trans hh.expected.symm
    · exact ho.trans hh.expected.symm
  · intro hs
    obtain ⟨hs₁,hs₂⟩ : s.spoiled = false ∧ spoils s p = false := by
      simpa [Preempted.handled] using hs
    refine ⟨?_,fun ha => ?_⟩
    · obtain ⟨hc,-⟩ | ⟨-,-,hc⟩ := hh.chunk
      · exact hc.trans (hw.clean hs₁).1
      · exact hc hs₂ rest hr
    · obtain ⟨hp,-⟩ | ⟨-,hz⟩ := hh.ack ha
      · exact (hw.clean hs₁).2 hp
      · exact (hz hs₂ rest).1 hr

theorem preemptInv_packet (hI : PreemptInv mac s) (hp : p.PutOf t) :
    PreemptInv mac (s.handled p) := by
  have hh : Handled s p (fileTransferHandlePacket p s.file) := handled_packet hp
  refine ⟨hI.low,hI.bounded,?_,?_,hh.pending hI.pending,?_,hI.log,?_,?_⟩
  · exact fun ha => hh.mode.trans (hI.mode (hh.active.symm.trans ha))
  · exact fun ha => hh.handle ▸ hI.closed (hh.active.symm.trans ha)
  · obtain ⟨hc,-⟩ | ⟨hc,-⟩ := hh.chunk
    · exact hc ▸ hI.chunk
    · exact hc
  · intro hr
    have ha := hI.rest hr
    refine ⟨fun hact => ?_,fun hp hact => ?_⟩
    · have := ha.at' (hh.active.symm.trans hact)
      simp only [Preempted.handled, hh.handle, hh.expected]
      exact this
    · obtain ⟨hp,ho⟩ | ⟨ho,-⟩ := hh.ack hp
      · exact (ho.trans (ha.ack hp (hh.active.symm.trans hact))).trans hh.expected.symm
      · exact ho.trans hh.expected.symm
  · intro op rest hr
    cases hI.stage op rest hr with
    | close h hc => exact .close h (beginClean_handled hh hr hc)
    | create hc => exact .create (beginClean_handled hh hr hc)
    | created r hs hc ha => exact .created r hs (beginClean_handled hh hr hc) ha
    | write hl ho hw =>
      have he : dataWrite mac (s.handled p).file.handle s.count =
          dataWrite mac s.file.handle s.count := by
        rw [Preempted.handled, hh.handle]
      refine he ▸ .write hl ?_ (writing_handled hh hr hw)
      obtain ⟨-,hc⟩ | ⟨-,hc,-⟩ := hh.chunk
      · exact (hc.trans ho).trans hh.expected.symm
      · exact hc.trans hh.expected.symm
    | written r hs hw => exact .written r hs (writing_handled hh hr hw)
    | endClose h status => exact .endClose h status
    | ended status => exact .ended status

@[simp] theorem reached_done (sent : List Reply) (g : FileTransferState) :
    s.reached op (sent,g,.done ()) = { s with file := g, running := none } := rfl

/-- A step ends, with the record `g`. -/
theorem PreemptInv.finish {g : FileTransferState} (hI : PreemptInv mac s)
    (hm : g.active = true → g.mode = .put) (hc : g.active = false → g.handle < 0)
    (hp : IsPutOp g.pendingOp) (hn : g.chunkCount = s.file.chunkCount)
    (hr : AtRest { s with file := g, running := none }) :
    PreemptInv mac { s with file := g, running := none } :=
  ⟨hI.low,hI.bounded,hm,hc,hp,hn ▸ hI.chunk,hI.log,fun _ => hr,nofun⟩

/-- A step has taken its operation and comes to its first call. -/
theorem PreemptInv.enter (hI : PreemptInv mac s)
    (hst : Stage mac { s with file := s.file.taken, running := some (op,rest) } op rest) :
    PreemptInv mac { s with file := s.file.taken, running := some (op,rest) } := by
  refine ⟨hI.low,hI.bounded,hI.mode,hI.closed,.inl rfl,hI.chunk,hI.log,nofun,?_⟩
  rintro op' rest' ⟨⟩
  exact hst

theorem preemptInv_start {fuel : ℕ} (hI : PreemptInv mac s) (hr : s.running = none)
    (hc : s.count = s.file.chunkCount) :
    PreemptInv mac
      (s.reached s.file.pendingOp ((fileTransferProcessIdle mac fuel).advance s.file)) := by
  have hat := hI.rest hr
  have hdone : PreemptInv mac { s with file := s.file.taken, running := none } :=
    hI.finish hI.mode hI.closed (.inl rfl) rfl ⟨hat.at',by rintro ⟨⟩⟩
  obtain hp | hp | hp | hp | hp := hI.pending
  · have hnone : (fileTransferProcessIdle mac fuel).advance s.file = ([],s.file,.done ()) := by
      simp [fileTransferProcessIdle, getFile, advance, hp]
    rw [hnone, reached_done]
    exact hI.finish hI.mode hI.closed hI.pending rfl ⟨hat.at',hat.ack⟩
  all_goals rw [advance_idle (by rw [hp]; decide), hp]
  · rw [advance_putBegin]
    -- the request has been taken, so no answer is queued
    have hclean (running) : Preempted.BeginClean { s with file := s.file.taken, running } := by
      intro _ h
      cases h
    split
    · exact hI.enter (.close _ (hclean _))
    · exact hI.enter (.create (hclean _))
  · rw [advance_putData]
    split_ifs with ho
    · exact hdone
    · have hw : dataWrite mac s.file.taken.handle s.file.taken.chunkCount =
          dataWrite mac s.file.handle s.count := by rw [hc]; rfl
      rw [hw]
      exact hI.enter (.write (hc ▸ hI.chunk) (not_not.mp ho) ⟨hat.at',by rintro ⟨⟩,
        fun _ => ⟨hc.symm,by rintro ⟨⟩⟩⟩)
  · rw [advance_putEnd]
    split
    · rw [advance_endEnd, reached_done]
      exact hI.finish (by rintro ⟨⟩) (fun _ => show (-1 : Int16) < 0 by decide) (.inl rfl) rfl
        ⟨by rintro ⟨⟩,by rintro ⟨⟩⟩
    · exact hI.enter (.endClose _ _)
  · rw [advance_ack, reached_done]
    refine hI.finish hI.mode hI.closed (.inl rfl) rfl ⟨fun ha => ?_,by rintro ⟨⟩⟩
    have hback := hat.ack hp ha
    show s.At s.file.handle s.file.ackOffset.toNat
    rw [hback]
    exact hat.at' ha

theorem preemptInv_resume (hI : PreemptInv mac s) (hr : s.running = some (op,rest))
    (hs : s.succeeded = true → s.spoiled = false) :
    PreemptInv mac (s.reached op (rest.advance s.file)) := by
  -- a step that stands before a call stays there
  have hstay (hres : s.reached op (rest.advance s.file) =
      { s with file := s.file, running := some (op,rest) }) :
      PreemptInv mac (s.reached op (rest.advance s.file)) := by
    rw [hres, ← hr]
    exact hI
  cases hI.stage op rest hr with
  | close | create | write | endClose => exact hstay rfl
  | created r hsucc hc ha =>
    rw [advance_beginEnd, reached_done]
    by_cases hneg : handleOf r < 0
    · have hnot : ¬ 0 ≤ handleOf r := Int16.not_le.mpr hneg
      exact hI.finish (by simp [hnot]) (fun _ => hneg) hI.pending rfl
        ⟨by simp [hnot],by simp [hnot]⟩
    · have hle : 0 ≤ handleOf r := Int16.not_lt.mp hneg
      refine hI.finish (by simp [hle]) (by simp [hle]) hI.pending rfl ⟨fun _ => ha hneg,fun hp _ => ?_⟩
      exact hc (hs (hsucc.trans (decide_eq_true hneg))) hp
  | written r hsucc hw =>
    rw [advance_dataEnd]
    split
    next hok =>
      rw [if_pos hok] at hw
      obtain ⟨hcount,hzero⟩ := hw.clean (hs (hsucc.trans hok))
      rw [reached_done]
      have hsum : s.file.active = true → (s.file.expectedOffset+s.file.chunkCount.toUInt32).toNat =
          s.file.expectedOffset.toNat+s.count.toNat := by
        intro ha
        obtain ⟨-,f,hf⟩ := hw.at' ha
        have := hI.bounded _ _ hf
        rw [hcount, UInt32.toNat_add, UInt16.toNat_toUInt32]
        exact Nat.mod_eq_of_lt this
      refine hI.finish hI.mode hI.closed hI.pending rfl ⟨fun ha => ?_,fun hp _ => ?_⟩
      · show s.At s.file.handle (s.file.expectedOffset+s.file.chunkCount.toUInt32).toNat
        rw [hsum ha]
        exact hw.at' ha
      · show s.file.ackOffset = s.file.expectedOffset+s.file.chunkCount.toUInt32
        rw [hcount, hzero hp, hw.ack hp]
        simp
    next hok =>
      rw [if_neg hok] at hw
      exact hI.finish hI.mode hI.closed hI.pending rfl ⟨hw.at',fun hp _ => hw.ack hp⟩
  | ended status =>
    rw [advance_endEnd, reached_done]
    exact hI.finish nofun (fun _ => show (-1 : Int16) < 0 by decide) hI.pending rfl ⟨nofun,nofun⟩

/-- A call that is no create or write leaves no history but the success mark. -/
theorem PreemptInv.called {d : Files F} {op' : FileOp} {rest' : Tsr Unit} {b : Bool}
    (hI : PreemptInv mac s) (hl : d.LowHandles) (hb : Bounded d)
    (hst : Stage mac { s with succeeded := b, dos := d, running := some (op',rest') } op' rest') :
    PreemptInv mac { s with succeeded := b, dos := d, running := some (op',rest') } := by
  refine ⟨hl,hb,hI.mode,hI.closed,hI.pending,hI.chunk,hI.log,nofun,?_⟩
  rintro op₂ rest₂ ⟨⟩
  exact hst

variable [DecidableEq F] {resolve : List UInt8 → F}

/-- What the write of a step does to the upload. -/
theorem preemptInv_write {r : DosRegs} {d : Files F} (hI : PreemptInv mac s)
    (hl : s.count.toNat ≤ 512) (ho : s.file.chunkOffset = s.file.expectedOffset) (hw : Writing s 0)
    (hd : Dos.Step resolve s.dos
      (.write s.file.handle.toUInt16 (s.file.chunk.toList.take s.count.toNat)) r d)
    (hb : Bounded d) :
    PreemptInv mac { s.record (.write s.file.handle.toUInt16
      (s.file.chunk.toList.take s.count.toNat)) r with
        file := s.file, dos := d, running := some (.putData,dataEnd mac s.count r) } := by
  have hlen : (s.file.chunk.toList.take s.count.toNat).length = s.count.toNat := by
    simpa using Nat.min_eq_left hl
  generalize s.file.chunk.toList.take s.count.toNat = data at hd hlen ⊢
  have hlow := hI.low.step hd
  have hmark : (!r.carry && decide (r.ax.toNat = data.length)) = writeOk s.count r := by
    simp only [writeOk, hlen, UInt16.toNat_inj]
  have hfail (hno : writeOk s.count r = false) (hsame : d = s.dos) :
      PreemptInv mac { s.record (.write s.file.handle.toUInt16 data) r with
        file := s.file, dos := d, running := some (.putData,dataEnd mac s.count r) } := by
    subst hsame
    rw [Preempted.record, hmark, if_neg (by simp [hno])]
    refine hI.called hI.low hI.bounded (.written r hno.symm ?_)
    rw [if_neg (by simp [hno])]
    exact ⟨hw.at',hw.ack,hw.clean⟩
  cases hd with
  | failed _ _ hc => exact hfail (by simp [writeOk, hc]) rfl
  | writeNone _ _ _ hn => exact hfail (by simp [← hmark, hn]) rfl
  | write _ _ _ f pos hh hc hn =>
    have hok : writeOk s.count r = true := by simp [← hmark, hc, hn]
    have hact : s.file.active = true := by
      by_contra hna
      rw [hI.low.none_of_neg (hI.closed (by simpa using hna))] at hh
      cases hh
    obtain ⟨hwr,f',hf⟩ := hw.at' hact
    obtain ⟨rfl,hpos⟩ : f = f' ∧ pos = s.file.expectedOffset.toNat+0 := by simpa [hh] using hf
    rw [Preempted.record, hmark, if_pos hok]
    refine ⟨hlow,hb,hI.mode,hI.closed,hI.pending,hI.chunk,?_,by rintro ⟨⟩,?_⟩
    · intro x hx
      obtain rfl | hx := List.mem_cons.mp hx
      · simp [hh, hpos, ho]
      · exact hI.log x hx
    · rintro op' rest' ⟨⟩
      refine .written r hok.symm ?_
      rw [if_pos hok]
      refine ⟨fun _ => ⟨?_,f,?_⟩,hw.ack,hw.clean⟩
      · show s.written+data.length = s.file.expectedOffset.toNat+s.count.toNat
        omega
      · simp [hlen, hpos]

theorem preemptInv_call {c : FileTransferState → DosCall}
    {store : DosRegs → FileTransferState → FileTransferState} {k : DosRegs → Tsr Unit}
    {r : DosRegs} {d : Files F} (hI : PreemptInv mac s)
    (hr : s.running = some (op,.call c store k)) (hd : Dos.Step resolve s.dos (c s.file) r d)
    (hb : Bounded d) :
    PreemptInv mac
      { s.record (c s.file) r with file := store r s.file, dos := d, running := some (op,k r) } := by
  have hlow := hI.low.step hd
  generalize hp : Prog.call c store k = p at hr
  cases hI.stage op p hr with
  | close h hc =>
    cases hp
    exact hI.called hlow hb (.create hc)
  | create hc =>
    cases hp
    obtain hs | hs := Step.create_cases hd
    · obtain ⟨hneg,rfl⟩ := hs
      refine ⟨hlow,hb,hI.mode,hI.closed,hI.pending,hI.chunk,hI.log,nofun,?_⟩
      rintro op' rest' ⟨⟩
      exact .created r rfl hc fun h => absurd hneg h
    · obtain ⟨hnn,-,-,hh,-,rfl⟩ := hs
      refine ⟨hlow,hb,hI.mode,hI.closed,hI.pending,hI.chunk,hI.log,nofun,?_⟩
      rintro op' rest' ⟨⟩
      exact .created r rfl hc fun _ => ⟨if_neg hnn,resolve (filenameStr s.file),by simp [hh]⟩
  | write hl ho hw =>
    cases hp
    exact preemptInv_write hI hl ho hw hd hb
  | endClose h status =>
    cases hp
    exact hI.called hlow hb (.ended status)
  | created | ended => cases hp
  | written r₀ =>
    rw [dataEnd] at hp
    split at hp <;> cases hp

theorem preemptInv_step {e : PreemptEvent} (hI : PreemptInv mac s) (ho : Unspoiled s e)
    (hs : PreemptStep resolve mac t s e s') : PreemptInv mac s' := by
  cases hs with
  | packet p hp => exact preemptInv_packet hI hp
  | start fuel hn =>
    have hat := hI.rest hn
    have hI' : PreemptInv mac s.fresh := by
      refine ⟨hI.low,hI.bounded,hI.mode,hI.closed,hI.pending,hI.chunk,hI.log,
        fun _ => ⟨hat.at',hat.ack⟩,fun op rest hr => ?_⟩
      exact absurd (hn.symm.trans hr) nofun
    exact preemptInv_start hI' hn rfl
  | call op c store k r d hr hd hb => exact preemptInv_call hI hr hd hb
  | resume op rest hr => exact preemptInv_resume hI hr ho

/-- The TSR after `file_transfer_init`. -/
def Preempted.init (d : Files F) : Preempted F := ⟨fileTransferInit,d,none,0,false,false,0,[]⟩

theorem preemptInv_init {F : Type} {d : Files F} (hl : d.LowHandles) (hb : Bounded d) :
    PreemptInv mac (Preempted.init d) :=
  ⟨hl,hb,nofun,fun _ => show (-1 : Int16) < 0 by decide,.inl rfl,show (0 : UInt16).toNat ≤ 512 by decide,nofun,
    fun _ => ⟨nofun,nofun⟩,nofun⟩

/-- In every run in which no step goes on spoiled after its create or write has succeeded, the
offset of an upload tracks its file. -/
theorem offsetTracks_of_unspoiled {d : Files F} {tr : List (PreemptEvent × Preempted F)}
    (hl : d.LowHandles) (hb : Bounded d) (h : Run (PreemptStep resolve mac t) (Preempted.init d) tr)
    (ha : Along Unspoiled (Preempted.init d) tr) : ∀ x ∈ tr, OffsetTracks x.2 := by
  intro x hx hr hact _
  have hI : PreemptInv mac x.2 := h.invariant (PreemptInv mac)
    (fun _ _ _ hI ho hs => preemptInv_step hI ho hs) ha (preemptInv_init hl hb) x hx
  exact ⟨(hI.rest hr).at' hact,hI.log⟩

/-! An upload of two chunks of one byte. The first one comes again, late, while the second is
being written. -/

def putFrame (len : UInt16) (payload : Payload) : Packet := ⟨Vector.replicate 6 1,1,len,payload⟩

def beginFrame : Packet := putFrame 72 (.filePutBegin 7 2 (Vector.replicate 64 0x41))

def chunkFrame (offset : UInt32) (byte : UInt8) : Packet :=
  putFrame 11 (.filePutData 7 offset 1 [byte])

/-- A disk with one file, and what handle 5 of it is at. -/
def oneFile (content : List UInt8) (pos : Option ℕ) : Files Unit :=
  ⟨fun _ => content,Function.update (fun _ => none) 5 (pos.map ((),·))⟩

theorem oneFile_low (content : List UInt8) (pos : Option ℕ) : (oneFile content pos).LowHandles := by
  intro h x hx
  by_cases he : h = 5
  · rw [he]
    decide
  · simp [oneFile, Function.update_of_ne he] at hx

theorem oneFile_bounded {content : List UInt8} {pos : Option ℕ} (hp : ∀ n ∈ pos, n < 2^32) :
    Bounded (oneFile content pos) := by
  intro h x hx
  by_cases he : h = 5
  · obtain ⟨n,hn,rfl⟩ : ∃ n, pos = some n ∧ ((),n) = x := by simpa [oneFile, he] using hx
    exact hp n hn
  · simp [oneFile, Function.update_of_ne he] at hx

/-- The next state when a step starts and comes to the call of `rest`, and when it goes on. -/
def startNext (rest : Tsr Unit) (s : Preempted Unit) : PreemptEvent × Preempted Unit :=
  (.start,{ s.fresh with file := s.file.taken, running := some (s.file.pendingOp,rest) })

def resumeNext (op : FileOp) (rest : Tsr Unit) (s : Preempted Unit) : PreemptEvent × Preempted Unit :=
  (.resume,s.reached op (rest.advance s.file))

/-- The create gives handle 5, and a write of one byte stores it at `n`. -/
def createNext (s : Preempted Unit) : PreemptEvent × Preempted Unit :=
  (.call ⟨false,5,0,0,0,[]⟩,{ s with
    dos := oneFile [] (some 0), succeeded := true, written := 0
    running := some (.putBegin,beginEnd (Vector.replicate 6 0) ⟨false,5,0,0,0,[]⟩) })

def writeNext (n : ℕ) (s : Preempted Unit) : PreemptEvent × Preempted Unit :=
  (.call ⟨false,1,0,0,0,[]⟩,{ s with
    dos := oneFile (writeAt (s.dos.content ()) n (s.file.chunk.toList.take 1)) (some (n+1))
    succeeded := true, written := s.written+1, log := (n,s.file.chunkOffset) :: s.log
    running := some (.putData,dataEnd (Vector.replicate 6 0) 1 ⟨false,1,0,0,0,[]⟩) })

abbrev ByteStep := PreemptStep (fun _ => ()) (Vector.replicate 6 0) 7

theorem start_begin {s : Preempted Unit} (hr : s.running = none) (hp : s.file.pendingOp = .putBegin)
    (ha : s.file.active = false) :
    ByteStep s (startNext (beginCreate (Vector.replicate 6 0)) s).1
      (startNext (beginCreate (Vector.replicate 6 0)) s).2 := by
  have h := @PreemptStep.start Unit _ (fun _ => ()) (Vector.replicate 6 0) 7 s 0 hr
  rw [advance_idle (by rw [hp]; decide), hp, advance_putBegin,
    if_neg (show ¬ (s.file.taken.active = true ∧ _) by simp [FileTransferState.taken, ha])] at h
  rw [startNext, hp]
  exact h

theorem start_data {s : Preempted Unit} (hr : s.running = none) (hp : s.file.pendingOp = .putData)
    (ho : s.file.chunkOffset = s.file.expectedOffset) :
    ByteStep s (startNext (dataWrite (Vector.replicate 6 0) s.file.handle s.file.chunkCount) s).1
      (startNext (dataWrite (Vector.replicate 6 0) s.file.handle s.file.chunkCount) s).2 := by
  have h := @PreemptStep.start Unit _ (fun _ => ()) (Vector.replicate 6 0) 7 s 0 hr
  rw [advance_idle (by rw [hp]; decide), hp, advance_putData,
    if_neg (show ¬ s.file.taken.chunkOffset ≠ s.file.taken.expectedOffset from not_not.mpr ho)] at h
  rw [startNext, hp]
  exact h

theorem resume_step {s : Preempted Unit} {op : FileOp} {rest : Tsr Unit}
    (hr : s.running = some (op,rest)) :
    ByteStep s (resumeNext op rest s).1 (resumeNext op rest s).2 := .resume op rest hr

theorem oneFile_update (old content : List UInt8) (pos : Option ℕ) (n : ℕ) :
    (⟨Function.update (oneFile old pos).content () content,
      Function.update (oneFile old pos).handles 5 (some ((),n))⟩ : Files Unit) =
      oneFile content (some n) := by
  simp only [oneFile, Function.update_idem, Files.mk.injEq]
  exact ⟨funext fun u => by simp,rfl⟩

theorem create_step {s : Preempted Unit}
    (hr : s.running = some (.putBegin,beginCreate (Vector.replicate 6 0)))
    (hd : s.dos = oneFile [] none) (hw : hasWildcard (filenameStr s.file) = false) :
    ByteStep s (createNext s).1 (createNext s).2 := by
  have hstep : Dos.Step (fun _ => ()) s.dos (.create (filenameStr s.file)) ⟨false,5,0,0,0,[]⟩
      (oneFile [] (some 0)) := by
    have hc := @Dos.Step.create Unit _ (fun _ => ()) s.dos (filenameStr s.file) ⟨false,5,0,0,0,[]⟩
      rfl (show (5 : UInt16) < 0x8000 by decide) (by simp [hd, oneFile]) hw
    rw [hd] at hc ⊢
    exact oneFile_update [] [] none 0 ▸ hc
  exact .call .putBegin _ _ _ _ _ hr hstep (oneFile_bounded (by simp))

theorem write_step {s : Preempted Unit} {n : ℕ} {old : List UInt8}
    (hr : s.running = some (.putData,dataWrite (Vector.replicate 6 0) 5 1))
    (hd : s.dos = oneFile old (some n)) (hn : n+1 < 2^32) :
    ByteStep s (writeNext n s).1 (writeNext n s).2 := by
  have hlen : (s.file.chunk.toList.take 1).length = 1 := by simp
  have hh : s.dos.handles 5 = some ((),n) := by simp [hd, oneFile]
  have hstep : Dos.Step (fun _ => ()) s.dos (.write 5 (s.file.chunk.toList.take 1))
      ⟨false,1,0,0,0,[]⟩ (writeNext n s).2.dos := by
    have hw := @Dos.Step.write Unit _ (fun _ => ()) s.dos 5
      (s.file.chunk.toList.take 1) ⟨false,1,0,0,0,[]⟩ () n hh rfl hlen.symm
    rw [hlen] at hw
    simp only [writeNext]
    rw [hd] at hw ⊢
    exact oneFile_update old _ (some n) (n+1) ▸ hw
  have hrec : s.record (.write 5 (s.file.chunk.toList.take 1)) ⟨false,1,0,0,0,[]⟩ =
      { s with succeeded := true, written := s.written+1, log := (n,s.file.chunkOffset) :: s.log } := by
    simp [Preempted.record, hlen, hh]
  have hcall : ByteStep s (writeNext n s).1
      { s.record (.write 5 (s.file.chunk.toList.take 1)) ⟨false,1,0,0,0,[]⟩ with
        file := s.file, dos := (writeNext n s).2.dos, running := (writeNext n s).2.running } :=
    .call .putData _ _ _ _ _ hr hstep (oneFile_bounded (by simpa using hn))
  rw [hrec] at hcall
  exact hcall

/-! The states of the run. -/

def uploadBegun : List (PreemptEvent × Preempted Unit) :=
  let s₀ := (Preempted.init (oneFile [] none)).handled beginFrame
  let s₁ := startNext (beginCreate (Vector.replicate 6 0)) s₀
  let s₂ := createNext s₁.2
  [(.packet beginFrame,s₀),s₁,s₂,
    resumeNext .putBegin (beginEnd (Vector.replicate 6 0) ⟨false,5,0,0,0,[]⟩) s₂.2]

theorem uploadBegun_run : Run ByteStep (Preempted.init (oneFile [] none)) uploadBegun := by
  refine .cons (.packet _ (.inl ⟨2,_,rfl⟩)) (.cons (start_begin rfl rfl rfl)
    (.cons (create_step rfl rfl ?_) (.cons (resume_step rfl) (.nil _))))
  decide

def begunAt : Preempted Unit := final (Preempted.init (oneFile [] none)) uploadBegun

/-- A chunk of one byte is taken up, and later its write at `n` ends. -/
def chunkStarted (p : Packet) (s : Preempted Unit) : List (PreemptEvent × Preempted Unit) :=
  [(.packet p,s.handled p),startNext (dataWrite (Vector.replicate 6 0) 5 1) (s.handled p)]

def chunkStored (n : ℕ) (s : Preempted Unit) : List (PreemptEvent × Preempted Unit) :=
  [writeNext n s,
    resumeNext .putData (dataEnd (Vector.replicate 6 0) 1 ⟨false,1,0,0,0,[]⟩) (writeNext n s).2]

def firstChunk : List (PreemptEvent × Preempted Unit) :=
  chunkStarted (chunkFrame 0 0x58) begunAt ++
    chunkStored 0 (final begunAt (chunkStarted (chunkFrame 0 0x58) begunAt))

theorem firstChunk_run : Run ByteStep begunAt firstChunk := by
  refine .cons (.packet _ (.inr (.inl ⟨0,1,_,rfl⟩))) (.cons (start_data rfl rfl rfl)
    (.cons (write_step rfl rfl (by decide)) (.cons (resume_step rfl) (.nil _))))

def oneChunkIn : Preempted Unit := final begunAt firstChunk

/-- Undisturbed, the offset is that of the file. -/
theorem offsetTracks_oneChunk : OffsetTracks oneChunkIn := by
  have hmem : (.resume,oneChunkIn) ∈ uploadBegun ++ firstChunk :=
    List.mem_append_right _ (List.mem_append_right _ (List.mem_cons_of_mem _ List.mem_cons_self))
  refine offsetTracks_of_unspoiled (oneFile_low _ _) (oneFile_bounded (by simp))
    (uploadBegun_run.append firstChunk_run) ?_ _ hmem
  exact ⟨trivial,trivial,trivial,fun _ => rfl,trivial,trivial,trivial,fun _ => rfl,trivial⟩

/-- The second chunk is being written when the first one comes again, and the answer to that
one is sent when the write is done. -/
def lateChunk : List (PreemptEvent × Preempted Unit) :=
  let s₁ := final oneChunkIn (chunkStarted (chunkFrame 1 0x59) oneChunkIn)
  let s₂ := s₁.handled (chunkFrame 0 0x58)
  let s₃ := final s₂ (chunkStored 1 s₂)
  chunkStarted (chunkFrame 1 0x59) oneChunkIn ++ (.packet (chunkFrame 0 0x58),s₂) ::
    chunkStored 1 s₂ ++ [(.start,s₃.fresh.reached s₃.file.pendingOp
      ((fileTransferProcessIdle (Vector.replicate 6 0) 0).advance s₃.file))]

/-- Two bytes are in the file, and the offset of the upload is 1. -/
theorem offset_drifts :
    (oneFile [] none).LowHandles ∧ Bounded (oneFile [] none) ∧
      Run ByteStep (Preempted.init (oneFile [] none)) (uploadBegun ++ (firstChunk ++ lateChunk)) ∧
      (final oneChunkIn lateChunk).written = 2 ∧
      (final oneChunkIn lateChunk).file.expectedOffset = 1 ∧
      ¬ OffsetTracks (final oneChunkIn lateChunk) := by
  refine ⟨oneFile_low _ _,oneFile_bounded (by simp),uploadBegun_run.append (firstChunk_run.append ?_),
    rfl,rfl,fun h => ?_⟩
  · exact .cons (.packet _ (.inr (.inl ⟨1,1,_,rfl⟩))) (.cons (start_data rfl rfl rfl)
      (.cons (.packet _ (.inr (.inl ⟨0,1,_,rfl⟩))) (.cons (write_step rfl rfl (by decide))
        (.cons (resume_step rfl) (.cons (.start 0 rfl) (.nil _))))))
  · have htwo : (2 : ℕ) = 1 := (h rfl rfl rfl).1.1
    exact absurd htwo (by decide)

end RmtDos
