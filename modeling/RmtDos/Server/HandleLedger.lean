import Mathlib.Data.Finset.Basic
import RmtDos.Server.Atomic

/-! Ownership of DOS file handles. A ledger records the handles the TSR has opened and not yet
closed; every service may fail. Only a close that DOS refuses, a packet that turns an active transfer
into a listing, or one that ends a listing while a transfer is active, breaks the ledger. -/
namespace RmtDos
open Resumable Prog Runs

/-- The handles opened and not closed, and whether a handle was closed that was not held. -/
structure Ledger where
  held : Finset UInt16
  stray : Bool
  deriving DecidableEq

namespace Ledger

def empty : Ledger := ⟨∅,false⟩

/-- A new handle differs from the handles held, and a DOS handle is never negative as an
`int`. A close that is refused leaves its handle open. Everything else about the replies is
arbitrary. -/
def Step (L : Ledger) (c : DosCall) (r : DosRegs) (L' : Ledger) : Prop :=
  match c with
  | .create _ | .openRead _ =>
    if r.carry then L' = L
    else r.ax < 0x8000 ∧ r.ax ∉ L.held ∧ L' = { L with held := insert r.ax L.held }
  | .close h => L' = ⟨if r.carry then L.held else L.held.erase h,L.stray || decide (h ∉ L.held)⟩
  | _ => L' = L

/-- The ledger that the TSR goes by: it does not look at the carry of a close. -/
def AssumedStep (L : Ledger) (c : DosCall) (r : DosRegs) (L' : Ledger) : Prop :=
  match c with
  | .close h => L' = ⟨L.held.erase h,L.stray || decide (h ∉ L.held)⟩
  | _ => Step L c r L'

@[simp] theorem step_close {L L' : Ledger} {h : UInt16} {r : DosRegs} :
    AssumedStep L (.close h) r L' ↔ L' = ⟨L.held.erase h,L.stray || decide (h ∉ L.held)⟩ := Iff.rfl

/-- The ledger of a record that owns its handle and nothing else. -/
def owning (h : Int16) : Ledger := ⟨if h < 0 then ∅ else {h.toUInt16},false⟩

variable {L L' : Ledger} {r : DosRegs}

@[simp] theorem owning_neg : owning (-1) = empty := rfl

/-- With nothing held, opening a file leaves the new handle held, or nothing. -/
theorem owning_handleOf (h : if r.carry then L' = empty else
    r.ax < 0x8000 ∧ r.ax ∉ empty.held ∧ L' = { empty with held := insert r.ax empty.held }) :
    L' = owning (handleOf r) := by
  split_ifs at h with hc
  · simp [h, handleOf, hc]
  · have hc' : r.carry = false := by simpa using hc
    simp [h.2.2, owning, handleOf_nonneg hc' h.1, toUInt16_handleOf hc', empty]

/-- A guarded close releases the only handle, if the guard fails on no open handle. -/
theorem closed_owning {b : Bool} {h : Int16} (hb : b = false → h < 0)
    (hc : Closed AssumedStep b h (owning h) L') : L' = empty := by
  unfold Closed at hc
  split_ifs at hc with hg
  · obtain ⟨r,hr⟩ := hc
    rw [step_close] at hr
    simp [hr, owning, hg.2, empty]
  · have hn : h < 0 := by
      cases b
      · exact hb rfl
      · simpa using hg
    simp [hc, owning, hn, empty]

/-- Closing a handle just opened restores the ledger. -/
theorem closed_insert {h : Int16} (hn : ¬ h < 0) (hf : h.toUInt16 ∉ L.held)
    (hc : Closed AssumedStep true h { L with held := insert h.toUInt16 L.held } L') : L' = L := by
  simp only [Closed, hn, not_false_eq_true, and_self, if_true, step_close] at hc
  obtain ⟨r,hr⟩ := hc
  simp [hr, hf]

theorem sizeQuery_eq {name : List UInt8} (h : SizeQuery AssumedStep name L r L') : L' = L := by
  obtain ⟨_,_,_,_,_,_,h₀,h₁,h₂,h₃⟩ := h
  rw [h₃, h₂, h₁, h₀]

/-- A program that neither opens nor closes leaves the ledger alone. -/
theorem eq_of_callsIn {α : Type} {p : Tsr α} {g g' : FileTransferState} {os : List Reply} {a : α}
    {P : DosCall → Prop} (hp : p.CallsIn P) (hP : ∀ c L r L', P c → AssumedStep L c r L' → L' = L)
    (h : Exec AssumedStep p g L os a g' L') : L' = L :=
  h.invariant (· = L) hp (fun _ _ _ _ hc hs hI => (hP _ _ _ _ hc hs).trans hI) rfl

end Ledger

variable {mac : MacAddr} {fuel : ℕ} {g g' : FileTransferState} {L L' : Ledger} {os : List Reply}

/-- What an open or create does to any ledger. -/
theorem Ledger.opened {r : DosRegs} (h : if r.carry then L' = L else
    r.ax < 0x8000 ∧ r.ax ∉ L.held ∧ L' = { L with held := insert r.ax L.held }) :
    (handleOf r < 0 ∧ L' = L) ∨ (¬ handleOf r < 0 ∧ (handleOf r).toUInt16 ∉ L.held ∧
      L' = { L with held := insert (handleOf r).toUInt16 L.held }) := by
  split_ifs at h with hc
  · exact .inl ⟨by simp [handleOf, hc],h⟩
  · have hc' : r.carry = false := by simpa using hc
    rw [toUInt16_handleOf hc']
    exact .inr ⟨handleOf_nonneg hc' h.1,h.2⟩

theorem copyLoop_ledger {hin hout : Int16} {n : UInt32} {result : Bool × UInt32}
    (h : Exec Ledger.AssumedStep (copyLoop hin hout fuel n) g L os result g' L') : L' = L := by
  refine Ledger.eq_of_callsIn (copyLoop_callsIn hin hout n) ?_ h
  rintro c L r L' hc hs
  cases c <;> first | exact hs | exact hc.elim

/-- A copy closes what it opened, on every path. -/
theorem copyFile_ledger {result : Bool × UInt32}
    (h : Exec Ledger.AssumedStep (dosCopyFile fuel) g L os result g' L') : L' = L := by
  obtain ⟨-,r,L₁,ho,⟨hr,-,-,rfl⟩ | ⟨hr,q,L₂,hq,h⟩⟩ := exec_dosCopyFile.mp h
  · rcases Ledger.opened ho with ⟨-,rfl⟩ | ⟨hn,-⟩
    · rfl
    · exact absurd hr hn
  rcases Ledger.opened ho with ⟨hn,-⟩ | ⟨-,hf,rfl⟩
  · exact absurd hn hr
  rcases h with ⟨hn,-,-,hc⟩ | ⟨hn,L₃,L₄,hl,h₁,h₂⟩
  · rcases Ledger.opened hq with ⟨-,rfl⟩ | ⟨hn',-⟩
    · exact Ledger.closed_insert hr hf hc
    · exact absurd hn hn'
  · rcases Ledger.opened hq with ⟨hn',-⟩ | ⟨-,hf',rfl⟩
    · exact absurd hn' hn
    obtain rfl := copyLoop_ledger hl
    obtain rfl := Ledger.closed_insert hn hf' h₁
    exact Ledger.closed_insert hr hf h₂

/-- What the ledger has to be between two steps. -/
def Owned (g : FileTransferState) (L : Ledger) : Prop :=
  L = ⟨if InTransfer g then {g.handle.toUInt16} else ∅,false⟩

/-- The record owns its handle, and has one exactly during a transfer. -/
structure HandleInv (g : FileTransferState) (L : Ledger) : Prop where
  ledger : L = Ledger.owning g.handle
  handle : InTransfer g ↔ ¬ g.handle < 0

theorem HandleInv.owned (h : HandleInv g L) : Owned g L := by
  rw [Owned, h.ledger, Ledger.owning]
  by_cases hg : g.handle < 0 <;> simp [hg, h.handle]

/-- The packets that end a transfer without closing its file. -/
def CutsOff (g : FileTransferState) : DiskEvent → Prop
  | .packet p => p.Admitted g ∧ InTransfer g ∧
    ((∃ r path, p.payload = .dirListBegin r path) ∨ p.payload = .dirListEnd g.dirRequestId)
  | .idle .. => False

/-- A close that DOS refuses. -/
def RefusedClose : DosCall → DosRegs → Prop
  | .close _, r => r.carry = true
  | _, _ => False

def ClosesRefused (calls : List (DosCall × DosRegs)) : Prop := ∃ x ∈ calls, RefusedClose x.1 x.2

/-- The idle steps in which DOS refuses a close. -/
def LosesHandle : DiskEvent → Prop
  | .packet _ => False
  | .idle calls _ => ClosesRefused calls

/-- The TSR with the ledger. -/
def HandleStep (mac : MacAddr) (s : FileTransferState × Ledger) :
    DiskEvent → FileTransferState × Ledger → Prop
  | .packet p, s' => s' = (fileTransferHandlePacket p s.1,s.2)
  | .idle calls sent, s' => ∃ fuel,
    Exec (Logged Ledger.Step) (fileTransferProcessIdle mac fuel) s.1 (s.2,[]) sent () s'.1 (s'.2,calls)

/-- Only three fields of the record matter. -/
theorem HandleInv.congr (h : HandleInv g L) (hh : g'.handle = g.handle)
    (ha : g'.active = g.active) (hm : g'.mode = g.mode) : HandleInv g' L := by
  refine ⟨hh ▸ h.ledger,?_⟩
  rw [InTransfer, ha, hm, hh]
  exact h.handle

theorem HandleInv.sansDir (h : HandleInv g L) (hg : sansDir g' = sansDir g) : HandleInv g' L := by
  rw [eq_of_sansDir hg]
  exact ⟨h.ledger,h.handle⟩

theorem HandleInv.sansChunk (h : HandleInv g L) (hg : sansChunk g' = sansChunk g) :
    HandleInv g' L := by
  rw [eq_of_sansChunk hg]
  exact ⟨h.ledger,h.handle⟩

theorem HandleInv.closed_active (h : HandleInv g L)
    (hc : Closed Ledger.AssumedStep g.active g.handle L L') : L' = Ledger.empty := by
  rw [h.ledger] at hc
  refine Ledger.closed_owning (fun ha => ?_) hc
  by_contra hn
  simpa [ha] using (h.handle.mpr hn).1

theorem HandleInv.closed (h : HandleInv g L) (hc : Closed Ledger.AssumedStep true g.handle L L') :
    L' = Ledger.empty := by
  rw [h.ledger] at hc
  exact Ledger.closed_owning (by simp) hc

theorem handleInv_packet {p : Packet} (h : HandleInv g L) (hc : ¬ CutsOff g (.packet p)) :
    HandleInv (fileTransferHandlePacket p g) L := by
  rcases handlePacket_cases p g with he | ⟨ha,he⟩
  · rwa [he]
  generalize fileTransferHandlePacket p g = g' at he
  have hcut : InTransfer g → ¬ ((∃ r path, p.payload = .dirListBegin r path) ∨
      p.payload = .dirListEnd g.dirRequestId) := fun ht hd => hc ⟨ha,ht,hd⟩
  cases he with
  | dirListBegin r path hp =>
    have hn : ¬ InTransfer g := fun ht => hcut ht (.inl ⟨r,path,hp⟩)
    exact ⟨h.ledger,by simpa [InTransfer, rememberClient] using not_not.mp (mt h.handle.mpr hn)⟩
  | dirListEnd r hp hr =>
    have hn : ¬ InTransfer g := fun ht => hcut ht (.inr (hr ▸ hp))
    exact ⟨h.ledger,by simpa [InTransfer] using not_not.mp (mt h.handle.mpr hn)⟩
  | _ => exact ⟨h.ledger,h.handle⟩

/-- The record and ledger after a `BEGIN` has opened its file. -/
theorem handleInv_opened {m : FileMode} (hm : m = .put ∨ m = .get) {h : Int16}
    (hL : L = Ledger.owning h) (hh : g.handle = h) (ha : g.active = decide (0 ≤ h))
    (hg : 0 ≤ h → g.mode = m) : HandleInv g L := by
  refine ⟨hh ▸ hL,?_⟩
  rw [InTransfer, ha, hh, Int16.not_lt]
  constructor
  · exact fun ht => of_decide_eq_true ht.1
  · intro hn
    exact ⟨by simpa using hn,by simpa [hg hn] using hm⟩

theorem handleInv_idle (h : HandleInv g L)
    (he : Exec Ledger.AssumedStep (fileTransferProcessIdle mac fuel) g L os () g' L') :
    HandleInv g' L' := by
  rcases exec_idle.mp he with ⟨-,-,rfl,rfl⟩ | ⟨hn,he⟩
  · exact h
  have ht : HandleInv g.taken L := ⟨h.ledger,h.handle⟩
  revert he hn
  generalize g.pendingOp = op
  generalize g.taken = g at ht
  intro hn he
  cases op with
  | none => exact absurd rfl hn
  | putBegin =>
    obtain ⟨L₁,r,hc,hs,rfl,-⟩ := exec_putBegin.mp he
    obtain rfl := ht.closed_active hc
    exact handleInv_opened (.inl rfl) (Ledger.owning_handleOf hs) rfl rfl fun hh => if_pos hh
  | putData =>
    rcases exec_putData.mp he with ⟨-,rfl,rfl,-⟩ | ⟨-,r,hs,⟨-,rfl,-⟩ | ⟨-,rfl,-⟩⟩
    · exact ht
    · obtain rfl : L' = L := hs
      exact ⟨ht.ledger,ht.handle⟩
    · obtain rfl : L' = L := hs
      exact ht
  | putEnd =>
    obtain ⟨hc,rfl,-⟩ := exec_putEnd.mp he
    exact ⟨ht.closed hc,by simp [InTransfer]⟩
  | ack =>
    obtain ⟨rfl,rfl,-⟩ := exec_ack.mp he
    exact ⟨ht.ledger,ht.handle⟩
  | getBegin =>
    obtain ⟨L₁,r,L₂,hc,hs,⟨hr,rfl,rfl,-⟩ | ⟨hr,found,L₃,hq,h⟩⟩ := exec_getBegin.mp he
    · obtain rfl := ht.closed_active hc
      obtain rfl := Ledger.owning_handleOf hs
      exact ⟨by simp [Ledger.owning, hr, getClosed],by simp [InTransfer, getClosed]⟩
    · obtain rfl := ht.closed_active hc
      obtain rfl := Ledger.owning_handleOf hs
      obtain rfl := Ledger.sizeQuery_eq hq
      rcases h with ⟨-,rfl,rfl,-⟩ | ⟨-,hc',rfl,-⟩
      · refine handleInv_opened (.inr rfl) rfl rfl ?_ fun _ => rfl
        simpa [getOpened] using hr
      · exact ⟨Ledger.closed_owning (by simp) hc',by simp [InTransfer, getClosed]⟩
  | getDataReq =>
    rcases exec_getDataReq.mp he with ⟨-,rfl,rfl,-⟩ |
      ⟨-,r,L₁,hs,⟨-,rfl,rfl,-⟩ | ⟨-,q,hq,⟨-,rfl,-⟩ | ⟨-,rfl,-⟩⟩⟩
    · exact ⟨ht.ledger,ht.handle⟩
    · obtain rfl : L' = L := hs
      exact ⟨ht.ledger,ht.handle⟩
    · obtain rfl : L₁ = L := hs
      obtain rfl : L' = L₁ := hq
      exact (ht.sansChunk (sansChunk_storeChunk q)).congr rfl rfl rfl
    · obtain rfl : L₁ = L := hs
      obtain rfl : L' = L₁ := hq
      exact (ht.sansChunk (sansChunk_storeChunk q)).congr rfl rfl rfl
  | getEnd =>
    obtain ⟨hc,rfl,-⟩ := exec_getEnd.mp he
    exact ⟨ht.closed hc,by simp [InTransfer]⟩
  | dirListDataReq =>
    obtain ⟨result,hs,-⟩ := exec_dirListDataReq.mp he
    have hL : L' = L := by
      refine Ledger.eq_of_callsIn collectDirEntries_callsIn ?_ hs
      rintro c L r L' hc hs
      cases c <;> first | exact hs | exact hc.elim
    exact hL ▸ ht.sansDir (hs.keeps collectDirEntries_keeps)
  | mkdir =>
    obtain ⟨r,hs,rfl,-⟩ := exec_mkdir.mp he
    obtain rfl : L' = L := hs
    exact ht
  | delete =>
    obtain ⟨r,hs,rfl,-⟩ := exec_delete.mp he
    rw [deleteCall] at hs
    split_ifs at hs
    · obtain rfl : L' = L := hs
      exact ht
    · obtain rfl : L' = L := hs
      exact ht
  | rename =>
    rcases exec_rename.mp he with ⟨-,rfl,rfl,-⟩ | ⟨-,r,hs,rfl,-⟩
    · exact ht
    · obtain rfl : L' = L := hs
      exact ht
  | copy =>
    rcases exec_copy.mp he with ⟨-,rfl,rfl,-⟩ | ⟨-,result,g₁,hs,rfl,-⟩
    · exact ⟨ht.ledger,ht.handle⟩
    · obtain rfl := copyFile_ledger hs
      exact (ht.sansChunk (hs.keeps dosCopyFile_keeps)).congr rfl rfl rfl

/-- The ledger `x.1`, with the calls so far, against the ledger that the TSR goes by. As long as the
TSR has closed its own handles only, they agree until a close is refused, and from then on a handle
is held that the TSR knows nothing of. -/
structure Reconciled (x : Ledger × List (DosCall × DosRegs)) (B : Ledger) : Prop where
  sub : B.held ⊆ x.1.held
  agree : B.stray = false → ¬ ClosesRefused x.2 → x.1 = B
  lost : B.stray = false → ClosesRefused x.2 → ∃ k ∈ x.1.held, k ∉ B.held

theorem closesRefused_append {calls : List (DosCall × DosRegs)} {c : DosCall} {r : DosRegs} :
    ClosesRefused (calls ++ [(c,r)]) ↔ ClosesRefused calls ∨ RefusedClose c r := by
  simp [ClosesRefused, or_and_right, exists_or]

/-- A call that is no close and leaves both ledgers alone. -/
theorem Reconciled.other {calls : List (DosCall × DosRegs)} {B : Ledger} {c : DosCall} {r : DosRegs}
    (h : Reconciled (L,calls) B) (hc : ¬ RefusedClose c r) : Reconciled (L,calls ++ [(c,r)]) B := by
  refine ⟨h.sub,fun hs hn => ?_,fun hs hr => ?_⟩
  · exact h.agree hs fun hr => hn (closesRefused_append.mpr (.inl hr))
  · exact h.lost hs ((closesRefused_append.mp hr).resolve_right hc)

/-- A handle that is new to the ledger is new to the TSR. -/
theorem Reconciled.opened {calls : List (DosCall × DosRegs)} {B : Ledger} {c : DosCall} {r : DosRegs}
    (h : Reconciled (L,calls) B) (hc : ¬ RefusedClose c r)
    (hs : if r.carry then L' = L
      else r.ax < 0x8000 ∧ r.ax ∉ L.held ∧ L' = { L with held := insert r.ax L.held }) :
    ∃ B', (if r.carry then B' = B
      else r.ax < 0x8000 ∧ r.ax ∉ B.held ∧ B' = { B with held := insert r.ax B.held }) ∧
      Reconciled (L',calls ++ [(c,r)]) B' := by
  split_ifs at hs ⊢ with hr
  · exact ⟨B,rfl,hs ▸ h.other hc⟩
  obtain ⟨hax,hnew,rfl⟩ := hs
  refine ⟨_,⟨hax,fun hm => hnew (h.sub hm),rfl⟩,?_⟩
  refine ⟨Finset.insert_subset_insert _ h.sub,fun hb hn => ?_,fun hb hl => ?_⟩
  · have ha := h.agree hb fun hr => hn (closesRefused_append.mpr (.inl hr))
    exact congrArg (fun L : Ledger => { L with held := insert r.ax L.held }) ha
  · obtain ⟨k,hk,hkB⟩ := h.lost hb ((closesRefused_append.mp hl).resolve_right hc)
    refine ⟨k,Finset.mem_insert_of_mem hk,?_⟩
    rw [Finset.mem_insert, not_or]
    exact ⟨fun he => hnew (he ▸ hk),hkB⟩

theorem Reconciled.closed {calls : List (DosCall × DosRegs)} {B : Ledger} {k : UInt16} {r : DosRegs}
    (h : Reconciled (L,calls) B) :
    Reconciled (⟨if r.carry then L.held else L.held.erase k,L.stray || decide (k ∉ L.held)⟩,
      calls ++ [(.close k,r)]) ⟨B.held.erase k,B.stray || decide (k ∉ B.held)⟩ := by
  have hown : (B.stray || decide (k ∉ B.held)) = false → B.stray = false ∧ k ∈ B.held := by simp
  cases hr : r.carry with
  | false =>
    have hc : ¬ RefusedClose (.close k) r := by simp [RefusedClose, hr]
    refine ⟨Finset.erase_subset_erase _ h.sub,fun hs hn => ?_,fun hs hl => ?_⟩
    · have ha := h.agree (hown hs).1 fun hl => hn (closesRefused_append.mpr (.inl hl))
      simp only [Bool.false_eq_true, if_false]
      rw [show L = B from ha]
    · obtain ⟨j,hj,hjB⟩ := h.lost (hown hs).1 ((closesRefused_append.mp hl).resolve_right hc)
      have hne : j ≠ k := fun he => hjB (he ▸ (hown hs).2)
      exact ⟨j,Finset.mem_erase.mpr ⟨hne,hj⟩,fun hm => hjB (Finset.mem_of_mem_erase hm)⟩
  | true =>
    refine ⟨(Finset.erase_subset _ _).trans h.sub,fun _ hn => ?_,fun hs _ => ?_⟩
    · have hc : RefusedClose (.close k) r := hr
      exact absurd (closesRefused_append.mpr (.inr hc)) hn
    · exact ⟨k,h.sub (hown hs).2,Finset.notMem_erase _ _⟩

/-- One call keeps the two ledgers related. -/
theorem Reconciled.step {x y : Ledger × List (DosCall × DosRegs)} {B : Ledger} {c : DosCall} {r : DosRegs}
    (h : Reconciled x B) (hs : Logged Ledger.Step x c r y) :
    ∃ B', Ledger.AssumedStep B c r B' ∧ Reconciled y B' := by
  obtain ⟨L,calls⟩ := x
  obtain ⟨L',_⟩ := y
  obtain ⟨hs,rfl⟩ := hs
  cases c with
  | create f => exact h.opened id hs
  | openRead f => exact h.opened id hs
  | close k =>
    obtain rfl : L' = _ := hs
    exact ⟨_,rfl,h.closed⟩
  | _ =>
    obtain rfl : L' = L := hs
    exact ⟨B,rfl,h.other id⟩

/-- What the TSR goes by, beside the ledger, over an idle step. -/
theorem reconciled_idle {calls : List (DosCall × DosRegs)}
    (he : Exec (Logged Ledger.Step) (fileTransferProcessIdle mac fuel) g (L,[]) os () g' (L',calls)) :
    ∃ B, Exec Ledger.AssumedStep (fileTransferProcessIdle mac fuel) g L os () g' B ∧
      Reconciled (L',calls) B := by
  have hstart : Reconciled (L,[]) L := ⟨subset_rfl,fun _ _ => rfl,fun _ h => by simp [ClosesRefused] at h⟩
  have hstep (x : Ledger × List (DosCall × DosRegs)) (B : Ledger) (c : DosCall) (r : DosRegs)
      (y : Ledger × List (DosCall × DosRegs)) (_ : True) (hk : Reconciled x B)
      (hs : Logged Ledger.Step x c r y) : ∃ B', Ledger.AssumedStep B c r B' ∧ Reconciled y B' :=
    hk.step hs
  exact he.simulate Reconciled (callsIn_true _) hstep hstart

/-- A packet that cuts a transfer off leaves its handle open with no record of it. -/
theorem not_owned_of_cutsOff {p : Packet} (h : HandleInv g L) (hc : CutsOff g (.packet p)) :
    ¬ Owned (fileTransferHandlePacket p g) L := by
  obtain ⟨⟨hn,hl⟩,ht,hp⟩ := hc
  have hout : ¬ InTransfer (fileTransferHandlePacket p g) := by
    rcases hp with ⟨r,path,hp⟩ | hp <;>
      simp [fileTransferHandlePacket, hn, hl, hp, InTransfer]
  intro ho
  rw [Owned, if_neg hout, h.ledger] at ho
  simp [Ledger.owning, h.handle.mp ht] at ho

/-- A close that is refused leaves a handle open with no record of it. -/
theorem not_owned_of_refused {B : Ledger} {calls : List (DosCall × DosRegs)} (h : HandleInv g' B)
    (hk : Reconciled (L',calls) B) (hr : ClosesRefused calls) : ¬ Owned g' L' := by
  have hB := h.owned
  intro ho
  obtain ⟨k,hk,hkB⟩ := hk.lost (by rw [hB]) hr
  rw [hB, ← ho] at hkB
  exact hkB hk

/-- A step keeps the ledger in order, or spoils it, as the condition says. -/
theorem handleStep_inv {e : DiskEvent} (h : HandleInv g L)
    (hs : HandleStep mac (g,L) e (g',L')) :
    (¬ CutsOff g e ∧ ¬ LosesHandle e → HandleInv g' L') ∧
      (CutsOff g e ∨ LosesHandle e → ¬ Owned g' L') := by
  cases e with
  | packet p =>
    obtain ⟨rfl,rfl⟩ : g' = fileTransferHandlePacket p g ∧ L' = L := Prod.mk.inj hs
    refine ⟨fun hc => handleInv_packet h hc.1,fun hc => ?_⟩
    exact not_owned_of_cutsOff h (hc.resolve_right id)
  | idle calls sent =>
    obtain ⟨fuel,he⟩ := hs
    obtain ⟨B,hB,hk⟩ := reconciled_idle he
    have hinv := handleInv_idle h hB
    refine ⟨fun hc => ?_,fun hc => not_owned_of_refused hinv hk (hc.resolve_left id)⟩
    have hB' : B.stray = false := by rw [hinv.owned]
    obtain rfl : L' = B := hk.agree hB' hc.2
    exact hinv

/-- From the initial record the handles are in order in every state of a run exactly if no
packet of the run cuts a transfer off and DOS refuses no close. -/
theorem handles_owned_iff {tr : List (DiskEvent × (FileTransferState × Ledger))}
    (h : Run (HandleStep mac) (fileTransferInit,Ledger.empty) tr) :
    (∀ x ∈ tr, Owned x.2.1 x.2.2) ↔
      Along (fun s e => ¬ CutsOff s.1 e ∧ ¬ LosesHandle e) (fileTransferInit,Ledger.empty) tr := by
  refine h.exact (fun s => HandleInv s.1 s.2) (fun s => Owned s.1 s.2) ?_ ?_ ?_ ⟨rfl,by decide⟩
  · exact fun s e s' hI hc hs => (handleStep_inv hI hs).1 hc
  · exact fun s hI => hI.owned
  · intro s e s' hI hs hg
    rw [← not_or]
    exact fun hc => (handleStep_inv hI hs).2 hc hg

/-! An upload that opens handle 5 and closes it, and the listing of another client that cuts it off. -/

def uploadBegin : Packet :=
  ⟨Vector.replicate 6 1,1,72,.filePutBegin 7 0 (Vector.replicate 64 0x41)⟩

def uploadEnd : Packet := ⟨Vector.replicate 6 1,1,8,.filePutEnd 7 0⟩

def otherListing : Packet := ⟨Vector.replicate 6 2,2,132,.dirListBegin 9 (Vector.replicate 128 0)⟩

/-- The record of the upload after its `BEGIN` has run. -/
def uploadOpen : FileTransferState :=
  { (fileTransferHandlePacket uploadBegin fileTransferInit).taken with
    handle := 5, active := true, mode := .put }

/-- Its record after the `END` has run. -/
def uploadClosed : FileTransferState :=
  { (fileTransferHandlePacket uploadEnd uploadOpen).taken with
    handle := -1, active := false, mode := .none }

def reply5 : DosRegs := ⟨false,5,0,0,0,[]⟩

def uploadTrace : List (DiskEvent × (FileTransferState × Ledger)) :=
  [(.packet uploadBegin,fileTransferHandlePacket uploadBegin fileTransferInit,Ledger.empty),
    (.idle [(.create (filenameStr uploadOpen),reply5)]
      [ackOf (Vector.replicate 6 0) uploadOpen .begin .ok 0],uploadOpen,Ledger.owning 5)]

def closedTrace : List (DiskEvent × (FileTransferState × Ledger)) :=
  uploadTrace ++
    [(.packet uploadEnd,fileTransferHandlePacket uploadEnd uploadOpen,Ledger.owning 5),
      (.idle [(.close 5,reply5)] [ackOf (Vector.replicate 6 0) uploadClosed .end .ok 0],
        uploadClosed,Ledger.empty)]

def cutTrace : List (DiskEvent × (FileTransferState × Ledger)) :=
  uploadTrace ++
    [(.packet otherListing,fileTransferHandlePacket otherListing uploadOpen,Ledger.owning 5)]

theorem uploadTrace_run :
    Run (HandleStep (Vector.replicate 6 0)) (fileTransferInit,Ledger.empty) uploadTrace := by
  refine .cons rfl (.cons ⟨0,?_⟩ (.nil _))
  refine exec_idle.mpr (.inr ⟨by decide,?_⟩)
  refine exec_putBegin.mpr ⟨(Ledger.empty,[]),reply5,by rfl,⟨?_,rfl⟩,rfl,rfl⟩
  exact ⟨by decide,by decide,by decide⟩

theorem closedTrace_run :
    Run (HandleStep (Vector.replicate 6 0)) (fileTransferInit,Ledger.empty) closedTrace := by
  refine uploadTrace_run.append (.cons rfl (.cons ⟨0,?_⟩ (.nil _)))
  refine exec_idle.mpr (.inr ⟨by decide,?_⟩)
  have hclose : Ledger.Step (Ledger.owning 5) (.close 5) reply5 Ledger.empty := by
    change Ledger.empty = _
    decide
  exact exec_putEnd.mpr ⟨⟨reply5,hclose,rfl⟩,rfl,rfl⟩

theorem handles_owned_iff_closed :
    (∀ x ∈ closedTrace, Owned x.2.1 x.2.2) ↔
      Along (fun s e => ¬ CutsOff s.1 e ∧ ¬ LosesHandle e) (fileTransferInit,Ledger.empty)
        closedTrace :=
  handles_owned_iff closedTrace_run

theorem handles_cut_off :
    Run (HandleStep (Vector.replicate 6 0)) (fileTransferInit,Ledger.empty) cutTrace ∧
      ¬ ∀ x ∈ cutTrace, Owned x.2.1 x.2.2 := by
  refine ⟨uploadTrace_run.append (.cons rfl (.nil _)),fun h => ?_⟩
  have hl := h (.packet otherListing,fileTransferHandlePacket otherListing uploadOpen,
    Ledger.owning 5) (by simp [cutTrace])
  rw [Owned, if_neg (by decide)] at hl
  exact absurd hl (by decide)

end RmtDos
