import Mathlib.Logic.Function.Basic
import RmtDos.Server.Atomic

/-! DOS resolves a handle through the table of the process that is current when the service is
called. Programs start, with the handles of their parent, and exit, which gives the machine back
to the parent. Of every handle the TSR uses it is noted whether it led to the TSR's own file. -/
namespace RmtDos.Dos
open Resumable Prog

/-- The open files are numbered; a handle table leads from handles to them. -/
abbrev HandleTable := UInt16 → Option ℕ

/-- The current process and the ones that wait for it. The fields from `transfer` on are notes
about the TSR: the file its transfer opened, the place of the process it did so under (`none`
once that has exited), the first file number of the running idle step, and the calls it made
with a handle that led to no file or to another program's file. -/
structure Processes where
  current : HandleTable
  parents : List HandleTable
  nextFile : ℕ
  transfer : Option ℕ
  owner : Option ℕ
  base : ℕ
  strays : List DosCall

namespace Processes

/-- The handle leads to the file of the transfer, or to one opened in the running idle step. -/
def Own (d : Processes) (h : UInt16) : Prop :=
  ∃ i, d.current h = some i ∧ (d.transfer = some i ∨ d.base ≤ i)

instance (d : Processes) (h : UInt16) : Decidable (d.Own h) :=
  match hc : d.current h with
  | none => .isFalse fun ⟨i,hi,_⟩ => by simp [hc] at hi
  | some i => decidable_of_iff (d.transfer = some i ∨ d.base ≤ i) (by simp [Own, hc])

def act (d : Processes) (c : DosCall) (h : UInt16) : Processes :=
  if d.Own h then d else { d with strays := c :: d.strays }

def setHandle (d : Processes) (h : UInt16) (file : Option ℕ) : Processes :=
  { d with current := Function.update d.current h file }

/-- The next file, behind a handle of the current process. -/
def opened (d : Processes) (h : UInt16) : Processes :=
  { d.setHandle h (some d.nextFile) with nextFile := d.nextFile+1 }

/-- A call of the TSR. An open takes a free handle or fails; what is read or written, and
whether a service succeeds, is arbitrary. -/
def Step (d : Processes) (c : DosCall) (r : DosRegs) (d' : Processes) : Prop :=
  match c with
  | .create _ | .openRead _ =>
    if r.carry then d' = d
    else r.ax < 0x8000 ∧ d.current r.ax = none ∧ d' = d.opened r.ax
  | .close h => d' = (d.act c h).setHandle h none
  | .read h _ | .write h _ | .seek h .. => d' = d.act c h
  | _ => d' = d

/-- An idle step begins: files opened from here on are its own. -/
def entered (d : Processes) : Processes := { d with base := d.nextFile }

/-- An idle step ends: a `BEGIN` has opened the file of a new transfer, or none. -/
def remember (d : Processes) (op : FileOp) (g : FileTransferState) : Processes :=
  if op = .putBegin ∨ op = .getBegin then
    { d with
      transfer := if g.handle < 0 then none else d.current g.handle.toUInt16
      owner := some d.parents.length }
  else d

/-- A program starts with a copy of the table of its parent. -/
def started (d : Processes) : Processes := { d with parents := d.current :: d.parents }

/-- The current program exits to its parent. -/
def exited (d : Processes) : Processes :=
  match d.parents with
  | [] => d
  | p::ps => { d with
      current := p, parents := ps
      owner := if d.owner = some (p :: ps).length then none else d.owner }

end Processes

/-- A step of the TSR or of the foreground. Programs open files and close those of their own. -/
inductive ForegroundEvent
  | packet (p : Packet)
  | idle (sent : List Reply)
  | start
  | exit
  | openFile (h : UInt16)
  | closeFile (h : UInt16)

def ForegroundStep (mac : MacAddr) (s : FileTransferState × Processes) :
    ForegroundEvent → FileTransferState × Processes → Prop
  | .packet p, s' => s' = (fileTransferHandlePacket p s.1,s.2)
  | .idle sent, s' => ∃ d, TsrStep Processes.Step mac (s.1,s.2.entered) (.idle sent) (s'.1,d) ∧
    s'.2 = d.remember s.1.pendingOp s'.1
  | .start, s' => s' = (s.1,s.2.started)
  | .exit, s' => s.2.parents ≠ [] ∧ s' = (s.1,s.2.exited)
  | .openFile h, s' => s.2.current h = none ∧
    s' = (s.1,s.2.opened h)
  | .closeFile h, s' => s.2.current h ≠ s.2.transfer ∧ s' = (s.1,s.2.setHandle h none)

namespace Processes
variable {d d' : Processes} {c : DosCall} {r : DosRegs} {h : UInt16} {i : ℕ}

/-- Every file a table leads to has been opened. -/
def Numbered (d : Processes) : Prop :=
  ∀ t ∈ d.current :: d.parents, ∀ h i, t h = some i → i < d.nextFile

/-- The file `i` is behind the handle `h` of the process that opened it and of all programs
started from there, and behind no other handle of another process. -/
structure HeldAt (d : Processes) (h : UInt16) (i : ℕ) (above below : List HandleTable) : Prop where
  tables : d.current :: d.parents = above ++ below
  held : ∀ t ∈ above, t h = some i
  absent : ∀ t ∈ below, ∀ k, t k ≠ some i
  owner : d.owner = if above = [] then none else some below.length

@[simp] theorem setHandle_self {file : Option ℕ} : (d.setHandle h file).current h = file := by
  simp [Processes.setHandle]

theorem setHandle_of_ne {file : Option ℕ} {k : UInt16} (hk : k ≠ h) :
    (d.setHandle h file).current k = d.current k :=
  Function.update_of_ne hk _ _

theorem act_of_own (h₀ : d.Own h) : d.act c h = d := if_pos h₀

theorem act_fields (d : Processes) (c : DosCall) (h : UInt16) : (d.act c h).current = d.current ∧
    (d.act c h).parents = d.parents ∧ (d.act c h).nextFile = d.nextFile ∧
    (d.act c h).transfer = d.transfer ∧ (d.act c h).owner = d.owner ∧ (d.act c h).base = d.base := by
  unfold act
  split <;> exact ⟨rfl,rfl,rfl,rfl,rfl,rfl⟩

theorem strays_act (hs : ¬ d.Own h ∨ d.strays ≠ []) : (d.act c h).strays ≠ [] := by
  unfold act
  split_ifs with ho
  · exact hs.resolve_left (not_not.mpr ho)
  · simp

/-- A stray call is never forgotten. -/
theorem Step.strays (hs : Step d c r d') (h₀ : d.strays ≠ []) : d'.strays ≠ [] := by
  cases c with
  | create name | openRead name =>
    simp only [Step] at hs
    split_ifs at hs
    · rwa [hs]
    · rw [hs.2.2]
      exact h₀
  | close k =>
    obtain rfl := hs
    exact strays_act (.inr h₀)
  | read k n =>
    obtain rfl := hs
    exact strays_act (.inr h₀)
  | write k data =>
    obtain rfl := hs
    exact strays_act (.inr h₀)
  | seek k o n =>
    obtain rfl := hs
    exact strays_act (.inr h₀)
  | _ =>
    obtain rfl := hs
    exact h₀

/-- What no call of the TSR changes. -/
structure SameProcess (d d' : Processes) : Prop where
  parents : d'.parents = d.parents
  transfer : d'.transfer = d.transfer
  owner : d'.owner = d.owner
  base : d'.base = d.base
  nextFile : d.nextFile ≤ d'.nextFile

theorem SameProcess.refl (d : Processes) : SameProcess d d := ⟨rfl,rfl,rfl,rfl,le_rfl⟩

theorem SameProcess.trans {d₂ : Processes} (h : SameProcess d d') (h' : SameProcess d' d₂) :
    SameProcess d d₂ :=
  ⟨h'.1.trans h.1,h'.2.trans h.2,h'.3.trans h.3,h'.4.trans h.4,h.5.trans h'.5⟩

theorem sameProcess_act (d : Processes) (c : DosCall) (h : UInt16) : SameProcess d (d.act c h) := by
  obtain ⟨-,h₁,h₂,h₃,h₄,h₅⟩ := act_fields d c h
  exact ⟨h₁,h₃,h₄,h₅,h₂.ge⟩

theorem Numbered.setHandle {file : Option ℕ} (hn : d.Numbered)
    (hf : ∀ i, file = some i → i < d.nextFile) : (d.setHandle h file).Numbered := by
  intro t ht k i hi
  obtain rfl | ht := List.mem_cons.mp ht
  · by_cases hk : k = h
    · subst hk
      exact hf i (by simpa using hi)
    · rw [setHandle_of_ne hk] at hi
      exact hn d.current List.mem_cons_self k i hi
  · exact hn t (List.mem_cons_of_mem _ ht) k i hi

theorem Numbered.act (hn : d.Numbered) : (d.act c h).Numbered := by
  obtain ⟨h₁,h₂,h₃,-⟩ := act_fields d c h
  intro t ht k i hi
  rw [h₁, h₂] at ht
  rw [h₃]
  exact hn t ht k i hi

theorem Numbered.mono (hn : d.Numbered) {n : ℕ} (hle : d.nextFile ≤ n) :
    Numbered { d with nextFile := n } :=
  fun t ht k i hi => (hn t ht k i hi).trans_le hle

theorem Numbered.opened (hn : d.Numbered) : (d.opened h).Numbered :=
  (hn.mono (Nat.le_succ _)).setHandle fun i hi => by
    obtain rfl := Option.some.inj hi
    exact Nat.lt_succ_self _

theorem Step.kept (hs : Step d c r d') (hn : d.Numbered) : SameProcess d d' ∧ d'.Numbered := by
  cases c with
  | create name | openRead name =>
    simp only [Step] at hs
    split_ifs at hs
    · rw [hs]
      exact ⟨.refl d,hn⟩
    · rw [hs.2.2]
      exact ⟨⟨rfl,rfl,rfl,rfl,Nat.le_succ _⟩,hn.opened⟩
  | close k =>
    obtain rfl := hs
    have hk := sameProcess_act d (.close k) k
    exact ⟨⟨hk.1,hk.2,hk.3,hk.4,hk.5⟩,hn.act.setHandle nofun⟩
  | read k n =>
    obtain rfl := hs
    exact ⟨sameProcess_act _ _ _,hn.act⟩
  | write k data =>
    obtain rfl := hs
    exact ⟨sameProcess_act _ _ _,hn.act⟩
  | seek k o n =>
    obtain rfl := hs
    exact ⟨sameProcess_act _ _ _,hn.act⟩
  | _ =>
    obtain rfl := hs
    exact ⟨.refl _,hn⟩

/-- An open fails, or leads a free entry to a new file. -/
theorem Step.open_cases (hc : (∃ n, c = .create n) ∨ ∃ n, c = .openRead n) (hs : Step d c r d') :
    (handleOf r < 0 ∧ d' = d) ∨ (¬ handleOf r < 0 ∧ d.current (handleOf r).toUInt16 = none ∧
      d' = d.opened (handleOf r).toUInt16) := by
  have hs : if r.carry then d' = d else r.ax < 0x8000 ∧ d.current r.ax = none ∧
      d' = d.opened r.ax := by
    rcases hc with ⟨n,rfl⟩ | ⟨n,rfl⟩ <;> exact hs
  split_ifs at hs with hr
  · exact .inl ⟨by simp [handleOf, hr],hs⟩
  · have hr : r.carry = false := by simpa using hr
    exact .inr ⟨handleOf_nonneg hr hs.1,by rw [toUInt16_handleOf hr]; exact hs.2⟩

/-- A change of another entry, or to another file, of the current process. -/
theorem HeldAt.setHandle {h k : UInt16} {i : ℕ} {file : Option ℕ}
    {above below : List HandleTable} (hd : d.HeldAt k i above below) (hfile : file ≠ some i)
    (hne : d.current h ≠ some i) :
    ∃ above' below', (d.setHandle h file).HeldAt k i above' below' := by
  obtain ⟨htab,hheld,habs,howner⟩ := hd
  cases above with
  | nil =>
    rw [List.nil_append] at htab
    refine ⟨[],(d.setHandle h file).current :: d.parents,rfl,nofun,fun t ht x => ?_,howner⟩
    obtain rfl | ht := List.mem_cons.mp ht
    · by_cases hx : x = h
      · subst hx
        simpa using hfile
      · rw [setHandle_of_ne hx]
        exact habs _ (htab ▸ List.mem_cons_self) x
    · exact habs t (htab ▸ List.mem_cons_of_mem _ ht) x
  | cons t above =>
    obtain ⟨rfl,hps⟩ := List.cons.inj htab
    have hcur : d.current k = some i := hheld _ List.mem_cons_self
    have hk : k ≠ h := by
      rintro rfl
      exact hne hcur
    refine ⟨(d.setHandle h file).current :: above,below,congrArg _ hps,fun t ht => ?_,habs,howner⟩
    obtain rfl | ht := List.mem_cons.mp ht
    · rwa [setHandle_of_ne hk]
    · exact hheld t (List.mem_cons_of_mem _ ht)

end Processes
end RmtDos.Dos
