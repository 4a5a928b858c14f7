import RmtDos.Lib.Interleave
import RmtDos.Lib.Runs
import RmtDos.Server.Startup

/-! The memory of the TSR and what points into it. Other programs hook and unhook the three
interrupts in any order, whenever the TSR waits for a call to return or is resident. -/
namespace RmtDos
open Resumable Prog Runs

/-- The pointer leads into the memory of the program. -/
def Image.Inside (im : Image) (p : FarPtr) : Prop :=
  16*im.cs.toNat ≤ 16*p.seg.toNat+p.off.toNat ∧
    16*p.seg.toNat+p.off.toNat < 16*im.cs.toNat+im.size

instance (im : Image) (p : FarPtr) : Decidable (im.Inside p) :=
  inferInstanceAs (Decidable (_ ∧ _))

/-- The registration with the packet driver, by its interrupt and handle, the pointers that other
programs will put back, and whether the PSP block still is the program's. -/
structure Surroundings where
  receiver : Option (UInt8 × UInt16)
  hooks : List (Hooked × FarPtr)
  owned : Bool

/-- What driver and DOS have done when they answer. -/
def answered (out : Surroundings) : X86Call → CpuRegs → Surroundings
  | .accessType irq, r => if r.carry then out else { out with receiver := some (irq,r.ax) }
  | .releaseType irq handle, r =>
    if r.carry = false ∧ out.receiver = some (irq,handle) then { out with receiver := none }
    else out
  | .freePsp, r => if r.carry then out else { out with owned := false }
  | _, _ => out

section answered
variable (out : Surroundings) (irq : UInt8) (handle : UInt16) (r : CpuRegs)

theorem answered_accessType : answered out (.accessType irq) r =
    if r.carry then out else { out with receiver := some (irq,r.ax) } := rfl

theorem answered_releaseType : answered out (.releaseType irq handle) r =
    if r.carry = false ∧ out.receiver = some (irq,handle) then { out with receiver := none }
    else out := rfl

theorem answered_freePsp :
    answered out .freePsp r = if r.carry then out else { out with owned := false } := rfl

end answered

/-- The two calls that ask the driver something after the registration. -/
def IsQuery : X86Call → Prop
  | .driverInfo .. => True
  | .getAddress .. => True
  | _ => False

theorem answered_query {c : X86Call} (h : IsQuery c) (out : Surroundings) (r : CpuRegs) :
    answered out c r = out := by
  cases c with
  | driverInfo => rfl
  | getAddress => rfl
  | _ => exact h.elim

/-- Any answer is possible; only the call that goes resident may fail to return. -/
def Answers (out : Surroundings) (c : X86Call) : Option CpuRegs → Surroundings → Prop
  | none, out' => c = .goResident ∧ out' = out
  | some r, out' => out' = answered out c r

section steps
variable (im : Image)

/-- Another program hooks an interrupt, or puts back what it has found there. -/
inductive Other : TsrMemory × Surroundings → TsrMemory × Surroundings → Prop
  | hook {m : TsrMemory} {out : Surroundings} (v : Hooked) {p : FarPtr} (hp : ¬ im.Inside p) :
      Other (m,out) ({ m with vects := Function.update m.vects v p },
        { out with hooks := (v,m.vects v) :: out.hooks })
  | unhook {m : TsrMemory} {out : Surroundings} {v : Hooked} {p : FarPtr}
      (h : (v,p) ∈ out.hooks) :
      Other (m,out) ({ m with vects := Function.update m.vects v p },
        { out with hooks := out.hooks.erase (v,p) })

/-- What the program is doing. -/
inductive Life
  | starting (p : Startup MainEnd)
  | resident
  | answering (p : Startup CpuRegs)
  | gone

structure TsrLife where
  life : Life
  memory : TsrMemory
  out : Surroundings

/-- `main` runs up to its next call; its memory is gone when it exits. -/
def runMain (p : Startup MainEnd) (m : TsrMemory) (out : Surroundings) : TsrLife :=
  ⟨match (p.advance m).2.2 with
    | .done (.exits _) => .gone
    | .done .goesResident => .resident
    | p => .starting p,(p.advance m).2.1,out⟩

/-- The handler of int 2fh runs up to its next call. -/
def runHandler (p : Startup CpuRegs) (m : TsrMemory) (out : Surroundings) : TsrLife :=
  ⟨match (p.advance m).2.2 with
    | .done _ => if out.owned then .resident else .gone
    | p => .answering p,(p.advance m).2.1,out⟩

inductive LifeEvent
  | other
  | answer (r : Option CpuRegs)
  | multiplex (regs : CpuRegs)

inductive LifeStep : TsrLife → LifeEvent → TsrLife → Prop
  | other {l : Life} {m m' : TsrMemory} {out out' : Surroundings} (hl : l ≠ .gone)
      (h : Other im (m,out) (m',out')) : LifeStep ⟨l,m,out⟩ .other ⟨l,m',out'⟩
  | main {c : TsrMemory → X86Call} {store : Option CpuRegs → TsrMemory → TsrMemory}
      {k : Option CpuRegs → Startup MainEnd} {m : TsrMemory} {out out' : Surroundings}
      {r : Option CpuRegs} (h : Answers out (c m) r out') :
      LifeStep ⟨.starting (.call c store k),m,out⟩ (.answer r) (runMain (k r) (store r m) out')
  | handler {c : TsrMemory → X86Call} {store : Option CpuRegs → TsrMemory → TsrMemory}
      {k : Option CpuRegs → Startup CpuRegs} {m : TsrMemory} {out out' : Surroundings}
      {r : Option CpuRegs} (h : Answers out (c m) r out') :
      LifeStep ⟨.answering (.call c store k),m,out⟩ (.answer r)
        (runHandler (k r) (store r m) out')
  | multiplex {m : TsrMemory} {out : Surroundings} (regs : CpuRegs) :
      LifeStep ⟨.resident,m,out⟩ (.multiplex regs) (runHandler (int2fHandler im regs) m out)

/-- Nothing points into the memory. -/
def Unreferenced (m : TsrMemory) (out : Surroundings) : Prop :=
  (∀ v, ¬ im.Inside (m.vects v)) ∧ out.receiver = none

/-- If the memory has been given back, nothing points into it. -/
def SafelyReleased (s : TsrLife) : Prop :=
  match s.life with
  | .gone => Unreferenced im s.memory s.out
  | _ => True

/-! The condition. -/

/-- While `main` runs: after the registration the driver does not fail with an error code, it has
not given the handle 0 when DOS refuses to go resident, and the release succeeds while no vector
is back on the program. -/
def MainOk (c : X86Call) (r : Option CpuRegs) (m : TsrMemory) (out : Surroundings) : Prop :=
  match c, r with
  | .driverInfo .., some r => r.carry → r.dh = 0
  | .getAddress .., some r => r.carry → r.dh = 0
  | .goResident, some _ => m.pktdrvHandle = 0 → ∀ irq, out.receiver ≠ some (irq,0)
  | .releaseType .., some r => r.carry = false ∧ ∀ v, ¬ im.Inside (m.vects v)
  | _, _ => True

/-- While the TSR uninstalls: when the block is freed, `pktdrv_done` has cleared the handle, and
the driver has not given the handle 0. -/
def HandlerOk (c : X86Call) (r : Option CpuRegs) (m : TsrMemory) (out : Surroundings) : Prop :=
  match c, r with
  | .freePsp, some r => r.carry = false → m.pktdrvHandle = 0 ∧ ∀ irq, out.receiver ≠ some (irq,0)
  | _, _ => True

def LifeOk (s : TsrLife) (e : LifeEvent) : Prop :=
  match s.life, e with
  | .starting (.call c _ _), .answer r => MainOk im (c s.memory) r s.memory s.out
  | .answering (.call c _ _), .answer r => HandlerOk (c s.memory) r s.memory s.out
  | _, _ => True

end steps

/-! Hooks that lead into the memory. -/

variable {im : Image} {m m' : TsrMemory} {out out' : Surroundings}

/-- How many pointers into the memory the vector and the other programs hold. -/
def ownPointers (im : Image) (m : TsrMemory) (out : Surroundings) (v : Hooked) : ℕ :=
  (if im.Inside (m.vects v) then 1 else 0) +
    out.hooks.countP fun h => decide (h.1 = v ∧ im.Inside h.2)

/-- The parts of the state that other programs leave alone. -/
structure SameProgram (m : TsrMemory) (out : Surroundings) (m' : TsrMemory) (out' : Surroundings) :
    Prop where
  irq : m'.pktdrvIrq = m.pktdrvIrq
  handle : m'.pktdrvHandle = m.pktdrvHandle
  original : m'.original = m.original
  receiver : out'.receiver = out.receiver
  owned : out'.owned = out.owned

/-- Whoever hooks and unhooks, the pointers into the memory become no more. -/
theorem other_ownPointers (h : Other im (m,out) (m',out')) (v : Hooked) :
    ownPointers im m' out' v ≤ ownPointers im m out v := by
  cases h with
  | @hook _ _ w p hp =>
    by_cases hw : v = w
    · subst hw
      simp only [ownPointers, Function.update_self, if_neg hp, List.countP_cons, true_and,
        decide_eq_true_eq]
      omega
    · simp [ownPointers, Function.update_of_ne hw, Ne.symm hw]
  | @unhook _ _ w p hmem =>
    have hcount := (List.perm_cons_erase hmem).countP_eq fun h => decide (h.1 = v ∧ im.Inside h.2)
    rw [List.countP_cons] at hcount
    by_cases hw : v = w
    · subst hw
      simp only [true_and, decide_eq_true_eq] at hcount
      simp only [ownPointers, Function.update_self]
      omega
    · simp only [ownPointers, Function.update_of_ne hw]
      omega

theorem other_same (h : Other im (m,out) (m',out')) : SameProgram m out m' out' := by
  cases h with
  | hook => exact ⟨rfl,rfl,rfl,rfl,rfl⟩
  | unhook => exact ⟨rfl,rfl,rfl,rfl,rfl⟩

/-- The same for any number of hooks and unhooks. -/
theorem others_keep (h : Relation.ReflTransGen (Other im) (m,out) (m',out')) :
    SameProgram m out m' out' ∧ ∀ v, ownPointers im m' out' v ≤ ownPointers im m out v := by
  suffices hgen : ∀ x, Relation.ReflTransGen (Other im) (m,out) x →
      SameProgram m out x.1 x.2 ∧ ∀ v, ownPointers im x.1 x.2 v ≤ ownPointers im m out v from
    hgen _ h
  intro x hx
  induction hx with
  | refl => exact ⟨⟨rfl,rfl,rfl,rfl,rfl⟩,fun v => le_rfl⟩
  | tail _ hstep ih =>
    obtain ⟨hs,hp⟩ := ih
    have hsame := other_same hstep
    exact ⟨⟨hsame.irq.trans hs.irq,hsame.handle.trans hs.handle,hsame.original.trans hs.original,
      hsame.receiver.trans hs.receiver,hsame.owned.trans hs.owned⟩,
      fun v => (other_ownPointers hstep v).trans (hp v)⟩

theorem not_inside_of_ownPointers {v : Hooked} (h : ownPointers im m out v = 0) :
    ¬ im.Inside (m.vects v) := fun hi => by simp [ownPointers, hi] at h

theorem Image.inside_handler (im : Image) (v : Hooked) : im.Inside (im.handler v) :=
  ⟨Nat.le_add_right ..,Nat.add_lt_add_left (im.isr_lt v) _⟩

/-! What holds of the program. -/

/-- The driver and the globals agree on the registration. -/
def Registered (m : TsrMemory) (out : Surroundings) : Prop :=
  (out.receiver = none ∧ m.pktdrvHandle = 0) ∨
    ∃ irq, out.receiver = some (irq,m.pktdrvHandle) ∧
      (m.pktdrvHandle ≠ 0 → irq = m.pktdrvIrq.toUInt8)

/-- No other program can put a vector back on the program. -/
structure Unhooked (im : Image) (m : TsrMemory) (out : Surroundings) : Prop where
  pointers : ∀ v, ownPointers im m out v = 0
  registered : Registered m out
  owned : out.owned = true

/-- The handlers have been installed. -/
structure Installed (im : Image) (m : TsrMemory) (out : Surroundings) : Prop where
  pointers : ∀ v, ownPointers im m out v ≤ 1
  original : ∀ v, ¬ im.Inside (m.original v)
  registered : Registered m out
  owned : out.owned = true

theorem SameProgram.registered (h : SameProgram m out m' out') (hr : Registered m out) :
    Registered m' out' := by
  rw [Registered, h.receiver, h.handle, h.irq]
  exact hr

theorem Unhooked.others (h : Unhooked im m out)
    (ho : Relation.ReflTransGen (Other im) (m,out) (m',out')) : Unhooked im m' out' := by
  obtain ⟨hs,hp⟩ := others_keep ho
  exact ⟨fun v => Nat.le_zero.mp (h.pointers v ▸ hp v),hs.registered h.registered,
    hs.owned.trans h.owned⟩

theorem Installed.others (h : Installed im m out)
    (ho : Relation.ReflTransGen (Other im) (m,out) (m',out')) : Installed im m' out' := by
  obtain ⟨hs,hp⟩ := others_keep ho
  exact ⟨fun v => (hp v).trans (h.pointers v),hs.original ▸ h.original,hs.registered h.registered,
    hs.owned.trans h.owned⟩

theorem Unhooked.install (h : Unhooked im m out) :
    Installed im (installInterruptHandlers im m) out := by
  refine ⟨fun v => ?_,fun v => not_inside_of_ownPointers (h.pointers v),h.registered,h.owned⟩
  have hzero := h.pointers v
  simp only [ownPointers, installInterruptHandlers, im.inside_handler, if_true] at hzero ⊢
  omega

/-- If the check passes, no other program will put a vector back on the program. -/
theorem Installed.restore (h : Installed im m out) (hcheck : residentUninstallCheck im m = 0) :
    Unhooked im (restoreInterruptHandlers m) out := by
  have hvect (v : Hooked) : m.vects v = im.handler v := by
    unfold residentUninstallCheck at hcheck
    by_contra hne
    cases v <;> grind
  refine ⟨fun v => ?_,h.registered,h.owned⟩
  have hone := h.pointers v
  have hout := h.original v
  simp only [ownPointers, restoreInterruptHandlers, hvect v, im.inside_handler, hout, if_true,
    if_false] at hone ⊢
  omega

end RmtDos
