import Mathlib.Data.List.Nodup
import RmtDos.Lib.RealMode

/-! A processor in real mode, with the instructions of hand-written interrupt code. Assembled code runs
instruction by instruction; what runs elsewhere, a compiled function say, is a relation from the state
at its entry to the state at its return. -/
namespace RealMode
open Memory

inductive Reg
  | ax | bx | cx | dx | si | di | bp | sp | cs | ds | es | ss
  deriving DecidableEq

@[ext] structure Cpu where
  reg : Reg → UInt16
  ip : UInt16
  flags : UInt16
  mem : Mem

inductive Operand
  | reg (r : Reg)
  | imm (w : UInt16)
  | mem (seg : Reg) (base : Option Reg) (disp : UInt16)

/-- Operations that leave their outcome in the flags. -/
inductive Alu
  | add | sub | xor

def Alu.value : Alu → UInt16 → UInt16 → UInt16
  | .add, a, b => a+b
  | .sub, a, b => a-b
  | .xor, a, b => a ^^^ b

/-- The flags that an operation on two values leaves, from the flags before. -/
abbrev Status := Alu → UInt16 → UInt16 → UInt16 → UInt16

/-- Only the zero flag. -/
def zeroStatus : Status := fun op _ a b => if op.value a b = 0 then 64 else 0

inductive Instr
  | mov (dst src : Operand)
  | lea (dst : Reg) (disp : UInt16)
  | alu (op : Alu) (dst src : Operand)
  | push (src : Operand)
  | pop (dst : Operand)
  | pushf
  | popf
  | call (target : UInt16)
  | ret
  | retf
  | iret
  | jmpf (seg : Reg) (disp : UInt16)

namespace Cpu

def setReg (s : Cpu) (r : Reg) (v : UInt16) : Cpu := { s with reg := Function.update s.reg r v }

def goto (s : Cpu) (ip : UInt16) : Cpu := { s with ip := ip }

def offset (s : Cpu) (base : Option Reg) (disp : UInt16) : UInt16 := (base.elim 0 s.reg)+disp

def get (s : Cpu) : Operand → UInt16
  | .reg r => s.reg r
  | .imm w => w
  | .mem seg base disp => peek s.mem (s.reg seg) (s.offset base disp)

/-- A store; a constant is no destination. -/
def put (s : Cpu) (v : UInt16) : Operand → Cpu
  | .reg r => s.setReg r v
  | .imm _ => s
  | .mem seg base disp => { s with mem := poke s.mem (s.reg seg) (s.offset base disp) v }

def pushWord (s : Cpu) (v : UInt16) : Cpu :=
  { s with
    reg := Function.update s.reg .sp (s.reg .sp-2)
    mem := poke s.mem (s.reg .ss) (s.reg .sp-2) v }

/-- The word `k` bytes above the stack pointer. -/
def stack (s : Cpu) (k : UInt16) : UInt16 := peek s.mem (s.reg .ss) (s.reg .sp+k)

def drop (s : Cpu) (k : UInt16) : Cpu := s.setReg .sp (s.reg .sp+k)

/-- An instruction whose successor begins at `next`. -/
def exec (hw : Status) (s : Cpu) (next : UInt16) : Instr → Cpu
  | .mov dst src => { s.put (s.get src) dst with ip := next }
  | .lea dst disp => { s.setReg dst disp with ip := next }
  | .alu op dst src =>
    { s.put (op.value (s.get dst) (s.get src)) dst with
      flags := hw op s.flags (s.get dst) (s.get src), ip := next }
  | .push src => { s.pushWord (s.get src) with ip := next }
  | .pop dst => { (s.drop 2).put (s.stack 0) dst with ip := next }
  | .pushf => { s.pushWord s.flags with ip := next }
  | .popf => { s.drop 2 with flags := s.stack 0, ip := next }
  | .call target => { s.pushWord next with ip := target }
  | .ret => { s.drop 2 with ip := s.stack 0 }
  | .retf => { (s.drop 4).setReg .cs (s.stack 2) with ip := s.stack 0 }
  | .iret => { (s.drop 6).setReg .cs (s.stack 2) with ip := s.stack 0, flags := s.stack 4 }
  | .jmpf seg disp =>
    { s.setReg .cs (peek s.mem (s.reg seg) (disp+2)) with ip := peek s.mem (s.reg seg) disp }

/-- The processor takes an interrupt: interrupts and single stepping are off in the handler. -/
def interrupt (s : Cpu) (seg off : UInt16) : Cpu :=
  let pushed := ((s.pushWord s.flags).pushWord (s.reg .cs)).pushWord s.ip
  { pushed.setReg .cs seg with ip := off, flags := s.flags &&& 64767 }

end Cpu

/-- A near function returns to its caller, on its caller's stack, and leaves the bytes of `K` alone. -/
structure NearReturn (K : Set ℕ) (s s' : Cpu) : Prop where
  ip : s'.ip = s.stack 0
  sp : s'.reg .sp = s.reg .sp+2
  ss : s'.reg .ss = s.reg .ss
  cs : s'.reg .cs = s.reg .cs
  kept : SameOn K s.mem s'.mem

/-- An interrupt handler returns, with the registers and the flags of the program it interrupted. -/
structure InterruptReturn (s s' : Cpu) : Prop where
  ip : s'.ip = s.stack 0
  reg : s'.reg = Function.update (Function.update s.reg .sp (s.reg .sp+6)) .cs (s.stack 2)
  flags : s'.flags = s.stack 4

/-- Code that is not listed comes to an end from every state of `pre`, and its runs are as `R` says. -/
def Finishes (world : Cpu → Cpu → Prop) (pre : Cpu → Prop) (R : Cpu → Cpu → Prop) : Prop :=
  ∀ s, pre s → (∃ s', world s s') ∧ ∀ s', world s s' → R s s'

/-! Runs. -/

/-- The instruction at an address, and where the next one begins. -/
abbrev Code := UInt16 → UInt16 → Option (Instr × UInt16)

/-- The instructions of a list lie one after the other. -/
inductive Assembled (code : Code) (cs : UInt16) : UInt16 → List Instr → UInt16 → Prop
  | nil (ip : UInt16) : Assembled code cs ip [] ip
  | cons {ip next ip' : UInt16} {i : Instr} {l : List Instr} (h : code cs ip = some (i,next))
      (tail : Assembled code cs next l ip') : Assembled code cs ip (i :: l) ip'

/-- One instruction, or a run of code that is not listed up to its return. -/
inductive Step (hw : Status) (code : Code) (world : Cpu → Cpu → Prop) (s : Cpu) : Cpu → Prop
  | instr {i : Instr} {next : UInt16} (h : code (s.reg .cs) s.ip = some (i,next)) :
      Step hw code world s (s.exec hw next i)
  | outside {s' : Cpu} (h : code (s.reg .cs) s.ip = none) (hrun : world s s') :
      Step hw code world s s'

/-- Every run from the state reaches `P`. -/
inductive Leads (hw : Status) (code : Code) (world : Cpu → Cpu → Prop) (P : Cpu → Prop) :
    Cpu → Prop
  | here {s : Cpu} (h : P s) : Leads hw code world P s
  | step {s : Cpu} (hex : ∃ s', Step hw code world s s')
      (hall : ∀ s', Step hw code world s s' → Leads hw code world P s') : Leads hw code world P s

variable {hw : Status} {code : Code} {world : Cpu → Cpu → Prop} {P Q : Cpu → Prop} {s s' : Cpu}
  {cs ip ip' : UInt16} {l l' : List Instr}

theorem Assembled.of_append (h : Assembled code cs ip (l ++ l') ip') :
    ∃ next, Assembled code cs ip l next ∧ Assembled code cs next l' ip' := by
  induction l generalizing ip with
  | nil => exact ⟨ip,.nil ip,h⟩
  | cons i l ih =>
    cases h with
    | cons hi tail =>
      obtain ⟨next,hl,hl'⟩ := ih tail
      exact ⟨next,.cons hi hl,hl'⟩

/-- A listing at the beginning of a segment, its instructions numbered. -/
def numbered (seg : UInt16) (l : List Instr) : Code := fun cs ip =>
  if cs = seg then l[ip.toNat]?.map fun i => (i,ip+1) else none

theorem assembled_numbered {seg : UInt16} (h : l.length < 65536) :
    Assembled (numbered seg l) seg 0 l (UInt16.ofNat l.length) := by
  have hsuffix (pre suf : List Instr) (hl : pre ++ suf = l) :
      Assembled (numbered seg l) seg (UInt16.ofNat pre.length) suf (UInt16.ofNat l.length) := by
    induction suf generalizing pre with
    | nil =>
      rw [← hl, List.append_nil]
      exact .nil _
    | cons i suf ih =>
      have hlen : pre.length < 65536 := by
        rw [← hl, List.length_append] at h
        omega
      have htail := ih (pre ++ [i]) (by rw [← hl, List.append_assoc]; rfl)
      rw [List.length_append, UInt16.ofNat_add] at htail
      refine .cons ?_ htail
      rw [numbered, if_pos rfl, UInt16.toNat_ofNat_of_lt' hlen, ← hl, List.getElem?_append_right le_rfl,
        Nat.sub_self]
      rfl
  exact hsuffix [] l rfl

theorem Leads.trans (h : Leads hw code world P s) (hP : ∀ s', P s' → Leads hw code world Q s') :
    Leads hw code world Q s := by
  induction h with
  | here h => exact hP _ h
  | step hex _ ih => exact .step hex ih

theorem Leads.instr {i : Instr} {next : UInt16} (h : code (s.reg .cs) s.ip = some (i,next))
    (hP : Leads hw code world P (s.exec hw next i)) : Leads hw code world P s := by
  refine .step ⟨_,.instr h⟩ fun s' hs => ?_
  cases hs with
  | instr h' =>
    rw [h, Option.some.injEq, Prod.mk.injEq] at h'
    obtain ⟨rfl,rfl⟩ := h'
    exact hP
  | outside hnone => cases h.symm.trans hnone

theorem Leads.outside (h : code (s.reg .cs) s.ip = none) (hex : ∃ s', world s s')
    (hP : ∀ s', world s s' → Leads hw code world P s') : Leads hw code world P s := by
  obtain ⟨s₁,hs₁⟩ := hex
  refine .step ⟨s₁,.outside h hs₁⟩ fun s' hs => ?_
  cases hs with
  | instr h' => cases h.symm.trans h'
  | outside _ hrun => exact hP s' hrun

def Operand.isCs : Operand → Bool
  | .reg .cs => true
  | _ => false

theorem Leads.finishes {pre : Cpu → Prop} {R : Cpu → Cpu → Prop} (hf : Finishes world pre R)
    (hs : pre s) (h : code (s.reg .cs) s.ip = none)
    (hP : ∀ s', world s s' → R s s' → Leads hw code world P s') : Leads hw code world P s :=
  .outside h (hf s hs).1 fun s' hrun => hP s' hrun ((hf s hs).2 s' hrun)

/-- Goes on to the next instruction, in the same segment. -/
def Instr.straight : Instr → Bool
  | .mov dst _ | .alu _ dst _ | .pop dst => !dst.isCs
  | .lea dst _ => !(Operand.reg dst).isCs
  | .push _ | .pushf | .popf => true
  | .call _ | .ret | .retf | .iret | .jmpf .. => false

/-- Instructions in a row, without their addresses. -/
def Cpu.runs (hw : Status) (s : Cpu) (l : List Instr) : Cpu :=
  l.foldl (fun s i => s.exec hw s.ip i) s

theorem Cpu.runs_append (s : Cpu) (l l' : List Instr) :
    s.runs hw (l ++ l') = (s.runs hw l).runs hw l' := List.foldl_append

theorem Cpu.put_cs {dst : Operand} {v : UInt16} (h : (!dst.isCs) = true) :
    (s.put v dst).reg .cs = s.reg .cs := by
  cases dst with
  | reg r =>
    apply Function.update_of_ne
    intro hr
    subst hr
    cases h
  | imm w => rfl
  | mem seg base disp => rfl

/-- A straight instruction moves on, whatever its address. -/
theorem exec_straight {i : Instr} (h : i.straight = true) (s : Cpu) (ip next : UInt16) :
    (s.goto ip).exec hw next i = (s.exec hw s.ip i).goto next ∧
      (s.exec hw s.ip i).reg .cs = s.reg .cs := by
  cases i with
  | mov dst src =>
    refine ⟨?_,Cpu.put_cs h⟩
    cases dst <;> cases src <;> rfl
  | lea dst disp => exact ⟨rfl,@Cpu.put_cs s (.reg dst) _ h⟩
  | alu op dst src =>
    refine ⟨?_,Cpu.put_cs h⟩
    cases dst <;> cases src <;> rfl
  | push src =>
    refine ⟨?_,rfl⟩
    cases src <;> rfl
  | pop dst =>
    refine ⟨?_,(Cpu.put_cs h).trans rfl⟩
    cases dst <;> rfl
  | pushf => exact ⟨rfl,rfl⟩
  | popf => exact ⟨rfl,rfl⟩
  | call target => cases h
  | ret => cases h
  | retf => cases h
  | iret => cases h
  | jmpf seg disp => cases h

theorem Cpu.runs_ip (h : l.all Instr.straight = true) (s : Cpu) (ip ip' : UInt16) :
    ((s.goto ip).runs hw l).goto ip' = (s.runs hw l).goto ip' := by
  induction l generalizing s ip with
  | nil => rfl
  | cons i l ih =>
    rw [List.all_cons, Bool.and_eq_true] at h
    have hexec : (s.goto ip).exec hw ip i = (s.exec hw s.ip i).goto ip :=
      (exec_straight h.1 s ip ip).1
    change (((s.goto ip).exec hw ip i).runs hw l).goto ip' = _
    rw [hexec]
    exact ih h.2 (s.exec hw s.ip i) ip

theorem Cpu.runs_cs (h : l.all Instr.straight = true) (s : Cpu) :
    (s.runs hw l).reg .cs = s.reg .cs := by
  induction l generalizing s with
  | nil => rfl
  | cons i l ih =>
    rw [List.all_cons, Bool.and_eq_true] at h
    exact (ih h.2 (s.exec hw s.ip i)).trans (exec_straight h.1 s s.ip s.ip).2

/-- Straight code runs to its end. -/
theorem Leads.block (hl : Assembled code cs ip l ip') (h : l.all Instr.straight = true)
    (hcs : s.reg .cs = cs) (hip : s.ip = ip)
    (hP : Leads hw code world P ((s.runs hw l).goto ip')) : Leads hw code world P s := by
  induction hl generalizing s with
  | nil ip =>
    subst hip
    exact hP
  | cons hcode tail ih =>
    rename_i ip next ip' i l
    rw [List.all_cons, Bool.and_eq_true] at h
    subst hcs hip
    have hexec : s.exec hw next i = (s.exec hw s.ip i).goto next :=
      (exec_straight h.1 s s.ip next).1
    apply Leads.instr hcode
    rw [hexec]
    refine ih (s := (s.exec hw s.ip i).goto next) h.2 (exec_straight h.1 s s.ip s.ip).2 rfl ?_
    rw [Cpu.runs_ip h.2]
    exact hP

/-! Registers on the stack. -/

/-- The words were pushed, and nothing else happened. -/
structure Pushed (ws : List UInt16) (s s' : Cpu) : Prop where
  reg : s'.reg = Function.update s.reg .sp (s.reg .sp-UInt16.ofNat (2*ws.length))
  flags : s'.flags = s.flags
  ip : s'.ip = s.ip
  words : Words s'.mem (s.reg .ss) (s.reg .sp-UInt16.ofNat (2*ws.length)) ws.reverse
  same : SameOn (Span (s.reg .ss) (s.reg .sp-UInt16.ofNat (2*ws.length)) (2*ws.length))ᶜ s.mem s'.mem

variable {ws : List UInt16} {rs : List Reg}

theorem Pushed.nil (s : Cpu) : Pushed [] s s where
  reg := by
    change s.reg = Function.update s.reg .sp (s.reg .sp-0)
    rw [UInt16.sub_zero, Function.update_eq_self]
  flags := rfl
  ip := rfl
  words := trivial
  same := SameOn.refl _ s.mem

theorem Pushed.push (h : Pushed ws s s') (hlen : 2*(ws.length+1) ≤ 65536) (v : UInt16) :
    Pushed (ws ++ [v]) s (s'.pushWord v) := by
  have hsp : s'.reg .sp = s.reg .sp-UInt16.ofNat (2*ws.length) := by
    rw [h.reg, Function.update_self]
  have hss : s'.reg .ss = s.reg .ss := by
    rw [h.reg]
    exact Function.update_of_ne (by decide) ..
  have hnext : s'.reg .sp-2 = s.reg .sp-UInt16.ofNat (2*(ws ++ [v]).length) := by
    rw [hsp, List.length_append]
    exact sub_words ..
  have hspan : Span (s.reg .ss) (s'.reg .sp) (2*ws.length) ⊆
      Span (s.reg .ss) (s'.reg .sp-2) (2*ws.length+2) := by
    have htail := @span_tail (s.reg .ss) (s'.reg .sp-2) (2*ws.length)
    rwa [UInt16.sub_add_cancel] at htail
  constructor
  · change Function.update s'.reg .sp (s'.reg .sp-2) = _
    rw [hnext, h.reg, Function.update_idem]
  · exact h.flags
  · exact h.ip
  · rw [List.reverse_append, ← hnext]
    change Words (poke s'.mem (s'.reg .ss) (s'.reg .sp-2) v) _ _ (v :: ws.reverse)
    rw [hss]
    apply Words.push
    · rw [hsp]
      exact h.words
    · rw [List.length_reverse]
      omega
  · rw [← hnext, List.length_append]
    change SameOn _ _ (poke s'.mem (s'.reg .ss) (s'.reg .sp-2) v)
    refine SameOn.trans (h.same.mono ?_) (sameOn_poke ?_)
    · rw [← hsp]
      exact Set.compl_subset_compl.mpr hspan
    · rw [hss, Set.disjoint_compl_right_iff_subset, Nat.mul_add, Nat.add_comm]
      exact span_head

/-- Words are popped into registers. -/
def Cpu.load (s : Cpu) (rs : List Reg) (f : Reg → UInt16) : Cpu :=
  { s with
    reg := fun r => if r = .sp then s.reg .sp+UInt16.ofNat (2*rs.length)
      else if r ∈ rs then f r else s.reg r }

theorem runs_pushes (h : .sp ∉ rs) (hws : Pushed ws s s') (hlen : 2*(ws.length+rs.length) ≤ 65536) :
    Pushed (ws ++ rs.map s.reg) s (s'.runs hw (rs.map fun r => .push (.reg r))) := by
  induction rs generalizing ws s' with
  | nil =>
    rw [List.map_nil, List.append_nil]
    exact hws
  | cons r rs ih =>
    have hrs := List.not_mem_of_not_mem_cons h
    have hreg : s'.reg r = s.reg r := by
      rw [hws.reg, Function.update_of_ne (List.ne_of_not_mem_cons h).symm]
    have hpush := hws.push (by simp at hlen; omega) (s.reg r)
    have hstep := ih hrs hpush (by simp at hlen ⊢; omega)
    rw [List.map_cons, List.append_cons]
    rw [← hreg] at hstep ⊢
    exact hstep

/-- A pop takes the word on top of the stack. -/
theorem exec_pop {r : Reg} {v ip : UInt16} (htop : peek s.mem (s.reg .ss) (s.reg .sp) = v) :
    s.exec hw ip (.pop (.reg r)) =
      { s with reg := Function.update (Function.update s.reg .sp (s.reg .sp+2)) r v, ip := ip } := by
  subst htop
  change Cpu.goto ((s.drop 2).put (peek s.mem (s.reg .ss) (s.reg .sp+0)) (.reg r)) ip = _
  rw [UInt16.add_zero]
  rfl

theorem runs_pops {f : Reg → UInt16} (hws : Words s.mem (s.reg .ss) (s.reg .sp) (rs.map f))
    (hnodup : rs.Nodup) (hsp : .sp ∉ rs) (hss : .ss ∉ rs) :
    s.runs hw (rs.map fun r => .pop (.reg r)) = s.load rs f := by
  induction rs generalizing s with
  | nil =>
    refine Cpu.ext ?_ rfl rfl rfl
    funext r
    by_cases hr : r = .sp
    · subst hr
      exact (UInt16.add_zero _).symm
    · change _ = if r = .sp then _ else _
      rw [if_neg hr, if_neg (List.not_mem_nil)]
      rfl
  | cons r rs ih =>
    obtain ⟨hr,hrs⟩ := List.nodup_cons.mp hnodup
    have hrsp := List.ne_of_not_mem_cons hsp
    have hrss := List.ne_of_not_mem_cons hss
    have hstep : s.exec hw s.ip (.pop (.reg r)) = _ := exec_pop hws.1
    change (s.exec hw s.ip (.pop (.reg r))).runs hw _ = _
    rw [hstep, ih ?_ hrs (List.not_mem_of_not_mem_cons hsp) (List.not_mem_of_not_mem_cons hss)]
    · refine Cpu.ext ?_ rfl rfl rfl
      funext r'
      simp only [Cpu.load]
      by_cases hr' : r' = .sp
      · rw [if_pos hr', if_pos hr', Function.update_of_ne hrsp, Function.update_self]
        exact add_words ..
      · rw [if_neg hr', if_neg hr']
        by_cases hmem : r' ∈ rs
        · rw [if_pos hmem, if_pos (List.mem_cons_of_mem r hmem)]
        · rw [if_neg hmem]
          by_cases hself : r' = r
          · subst hself
            rw [Function.update_self, if_pos List.mem_cons_self]
          · rw [Function.update_of_ne hself, Function.update_of_ne hr', if_neg]
            exact List.not_mem_cons_of_ne_of_not_mem hself hmem
    · change Words s.mem (Function.update (Function.update s.reg .sp (s.reg .sp+2)) r (f r) .ss)
        (Function.update (Function.update s.reg .sp (s.reg .sp+2)) r (f r) .sp) _
      rw [Function.update_of_ne hrss, Function.update_of_ne hrsp, Function.update_self,
        Function.update_of_ne (by decide)]
      exact hws.2

end RealMode
