import RmtDos.Lib.Processor

/-! The stubs of the timer and the idle interrupt. Each saves the registers on two stacks, calls its C
function on a private one in the program's own segment, puts everything back and goes on to the handler
that was hooked before it. -/
namespace RmtDos
open RealMode Memory

/-- Where a stub's stack ends, its C function and the vector it chains to, in the program's segment. -/
structure IsrLabels where
  stackTop : UInt16
  handler : UInt16
  original : UInt16

namespace IsrLabels

/-- The saved `SS` and `SP` lie right above the private stack. -/
def savedSs (l : IsrLabels) : UInt16 := l.stackTop

def savedSp (l : IsrLabels) : UInt16 := l.stackTop+2

end IsrLabels

/-- All registers but `AX`, which is on the interrupted program's stack. -/
def isrSaved : List Reg := [.bx,.cx,.dx,.si,.di,.bp,.ds,.es]

/-- To the private stack. -/
def isrSwitch (l : IsrLabels) : List Instr :=
  [.mov (.mem .cs none l.savedSs) (.reg .ss), .mov (.mem .cs none l.savedSp) (.reg .sp),
    .mov (.reg .ax) (.reg .cs), .mov (.reg .ss) (.reg .ax), .lea .sp (l.stackTop-2)]

/-- The part of a stub before its C function. -/
def isrEntry (l : IsrLabels) : List Instr :=
  [.pushf, .push (.reg .ax)] ++ isrSwitch l ++ isrSaved.map (fun r => .push (.reg r))
    ++ [.mov (.reg .ds) (.reg .ax), .mov (.reg .es) (.reg .ax)]

/-- Back to the interrupted program's stack. -/
def isrReturn (l : IsrLabels) : List Instr :=
  [.mov (.reg .ss) (.mem .cs none l.savedSs), .mov (.reg .sp) (.mem .cs none l.savedSp),
    .pop (.reg .ax), .popf]

/-- The part after it. -/
def isrExit (l : IsrLabels) : List Instr :=
  isrSaved.reverse.map (fun r => .pop (.reg r)) ++ isrReturn l

/-- The listing of a stub. -/
def isr (l : IsrLabels) : List Instr :=
  isrEntry l ++ .call l.handler :: (isrExit l ++ [.jmpf .cs l.original])

/-- The labels of the resident program that the stubs use. -/
structure ResidentLabels where
  int08StackTop : UInt16
  int08Handler : UInt16
  int08OriginalHandler : UInt16
  int28StackTop : UInt16
  int28Handler : UInt16
  int28OriginalHandler : UInt16

def int08Isr (l : ResidentLabels) : List Instr :=
  isr ⟨l.int08StackTop,l.int08Handler,l.int08OriginalHandler⟩

def int28Isr (l : ResidentLabels) : List Instr :=
  isr ⟨l.int28StackTop,l.int28Handler,l.int28OriginalHandler⟩

variable {hw : Status} {l : IsrLabels} {s s' : Cpu}

/-- What the stub uses of the interrupted program's stack. -/
def outerFrame (s : Cpu) : Set ℕ := Span (s.reg .ss) (s.reg .sp-4) 4

/-- What it uses in the program's segment, with the return address of its call. -/
def IsrLabels.area (l : IsrLabels) (cs : UInt16) : Set ℕ := Span cs (l.stackTop-20) 24

/-- The part of that in use while the C function runs. -/
def IsrLabels.frame (l : IsrLabels) (cs : UInt16) : Set ℕ := Span cs (l.stackTop-18) 22

/-- On the private stack, with the registers of `s` saved. -/
structure Saved (l : IsrLabels) (s s' : Cpu) : Prop where
  sp : s'.reg .sp = l.stackTop-18
  ss : s'.reg .ss = s.reg .cs
  cs : s'.reg .cs = s.reg .cs
  savedSs : peek s'.mem (s.reg .cs) l.savedSs = s.reg .ss
  savedSp : peek s'.mem (s.reg .cs) l.savedSp = s.reg .sp-4
  inner : Words s'.mem (s.reg .cs) (l.stackTop-18) (isrSaved.reverse.map s.reg)
  outer : Words s'.mem (s.reg .ss) (s.reg .sp-4) [s.reg .ax,s.flags]

structure Switched (l : IsrLabels) (s s' : Cpu) : Prop extends Saved l s s' where
  ds : s'.reg .ds = s.reg .cs
  es : s'.reg .es = s.reg .cs
  same : SameOn (outerFrame s ∪ l.frame (s.reg .cs))ᶜ s.mem s'.mem

/-! Places in the private area, by their distance from its bottom. -/

theorem savedSs_eq (l : IsrLabels) : l.savedSs = l.stackTop-20+UInt16.ofNat 20 :=
  (UInt16.sub_add_cancel ..).symm

theorem savedSp_eq (l : IsrLabels) : l.savedSp = l.stackTop-20+UInt16.ofNat 22 := by
  change l.stackTop+2 = l.stackTop-20+22
  grind

theorem frame_eq (l : IsrLabels) : l.stackTop-18 = l.stackTop-20+UInt16.ofNat 2 := by
  change l.stackTop-18 = l.stackTop-20+2
  grind

variable {cs : UInt16}

theorem savedSs_frame : Span cs l.savedSs 2 ⊆ l.frame cs := by
  rw [IsrLabels.frame, savedSs_eq, frame_eq]
  exact span_mono (by decide) (by decide)

theorem savedSp_frame : Span cs l.savedSp 2 ⊆ l.frame cs := by
  rw [IsrLabels.frame, savedSp_eq, frame_eq]
  exact span_mono (by decide) (by decide)

theorem frame_area : l.frame cs ⊆ l.area cs := by
  have hspan : Span cs (l.stackTop-20+UInt16.ofNat 2) 22 ⊆
      Span cs (l.stackTop-20+UInt16.ofNat 0) 24 := span_mono (by decide) (by decide)
  rwa [← frame_eq, show UInt16.ofNat 0 = 0 from rfl, UInt16.add_zero] at hspan

theorem inner_frame : Span cs (l.stackTop-18) 16 ⊆ l.frame cs :=
  @span_head cs (l.stackTop-18) 16 6

theorem savedSs_inner : Disjoint (Span cs l.savedSs 2) (Span cs (l.stackTop-18) 16) := by
  rw [savedSs_eq, frame_eq]
  exact (span_disjoint (by decide) (by decide)).symm

theorem savedSp_inner : Disjoint (Span cs l.savedSp 2) (Span cs (l.stackTop-18) 16) := by
  rw [savedSp_eq, frame_eq]
  exact (span_disjoint (by decide) (by decide)).symm

theorem saved_disjoint : Disjoint (Span cs l.savedSp 2) (Span cs l.savedSs 2) := by
  rw [savedSp_eq, savedSs_eq]
  exact (span_disjoint (by decide) (by decide)).symm

theorem runs_isrSwitch (s : Cpu) : s.runs hw (isrSwitch l) =
    { s with
      reg := Function.update (Function.update (Function.update s.reg .ax (s.reg .cs)) .ss (s.reg .cs))
        .sp (l.stackTop-2)
      mem := poke (poke s.mem (s.reg .cs) l.savedSs (s.reg .ss)) (s.reg .cs) l.savedSp
        (s.reg .sp) } := by
  rw [← UInt16.zero_add l.savedSs, ← UInt16.zero_add l.savedSp]
  rfl

theorem runs_outer (s : Cpu) :
    Pushed [s.flags,s.reg .ax] s (s.runs hw [.pushf, .push (.reg .ax)]) :=
  ((Pushed.nil s).push (by simp) s.flags).push (by simp) (s.reg .ax)

/-- The registers from the switch of stacks on. -/
theorem runs_inner {s₁ : Cpu} (h : s₁.reg .ss = s₁.reg .cs) (hsp : s₁.reg .sp = l.stackTop-2) :
    let s₂ := s₁.runs hw (isrSaved.map fun r => .push (.reg r))
    s₂.reg = Function.update s₁.reg .sp (l.stackTop-18) ∧
      Words s₂.mem (s₁.reg .cs) (l.stackTop-18) (isrSaved.reverse.map s₁.reg) ∧
      SameOn (Span (s₁.reg .cs) (l.stackTop-18) 16)ᶜ s₁.mem s₂.mem := by
  intro s₂
  have hpushed : Pushed (isrSaved.map s₁.reg) s₁ s₂ :=
    @runs_pushes hw s₁ s₁ [] isrSaved (by decide) (Pushed.nil s₁) (by simp [isrSaved])
  have hdepth : s₁.reg .sp-UInt16.ofNat (2*(isrSaved.map s₁.reg).length) = l.stackTop-18 := by
    rw [hsp, List.length_map]
    change l.stackTop-2-16 = _
    grind
  obtain ⟨hreg,_,_,hwords,hsame⟩ := hpushed
  rw [hdepth, h] at hwords hsame
  rw [hdepth] at hreg
  exact ⟨hreg,hwords,hsame⟩

theorem isrEntry_enters (hd : Disjoint (outerFrame s) (l.area (s.reg .cs))) :
    Switched l s (s.runs hw (isrEntry l)) := by
  rw [isrEntry, Cpu.runs_append, Cpu.runs_append, Cpu.runs_append, runs_isrSwitch]
  have houter := @runs_outer hw s
  generalize s.runs hw [.pushf, .push (.reg .ax)] = s₁ at houter ⊢
  generalize hs₂ : Cpu.mk (Function.update (Function.update (Function.update s₁.reg .ax (s₁.reg .cs))
    .ss (s₁.reg .cs)) .sp (l.stackTop-2)) _ _ _ = s₂
  have hreg₁ := houter.reg
  have hreg₂ := congrArg Cpu.reg hs₂
  have hmem₂ : s₂.mem = poke (poke s₁.mem (s.reg .cs) l.savedSs (s.reg .ss)) (s.reg .cs) l.savedSp
      (s.reg .sp-4) := by simp [← hs₂, hreg₁]
  have hcs : s₂.reg .cs = s.reg .cs := by simp [← hreg₂, hreg₁]
  have hss : s₂.reg .ss = s.reg .cs := by simp [← hreg₂, hreg₁]
  have hax : s₂.reg .ax = s.reg .cs := by simp [← hreg₂, hreg₁]
  have hsaved : isrSaved.reverse.map s₂.reg = isrSaved.reverse.map s.reg := by
    simp [isrSaved, ← hreg₂, hreg₁]
  obtain ⟨hreg₃,hinner,hsame⟩ := @runs_inner hw l s₂ (hss.trans hcs.symm) (by simp [← hreg₂])
  rw [hcs] at hinner hsame
  generalize s₂.runs hw (isrSaved.map fun r => .push (.reg r)) = s₃ at hreg₃ hinner hsame ⊢
  have hframe : SameOn (l.frame (s.reg .cs))ᶜ s₁.mem s₃.mem := by
    refine SameOn.trans ?_ (hsame.mono (Set.compl_subset_compl.mpr inner_frame))
    rw [hmem₂]
    exact (sameOn_poke (Set.disjoint_compl_right_iff_subset.mpr savedSs_frame)).trans
      (sameOn_poke (Set.disjoint_compl_right_iff_subset.mpr savedSp_frame))
  have hold {r : Reg} (hr : r = .cs ∨ r = .ax ∨ r = .ss) : s₃.reg r = s.reg .cs := by
    rcases hr with rfl | rfl | rfl <;> simp [hreg₃, hcs, hax, hss]
  refine ⟨⟨?_,hold (.inr (.inr rfl)),hold (.inl rfl),?_,?_,?_,?_⟩,hold (.inr (.inl rfl)),
    hold (.inr (.inl rfl)),?_⟩
  · change s₃.reg .sp = _
    rw [hreg₃, Function.update_self]
  · change peek s₃.mem _ _ = _
    rw [(hsame.mono savedSs_inner.subset_compl_right).peek, hmem₂, (sameOn_poke saved_disjoint).peek,
      peek_poke]
  · change peek s₃.mem _ _ = _
    rw [(hsame.mono savedSp_inner.subset_compl_right).peek, hmem₂, peek_poke]
  · rw [← hsaved]
    exact hinner
  · refine Words.same houter.words (hframe.mono ?_)
    exact (hd.mono_right frame_area).subset_compl_right
  · refine SameOn.trans (houter.same.mono ?_) (hframe.mono ?_)
    · exact Set.compl_subset_compl.mpr Set.subset_union_left
    · exact Set.compl_subset_compl.mpr Set.subset_union_right

theorem Saved.keep {x x' : Cpu} (h : Saved l s x) (hreg : x'.reg .sp = x.reg .sp ∧
    x'.reg .ss = x.reg .ss ∧ x'.reg .cs = x.reg .cs)
    (hsame : SameOn (outerFrame s ∪ l.frame (s.reg .cs)) x.mem x'.mem) : Saved l s x' := by
  have hframe := hsame.mono Set.subset_union_right
  constructor
  · exact hreg.1.trans h.sp
  · exact hreg.2.1.trans h.ss
  · exact hreg.2.2.trans h.cs
  · rw [(hframe.mono savedSs_frame).peek]
    exact h.savedSs
  · rw [(hframe.mono savedSp_frame).peek]
    exact h.savedSp
  · exact h.inner.same (hframe.mono inner_frame)
  · exact h.outer.same (hsame.mono Set.subset_union_left)

/-- Back to the stack of the interrupted program. -/
theorem runs_isrReturn (y : Cpu) {ss sp ax flags : UInt16}
    (hss : peek y.mem (y.reg .cs) l.savedSs = ss) (hsp : peek y.mem (y.reg .cs) l.savedSp = sp)
    (hwords : Words y.mem ss sp [ax,flags]) :
    y.runs hw (isrReturn l) =
      { y with
        reg := Function.update (Function.update (Function.update y.reg .ss ss) .ax ax) .sp (sp+4)
        flags := flags } := by
  obtain ⟨hax,hflags,-⟩ := hwords
  have hmov : y.runs hw [.mov (.reg .ss) (.mem .cs none l.savedSs),
      .mov (.reg .sp) (.mem .cs none l.savedSp)] =
      { y with reg := Function.update (Function.update y.reg .ss ss) .sp sp } := by
    rw [← UInt16.zero_add l.savedSs] at hss
    rw [← UInt16.zero_add l.savedSp] at hsp
    rw [← hss, ← hsp]
    rfl
  have hlist : isrReturn l = [.mov (.reg .ss) (.mem .cs none l.savedSs),
      .mov (.reg .sp) (.mem .cs none l.savedSp)] ++ [.pop (.reg .ax), .popf] := rfl
  rw [hlist, Cpu.runs_append, hmov]
  have hpop : Cpu.exec hw { y with reg := Function.update (Function.update y.reg .ss ss) .sp sp } y.ip
      (.pop (.reg .ax)) = _ := exec_pop hax
  change Cpu.exec hw (Cpu.exec hw _ y.ip (.pop (.reg .ax))) _ .popf = _
  rw [hpop]
  refine Cpu.ext ?_ rfl ?_ rfl
  · funext r
    have hsum : sp+2+2 = sp+4 := UInt16.add_assoc ..
    cases r <;> simp [Cpu.exec, Cpu.drop, Cpu.setReg, hsum]
  · change peek y.mem ss (sp+2+0) = flags
    rw [UInt16.add_zero]
    exact hflags

theorem isrExit_restores {x : Cpu} (h : Saved l s x) :
    x.runs hw (isrExit l) = { x with reg := s.reg, flags := s.flags } := by
  have hpops : x.runs hw (isrSaved.reverse.map fun r => .pop (.reg r)) =
      x.load isrSaved.reverse s.reg := by
    apply runs_pops
    · rw [h.ss, h.sp]
      exact h.inner
    · decide
    · decide
    · decide
  have hcs : (x.load isrSaved.reverse s.reg).reg .cs = s.reg .cs := h.cs
  have hreturn := @runs_isrReturn hw l (x.load isrSaved.reverse s.reg) _ _ _ _
    (hcs.symm ▸ h.savedSs) (hcs.symm ▸ h.savedSp) h.outer
  rw [isrExit, Cpu.runs_append, hpops, hreturn]
  refine Cpu.ext ?_ rfl rfl rfl
  funext r
  have hsp : s.reg .sp-4+4 = s.reg .sp := UInt16.sub_add_cancel ..
  cases r <;> simp [Cpu.load, isrSaved, hsp, h.cs]

/-- The call of a stub's C function: in the program's own segment, on the private stack. -/
structure IsrLabels.Called (l : IsrLabels) (seg : UInt16) (a : Cpu) : Prop where
  ip : a.ip = l.handler
  sp : a.reg .sp = l.stackTop-20
  cs : a.reg .cs = seg
  ss : a.reg .ss = seg
  ds : a.reg .ds = seg
  es : a.reg .es = seg

/-- The same, with a memory that only the bytes of `own` have changed in. -/
def IsrLabels.CalledOn (l : IsrLabels) (seg : UInt16) (own : Set ℕ) (m : Mem) (a : Cpu) : Prop :=
  l.Called seg a ∧ SameOn ownᶜ m a.mem

/-- The stub goes on to the handler hooked before it: with the registers and flags it was entered with,
and the memory that its C function left. -/
structure Chained (world : Cpu → Cpu → Prop) (l : IsrLabels) (s c : Cpu) : Prop where
  reg : c.reg = Function.update s.reg .cs (peek c.mem (s.reg .cs) (l.original+2))
  ip : c.ip = peek c.mem (s.reg .cs) l.original
  flags : c.flags = s.flags
  served : ∃ a b, l.Called (s.reg .cs) a ∧
    SameOn (outerFrame s ∪ l.area (s.reg .cs))ᶜ s.mem a.mem ∧ world a b ∧ c.mem = b.mem

variable {code : Code} {world : Cpu → Cpu → Prop} {kept : Set ℕ}

theorem call_frame : Disjoint (Span cs (l.stackTop-20) 2) (l.frame cs) := by
  have hspan : Disjoint (Span cs (l.stackTop-20+UInt16.ofNat 0) 2)
      (Span cs (l.stackTop-20+UInt16.ofNat 2) 22) := span_disjoint (by decide) (by decide)
  rwa [← frame_eq, show UInt16.ofNat 0 = 0 from rfl, UInt16.add_zero] at hspan

theorem call_area : Span cs (l.stackTop-20) 2 ⊆ l.area cs := @span_head cs (l.stackTop-20) 2 22

/-- The call of the C function, after the stub has entered. -/
theorem Switched.call {x : Cpu} {next : UInt16} (h : Switched l s x)
    (hd : Disjoint (outerFrame s) (l.area (s.reg .cs))) :
    let a := (x.pushWord next).goto l.handler
    l.Called (s.reg .cs) a ∧ a.stack 0 = next ∧
      SameOn (outerFrame s ∪ l.frame (s.reg .cs)) x.mem a.mem ∧
      SameOn (outerFrame s ∪ l.area (s.reg .cs))ᶜ s.mem a.mem := by
  intro a
  have hsp : a.reg .sp = l.stackTop-20 := by
    change x.reg .sp-2 = _
    rw [h.sp]
    grind
  have hmem : a.mem = poke x.mem (s.reg .cs) (l.stackTop-20) next := by
    change poke x.mem (x.reg .ss) (a.reg .sp) next = _
    rw [h.ss, hsp]
  refine ⟨⟨rfl,hsp,h.cs,h.ss,h.ds,h.es⟩,?_,?_,?_⟩
  · change peek a.mem (x.reg .ss) (a.reg .sp+0) = next
    rw [UInt16.add_zero, hsp, h.ss, hmem, peek_poke]
  · rw [hmem]
    exact (sameOn_poke (hd.symm.mono_left call_area)).union (sameOn_poke call_frame)
  · rw [hmem]
    refine SameOn.trans (h.same.mono ?_) (sameOn_poke ?_)
    · exact Set.compl_subset_compl.mpr (Set.union_subset_union_right _ frame_area)
    · exact Set.disjoint_compl_right_iff_subset.mpr (call_area.trans Set.subset_union_right)

theorem isr_chains {end' : UInt16} (hl : Assembled code (s.reg .cs) s.ip (isr l) end')
    (hnone : code (s.reg .cs) l.handler = none)
    (hd : Disjoint (outerFrame s) (l.area (s.reg .cs)))
    (hkept : outerFrame s ∪ l.frame (s.reg .cs) ⊆ kept)
    (hh : Finishes world (l.CalledOn (s.reg .cs) (outerFrame s ∪ l.area (s.reg .cs)) s.mem)
      (NearReturn kept)) : Leads hw code world (Chained world l s) s := by
  obtain ⟨n₁,hentry,hrest⟩ := hl.of_append
  cases hrest with
  | cons hcall htail =>
    rename_i n₂
    obtain ⟨n₃,hexit,hlast⟩ := htail.of_append
    cases hlast with
    | cons hjmp _ =>
      have henter := @isrEntry_enters hw l s hd
      refine Leads.block hentry rfl rfl rfl ?_
      generalize s.runs hw (isrEntry l) = x at henter ⊢
      apply Leads.instr (s := x.goto n₁) (henter.cs.symm ▸ hcall)
      change Leads hw code world _ ((x.pushWord n₂).goto l.handler)
      obtain ⟨hcalled,hret,hheld,hscratch⟩ := @Switched.call l s x n₂ henter hd
      refine Leads.finishes hh ⟨hcalled,hscratch⟩ ?_ fun b hrun hnear => ?_
      · rw [hcalled.cs, hcalled.ip]
        exact hnone
      have hback : Saved l s b := by
        refine henter.toSaved.keep ⟨?_,?_,?_⟩ (hheld.trans (hnear.kept.mono hkept))
        · rw [hnear.sp, hcalled.sp, henter.sp]
          grind
        · rw [hnear.ss, hcalled.ss, henter.ss]
        · rw [hnear.cs, hcalled.cs, henter.cs]
      refine Leads.block hexit rfl hback.cs (hnear.ip.trans hret) ?_
      rw [isrExit_restores hback]
      apply Leads.instr hjmp
      exact .here ⟨rfl,rfl,rfl,_,_,hcalled,hscratch,hrun,rfl⟩

/-- What an interrupt and its stub use of the interrupted program's stack. -/
def userFrame (u : Cpu) : Set ℕ := Span (u.reg .ss) (u.reg .sp-10) 10

/-- The program goes on where it was interrupted, with its registers and flags. In between the C function
of the stub was called once, then the handler hooked before it, which was entered as by the interrupt. -/
structure Resumed (world : Cpu → Cpu → Prop) (l : IsrLabels) (cs entry : UInt16) (u r : Cpu) :
    Prop where
  reg : r.reg = u.reg
  ip : r.ip = u.ip
  flags : r.flags = u.flags
  served : ∃ a b c, l.Called cs a ∧ SameOn (userFrame u ∪ l.area cs)ᶜ u.mem a.mem ∧ world a b ∧
    c.reg = Function.update (u.interrupt cs entry).reg .cs (peek u.mem cs (l.original+2)) ∧
    c.ip = peek u.mem cs l.original ∧ c.flags = (u.interrupt cs entry).flags ∧ c.mem = b.mem ∧
    world c r

/-- The handler hooked before is entered as by the interrupt, with the memory that the C function
left. -/
structure Continued (world : Cpu → Cpu → Prop) (l : IsrLabels) (cs entry : UInt16) (u c : Cpu) :
    Prop where
  reg : c.reg = Function.update (u.interrupt cs entry).reg .cs (peek u.mem cs (l.original+2))
  ip : c.ip = peek u.mem cs l.original
  flags : c.flags = (u.interrupt cs entry).flags
  mem : ∃ a b, l.CalledOn cs (userFrame u ∪ l.area cs) u.mem a ∧ world a b ∧ c.mem = b.mem

/-- The frame that the interrupt itself pushes. -/
def returnFrame (u : Cpu) : Set ℕ := Span (u.reg .ss) (u.reg .sp-6) 6

variable {u : Cpu} {entry : UInt16}

theorem outerFrame_interrupt : outerFrame (u.interrupt cs entry) = Span (u.reg .ss) (u.reg .sp-10) 4 := by
  change Span (u.reg .ss) (u.reg .sp-2-2-2-4) 4 = _
  congr 1
  grind

theorem returnFrame_eq : u.reg .sp-6 = u.reg .sp-10+UInt16.ofNat 4 := by
  change _ = u.reg .sp-10+4
  grind

theorem returnFrame_user : returnFrame u ⊆ userFrame u := by
  have hspan : Span (u.reg .ss) (u.reg .sp-10+UInt16.ofNat 4) 6 ⊆
      Span (u.reg .ss) (u.reg .sp-10+UInt16.ofNat 0) 10 := span_mono (by decide) (by decide)
  rwa [← returnFrame_eq, show UInt16.ofNat 0 = 0 from rfl, UInt16.add_zero] at hspan

theorem outerFrame_user : outerFrame (u.interrupt cs entry) ⊆ userFrame u := by
  rw [outerFrame_interrupt]
  exact @span_head (u.reg .ss) (u.reg .sp-10) 4 6

theorem returnFrame_outer : Disjoint (returnFrame u) (outerFrame (u.interrupt cs entry)) := by
  have hspan : Disjoint (Span (u.reg .ss) (u.reg .sp-10+UInt16.ofNat 0) 4)
      (Span (u.reg .ss) (u.reg .sp-10+UInt16.ofNat 4) 6) := span_disjoint (by decide) (by decide)
  rw [← returnFrame_eq, show UInt16.ofNat 0 = 0 from rfl, UInt16.add_zero] at hspan
  rw [outerFrame_interrupt]
  exact hspan.symm

/-- What the interrupt pushes. -/
theorem interrupt_pushes : Words (u.interrupt cs entry).mem (u.reg .ss) (u.reg .sp-6)
      [u.ip,u.reg .cs,u.flags] ∧ SameOn (returnFrame u)ᶜ u.mem (u.interrupt cs entry).mem := by
  have hpushed := (((Pushed.nil u).push (by simp) u.flags).push (by simp) (u.reg .cs)).push
    (by simp) u.ip
  exact ⟨hpushed.words,hpushed.same⟩

/-- What neither the stub nor its C function touches. -/
theorem Chained.keeps {s c : Cpu} {A : Set ℕ} (hc : Chained world l s c)
    (hh : Finishes world (l.CalledOn (s.reg .cs) (outerFrame s ∪ l.area (s.reg .cs)) s.mem)
      (NearReturn kept))
    (hd : Disjoint A (outerFrame s ∪ l.area (s.reg .cs))) (hA : A ⊆ kept) : SameOn A s.mem c.mem := by
  obtain ⟨a,b,hcalled,hscratch,hrun,hmem⟩ := hc.served
  have hnear : NearReturn kept a b := (hh a ⟨hcalled,hscratch⟩).2 b hrun
  rw [hmem]
  exact (hscratch.mono hd.subset_compl_right).trans (hnear.kept.mono hA)

/-- A handler that was entered as by the interrupt returns to the interrupted program. -/
theorem interrupt_resumes {c r : Cpu} {seg : UInt16}
    (hreg : c.reg = Function.update (u.interrupt cs entry).reg .cs seg)
    (hframe : Words c.mem (u.reg .ss) (u.reg .sp-6) [u.ip,u.reg .cs,u.flags])
    (h : InterruptReturn c r) : r.reg = u.reg ∧ r.ip = u.ip ∧ r.flags = u.flags := by
  have hsp : c.reg .sp = u.reg .sp-6 := by
    rw [hreg, Function.update_of_ne (by decide)]
    change u.reg .sp-2-2-2 = _
    grind
  have hstack (k : UInt16) : c.stack k = peek c.mem (u.reg .ss) (u.reg .sp-6+k) := by
    rw [← hsp, show u.reg .ss = c.reg .ss by rw [hreg]; rfl]
    rfl
  have hcs : c.stack 2 = u.reg .cs := (hstack 2).trans hframe.2.1
  refine ⟨?_,?_,?_⟩
  · rw [h.reg, hcs, hsp, UInt16.sub_add_cancel, hreg]
    funext q
    by_cases hq : q = .cs
    · subst hq
      exact Function.update_self ..
    · by_cases hq' : q = .sp
      · subst hq'
        rw [Function.update_of_ne hq, Function.update_self]
      · rw [Function.update_of_ne hq, Function.update_of_ne hq', Function.update_of_ne hq]
        simp [Cpu.interrupt, Cpu.pushWord, Cpu.setReg, hq, hq']
  · rw [h.ip, hstack, UInt16.add_zero]
    exact hframe.1
  · rw [h.flags, hstack, show u.reg .sp-6+4 = u.reg .sp-6+2+2 from (UInt16.add_assoc _ 2 2).symm]
    exact hframe.2.2.1

theorem isr_transparent {end' : UInt16} (hl : Assembled code cs entry (isr l) end')
    (hnone : code cs l.handler = none)
    (hchain : code (peek u.mem cs (l.original+2)) (peek u.mem cs l.original) = none)
    (hstack : Disjoint (userFrame u) (l.area cs))
    (hvector : Disjoint (Span cs l.original 4) (userFrame u ∪ l.area cs))
    (hh : Finishes world (l.CalledOn cs (userFrame u ∪ l.area cs) u.mem)
      (NearReturn (userFrame u ∪ l.frame cs ∪ Span cs l.original 4)))
    (ho : Finishes world (Continued world l cs entry u) InterruptReturn) :
    Leads hw code world (Resumed world l cs entry u) (u.interrupt cs entry) := by
  have hkept : outerFrame (u.interrupt cs entry) ∪ l.frame cs ⊆
      userFrame u ∪ l.frame cs ∪ Span cs l.original 4 :=
    (Set.union_subset_union_left _ outerFrame_user).trans Set.subset_union_left
  obtain ⟨hwords,hsame⟩ := @interrupt_pushes cs u entry
  -- what the stub writes lies in the frame below the interrupted program's stack pointer
  have hscratch {a : Cpu} (ha : SameOn (outerFrame (u.interrupt cs entry) ∪ l.area cs)ᶜ
      (u.interrupt cs entry).mem a.mem) : SameOn (userFrame u ∪ l.area cs)ᶜ u.mem a.mem := by
    refine SameOn.trans (hsame.mono ?_) (ha.mono ?_)
    · exact Set.compl_subset_compl.mpr (returnFrame_user.trans Set.subset_union_left)
    · exact Set.compl_subset_compl.mpr (Set.union_subset_union_left _ outerFrame_user)
  have hcalls : Finishes world (l.CalledOn cs (outerFrame (u.interrupt cs entry) ∪ l.area cs)
      (u.interrupt cs entry).mem) (NearReturn (userFrame u ∪ l.frame cs ∪ Span cs l.original 4)) :=
    fun a ha => hh a ⟨ha.1,hscratch ha.2⟩
  refine Leads.trans (@isr_chains hw l (u.interrupt cs entry) code world _ end' hl hnone
    (hstack.mono_left outerFrame_user) hkept hcalls) fun c hc => ?_
  have hvec : SameOn (Span cs l.original 4) u.mem c.mem := by
    refine SameOn.trans (hsame.mono ?_) (hc.keeps hcalls ?_ Set.subset_union_right)
    · exact (hvector.mono_right (returnFrame_user.trans Set.subset_union_left)).subset_compl_right
    · exact hvector.mono_right (Set.union_subset_union_left _ outerFrame_user)
  have hframe : Words c.mem (u.reg .ss) (u.reg .sp-6) [u.ip,u.reg .cs,u.flags] := by
    apply hwords.same
    apply hc.keeps hcalls
    · exact Set.disjoint_union_right.mpr ⟨returnFrame_outer,hstack.mono_left returnFrame_user⟩
    · exact (returnFrame_user.trans Set.subset_union_left).trans Set.subset_union_left
  have hreg : c.reg = Function.update (u.interrupt cs entry).reg .cs
      (peek u.mem cs (l.original+2)) :=
    (hvec.mono (@span_tail cs l.original 2)).peek ▸ hc.reg
  have hip : c.ip = peek u.mem cs l.original :=
    hc.ip.trans (hvec.mono (@span_head cs l.original 2 2)).peek
  have hcs : c.reg .cs = peek u.mem cs (l.original+2) := by rw [hreg, Function.update_self]
  obtain ⟨a,b,hcalled,hmem,hrun,hleft⟩ := hc.served
  have hcontinued : Continued world l cs entry u c :=
    ⟨hreg,hip,hc.flags,a,b,⟨hcalled,hscratch hmem⟩,hrun,hleft⟩
  refine Leads.finishes ho hcontinued ?_ fun r hr hint => ?_
  · rw [hcs, hip]
    exact hchain
  obtain ⟨hregs,hback,hflags⟩ := interrupt_resumes hreg hframe hint
  exact .here ⟨hregs,hback,hflags,a,b,c,hcalled,hscratch hmem,hrun,hreg,hip,hc.flags,hleft,hr⟩

/-! A program that waits for a key, with its own segments, in the idle interrupt. -/

def idleUser : Cpu where
  reg
    | .cs => 0x6000
    | .ss => 0x7000
    | .sp => 0x800
    | _ => 0
  ip := 0x234
  flags := 0x202
  mem := poke (poke (fun _ => 0) 0x1000 0x5000 0xfea5) 0x1000 0x5002 0xf000

def idleLabels : IsrLabels := ⟨0x3000,0x4000,0x5000⟩

def idleTicks : UInt16 := 0x6000

/-- The C function counts its tick, has nothing else to do and returns; the handler before it returns
from the interrupt. -/
def idleRun (s : Cpu) : Cpu :=
  if s.reg .cs = 0x1000 then
    Cpu.exec zeroStatus { s with
      mem := pokeLong s.mem 0x1000 idleTicks (peekLong s.mem 0x1000 idleTicks+1) } 0 .ret
  else s.exec zeroStatus 0 .iret

theorem isr_transparent_idle :
    Leads zeroStatus (numbered 0x1000 (isr idleLabels)) (fun s s' => s' = idleRun s)
      (Resumed (fun s s' => s' = idleRun s) idleLabels 0x1000 0 idleUser)
      (idleUser.interrupt 0x1000 0) := by
  have hseg : peek idleUser.mem 0x1000 (idleLabels.original+2) = 0xf000 := by decide
  have hoff : peek idleUser.mem 0x1000 idleLabels.original = 0xfea5 := by decide
  apply isr_transparent (assembled_numbered (by decide))
  · rfl
  · rw [hseg, hoff]
    rfl
  · exact span_apart (by decide) (by decide) (by decide)
  · rw [Set.disjoint_union_right]
    exact ⟨(span_apart (by decide) (by decide) (by decide)).symm,
      span_apart (by decide) (by decide) (by decide)⟩
  · rintro s ⟨hs,-⟩
    refine ⟨⟨_,rfl⟩,fun s' hs' => ?_⟩
    subst hs'
    rw [idleRun, if_pos hs.cs]
    have hticks : Disjoint (Span 0x1000 idleTicks 4)
        (userFrame idleUser ∪ idleLabels.frame 0x1000 ∪ Span 0x1000 idleLabels.original 4) := by
      rw [Set.disjoint_union_right, Set.disjoint_union_right]
      exact ⟨⟨(span_apart (by decide) (by decide) (by decide)).symm,
        span_apart (by decide) (by decide) (by decide)⟩,
        span_apart (by decide) (by decide) (by decide)⟩
    have hcall : Disjoint (Span 0x1000 idleTicks 4) (Span 0x1000 (idleLabels.stackTop-20) 2) :=
      span_apart (by decide) (by decide) (by decide)
    refine ⟨?_,rfl,rfl,rfl,sameOn_pokeLong hticks⟩
    change peek (pokeLong s.mem 0x1000 idleTicks _) (s.reg .ss) (s.reg .sp+0) =
      peek s.mem (s.reg .ss) (s.reg .sp+0)
    rw [hs.ss, hs.sp, UInt16.add_zero]
    exact (sameOn_pokeLong hcall).peek
  · intro c hc
    refine ⟨⟨_,rfl⟩,fun s' hs' => ?_⟩
    subst hs'
    have hret : idleRun c = c.exec zeroStatus 0 .iret := by
      apply if_neg
      rw [hc.reg, Function.update_self, hseg]
      decide
    rw [hret]
    exact ⟨rfl,rfl,rfl⟩

end RmtDos
