import RmtDos.Lib.Processor

/-! The far function that the packet driver calls for a packet. It hands the driver's registers to its C
function as a record on a private stack, and what the function leaves in the record back to the
driver. -/
namespace RmtDos
open RealMode Memory

/-- Where the private stack ends, and the C function, in the program's segment. -/
structure PktrecvLabels where
  stackTop : UInt16
  receiveFunc : UInt16

namespace PktrecvLabels

def savedSs (l : PktrecvLabels) : UInt16 := l.stackTop

def savedSp (l : PktrecvLabels) : UInt16 := l.stackTop+2

/-- A place in the private area, by its distance from the return address of the call. -/
def cell (l : PktrecvLabels) (k : ℕ) : UInt16 := l.stackTop-38+UInt16.ofNat k

/-- The `struct CpuRegs`: 26 bytes below the saved `BP`. -/
def regs (l : PktrecvLabels) : UInt16 := l.cell 8

theorem savedSs_cell (l : PktrecvLabels) : l.savedSs = l.cell 38 := (UInt16.sub_add_cancel ..).symm

theorem savedSp_cell (l : PktrecvLabels) : l.savedSp = l.cell 40 := by
  change l.stackTop+2 = l.stackTop-38+40
  grind

theorem savedBp_cell (l : PktrecvLabels) : l.stackTop-2-2 = l.cell 34 := by
  change _ = l.stackTop-38+34
  grind

theorem regs_cell (l : PktrecvLabels) : l.cell 34-26 = l.regs := by
  change l.stackTop-38+34-26 = l.stackTop-38+8
  grind

theorem cell_sub_two (l : PktrecvLabels) {i j : ℕ} (h : i = j+2) : l.cell i-2 = l.cell j := by
  subst h
  rw [cell, cell, UInt16.ofNat_add, ← UInt16.add_assoc]
  exact UInt16.add_sub_cancel _ 2

theorem cell_add (l : PktrecvLabels) (i : ℕ) (v : UInt16) :
    l.cell i+v = l.cell (i+v.toNat) := by
  rw [cell, cell, UInt16.ofNat_add, ← UInt16.add_assoc, UInt16.ofNat_toNat]

end PktrecvLabels

/-- A field of the record. -/
def field (disp : UInt16) : Operand := .mem .ss (some .bp) disp

/-- To the private stack, with room for the record. -/
def pktrecvSwitch (l : PktrecvLabels) : List Instr :=
  [.mov (.mem .cs none l.savedSs) (.reg .ss), .mov (.mem .cs none l.savedSp) (.reg .sp),
    .mov (.reg .dx) (.reg .cs), .mov (.reg .ss) (.reg .dx), .lea .sp (l.stackTop-2),
    .push (.reg .bp), .alu .sub (.reg .sp) (.imm 26), .mov (.reg .bp) (.reg .sp)]

def pktrecvStore : List Instr :=
  [.mov (field 0) (.reg .ax), .mov (field 2) (.reg .bx), .mov (field 4) (.reg .cx),
    .alu .xor (.reg .ax) (.reg .ax), .mov (field 6) (.reg .ax), .mov (field 8) (.reg .si),
    .mov (field 10) (.reg .di), .mov (field 12) (.reg .sp), .mov (field 14) (.reg .bp),
    .mov (field 16) (.reg .ax), .mov (field 18) (.reg .cs), .mov (field 20) (.reg .ds),
    .mov (field 22) (.reg .es), .mov (field 24) (.reg .ss)]

def pktrecvArgument : List Instr :=
  [.push (.reg .bp), .push (.reg .ds), .push (.reg .cs), .pop (.reg .ds), .push (.reg .bp)]

def pktrecvLoad : List Instr :=
  [.mov (.reg .ax) (field 0), .mov (.reg .bx) (field 2), .mov (.reg .cx) (field 4),
    .mov (.reg .dx) (field 6), .mov (.reg .si) (field 8), .mov (.reg .di) (field 10),
    .mov (.reg .ds) (field 20), .mov (.reg .es) (field 22)]

def pktrecvReturn (l : PktrecvLabels) : List Instr :=
  [.alu .add (.reg .sp) (.imm 26), .pop (.reg .bp),
    .mov (.reg .ss) (.mem .cs none l.savedSs), .mov (.reg .sp) (.mem .cs none l.savedSp)]

def pktrecvEntry (l : PktrecvLabels) : List Instr :=
  pktrecvSwitch l ++ (pktrecvStore ++ pktrecvArgument)

def pktrecvExit (l : PktrecvLabels) : List Instr :=
  [.alu .add (.reg .sp) (.imm 2), .pop (.reg .ds), .pop (.reg .bp)] ++ (pktrecvLoad ++ pktrecvReturn l)

def pktdrvReceiveIsr (l : PktrecvLabels) : List Instr :=
  pktrecvEntry l ++ .call l.receiveFunc :: (pktrecvExit l ++ [.retf])

variable {hw : Status} {l : PktrecvLabels} {s s' : Cpu} {cs : UInt16}

/-- The record as the C function gets it. -/
def recordOf (l : PktrecvLabels) (s : Cpu) : List UInt16 :=
  [s.reg .ax,s.reg .bx,s.reg .cx,0,s.reg .si,s.reg .di,l.regs,l.regs,0,s.reg .cs,s.reg .ds,s.reg .es,
    s.reg .cs]

theorem runs_pktrecvSwitch (s : Cpu) : s.runs hw (pktrecvSwitch l) =
    { s with
      reg := Function.update (Function.update (Function.update (Function.update s.reg .dx (s.reg .cs))
        .ss (s.reg .cs)) .sp l.regs) .bp l.regs
      flags := hw .sub s.flags (l.cell 34) 26
      mem := poke (poke (poke s.mem (s.reg .cs) (l.cell 38) (s.reg .ss)) (s.reg .cs) (l.cell 40)
        (s.reg .sp)) (s.reg .cs) (l.cell 34) (s.reg .bp) } := by
  have htop := l.savedBp_cell
  have hregs := l.regs_cell
  refine Cpu.ext ?_ rfl ?_ ?_
  · funext r
    cases r <;> simp [pktrecvSwitch, Cpu.runs, Cpu.exec, Cpu.put, Cpu.setReg, Cpu.get, Cpu.pushWord,
      Alu.value, htop, hregs]
  · change hw .sub s.flags (l.stackTop-2-2) 26 = _
    rw [htop]
  · change poke (poke (poke s.mem (s.reg .cs) (0+l.savedSs) (s.reg .ss)) (s.reg .cs) (0+l.savedSp)
      (s.reg .sp)) (s.reg .cs) (l.stackTop-2-2) (s.reg .bp) = _
    rw [htop, UInt16.zero_add, UInt16.zero_add, l.savedSs_cell, l.savedSp_cell]

/-- Stores of registers into the fields of the record, from the field at `2*k` on. -/
def storesFrom : ℕ → List Reg → List Instr
  | _, [] => []
  | k, r::rs => .mov (field (UInt16.ofNat (2*k))) (.reg r) :: storesFrom (k+1) rs

theorem runs_storesFrom {y : Cpu} {m : Mem} {ws : List UInt16} (rs : List Reg)
    (h : Stored (y.reg .ss) (y.reg .bp) ws m y.mem) (hlen : 2*(ws.length+rs.length) ≤ 65536) :
    ∃ m', y.runs hw (storesFrom ws.length rs) = { y with mem := m' } ∧
      Stored (y.reg .ss) (y.reg .bp) (ws ++ rs.map y.reg) m m' := by
  induction rs generalizing y ws with
  | nil =>
    refine ⟨y.mem,rfl,?_⟩
    rw [List.map_nil, List.append_nil]
    exact h
  | cons r rs ih =>
    rw [List.length_cons] at hlen
    let y' : Cpu :=
      { y with mem := poke y.mem (y.reg .ss) (y.reg .bp+UInt16.ofNat (2*ws.length)) (y.reg r) }
    have hnext : Stored (y'.reg .ss) (y'.reg .bp) (ws ++ [y.reg r]) m y'.mem :=
      h.snoc (by omega) (y.reg r)
    obtain ⟨m',hrun,hstored⟩ := @ih y' (ws ++ [y.reg r]) hnext (by simp; omega)
    refine ⟨m',?_,?_⟩
    · rw [List.length_append, List.length_singleton] at hrun
      exact hrun
    · rw [List.map_cons, List.append_cons]
      exact hstored

theorem runs_pktrecvStore (y : Cpu) : ∃ flags m', y.runs hw pktrecvStore =
      { y with reg := Function.update y.reg .ax 0, flags := flags, mem := m' } ∧
    Stored (y.reg .ss) (y.reg .bp) [y.reg .ax,y.reg .bx,y.reg .cx,0,y.reg .si,y.reg .di,y.reg .sp,
      y.reg .bp,0,y.reg .cs,y.reg .ds,y.reg .es,y.reg .ss] y.mem m' := by
  have hlist : pktrecvStore = storesFrom 0 [.ax,.bx,.cx] ++ ([.alu .xor (.reg .ax) (.reg .ax)] ++
      storesFrom 3 [.ax,.si,.di,.sp,.bp,.ax,.cs,.ds,.es,.ss]) := rfl
  obtain ⟨m₁,hrun₁,hstored₁⟩ := @runs_storesFrom hw y y.mem [] [.ax,.bx,.cx] (Stored.nil ..) (by simp)
  have hxor : Cpu.runs hw { y with mem := m₁ } [.alu .xor (.reg .ax) (.reg .ax)] =
      { y with
        reg := Function.update y.reg .ax 0
        flags := hw .xor y.flags (y.reg .ax) (y.reg .ax), mem := m₁ } := by
    rw [← @UInt16.xor_self (y.reg .ax)]
    rfl
  obtain ⟨m₂,hrun₂,hstored₂⟩ := @runs_storesFrom hw { y with
    reg := Function.update y.reg .ax 0
    flags := hw .xor y.flags (y.reg .ax) (y.reg .ax), mem := m₁ } y.mem
    [y.reg .ax,y.reg .bx,y.reg .cx] [.ax,.si,.di,.sp,.bp,.ax,.cs,.ds,.es,.ss] hstored₁ (by simp)
  refine ⟨hw .xor y.flags (y.reg .ax) (y.reg .ax),m₂,?_,hstored₂⟩
  rw [hlist, Cpu.runs_append, Cpu.runs_append]
  change Cpu.runs hw (Cpu.runs hw (y.runs hw (storesFrom ([] : List UInt16).length _)) _) _ = _
  rw [hrun₁, hxor]
  exact hrun₂

theorem runs_pktrecvArgument {y : Cpu} (hsp : y.reg .sp = l.cell 8) : y.runs hw pktrecvArgument =
    { y with
      reg := Function.update (Function.update y.reg .sp (l.cell 2)) .ds (y.reg .cs)
      mem := poke (poke (poke (poke y.mem (y.reg .ss) (l.cell 6) (y.reg .bp)) (y.reg .ss) (l.cell 4)
        (y.reg .ds)) (y.reg .ss) (l.cell 2) (y.reg .cs)) (y.reg .ss) (l.cell 2) (y.reg .bp) } := by
  have h₆ : y.reg .sp-2 = l.cell 6 := hsp ▸ l.cell_sub_two rfl
  have h₄ : y.reg .sp-2-2 = l.cell 4 := h₆ ▸ l.cell_sub_two rfl
  have h₂ : y.reg .sp-2-2-2 = l.cell 2 := h₄ ▸ l.cell_sub_two rfl
  have hpop : Cpu.exec hw (((y.pushWord (y.reg .bp)).pushWord (y.reg .ds)).pushWord (y.reg .cs)) y.ip
      (.pop (.reg .ds)) = _ := exec_pop peek_poke
  change Cpu.exec hw (Cpu.exec hw (((y.pushWord (y.reg .bp)).pushWord (y.reg .ds)).pushWord
    (y.reg .cs)) y.ip (.pop (.reg .ds))) _ (.push (.reg .bp)) = _
  rw [hpop]
  refine Cpu.ext ?_ rfl rfl ?_
  · funext r
    cases r <;> simp [Cpu.exec, Cpu.pushWord, h₂]
  · change poke (poke (poke (poke y.mem (y.reg .ss) (y.reg .sp-2) (y.reg .bp)) (y.reg .ss)
      (y.reg .sp-2-2) (y.reg .ds)) (y.reg .ss) (y.reg .sp-2-2-2) (y.reg .cs)) (y.reg .ss)
      (y.reg .sp-2-2-2+2-2) (y.reg .bp) = _
    rw [UInt16.add_sub_cancel, h₂, h₄, h₆]

theorem runs_pktrecvUnwind {x : Cpu} {ds bp : UInt16} (hsp : x.reg .sp = l.cell 2)
    (h : Words x.mem (x.reg .ss) (l.cell 4) [ds,bp]) : ∃ flags,
    x.runs hw [.alu .add (.reg .sp) (.imm 2), .pop (.reg .ds), .pop (.reg .bp)] =
      { x with
        reg := Function.update (Function.update (Function.update x.reg .sp (l.cell 8)) .ds ds) .bp bp
        flags := flags } := by
  obtain ⟨hds,hbp,-⟩ := h
  have h₄ : l.cell 2+2 = l.cell 4 := l.cell_add 2 2
  have h₆ : l.cell 4+2 = l.cell 6 := l.cell_add 4 2
  have h₈ : l.cell 6+2 = l.cell 8 := l.cell_add 6 2
  rw [h₆] at hbp
  refine ⟨hw .add x.flags (x.reg .sp) 2,?_⟩
  refine Cpu.ext ?_ rfl rfl rfl
  funext r
  cases r <;> simp [Cpu.runs, Cpu.exec, Cpu.put, Cpu.setReg, Cpu.get, Cpu.drop, Cpu.stack, Alu.value,
    hsp, h₄, h₆, h₈, hds, hbp]

theorem runs_pktrecvLoad (y : Cpu) : y.runs hw pktrecvLoad =
    { y with
      reg := fun r => match r with
        | .ax => peek y.mem (y.reg .ss) (y.reg .bp+0)
        | .bx => peek y.mem (y.reg .ss) (y.reg .bp+2)
        | .cx => peek y.mem (y.reg .ss) (y.reg .bp+4)
        | .dx => peek y.mem (y.reg .ss) (y.reg .bp+6)
        | .si => peek y.mem (y.reg .ss) (y.reg .bp+8)
        | .di => peek y.mem (y.reg .ss) (y.reg .bp+10)
        | .ds => peek y.mem (y.reg .ss) (y.reg .bp+20)
        | .es => peek y.mem (y.reg .ss) (y.reg .bp+22)
        | r => y.reg r } := by
  refine Cpu.ext ?_ rfl rfl rfl
  funext r
  cases r <;> rfl

theorem runs_pktrecvReturn {y : Cpu} {ss sp bp : UInt16} (hy : y.reg .sp = l.cell 8)
    (hbp : peek y.mem (y.reg .ss) (l.cell 34) = bp) (hss : peek y.mem (y.reg .cs) (l.cell 38) = ss)
    (hsp : peek y.mem (y.reg .cs) (l.cell 40) = sp) : ∃ flags, y.runs hw (pktrecvReturn l) =
      { y with
        reg := Function.update (Function.update (Function.update y.reg .bp bp) .ss ss) .sp sp
        flags := flags } := by
  have h₃₄ : l.cell 8+26 = l.cell 34 := l.cell_add 8 26
  refine ⟨hw .add y.flags (y.reg .sp) 26,?_⟩
  refine Cpu.ext ?_ rfl rfl rfl
  funext r
  cases r <;> simp [pktrecvReturn, Cpu.runs, Cpu.exec, Cpu.put, Cpu.setReg, Cpu.get, Cpu.drop,
    Cpu.stack, Cpu.offset, Alu.value, hy, h₃₄, hbp, l.savedSs_cell, l.savedSp_cell, hss, hsp]

/-! Places of the private area do not overlap. -/

theorem cell_apart {i j n k : ℕ} (hij : i+n ≤ j) (hj : j+k ≤ 42) :
    Disjoint (Span cs (l.cell i) n) (Span cs (l.cell j) k) := span_disjoint hij (by omega)

theorem cell_within {i j n k : ℕ} (hi : j ≤ i) (hn : i+n ≤ j+k) :
    Span cs (l.cell i) n ⊆ Span cs (l.cell j) k := span_mono hi hn

theorem peek_cell_of_ne {m : Mem} {v : UInt16} {i j : ℕ} (h : i+2 ≤ j ∨ j+2 ≤ i)
    (hmax : i ≤ 40 ∧ j ≤ 40) : peek (poke m cs (l.cell i) v) cs (l.cell j) = peek m cs (l.cell j) := by
  apply SameOn.peek
  apply sameOn_poke
  rcases h with h | h
  · exact cell_apart h (by omega)
  · exact (cell_apart h (by omega)).symm

theorem sameOn_poke_cell {m : Mem} {v : UInt16} {i j n : ℕ} (hi : j ≤ i) (hn : i+2 ≤ j+n) :
    SameOn (Span cs (l.cell j) n)ᶜ m (poke m cs (l.cell i) v) :=
  sameOn_poke (Set.disjoint_compl_right_iff_subset.mpr (cell_within hi hn))

/-- All that the stub uses in the program's segment. -/
def PktrecvLabels.area (l : PktrecvLabels) (seg : UInt16) : Set ℕ := Span seg (l.cell 0) 42

/-- On the private stack, with the argument of the C function pushed. -/
structure Handed (l : PktrecvLabels) (s x : Cpu) : Prop where
  sp : x.reg .sp = l.cell 2
  ss : x.reg .ss = s.reg .cs
  cs : x.reg .cs = s.reg .cs
  ds : x.reg .ds = s.reg .cs
  frame : Words x.mem (s.reg .cs) (l.cell 2) [l.regs,s.reg .ds,l.regs]
  record : Words x.mem (s.reg .cs) l.regs (recordOf l s)
  savedBp : peek x.mem (s.reg .cs) (l.cell 34) = s.reg .bp
  savedSs : peek x.mem (s.reg .cs) (l.cell 38) = s.reg .ss
  savedSp : peek x.mem (s.reg .cs) (l.cell 40) = s.reg .sp
  same : SameOn (l.area (s.reg .cs))ᶜ s.mem x.mem

/-- The words pushed below the record. -/
theorem argument_words (m : Mem) (v v₂ v₄ v₆ : UInt16) :
    let m' := poke (poke (poke (poke m cs (l.cell 6) v₆) cs (l.cell 4) v₄) cs (l.cell 2) v) cs
      (l.cell 2) v₂
    Words m' cs (l.cell 2) [v₂,v₄,v₆] ∧ SameOn (Span cs (l.cell 2) 6)ᶜ m m' := by
  intro m'
  have hcell {k : ℕ} : l.cell k+2 = l.cell (k+2) := l.cell_add k 2
  refine ⟨⟨peek_poke,?_,?_,trivial⟩,?_⟩
  · rw [hcell, peek_cell_of_ne (by decide) (by decide), peek_cell_of_ne (by decide) (by decide),
      peek_poke]
  · rw [hcell, hcell, peek_cell_of_ne (by decide) (by decide), peek_cell_of_ne (by decide) (by decide),
      peek_cell_of_ne (by decide) (by decide), peek_poke]
  · exact (((sameOn_poke_cell (by decide) (by decide)).trans
      (sameOn_poke_cell (by decide) (by decide))).trans
      (sameOn_poke_cell (by decide) (by decide))).trans (sameOn_poke_cell (by decide) (by decide))

/-- The words saved above the record. -/
theorem switch_words (m : Mem) (ss sp bp : UInt16) :
    let m' := poke (poke (poke m cs (l.cell 38) ss) cs (l.cell 40) sp) cs (l.cell 34) bp
    peek m' cs (l.cell 34) = bp ∧ peek m' cs (l.cell 38) = ss ∧ peek m' cs (l.cell 40) = sp ∧
      SameOn (l.area cs)ᶜ m m' := by
  intro m'
  refine ⟨peek_poke,?_,?_,?_⟩
  · rw [peek_cell_of_ne (by decide) (by decide), peek_cell_of_ne (by decide) (by decide), peek_poke]
  · rw [peek_cell_of_ne (by decide) (by decide), peek_poke]
  · exact ((sameOn_poke_cell (by decide) (by decide)).trans
      (sameOn_poke_cell (by decide) (by decide))).trans (sameOn_poke_cell (by decide) (by decide))

theorem pktrecvEntry_hands (s : Cpu) : Handed l s (s.runs hw (pktrecvEntry l)) := by
  rw [pktrecvEntry, Cpu.runs_append, runs_pktrecvSwitch, Cpu.runs_append]
  generalize hy : Cpu.mk _ _ _ (poke _ _ (l.cell 34) _) = y
  have hreg := congrArg Cpu.reg hy
  have hcs : y.reg .cs = s.reg .cs := by simp [← hreg]
  have hss : y.reg .ss = s.reg .cs := by simp [← hreg]
  have hsp : y.reg .sp = l.cell 8 := by simp [← hreg, PktrecvLabels.regs]
  have hbp : y.reg .bp = l.cell 8 := by simp [← hreg, PktrecvLabels.regs]
  have hds : y.reg .ds = s.reg .ds := by simp [← hreg]
  have hvalues : [y.reg .ax,y.reg .bx,y.reg .cx,0,y.reg .si,y.reg .di,y.reg .sp,y.reg .bp,0,y.reg .cs,
      y.reg .ds,y.reg .es,y.reg .ss] = recordOf l s := by
    simp [← hreg, recordOf]
  obtain ⟨hsavedBp,hsavedSs,hsavedSp,hsame⟩ :=
    @switch_words l (s.reg .cs) s.mem (s.reg .ss) (s.reg .sp) (s.reg .bp)
  have hmem : poke (poke (poke s.mem (s.reg .cs) (l.cell 38) (s.reg .ss)) (s.reg .cs) (l.cell 40)
      (s.reg .sp)) (s.reg .cs) (l.cell 34) (s.reg .bp) = y.mem := congrArg Cpu.mem hy
  rw [hmem] at hsavedBp hsavedSs hsavedSp hsame
  obtain ⟨flags,m,hrun,hstored⟩ := @runs_pktrecvStore hw y
  rw [hvalues, hss, hbp] at hstored
  have harg := @runs_pktrecvArgument hw l (Cpu.mk (Function.update y.reg .ax 0) y.ip flags m) hsp
  rw [hrun, harg]
  generalize hx : Cpu.mk _ _ _ (poke _ _ (l.cell 2) _) = x
  have hxreg := congrArg Cpu.reg hx
  have hxmem : x.mem = poke (poke (poke (poke m (s.reg .cs) (l.cell 6) l.regs) (s.reg .cs) (l.cell 4)
      (s.reg .ds)) (s.reg .cs) (l.cell 2) (s.reg .cs)) (s.reg .cs) (l.cell 2) l.regs := by
    simp [← hx, hcs, hss, hbp, hds, PktrecvLabels.regs]
  obtain ⟨hframe,hbelow⟩ :=
    @argument_words l (s.reg .cs) m (s.reg .cs) l.regs (s.reg .ds) l.regs
  rw [← hxmem] at hframe hbelow
  -- the record lies between the two
  have hkeep {k : ℕ} (hk : 34 ≤ k ∧ k ≤ 40) :
      peek x.mem (s.reg .cs) (l.cell k) = peek y.mem (s.reg .cs) (l.cell k) := by
    have hout : SameOn (Span (s.reg .cs) (l.cell k) 2) y.mem x.mem := by
      refine SameOn.trans (hstored.same.mono ?_) (hbelow.mono ?_)
      · exact (cell_apart (by simp [recordOf]; omega) (by omega)).symm.subset_compl_right
      · exact (cell_apart (by omega) (by omega)).symm.subset_compl_right
    exact hout.peek
  constructor
  · simp [← hxreg]
  · simp [← hxreg, hss]
  · simp [← hxreg, hcs]
  · simp [← hxreg, hcs]
  · exact hframe
  · refine hstored.words.same (hbelow.mono ?_)
    exact (cell_apart (by decide) (by simp [recordOf])).symm.subset_compl_right
  · exact (hkeep (by decide)).trans hsavedBp
  · exact (hkeep (by decide)).trans hsavedSs
  · exact (hkeep (by decide)).trans hsavedSp
  · refine SameOn.trans hsame (SameOn.trans (hstored.same.mono ?_) (hbelow.mono ?_))
    · exact Set.compl_subset_compl.mpr (cell_within (by decide) (by simp [recordOf]))
    · exact Set.compl_subset_compl.mpr (cell_within (by decide) (by decide))

/-- The call of the C function: in the program's segment, with the address of the record as its
argument. -/
structure PktrecvLabels.Called (l : PktrecvLabels) (s a : Cpu) : Prop where
  ip : a.ip = l.receiveFunc
  sp : a.reg .sp = l.cell 0
  cs : a.reg .cs = s.reg .cs
  ss : a.reg .ss = s.reg .cs
  ds : a.reg .ds = s.reg .cs
  argument : a.stack 2 = l.regs
  record : Words a.mem (s.reg .cs) l.regs (recordOf l s)

/-- The same, with the memory of the driver but for the private area. -/
def PktrecvLabels.CalledOn (l : PktrecvLabels) (s a : Cpu) : Prop :=
  l.Called s a ∧ SameOn (l.area (s.reg .cs))ᶜ s.mem a.mem

/-- What the C function may not write: the words that the stub has saved, and the driver's return
address. -/
def PktrecvLabels.kept (l : PktrecvLabels) (s : Cpu) : Set ℕ :=
  Span (s.reg .cs) (l.cell 4) 4 ∪ Span (s.reg .cs) (l.cell 34) 8 ∪ Span (s.reg .ss) (s.reg .sp) 4

/-- Back in the driver, on its stack. Its registers are what the C function left in the record. -/
structure Returned (world : Cpu → Cpu → Prop) (l : PktrecvLabels) (s r : Cpu) : Prop where
  ip : r.ip = peek s.mem (s.reg .ss) (s.reg .sp)
  cs : r.reg .cs = peek s.mem (s.reg .ss) (s.reg .sp+2)
  ss : r.reg .ss = s.reg .ss
  sp : r.reg .sp = s.reg .sp+4
  bp : r.reg .bp = s.reg .bp
  served : ∃ a b, l.Called s a ∧ SameOn (l.area (s.reg .cs))ᶜ s.mem a.mem ∧ world a b ∧
    r.mem = b.mem ∧
    Words b.mem (s.reg .cs) l.regs [r.reg .ax,r.reg .bx,r.reg .cx,r.reg .dx,r.reg .si,r.reg .di] ∧
    Words b.mem (s.reg .cs) (l.regs+20) [r.reg .ds,r.reg .es]

/-- The call, after the registers have been handed over. -/
theorem Handed.call {x : Cpu} {next : UInt16} (h : Handed l s x) :
    let a := (x.pushWord next).goto l.receiveFunc
    l.Called s a ∧ a.stack 0 = next ∧ SameOn (Span (s.reg .cs) (l.cell 2) 40) x.mem a.mem ∧
      SameOn (l.area (s.reg .cs))ᶜ s.mem a.mem := by
  intro a
  have hsp : a.reg .sp = l.cell 0 := by
    change x.reg .sp-2 = _
    rw [h.sp, l.cell_sub_two rfl]
  have hmem : a.mem = poke x.mem (s.reg .cs) (l.cell 0) next := by
    change poke x.mem (x.reg .ss) (a.reg .sp) next = _
    rw [h.ss, hsp]
  have hstack (k : UInt16) : a.stack k = peek a.mem (s.reg .cs) (l.cell 0+k) := by
    change peek a.mem (x.reg .ss) (a.reg .sp+k) = _
    rw [h.ss, hsp]
  have habove : SameOn (Span (s.reg .cs) (l.cell 2) 40) x.mem a.mem := by
    rw [hmem]
    exact sameOn_poke (cell_apart (by decide) (by decide))
  refine ⟨⟨rfl,hsp,h.cs,h.ss,h.ds,?_,?_⟩,?_,habove,?_⟩
  · have hcell : l.cell 0+2 = l.cell 2 := l.cell_add 0 2
    rw [hstack, hcell, hmem, peek_cell_of_ne (by decide) (by decide)]
    exact h.frame.1
  · exact h.record.same (habove.mono (cell_within (by decide) (by simp [recordOf])))
  · rw [hstack, UInt16.add_zero, hmem, peek_poke]
  · rw [hmem]
    exact h.same.trans (sameOn_poke_cell (by decide) (by decide))

/-- The stub takes the registers from the record, and the driver's stack back. -/
theorem runs_pktrecvExit {b : Cpu} (hsp : b.reg .sp = l.cell 2) (hss : b.reg .ss = s.reg .cs)
    (hcs : b.reg .cs = s.reg .cs) (hframe : Words b.mem (s.reg .cs) (l.cell 4) [s.reg .ds,l.regs])
    (hbp : peek b.mem (s.reg .cs) (l.cell 34) = s.reg .bp)
    (hsavedSs : peek b.mem (s.reg .cs) (l.cell 38) = s.reg .ss)
    (hsavedSp : peek b.mem (s.reg .cs) (l.cell 40) = s.reg .sp) :
    let y := b.runs hw (pktrecvExit l)
    y.mem = b.mem ∧ y.reg .ss = s.reg .ss ∧ y.reg .sp = s.reg .sp ∧ y.reg .bp = s.reg .bp ∧
      Words b.mem (s.reg .cs) l.regs
        [y.reg .ax,y.reg .bx,y.reg .cx,y.reg .dx,y.reg .si,y.reg .di] ∧
      Words b.mem (s.reg .cs) (l.regs+20) [y.reg .ds,y.reg .es] := by
  intro y
  rw [← hss] at hframe
  obtain ⟨flags₁,hunwind⟩ := @runs_pktrecvUnwind hw l b _ _ hsp hframe
  generalize hy₁ : Cpu.mk (Function.update (Function.update (Function.update b.reg .sp (l.cell 8)) .ds
    (s.reg .ds)) .bp l.regs) b.ip flags₁ b.mem = y₁ at hunwind
  have hmem₁ : y₁.mem = b.mem := by rw [← hy₁]
  have hss₁ : y₁.reg .ss = s.reg .cs := by simp [← hy₁, hss]
  have hcs₁ : y₁.reg .cs = s.reg .cs := by simp [← hy₁, hcs]
  have hsp₁ : y₁.reg .sp = l.cell 8 := by simp [← hy₁]
  have hbp₁ : y₁.reg .bp = l.regs := by simp [← hy₁]
  have hload := @runs_pktrecvLoad hw y₁
  generalize hy₂ : Cpu.runs hw y₁ pktrecvLoad = y₂ at hload
  have hmem₂ : y₂.mem = b.mem := by rw [hload, ← hmem₁]
  have hss₂ : y₂.reg .ss = s.reg .cs := by rw [hload, ← hss₁]
  have hcs₂ : y₂.reg .cs = s.reg .cs := by rw [hload, ← hcs₁]
  have hsp₂ : y₂.reg .sp = l.cell 8 := by rw [hload, ← hsp₁]
  obtain ⟨flags₂,hreturn⟩ := @runs_pktrecvReturn hw l y₂ (s.reg .ss) (s.reg .sp) (s.reg .bp) hsp₂
    (by rw [hmem₂, hss₂, hbp]) (by rw [hmem₂, hcs₂, hsavedSs]) (by rw [hmem₂, hcs₂, hsavedSp])
  have hy : y = { y₂ with
      reg := Function.update (Function.update (Function.update y₂.reg .bp (s.reg .bp)) .ss (s.reg .ss))
        .sp (s.reg .sp)
      flags := flags₂ } := by
    rw [← hreturn, ← hy₂, ← hunwind, ← Cpu.runs_append, ← Cpu.runs_append]
    rfl
  have hreg {r : Reg} (hr : r ≠ .sp ∧ r ≠ .ss ∧ r ≠ .bp) : y.reg r = y₂.reg r := by
    simp [hy, hr.1, hr.2.1, hr.2.2]
  refine ⟨?_,?_,?_,?_,?_,?_⟩
  · rw [hy]
    exact hmem₂
  · simp [hy]
  · simp [hy]
  · simp [hy]
  · simp only [hreg (r := .ax) (by decide), hreg (r := .bx) (by decide), hreg (r := .cx) (by decide),
      hreg (r := .dx) (by decide), hreg (r := .si) (by decide), hreg (r := .di) (by decide), hload,
      hmem₁, hss₁, hbp₁]
    simp [Words, UInt16.add_assoc]
  · simp only [hreg (r := .ds) (by decide), hreg (r := .es) (by decide), hload, hmem₁, hss₁, hbp₁]
    simp [Words, UInt16.add_assoc]

/-- The C function leaves the stub what it needs to return. -/
theorem Handed.exit {x a b : Cpu} (h : Handed l s x) (hcalled : l.Called s a)
    (habove : SameOn (Span (s.reg .cs) (l.cell 2) 40) x.mem a.mem)
    (hnear : NearReturn (l.kept s) a b) :
    let y := b.runs hw (pktrecvExit l)
    y.mem = b.mem ∧ y.reg .ss = s.reg .ss ∧ y.reg .sp = s.reg .sp ∧ y.reg .bp = s.reg .bp ∧
      Words b.mem (s.reg .cs) l.regs
        [y.reg .ax,y.reg .bx,y.reg .cx,y.reg .dx,y.reg .si,y.reg .di] ∧
      Words b.mem (s.reg .cs) (l.regs+20) [y.reg .ds,y.reg .es] := by
  have hsp : b.reg .sp = l.cell 2 := by
    rw [hnear.sp, hcalled.sp]
    exact l.cell_add 0 2
  have hlow : SameOn (Span (s.reg .cs) (l.cell 4) 4) x.mem b.mem :=
    (habove.mono (cell_within (by decide) (by decide))).trans
      (hnear.kept.mono (Set.subset_union_left.trans Set.subset_union_left))
  have hhigh : SameOn (Span (s.reg .cs) (l.cell 34) 8) x.mem b.mem :=
    (habove.mono (cell_within (by decide) (by decide))).trans
      (hnear.kept.mono (Set.subset_union_right.trans Set.subset_union_left))
  have hcell : l.cell 2+2 = l.cell 4 := l.cell_add 2 2
  have hframe : Words b.mem (s.reg .cs) (l.cell 4) [s.reg .ds,l.regs] :=
    (hcell ▸ h.frame.2 : Words x.mem _ (l.cell 4) _).same hlow
  have hsaved {k : ℕ} (hk : 34 ≤ k ∧ k ≤ 40) :
      peek b.mem (s.reg .cs) (l.cell k) = peek x.mem (s.reg .cs) (l.cell k) :=
    (hhigh.mono (cell_within hk.1 (by omega))).peek
  exact runs_pktrecvExit hsp (hnear.ss.trans hcalled.ss) (hnear.cs.trans hcalled.cs) hframe
    ((hsaved (by decide)).trans h.savedBp) ((hsaved (by decide)).trans h.savedSs)
    ((hsaved (by decide)).trans h.savedSp)

/-- Every call of the packet driver comes back to it. -/
theorem pktrecv_returns {code : Code} {world : Cpu → Cpu → Prop} {end' : UInt16}
    (hl : Assembled code (s.reg .cs) s.ip (pktdrvReceiveIsr l) end')
    (hnone : code (s.reg .cs) l.receiveFunc = none)
    (hd : Disjoint (Span (s.reg .ss) (s.reg .sp) 4) (l.area (s.reg .cs)))
    (hh : Finishes world (l.CalledOn s) (NearReturn (l.kept s))) :
    Leads hw code world (Returned world l s) s := by
  obtain ⟨n₁,hentry,hrest⟩ := hl.of_append
  cases hrest with
  | cons hcall htail =>
    rename_i n₂
    obtain ⟨n₃,hexit,hlast⟩ := htail.of_append
    cases hlast with
    | cons hretf _ =>
      have hhanded := @pktrecvEntry_hands hw l s
      refine Leads.block hentry rfl rfl rfl ?_
      generalize s.runs hw (pktrecvEntry l) = x at hhanded ⊢
      apply Leads.instr (s := x.goto n₁) (hhanded.cs.symm ▸ hcall)
      change Leads hw code world _ ((x.pushWord n₂).goto l.receiveFunc)
      obtain ⟨hcalled,hret,habove,hscratch⟩ := @Handed.call l s x n₂ hhanded
      refine Leads.finishes hh ⟨hcalled,hscratch⟩ ?_ fun b hrun hnear => ?_
      · rw [hcalled.cs, hcalled.ip]
        exact hnone
      have hdriver : SameOn (Span (s.reg .ss) (s.reg .sp) 4) s.mem b.mem :=
        (hscratch.mono hd.subset_compl_right).trans (hnear.kept.mono Set.subset_union_right)
      obtain ⟨hmem,hss,hsp,hbp,hwords,hsegs⟩ := @Handed.exit hw l s x _ b hhanded hcalled habove hnear
      have hcs : b.reg .cs = s.reg .cs := hnear.cs.trans hcalled.cs
      refine Leads.block hexit rfl hcs (hnear.ip.trans hret) ?_
      have hcsExit : (b.runs hw (pktrecvExit l)).reg .cs = s.reg .cs := (Cpu.runs_cs rfl b).trans hcs
      generalize b.runs hw (pktrecvExit l) = y at hmem hss hsp hbp hwords hsegs hcsExit ⊢
      apply Leads.instr (s := y.goto n₃) (hcsExit.symm ▸ hretf)
      have hstack (k : UInt16) : (y.goto n₃).stack k = peek b.mem (s.reg .ss) (s.reg .sp+k) := by
        change peek y.mem (y.reg .ss) (y.reg .sp+k) = _
        rw [hmem, hss, hsp]
      refine .here ⟨?_,?_,hss,?_,hbp,_,b,hcalled,hscratch,hrun,hmem,hwords,hsegs⟩
      · change (y.goto n₃).stack 0 = _
        rw [hstack, UInt16.add_zero]
        exact (hdriver.mono (@span_head (s.reg .ss) (s.reg .sp) 2 2)).peek
      · change (y.goto n₃).stack 2 = _
        rw [hstack]
        exact (hdriver.mono (@span_tail (s.reg .ss) (s.reg .sp) 2)).peek
      · change y.reg .sp+4 = _
        rw [hsp]

/-! A driver that asks for a buffer when none is free. -/

def fullDriver : Cpu where
  reg
    | .cs => 0x1000
    | .ss => 0x8000
    | .sp => 0x400
    | .bx => 5
    | .cx => 64
    | _ => 0
  ip := 0
  flags := 2
  mem := fun _ => 0

def fullLabels : PktrecvLabels := ⟨0x3000,0x4000⟩

/-- `pktdrv_receive_func` without a buffer: no address for the driver, and one more frame dropped. -/
def noBuffer (dropped : UInt16) (s : Cpu) : Cpu :=
  let answered := poke (poke s.mem (s.reg .ds) (s.stack 2+22) 0) (s.reg .ds) (s.stack 2+10) 0
  Cpu.exec zeroStatus { s with
    mem := pokeLong answered (s.reg .ds) dropped (peekLong answered (s.reg .ds) dropped+1) } 0 .ret

theorem noBuffer_nearReturn {dropped : UInt16} (hs : l.Called s s')
    (hd : Disjoint (Span (s.reg .ss) (s.reg .sp) 4) (l.area (s.reg .cs)))
    (hcount : Disjoint (Span (s.reg .cs) dropped 4)
      (l.area (s.reg .cs) ∪ Span (s.reg .ss) (s.reg .sp) 4)) :
    NearReturn (l.kept s) s' (noBuffer dropped s') := by
  have hes : l.regs+22 = l.cell 30 := l.cell_add 8 22
  have hdi : l.regs+10 = l.cell 18 := l.cell_add 8 10
  obtain ⟨v,hmem⟩ : ∃ v, (noBuffer dropped s').mem =
      pokeLong (poke (poke s'.mem (s.reg .cs) (l.cell 30) 0) (s.reg .cs) (l.cell 18) 0) (s.reg .cs)
        dropped v := by
    rw [← hes, ← hdi, ← hs.argument, ← hs.ds]
    exact ⟨_,rfl⟩
  obtain ⟨harea,hstack⟩ := Set.disjoint_union_right.mp hcount
  have hsame {A : Set ℕ} (h₃₀ : Disjoint (Span (s.reg .cs) (l.cell 30) 2) A)
      (h₁₈ : Disjoint (Span (s.reg .cs) (l.cell 18) 2) A)
      (hcounter : Disjoint (Span (s.reg .cs) dropped 4) A) :
      SameOn A s'.mem (noBuffer dropped s').mem := by
    rw [hmem]
    exact ((sameOn_poke h₃₀).trans (sameOn_poke h₁₈)).trans (sameOn_pokeLong hcounter)
  have hwithin {i n : ℕ} (h : i+n ≤ 42) :
      Disjoint (Span (s.reg .cs) dropped 4) (Span (s.reg .cs) (l.cell i) n) :=
    harea.mono_right (cell_within (Nat.zero_le i) h)
  refine ⟨?_,rfl,rfl,rfl,?_⟩
  · change peek (noBuffer dropped s').mem (s'.reg .ss) (s'.reg .sp+0) =
      peek s'.mem (s'.reg .ss) (s'.reg .sp+0)
    rw [hs.ss, hs.sp, UInt16.add_zero]
    exact (hsame (cell_apart (by decide) (by decide)).symm
      (cell_apart (by decide) (by decide)).symm (hwithin (by decide))).peek
  · refine SameOn.union (SameOn.union (hsame ?_ ?_ ?_) (hsame ?_ ?_ ?_)) (hsame ?_ ?_ ?_)
    · exact (cell_apart (by decide) (by decide)).symm
    · exact (cell_apart (by decide) (by decide)).symm
    · exact hwithin (by decide)
    · exact cell_apart (by decide) (by decide)
    · exact cell_apart (by decide) (by decide)
    · exact hwithin (by decide)
    · exact (hd.mono_right (cell_within (by decide) (by decide))).symm
    · exact (hd.mono_right (cell_within (by decide) (by decide))).symm
    · exact hstack

theorem pktrecv_returns_noBuffer :
    Leads zeroStatus (numbered 0x1000 (pktdrvReceiveIsr fullLabels))
      (fun s s' => s' = noBuffer 0x6000 s)
      (Returned (fun s s' => s' = noBuffer 0x6000 s) fullLabels fullDriver) fullDriver := by
  have hd : Disjoint (Span (fullDriver.reg .ss) (fullDriver.reg .sp) 4)
      (fullLabels.area (fullDriver.reg .cs)) := span_apart (by decide) (by decide) (by decide)
  have hcount : Disjoint (Span (fullDriver.reg .cs) 0x6000 4)
      (fullLabels.area (fullDriver.reg .cs) ∪ Span (fullDriver.reg .ss) (fullDriver.reg .sp) 4) := by
    rw [Set.disjoint_union_right]
    exact ⟨span_apart (by decide) (by decide) (by decide),
      (span_apart (by decide) (by decide) (by decide)).symm⟩
  apply pktrecv_returns (assembled_numbered (by decide)) rfl hd
  rintro s ⟨hs,-⟩
  refine ⟨⟨_,rfl⟩,fun s' hs' => ?_⟩
  subst hs'
  exact noBuffer_nearReturn hs hd hcount

end RmtDos
