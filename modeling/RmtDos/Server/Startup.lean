import RmtDos.Lib.Resumable
import RmtDos.Protocol

/-! Start and end of the TSR: `main`, which registers with the packet driver, hooks three
interrupts and goes resident, and the uninstall command of int 2fh. A program has the memory that
other programs can change beside it: its own globals and the interrupt table. -/
namespace RmtDos
open Resumable

/-- A pointer to code. -/
structure FarPtr where
  seg : UInt16
  off : UInt16
  deriving DecidableEq

/-- The interrupts that the TSR hooks. -/
inductive Hooked
  | int08 | int28 | int2f
  deriving DecidableEq

/-- Where the program lies in memory, and its interrupt handlers in it. -/
structure Image where
  cs : UInt16
  size : ℕ
  isr : Hooked → UInt16
  isr_lt : ∀ v, (isr v).toNat < size

/-- `MK_FP (cs, int08_isr)` and the like. -/
def Image.handler (im : Image) (v : Hooked) : FarPtr := ⟨im.cs,im.isr v⟩

/-- `struct PktDrvInfo`. -/
structure PktDrvInfo where
  version : UInt16
  type : UInt16
  driverClass : UInt8
  number : UInt8
  functionality : UInt8
  macAddr : List UInt8
  name : List UInt8

def noPktDrvInfo : PktDrvInfo := ⟨0,0,0,0,0,List.replicate 6 0,[]⟩

/-- The globals of the program, and the interrupt table. -/
structure TsrMemory where
  pktdrvIrq : UInt16
  pktdrvHandle : UInt16
  pktdrvInfo : PktDrvInfo
  original : Hooked → FarPtr
  vects : Hooked → FarPtr

/-- `struct CpuRegs` after a call, and the bytes that the call has stored or points to. -/
structure CpuRegs where
  ax : UInt16
  bx : UInt16
  cx : UInt16
  dx : UInt16
  carry : Bool
  data : List UInt8

def CpuRegs.dh (r : CpuRegs) : UInt8 := (r.dx >>> 8).toUInt8
def CpuRegs.al (r : CpuRegs) : UInt8 := r.ax.toUInt8
def CpuRegs.ch (r : CpuRegs) : UInt8 := (r.cx >>> 8).toUInt8
def CpuRegs.cl (r : CpuRegs) : UInt8 := r.cx.toUInt8

/-- The calls of `x86_call`, and `pktdrv_probe_all`, which answers in `ax`. -/
inductive X86Call
  | multiplex (dx : UInt16)
  | probeAll
  | accessType (irq : UInt8)
  | driverInfo (irq : UInt8) (handle : UInt16)
  | getAddress (irq : UInt8) (handle : UInt16)
  | releaseType (irq : UInt8) (handle : UInt16)
  | freeEnv
  | goResident
  | freePsp
  deriving DecidableEq

/-- Without an answer the call does not return. -/
abbrev Startup := Prog TsrMemory X86Call (Option CpuRegs) Empty

def x86Call (c : TsrMemory → X86Call) : Startup CpuRegs :=
  .call c (fun _ m => m) fun
    | some r => .done r
    | none => .hang

def setMemory (f : TsrMemory → TsrMemory) : Startup Unit := .modify f (.done ())
def getMemory : Startup TsrMemory := .get .done

def pktdrvErrNoDriver : UInt8 := 16

/-- The interrupt to use, where 0 asks for a search. -/
def findIrq (irq : UInt16) : Startup UInt16 := do
  if irq = 0 then
    let r ← x86Call fun _ => .probeAll
    return r.ax
  else return irq

def pktdrvInit (irq : UInt16) : Startup UInt8 := do
  setMemory fun m => { m with pktdrvIrq := 0, pktdrvHandle := 0, pktdrvInfo := noPktDrvInfo }
  let irq ← findIrq irq
  if irq = 0 then return pktdrvErrNoDriver
  else do
    let r ← x86Call fun _ => .accessType irq.toUInt8
    if r.carry then return r.dh
    else do
      setMemory fun m => { m with pktdrvIrq := irq, pktdrvHandle := r.ax }
      let r ← x86Call fun m => .driverInfo irq.toUInt8 m.pktdrvHandle
      if r.carry then return r.dh
      else do
        setMemory fun m =>
          { m with
            pktdrvInfo :=
              { m.pktdrvInfo with
                version := r.bx, type := r.dx, driverClass := r.ch, number := r.cl
                functionality := r.al, name := (Bytes.cstr r.data).take 65 } }
        let r ← x86Call fun m => .getAddress irq.toUInt8 m.pktdrvHandle
        if r.carry then return r.dh
        else do
          setMemory fun m => { m with pktdrvInfo := { m.pktdrvInfo with macAddr := r.data.take 6 } }
          return 0

def pktdrvDone : Startup UInt8 := do
  let finish : Startup UInt8 := do
    setMemory fun m => { m with pktdrvIrq := 0, pktdrvHandle := 0 }
    return 0
  if (← getMemory).pktdrvHandle ≠ 0 then
    let r ← x86Call fun m => .releaseType m.pktdrvIrq.toUInt8 m.pktdrvHandle
    if r.carry then return r.dh else finish
  else finish

variable (im : Image)

def installInterruptHandlers (m : TsrMemory) : TsrMemory :=
  { m with original := m.vects, vects := im.handler }

/-- `resident_uninstall_check`: 0, or the interrupt that someone else has hooked. -/
def residentUninstallCheck (m : TsrMemory) : UInt16 :=
  if im.handler .int08 ≠ m.vects .int08 then 0x08
  else if im.handler .int28 ≠ m.vects .int28 then 0x28
  else if im.handler .int2f ≠ m.vects .int2f then 0x2f
  else 0

def restoreInterruptHandlers (m : TsrMemory) : TsrMemory := { m with vects := m.original }

def residentDoUninstall : Startup UInt16 := do
  let x := residentUninstallCheck im (← getMemory)
  if x ≠ 0 then return x
  else do
    setMemory restoreInterruptHandlers
    let _ ← pktdrvDone
    let r ← x86Call fun _ => .freePsp
    return -r.ax

def multiplexCmdInstallCheck : UInt16 := 0
def multiplexCmdUninstall : UInt16 := 1

/-- `int2f_handler` for the command in `dx`. -/
def int2fHandler (regs : CpuRegs) : Startup CpuRegs := do
  if regs.dx = multiplexCmdInstallCheck then
    let x := residentUninstallCheck im (← getMemory)
    return { regs with ax := x, bx := 0, cx := im.cs, dx := 0 }
  else if regs.dx = multiplexCmdUninstall then
    let x ← residentDoUninstall im
    return { regs with ax := x, bx := 0, cx := im.cs, dx := 0 }
  else return regs

/-- How `main` ends. -/
inductive MainEnd
  | exits (code : UInt8)
  | goesResident

/-- `main` behind its options. -/
def main (unload : Bool) (irq : UInt16) : Startup MainEnd := do
  let r ← x86Call fun _ => .multiplex multiplexCmdInstallCheck
  if unload then
    if r.bx ≠ 0 then return .exits 1
    else if r.ax = 0 then
      let _ ← x86Call fun _ => .multiplex multiplexCmdUninstall
      return .exits 0
    else return .exits 1
  else if r.bx = 0 then return .exits 0
  else do
    let code ← pktdrvInit irq
    if code ≠ 0 then return .exits code
    else do
      setMemory (installInterruptHandlers im)
      let _ ← x86Call fun _ => .freeEnv
      .call (fun _ => .goResident) (fun _ m => m) fun
        | none => return .goesResident
        | some _ => do
          setMemory restoreInterruptHandlers
          let _ ← pktdrvDone
          return .exits 1

end RmtDos
