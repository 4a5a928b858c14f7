import RmtDos.Lib.Resumable
import RmtDos.Protocol

/-! The transfer record of the TSR and the DOS services it calls. The record is shared by the
packet handler, which runs from the timer interrupt, and the idle step, which runs from the
DOS idle interrupt. -/
namespace RmtDos

/-- `FILE_MODE_*`. -/
inductive FileMode
  | none | put | get | dir
  deriving DecidableEq, Repr

/-- `FILE_OP_*`. -/
inductive FileOp
  | none | putBegin | putData | putEnd | ack | getBegin | getDataReq | getEnd | dirListDataReq
  | mkdir | delete | rename | copy
  deriving DecidableEq, Repr

/-- `struct FileTransferState`. -/
structure FileTransferState where
  active : Bool
  mode : FileMode
  pendingOp : FileOp
  clientMac : MacAddr
  sessionId : UInt32
  transferId : UInt32
  expectedOffset : UInt32
  size : UInt32
  handle : Int16
  filename : FileName
  chunk : Vector UInt8 512
  chunkCount : UInt16
  chunkOffset : UInt32
  ackCommand : FileAckCommand
  ackStatus : FileAckStatus
  ackOffset : UInt32
  dirRequestId : UInt32
  dirStartIndex : UInt16
  dirMaxEntries : UInt16
  pathOpFlags : UInt16
  target : FileName
  dirPath : PathName
  dta : Vector UInt8 43
  dirEntries : Vector DirListEntry 16

/-- The record after `memset`; the zero of `ack_command` is never read, and stands as `begin`. -/
def fileTransferInit : FileTransferState where
  active := false
  mode := .none
  pendingOp := .none
  clientMac := Vector.replicate 6 0
  sessionId := 0
  transferId := 0
  expectedOffset := 0
  size := 0
  handle := -1
  filename := Vector.replicate 64 0
  chunk := Vector.replicate 512 0
  chunkCount := 0
  chunkOffset := 0
  ackCommand := .begin
  ackStatus := .ok
  ackOffset := 0
  dirRequestId := 0
  dirStartIndex := 0
  dirMaxEntries := 0
  pathOpFlags := 0
  target := Vector.replicate 64 0
  dirPath := Vector.replicate 128 0
  dta := Vector.replicate 43 0
  dirEntries := Vector.replicate 16 DirListEntry.zero

/-- One `int 21h` with the registers and strings DOS reads. -/
inductive DosCall
  | create (name : List UInt8)
  | openRead (name : List UInt8)
  | close (handle : UInt16)
  | read (handle count : UInt16)
  | write (handle : UInt16) (data : List UInt8)
  | seek (handle : UInt16) (origin : UInt8) (offset : UInt32)
  | mkdir (name : List UInt8)
  | rmdir (name : List UInt8)
  | unlink (name : List UInt8)
  | rename (source target : List UInt8)
  | setDta
  | getDta
  | restoreDta (segment offset : UInt16)
  | findFirst (pattern : List UInt8)
  | findNext
  deriving DecidableEq

/-- The registers after the call, and the bytes DOS stored in the buffer of the call. -/
structure DosRegs where
  carry : Bool
  ax : UInt16
  bx : UInt16
  dx : UInt16
  es : UInt16
  data : List UInt8
  deriving DecidableEq

/-- Code of the idle step: it works on the record, calls DOS and sends frames. -/
abbrev Tsr := Resumable.Prog FileTransferState DosCall DosRegs Reply

def int21 (call : FileTransferState → DosCall)
    (store : DosRegs → FileTransferState → FileTransferState) : Tsr DosRegs :=
  .call call store .done

def getFile : Tsr FileTransferState := .get .done
def setFile (f : FileTransferState → FileTransferState) : Tsr Unit := .modify f (.done ())
def pktdrvSend (r : Reply) : Tsr Unit := .emit r (.done ())

/-- A call whose only results are registers. -/
def keep (_ : DosRegs) (g : FileTransferState) : FileTransferState := g

/-- DOS stores the data read at the front of `g_file.chunk`. -/
def storeChunk (regs : DosRegs) (g : FileTransferState) : FileTransferState :=
  if regs.carry then g else { g with chunk := Bytes.overwrite g.chunk regs.data }

/-- A directory search that succeeds fills the DTA, which is `g_file.dta`. -/
def storeDta (regs : DosRegs) (g : FileTransferState) : FileTransferState :=
  if regs.carry then g else { g with dta := Bytes.overwrite g.dta regs.data }

def filenameStr (g : FileTransferState) : List UInt8 := Bytes.cstr g.filename.toList
def targetStr (g : FileTransferState) : List UInt8 := Bytes.cstr g.target.toList
def dirPathStr (g : FileTransferState) : List UInt8 := Bytes.cstr g.dirPath.toList

def dosCreateFile (filename : FileTransferState → List UInt8) : Tsr Int16 := do
  let regs ← int21 (fun g => .create (filename g)) keep
  if regs.carry then return -1
  return regs.ax.toInt16

def dosOpenReadFile (filename : FileTransferState → List UInt8) : Tsr Int16 := do
  let regs ← int21 (fun g => .openRead (filename g)) keep
  if regs.carry then return -1
  return regs.ax.toInt16

def dosSeekFile (handle : Int16) (origin : UInt8) (offset : UInt32) : Tsr UInt32 := do
  let regs ← int21 (fun _ => .seek handle.toUInt16 origin offset) keep
  if regs.carry then return 0xffffffff
  return regs.dx.toUInt32 <<< 16 ||| regs.ax.toUInt32

/-- Both callers read into `g_file.chunk`. -/
def dosReadFile (handle : Int16) (count : UInt16) : Tsr Int16 := do
  let regs ← int21 (fun _ => .read handle.toUInt16 count) storeChunk
  if regs.carry then return -1
  return regs.ax.toInt16

/-- Both callers write from `g_file.chunk`; `true` is the source's 0. -/
def dosWriteFile (handle : Int16) (count : UInt16) : Tsr Bool := do
  let regs ← int21 (fun g => .write handle.toUInt16 (g.chunk.toList.take count.toNat)) keep
  if regs.carry then return false
  return regs.ax = count

/-- The calls that only report success: `true` is the source's 0. -/
def dosPathCall (call : FileTransferState → DosCall) : Tsr Bool := do
  let regs ← int21 call keep
  return !regs.carry

def dosMkdir : Tsr Bool := dosPathCall fun g => .mkdir (filenameStr g)
def dosRmdir : Tsr Bool := dosPathCall fun g => .rmdir (filenameStr g)
def dosUnlink : Tsr Bool := dosPathCall fun g => .unlink (filenameStr g)
def dosRename : Tsr Bool := dosPathCall fun g => .rename (filenameStr g) (targetStr g)

def dosCloseFile (handle : Int16) : Tsr Unit := do
  if handle < 0 then return ()
  let _ ← int21 (fun _ => .close handle.toUInt16) keep

def dosSetDta : Tsr Unit := do
  let _ ← int21 (fun _ => .setDta) keep

def dosGetDta : Tsr (UInt16 × UInt16) := do
  let regs ← int21 (fun _ => .getDta) keep
  return (regs.es,regs.bx)

def dosRestoreDta (saved : UInt16 × UInt16) : Tsr Unit := do
  let _ ← int21 (fun _ => .restoreDta saved.1 saved.2) keep

def dosFindFirst (pattern : FileTransferState → List UInt8) : Tsr Bool := do
  let regs ← int21 (fun g => .findFirst (pattern g)) storeDta
  return !regs.carry

def dosFindNext : Tsr Bool := do
  let regs ← int21 (fun _ => .findNext) storeDta
  return !regs.carry

def dtaGetU16 (dta : Vector UInt8 43) (offset : ℕ) : UInt16 :=
  (dta.toList.getD offset 0).toUInt16 ||| (dta.toList.getD (offset+1) 0).toUInt16 <<< 8

def dtaGetU32 (dta : Vector UInt8 43) (offset : ℕ) : UInt32 :=
  (dta.toList.getD offset 0).toUInt32 ||| (dta.toList.getD (offset+1) 0).toUInt32 <<< 8 |||
    (dta.toList.getD (offset+2) 0).toUInt32 <<< 16 |||
    (dta.toList.getD (offset+3) 0).toUInt32 <<< 24

end RmtDos
