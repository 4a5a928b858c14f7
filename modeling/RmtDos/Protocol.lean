import RmtDos.Lib.Bytes

/-! The wire protocol of the file and directory operations. A `Packet` is a request as the
handlers of the TSR read it from a receive buffer and a `Reply` is a frame the TSR sends;
multi-byte fields are in host order on both sides. -/
namespace RmtDos

/-- `ETH_ALEN` bytes. -/
abbrev MacAddr := Vector UInt8 6

def packetSignature : UInt32 := 0x7b6e05b0

def fileTransferNameBytes : ℕ := 64
def fileTransferChunkBytes : ℕ := 512
def rmtdosPathBytes : ℕ := 128

abbrev FileName := Vector UInt8 64
abbrev PathName := Vector UInt8 128

/-- The request members of `enum PKT_TYPE`. -/
inductive PktType
  | filePutBegin | filePutData | filePutEnd | fileGetBegin | fileGetDataReq | fileGetEnd
  | dirListBegin | dirListDataReq | dirListEnd
  | fileMkdir | fileDelete | fileRename | fileCopy
  deriving DecidableEq, Repr

def PktType.code : PktType → UInt32
  | .filePutBegin => 9
  | .filePutData => 10
  | .filePutEnd => 11
  | .fileGetBegin => 13
  | .fileGetDataReq => 14
  | .fileGetEnd => 16
  | .dirListBegin => 17
  | .dirListDataReq => 18
  | .dirListEnd => 20
  | .fileMkdir => 21
  | .fileDelete => 22
  | .fileRename => 23
  | .fileCopy => 24

/-- `enum FILE_ACK_COMMAND`. -/
inductive FileAckCommand
  | begin | data | «end» | mkdir | delete | rename | copy
  deriving DecidableEq, Repr

def FileAckCommand.code : FileAckCommand → UInt16
  | .begin => 1
  | .data => 2
  | .end => 3
  | .mkdir => 4
  | .delete => 5
  | .rename => 6
  | .copy => 7

/-- `enum FILE_ACK_STATUS`. -/
inductive FileAckStatus
  | ok | busy | error
  deriving DecidableEq, Repr

def FileAckStatus.code : FileAckStatus → UInt16
  | .ok => 0
  | .busy => 1
  | .error => 2

/-- `FILE_PATH_OP_DIRECTORY`. -/
def filePathOpDirectory : UInt16 := 0x0001

/-- The struct behind the protocol header of a request. `data` of `filePutData` holds the
bytes behind the struct up to the end of the receive buffer. -/
inductive Payload
  | filePutBegin (transferId size : UInt32) (filename : FileName)
  | filePutData (transferId offset : UInt32) (count : UInt16) (data : List UInt8)
  | filePutEnd (transferId size : UInt32)
  | fileGetBegin (transferId : UInt32) (filename : FileName)
  | fileGetDataReq (transferId offset : UInt32) (count : UInt16)
  | fileGetEnd (transferId : UInt32)
  | dirListBegin (requestId : UInt32) (path : PathName)
  | dirListDataReq (requestId : UInt32) (startIndex maxEntries : UInt16)
  | dirListEnd (requestId : UInt32)
  | fileMkdir (transferId : UInt32) (flags : UInt16) (path : FileName)
  | fileDelete (transferId : UInt32) (flags : UInt16) (path : FileName)
  | fileRename (transferId : UInt32) (source target : FileName)
  | fileCopy (transferId : UInt32) (source target : FileName)
  deriving DecidableEq

namespace Payload

def pktType : Payload → PktType
  | filePutBegin .. => .filePutBegin
  | filePutData .. => .filePutData
  | filePutEnd .. => .filePutEnd
  | fileGetBegin .. => .fileGetBegin
  | fileGetDataReq .. => .fileGetDataReq
  | fileGetEnd .. => .fileGetEnd
  | dirListBegin .. => .dirListBegin
  | dirListDataReq .. => .dirListDataReq
  | dirListEnd .. => .dirListEnd
  | fileMkdir .. => .fileMkdir
  | fileDelete .. => .fileDelete
  | fileRename .. => .fileRename
  | fileCopy .. => .fileCopy

/-- `sizeof` of the struct of the packet type, without the data that follows it. -/
def structSize : PktType → ℕ
  | .filePutBegin => 72
  | .filePutData => 10
  | .filePutEnd => 8
  | .fileGetBegin => 68
  | .fileGetDataReq => 10
  | .fileGetEnd => 4
  | .dirListBegin => 132
  | .dirListDataReq => 8
  | .dirListEnd => 4
  | .fileMkdir => 72
  | .fileDelete => 72
  | .fileRename => 132
  | .fileCopy => 132

/-- The transfer id a request carries; directory requests carry a request id instead. -/
def transferId? : Payload → Option UInt32
  | filePutBegin t .. | filePutData t .. | filePutEnd t .. | fileGetBegin t ..
  | fileGetDataReq t .. | fileGetEnd t | fileMkdir t .. | fileDelete t .. | fileRename t ..
  | fileCopy t .. => some t
  | dirListBegin .. | dirListDataReq .. | dirListEnd .. => none

end Payload

/-- A received request: the source address and session of its headers, the declared payload
length and the payload itself. -/
structure Packet where
  srcMacAddr : MacAddr
  sessionId : UInt32
  payloadLen : UInt16
  payload : Payload
  deriving DecidableEq

/-- The minimum length check that opens every case of the packet handler. -/
def Packet.LongEnough (p : Packet) : Prop :=
  Payload.structSize p.payload.pktType ≤ p.payloadLen.toNat

instance (p : Packet) : Decidable p.LongEnough := inferInstanceAs (Decidable (_ ≤ _))

/-- One serialized DOS directory entry. -/
structure DirListEntry where
  attributes : UInt8
  reserved : UInt8
  size : UInt32
  dosDate : UInt16
  dosTime : UInt16
  name : Vector UInt8 64
  deriving DecidableEq

def DirListEntry.zero : DirListEntry := ⟨0,0,0,0,0,Vector.replicate 64 0⟩

/-- The struct behind the protocol header of a reply. -/
inductive ReplyBody
  | fileAck (transferId : UInt32) (command : FileAckCommand) (status : FileAckStatus)
      (offset : UInt32)
  | fileGetData (transferId offset : UInt32) (count : UInt16) (status : FileAckStatus)
      (data : List UInt8)
  | dirListData (requestId : UInt32) (startIndex entryCount : UInt16)
      (status : FileAckStatus) (entries : List DirListEntry)
  deriving DecidableEq

structure Reply where
  destMacAddr : MacAddr
  srcMacAddr : MacAddr
  sessionId : UInt32
  payloadLen : UInt16
  body : ReplyBody
  deriving DecidableEq

end RmtDos
