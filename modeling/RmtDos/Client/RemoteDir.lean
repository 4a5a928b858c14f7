import RmtDos.Lib.Resumable
import RmtDos.Client.Responses

/-! `remote_dir_fetch` of the file client, as a program over its socket. The loop that waits for a
page runs on fuel, as does the loop over the pages. -/
namespace RmtDos
open Memory Reading Resumable

inductive SocketCall
  | send (frame : List UInt8)
  | recv
  deriving DecidableEq

/-- `recv` stands for `select` and `recv`: a timeout, or a frame of the length in a buffer. -/
inductive SocketReply
  | sent (ok : Bool)
  | timeout
  | received (length : ℕ) (buf : Mem)

/-- Code of the client; it shares no memory. -/
abbrev Remote := Prog Unit SocketCall SocketReply Empty

def socketCall (c : SocketCall) : Remote SocketReply := .call (fun _ => c) (fun _ s => s) .done

/-- The stores of `send_packet`. -/
def packetStores (sock : RawSocket) (ethertype : UInt16) (destMacAddr : MacAddr)
    (pktType : PktType) (payload : List UInt8) : List (ℕ × List UInt8) :=
  [(6,sock.ifAddr.toList),(0,destMacAddr.toList),(12,htons ethertype),(14,htonl packetSignature),
    (18,htonl sock.sessionId),(22,htons (UInt16.ofNat payload.length)),
    (24,htons pktType.code.toUInt16),(26,payload)]

/-- The frame of `send_packet`, whose stores fill the buffer. -/
def packetFrame (sock : RawSocket) (ethertype : UInt16) (destMacAddr : MacAddr)
    (pktType : PktType) (payload : List UInt8) : List UInt8 :=
  slice (stores (fun _ => 0) (packetStores sock ethertype destMacAddr pktType payload)) 0
    (26+payload.length)

variable (sock : RawSocket) (ethertype : UInt16) (destMacAddr : MacAddr)

/-- `send_packet`: whether it succeeds. -/
def sendPacket (pktType : PktType) (payload : List UInt8) : Remote Bool := do
  match ← socketCall (.send (packetFrame sock ethertype destMacAddr pktType payload)) with
  | .sent ok => return ok
  | _ => return false

def makeRequestId (sock : RawSocket) : UInt32 := sock.sessionId ^^^ 0x44495221

/-- `struct DirListBegin`; `snprintf` cuts the path. -/
def dirListBeginBytes (requestId : UInt32) (path : Bytes.CString) : List UInt8 :=
  htonl requestId ++ (Bytes.snprintf 127 path).toList

/-- `struct DirListDataReq`. -/
def dirListDataReqBytes (requestId : UInt32) (startIndex maxEntries : UInt16) : List UInt8 :=
  htonl requestId ++ htons startIndex ++ htons maxEntries

def dirListRetries : ℕ := 5
def remoteDirMaxEntries : ℕ := 256

/-- The loop of `recv_dir_page`: the page, or none on an error. The receive buffer ends after 1514
bytes. -/
def awaitDirPage (requestId : UInt32) (startIndex : UInt16) (maxEntries : ℕ) :
    ℕ → Remote (Option (List RemoteDirEntry))
  | 0 => .hang
  | fuel+1 => do
    match ← socketCall .recv with
    | .received length buf =>
      match run buf (recvDirPage sock destMacAddr requestId startIndex maxEntries 1514 length) with
      | .ignored => awaitDirPage requestId startIndex maxEntries fuel
      | .failed => return none
      | .ok entries => return some entries
      | .trapped => .hang
    | _ => return none

/-- The loop over the attempts for one page. -/
def fetchDirPage (fuel : ℕ) (startIndex : UInt16) (maxEntries : ℕ) :
    ℕ → Remote (Option (List RemoteDirEntry))
  | 0 => return none
  | attempts+1 => do
    let requestId := makeRequestId sock
    if ← sendPacket sock ethertype destMacAddr .dirListDataReq
        (dirListDataReqBytes requestId startIndex (UInt16.ofNat remoteDirPageEntries)) then
      match ← awaitDirPage sock destMacAddr requestId startIndex maxEntries fuel with
      | some entries => return some entries
      | none => fetchDirPage fuel startIndex maxEntries attempts
    else return none

/-- The `while` loop of `remote_dir_fetch`, with the entries it has. -/
def fetchDirPages (fuel maxEntries : ℕ) :
    ℕ → List RemoteDirEntry → Remote (Option (List RemoteDirEntry))
  | 0, _ => .hang
  | pages+1, entries => do
    if entries.length < maxEntries then
      match ← fetchDirPage sock ethertype destMacAddr fuel (UInt16.ofNat entries.length)
          (maxEntries-entries.length) dirListRetries with
      | none => return none
      | some page =>
        if page.length < remoteDirPageEntries then return some (entries ++ page)
        else fetchDirPages fuel maxEntries pages (entries ++ page)
    else return some entries

/-- `remote_dir_fetch`: the entries, or none where the source returns -1. -/
def remoteDirFetch (fuel maxEntries : ℕ) (path : Bytes.CString) :
    Remote (Option (List RemoteDirEntry)) := do
  let requestId := makeRequestId sock
  if ← sendPacket sock ethertype destMacAddr .dirListBegin (dirListBeginBytes requestId path) then
    match ← fetchDirPages sock ethertype destMacAddr fuel maxEntries fuel [] with
    | none => return none
    | some entries =>
      let _ ← sendPacket sock ethertype destMacAddr .dirListEnd (htonl requestId)
      return some entries
  else return none

end RmtDos
