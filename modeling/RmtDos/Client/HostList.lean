import RmtDos.Lib.Reading
import RmtDos.Protocol

/-! The screen side of the Linux client: the records of the hosts it knows, and the screen
frames it stores in them. A receive buffer is read where the source reads it, whether or not
the received frame reaches that far; clocks and windows are left out. -/
namespace RmtDos
open Memory Reading

/-- What a parser reads a byte for: the headers, or the data behind them. -/
inductive FrameField
  | header | data
  deriving DecidableEq

/-- `struct RawSocket`. -/
structure RawSocket where
  ifAddr : MacAddr
  sessionId : UInt32

/-- `struct StatusResponse`. -/
structure StatusResponse where
  videoMode : UInt8
  activePage : UInt8
  textRows : UInt8
  textCols : UInt8
  cursorRow : UInt8
  cursorCol : UInt8
  deriving DecidableEq

/-- `struct RemoteHost`. -/
structure RemoteHost where
  ifAddr : MacAddr
  status : StatusResponse
  textRows : UInt8
  textCols : UInt8
  videoTextBuffer : Fin 32768 → UInt8
  cgaGraphicsBuffer : Fin 16000 → UInt8
  cgaGraphicsMode : UInt8
  cgaGraphicsBpp : UInt8
  cgaGraphicsWidth : UInt16
  cgaGraphicsHeight : UInt16
  cgaGraphicsValid : Bool
  cgaGraphicsGeneration : UInt32

/-- `g_remote_hosts`. -/
abbrev HostList := Vector (Option RemoteHost) 16

/-- A list with one host. -/
def hostsWith (rh : RemoteHost) : HostList := (Vector.replicate 16 none).set 0 (some rh)

/-- The slot of the first host with the address. -/
def hostlistFindByMac (ifAddr : List UInt8) (hosts : HostList) : Option (Fin 16) :=
  (List.finRange 16).find? fun i => (hosts.slot i).any fun rh => rh.ifAddr.toList = ifAddr

/-- `memcpy` into a buffer of a host. -/
def copyInto {n : ℕ} (buf : Fin n → UInt8) (offset : ℕ) (data : List UInt8) : Fin n → UInt8 :=
  fun i => if offset ≤ i then data[i.val-offset]?.getD (buf i) else buf i

def updateHost (hosts : HostList) (i : Fin 16) (f : RemoteHost → RemoteHost) : HostList :=
  hosts.put i ((hosts.slot i).map f)

theorem hostlistFindByMac_some {ifAddr : List UInt8} {hosts : HostList} {i : Fin 16}
    (h : hostlistFindByMac ifAddr hosts = some i) : ∃ rh, hosts.slot i = some rh := by
  have hany := List.find?_some h
  obtain ⟨rh,hrh,-⟩ := (Option.any_eq_true ..).mp hany
  exact ⟨rh,hrh⟩

theorem slot_updateHost (hosts : HostList) (i k : Fin 16) (f : RemoteHost → RemoteHost) :
    (updateHost hosts i f).slot k = if i = k then (hosts.slot i).map f else hosts.slot k := by
  rw [updateHost, Vector.slot_put]

theorem slot_updateHost_self {hosts : HostList} {i : Fin 16} {rh : RemoteHost}
    (h : hosts.slot i = some rh) (f : RemoteHost → RemoteHost) :
    (updateHost hosts i f).slot i = some (f rh) := by
  rw [slot_updateHost, if_pos rfl, h, Option.map_some]

/-- The common part of the two screen parsers, for a struct with `offset` at position `at`
of the frame, `count` behind it and then the data: the host, the offset and the data, if the
host is known and the data fit into a buffer of `size` bytes. -/
def incomingScreen (hosts : HostList) (size offsetAt : ℕ) :
    Reading FrameField (Option (Fin 16 × UInt16 × List UInt8)) := do
  let etherShost ← bytes .header 6 6
  match hostlistFindByMac etherShost hosts with
  | none => pure none
  | some i => do
    let offset ← be16 .header offsetAt
    let count ← be16 .header (offsetAt+2)
    if size < count.toNat+offset.toNat then pure none
    else do
      let data ← bytes .data (offsetAt+4) count.toNat
      pure (some (i,offset,data))

/-- The new host list, and the range that `update_session_window` redraws. -/
def processIncomingVideoText (hosts : HostList) :
    Reading FrameField (HostList × Option (Fin 16 × UInt16 × ℕ)) := do
  match ← incomingScreen hosts 32768 30 with
  | none => pure (hosts,none)
  | some (i,offset,data) => do
    let textRows ← byte .header 26
    let textCols ← byte .header 27
    let cursorRow ← byte .header 28
    let cursorCol ← byte .header 29
    let update (rh : RemoteHost) : RemoteHost :=
      { rh with
        videoTextBuffer := copyInto rh.videoTextBuffer offset.toNat data
        textRows := textRows
        textCols := textCols
        status := { rh.status with cursorRow := cursorRow, cursorCol := cursorCol } }
    pure (updateHost hosts i update,some (i,offset,data.length))

def processIncomingCgaGraphics (hosts : HostList) : Reading FrameField HostList := do
  match ← incomingScreen hosts 16000 32 with
  | none => pure hosts
  | some (i,offset,data) => do
    let videoMode ← byte .header 26
    let bpp ← byte .header 27
    let width ← be16 .header 28
    let height ← be16 .header 30
    let update (rh : RemoteHost) : RemoteHost :=
      { rh with
        cgaGraphicsBuffer := copyInto rh.cgaGraphicsBuffer offset.toNat data
        cgaGraphicsMode := videoMode
        cgaGraphicsBpp := bpp
        cgaGraphicsWidth := width
        cgaGraphicsHeight := height
        cgaGraphicsValid := true
        cgaGraphicsGeneration := rh.cgaGraphicsGeneration+1 }
    pure (updateHost hosts i update)

/-- A host that `hostlist_allocate` zeroed, with its address. -/
def hostCreate (ifAddr : MacAddr) : RemoteHost :=
  ⟨ifAddr,⟨0,0,0,0,0,0⟩,0,0,fun _ => 0,fun _ => 0,0,0,0,0,false,0⟩

def hostlistAllocate (hosts : HostList) : Option (Fin 16) :=
  (List.finRange 16).find? fun i => (hosts.slot i).isNone

/-- `hostlist_register` for a `V1_STATUS_RESP`. -/
def hostlistRegister (hosts : HostList) : Reading FrameField HostList := do
  let etherShost ← bytes .header 6 6
  let videoMode ← byte .data 26
  let activePage ← byte .data 27
  let textRows ← byte .data 28
  let textCols ← byte .data 29
  let cursorRow ← byte .data 30
  let cursorCol ← byte .data 31
  let status : StatusResponse := ⟨videoMode,activePage,textRows,textCols,cursorRow,cursorCol⟩
  match hostlistFindByMac etherShost hosts with
  | some i => pure (updateHost hosts i fun rh => { rh with status := status })
  | none =>
    match hostlistAllocate hosts with
    | none => pure hosts
    | some i =>
      let ifAddr : MacAddr := Vector.ofFn fun j => etherShost[j.val]?.getD 0
      pure (hosts.put i (some { hostCreate ifAddr with status := status }))

/-- The globals of the client: its hosts, `g_active_host`, and the address to connect to. -/
structure Client where
  hosts : HostList
  activeHost : Option (Fin 16)
  autoconnectHost : Option MacAddr

/-- A status response, which may start the remote control of its sender. -/
def processStatusResp (c : Client) : Reading FrameField Client := do
  let hosts ← hostlistRegister c.hosts
  let etherShost ← bytes .header 6 6
  if c.autoconnectHost.any (fun a => a.toList = etherShost) ∧ c.activeHost = none then
    match hostlistFindByMac etherShost hosts with
    | some i => pure { c with hosts := hosts, activeHost := some i }
    | none => pure { c with hosts := hosts }
  else pure { c with hosts := hosts }

/-- What `process_socket_io` does with a frame in its buffer. -/
def processSocketIo (rs : RawSocket) (c : Client) : Reading FrameField Client := do
  let etherDhost ← bytes .header 0 6
  let signature ← be32 .header 14
  let sessionId ← be32 .header 18
  let pktType ← be16 .header 24
  if etherDhost ≠ rs.ifAddr.toList then pure c
  else if packetSignature ≠ signature then pure c
  else if rs.sessionId ≠ sessionId then pure c
  else if pktType = 4 then processStatusResp c
  else if pktType = 6 then do
    let (hosts,_) ← processIncomingVideoText c.hosts
    pure { c with hosts := hosts }
  else if pktType = 8 then do
    let hosts ← processIncomingCgaGraphics c.hosts
    pure { c with hosts := hosts }
  else pure c

end RmtDos
