import RmtDos.Lib.Runs
import RmtDos.Lib.Timeval
import RmtDos.Client.HostList
import RmtDos.Client.Keyboard

/-! The main loop of the client: it waits for the terminal and the network, then its timers run.
Drawing and the web server are left out; they read the hosts and change none. -/
namespace RmtDos
open Memory Reading Runs Clock

/-- `broadcast_probe_interval`. -/
def broadcastProbeInterval : Timeval := ⟨2,500000,by decide,by decide⟩

/-- `session_start_interval`. -/
def sessionStartInterval : Timeval := { timerclear with tvSec := 2 }

/-- `g_broadcast_addr`. -/
def broadcastAddr : MacAddr := Vector.replicate 6 0xff

/-- A packet of the main loop, with its destination. -/
inductive LoopPacket
  | statusReq
  | sessionStart (destMacAddr : MacAddr)
  | keystroke (destMacAddr : MacAddr) (key : Keystroke)
  deriving DecidableEq

def LoopPacket.destMacAddr : LoopPacket → MacAddr
  | .statusReq => broadcastAddr
  | .sessionStart destMacAddr => destMacAddr
  | .keystroke destMacAddr _ => destMacAddr

def LoopPacket.isStart : LoopPacket → Bool
  | .sessionStart _ => true
  | _ => false

/-- `send_status_req` without an address, `send_session_start`, `send_keystrokes`. -/
def LoopPacket.bytes (sock : RawSocket) (ethertype : UInt16) : LoopPacket → List UInt8
  | .statusReq => clientFrame sock ethertype broadcastAddr 3 []
  | .sessionStart destMacAddr => clientFrame sock ethertype destMacAddr 5 []
  | .keystroke destMacAddr key => sendKeystrokes sock ethertype destMacAddr [key]

/-- The part of a `struct RemoteHost` that is for its control: whether it has a window, and when it
was last sent a session start. -/
structure HostControl where
  window : Bool
  tvLastSessionStart : Timeval

/-- The globals of the main loop. The record of a host that is not there yet is zero. -/
structure MainLoop where
  client : Client
  controls : Vector HostControl 16
  lastProbe : Timeval
  running : Bool

/-- Before the loop; the option `-d` gives the host to connect to. -/
def MainLoop.init (autoconnectHost : Option MacAddr) : MainLoop where
  client := ⟨Vector.replicate 16 none,none,autoconnectHost⟩
  controls := Vector.replicate 16 ⟨false,timerclear⟩
  lastProbe := timerclear
  running := true

/-- `start_remote_control`. -/
def startRemoteControl (i : Fin 16) (s : MainLoop) : MainLoop :=
  { s with
    client := { s.client with activeHost := some i }
    controls := s.controls.put i { s.controls.slot i with window := true } }

theorem toNat_lt_maxHosts {index : ℤ} (h : 0 ≤ index ∧ index < 16) : index.toNat < 16 :=
  (Int.toNat_lt h.1).mpr h.2

/-- `hostlist_find_by_index`. -/
def hostlistFindByIndex (index : ℤ) (hosts : HostList) : Option (Fin 16) :=
  if h : 0 ≤ index ∧ index < 16 then
    let slot : Fin 16 := ⟨index.toNat,toNat_lt_maxHosts h⟩
    if (hosts.slot slot).isSome then some slot else none
  else none

/-- `KEY_F(12)` of ncurses. -/
def keyF12 : ℤ := 276

/-- `process_stdin_menu_mode` for the result of `getch`. -/
def processStdinMenuMode (c : ℤ) (s : MainLoop) : MainLoop :=
  if (c = 0x9b ∨ c = 0x1d) ∨ c = keyF12 ∨ c = 27 then { s with running := false }
  else if 48 ≤ c ∧ c ≤ 57 then
    match hostlistFindByIndex (c-48) s.client.hosts with
    | some i => startRemoteControl i s
    | none => s
  else s

/-- The address of a host in the list. -/
def MainLoop.ifAddr (s : MainLoop) (i : Fin 16) : Option MacAddr :=
  (s.client.hosts.slot i).map RemoteHost.ifAddr

/-- What a part of the loop leaves, and the packets that it sends. -/
abbrev Turn := MainLoop × List LoopPacket

/-- Input at the terminal: `getch` would return `c`, and `wget_wch` reads `input`. -/
def processStdin (c : ℤ) (input : List WchInput) (s : MainLoop) : Turn :=
  match s.client.activeHost with
  | none => (processStdinMenuMode c s,[])
  | some i =>
    let turn := processStdinSessionMode input
    ({ s with running := s.running && turn.running },
      (s.ifAddr i).toList.flatMap fun ifAddr => turn.sent.toList.map (.keystroke ifAddr))

/-- A frame at the socket. `start_remote_control` gives the host its window with `g_active_host`,
which nothing else on this path sets. -/
def processSocket (sock : RawSocket) (buffer : Mem) (s : MainLoop) : MainLoop :=
  let client := run buffer (processSocketIo sock s.client)
  if s.client.activeHost.isNone then
    match client.activeHost with
    | some i => startRemoteControl i { s with client := client }
    | none => { s with client := client }
  else { s with client := client }

/-- The body of the loop of `process_timers` over the hosts. -/
def refreshHost (now : Timeval) (r : Turn) (i : Fin 16) : Turn :=
  match r.1.ifAddr i with
  | none => r
  | some ifAddr =>
    let control := r.1.controls.slot i
    if control.window ∧
        timercmpGt (timersub now control.tvLastSessionStart) sessionStartInterval then
      ({ r.1 with controls := r.1.controls.put i { control with tvLastSessionStart := now } },
        r.2 ++ [.sessionStart ifAddr])
    else r

/-- The probe of `process_timers`. -/
def probeTimer (now : Timeval) (s : MainLoop) : Turn :=
  if timercmpGt (timersub now s.lastProbe) broadcastProbeInterval then
    ({ s with lastProbe := now },[.statusReq])
  else (s,[])

def processTimers (now : Timeval) (s : MainLoop) : Turn :=
  (List.finRange 16).foldl (refreshHost now) (probeTimer now s)

/-- What `epoll_wait` reports. `recvfrom` may still return no frame. -/
inductive Ready
  | stdin (c : ℤ) (input : List WchInput)
  | socket (frame : Option Mem)
  | web

def processReady (sock : RawSocket) (r : Turn) : Ready → Turn
  | .stdin c input =>
    let turn := processStdin c input r.1
    (turn.1,r.2 ++ turn.2)
  | .socket (some buffer) => (processSocket sock buffer r.1,r.2)
  | .socket none => r
  | .web => r

/-- One time through the loop. The test of `g_running` is at its head. -/
def mainLoopTurn (sock : RawSocket) (events : List Ready) (now : Timeval) (s : MainLoop) : Turn :=
  let ready := events.foldl (processReady sock) (s,[])
  let timers := processTimers now ready.1
  (timers.1,ready.2 ++ timers.2)

end RmtDos
