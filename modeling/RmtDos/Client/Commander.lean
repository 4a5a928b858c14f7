import RmtDos.Lib.Observed
import RmtDos.Client.CopySelected

/-! The user interface of the file commander: its two panels, the handlers of its keys and its main
loop. The network, the local machine and the user are the environment; a transfer is one call. What
can be observed of a run are the entries that are dereferenced, and the state when the panels have
been drawn and when a key is awaited. -/
namespace RmtDos.Commander
open Bytes Memory Resumable

def maxLocalEntries : ℕ := 512

/-- `struct LocalPanel`. -/
structure LocalPanel where
  cwd : CString
  entries : List LocalEntry
  count : ℤ
  selected : ℤ
  scroll : ℤ

/-- `struct RemotePanel`. -/
structure RemotePanel where
  entries : Vector RemoteDirEntry 256
  count : ℤ
  selected : ℤ
  scroll : ℤ
  loaded : Bool

inductive FocusPane
  | remote | «local»
  deriving DecidableEq

/-- The arguments of `set_status`. -/
structure Status where
  fmt : String
  args : List CString

/-- The socket and the address of `active_host`. -/
structure Connection where
  sock : RawSocket
  ethertype : UInt16
  host : MacAddr

/-- `struct AppState`. -/
structure AppState where
  conn : Connection
  localPanel : LocalPanel
  remotePanel : RemotePanel
  focus : FocusPane
  remotePath : CString
  status : Status
  running : Bool

/-- What `file_transfer.c` is called for. -/
inductive Transfer
  | put (localPath remotePath : CString)
  | get (remotePath localPath : CString)
  | mkdir (path : CString)
  | delete (path : CString) (isDir : Bool)
  | rename (source target : CString)
  | copy (source target : CString)

/-- An entry that `readdir` finds, and whether `lstat` says that it is a directory. -/
structure DirEnt where
  name : CString
  isDir : Option Bool

inductive CommanderCall
  | selectHost
  | socket (c : SocketCall)
  | windowRows
  | getch
  | prompt (label : String)
  | confirm (message : Status)
  | openDir (path : CString)
  | transfer (t : Transfer)
  | runPager (path : CString)
  | runEditor (path : CString)
  | mkdtemp
  | edit (remotePath tmpPath : CString)
  | stat (path : CString)
  | copyFile (source target : CString)
  | mkdir (path : CString)
  | rename (oldPath newPath : CString)
  | remove (path : CString) (isDir : Bool)

/-- An error has the text of its `errno`. -/
inductive CommanderReply
  | ok
  | failed (error : CString)
  | host (host : MacAddr)
  | socket (r : SocketReply)
  | number (n : ℤ)
  | text (typed : Option CString)
  | dir (resolved : CString) (entries : List DirEnt)
  | path (p : CString)
  | outcomes (o : EditOutcomes)

namespace CommanderReply

def isOk : CommanderReply → Bool
  | ok => true
  | _ => false

def error : CommanderReply → CString
  | failed e => e
  | _ => .empty

def toSocket : CommanderReply → SocketReply
  | socket r => r
  | _ => .timeout

def toNumber : CommanderReply → ℤ
  | number n => n
  | _ => -1

def typed : CommanderReply → Option CString
  | text t => t
  | _ => none

end CommanderReply

/-- What can be observed: `entries[index]` of a panel with `count` entries is dereferenced, the
panels have been drawn in windows with so many rows, or the main loop starts over. -/
inductive Observed
  | deref (index count : ℤ)
  | drawn (app : AppState) (remoteRows localRows : ℤ)
  | waiting (app : AppState)

abbrev Ui := Prog AppState CommanderCall CommanderReply Observed

def getApp : Ui AppState := .get .done
def setApp (f : AppState → AppState) : Ui Unit := .modify f (.done ())
def observe (o : Observed) : Ui Unit := .emit o (.done ())
def ask (c : CommanderCall) : Ui CommanderReply := .call (fun _ => c) (fun _ s => s) .done

def setStatus (fmt : String) (args : List CString) : Ui Unit :=
  setApp fun app => { app with status := ⟨fmt,args⟩ }

/-- The length is FILE_TRANSFER_NAME_BYTES - 1. -/
def pathMustFit : Ui Unit :=
  setStatus "Remote transfer path must fit in %d characters." [⟨[0x36,0x33],by decide⟩]

/-! The local panel. -/

/-- `strcasecmp`. -/
def strcasecmp : List UInt8 → List UInt8 → ℤ
  | [], [] => 0
  | a::_, [] => (toLower a).toNat
  | [], b::_ => -(toLower b).toNat
  | a::s, b::t =>
    if toLower a = toLower b then strcasecmp s t else (toLower a).toNat-(toLower b).toNat

def localEntryCmp (a b : LocalEntry) : ℤ :=
  if a.name = dotDotName then -1
  else if b.name = dotDotName then 1
  else if a.isDir ≠ b.isDir then b.isDir.toInt-a.isDir.toInt
  else strcasecmp a.name.bytes b.name.bytes

/-- The loop over `readdir`. -/
def readLocalDir (cwd : CString) : List DirEnt → List LocalEntry → List LocalEntry
  | [], entries => entries
  | de::rest, entries =>
    if entries.length < maxLocalEntries then
      if de.name = dotName ∨ de.name = dotDotName then readLocalDir cwd rest entries
      else if (joinPath pathMax cwd de.name).rc ≠ 0 then readLocalDir cwd rest entries
      else readLocalDir cwd rest (entries ++ [⟨de.name.take nameMax,de.isDir.getD false⟩])
    else entries

/-- The panel after `local_panel_load`. -/
def loadedLocal (resolved : CString) (dir : List DirEnt) : LocalPanel :=
  let cwd := resolved.take (pathMax-1)
  let first : List LocalEntry := if cwd.bytes = [0x2f] then [] else [⟨dotDotName,true⟩]
  let entries := readLocalDir cwd dir first
  ⟨cwd,entries.mergeSort fun a b => localEntryCmp a b ≤ 0,entries.length,0,0⟩

/-- `local_panel_load`: none where the source returns 0, else the text of the error. `realpath` and
`opendir` are one call. -/
def localPanelLoad (path : CString) : Ui (Option CString) := do
  match ← ask (.openDir path) with
  | .dir resolved dir =>
    setApp fun app => { app with localPanel := loadedLocal resolved dir }
    return none
  | r => return some r.error

def LocalPanel.entryAt (panel : LocalPanel) (i : ℤ) : LocalEntry :=
  panel.entries[i.toNat]?.getD ⟨.empty,false⟩

/-- `entry = &app->local.entries[app->local.selected]`, where there is one. -/
def selectedLocal (k : LocalEntry → Ui Unit) : Ui Unit := do
  let app ← getApp
  if app.localPanel.count ≤ 0 then return ()
  else do
    observe (.deref app.localPanel.selected app.localPanel.count)
    k (app.localPanel.entryAt app.localPanel.selected)

def localPanelEnter : Ui Unit :=
  selectedLocal fun entry => do
    if entry.isDir = false then setStatus "Local file selected: %s" [entry.name]
    else do
      let next := joinPath pathMax (← getApp).localPanel.cwd entry.name
      if next.rc ≠ 0 then setStatus "Path is too long." []
      else do
        match ← localPanelLoad next.out with
        | some error => setStatus "Cannot enter %s: %s" [entry.name,error]
        | none => setStatus "Local: %s" [(← getApp).localPanel.cwd]

/-- `local_panel_load (&app->local, app->local.cwd)`. -/
def localPanelReload : Ui (Option CString) := do
  localPanelLoad (← getApp).localPanel.cwd

/-! The remote panel. -/

def onSocket {α : Type} (p : Remote α) : Ui α := p.within .socket CommanderReply.toSocket

/-- The stores of `recv_dir_page` into the entries from `total` on. -/
def storePage (total : ℕ) (page : List RemoteDirEntry) (entries : Vector RemoteDirEntry 256) :
    Vector RemoteDirEntry 256 :=
  Vector.ofFn fun i => if total ≤ i.val then page[i.val-total]?.getD entries[i] else entries[i]

/-- The `while` loop of `remote_dir_fetch` into the entries of the panel: their number, or none. -/
def fetchPages (conn : Connection) (fuel : ℕ) : ℕ → ℕ → Ui (Option ℕ)
  | 0, _ => .hang
  | pages+1, total => do
    if total < remoteDirMaxEntries then
      match ← onSocket (fetchDirPage conn.sock conn.ethertype conn.host fuel (UInt16.ofNat total)
          (remoteDirMaxEntries-total) dirListRetries) with
      | none => return none
      | some page =>
        setApp fun app => { app with remotePanel :=
          { app.remotePanel with entries := storePage total page app.remotePanel.entries } }
        if page.length < remoteDirPageEntries then return some (total+page.length)
        else fetchPages conn fuel pages (total+page.length)
    else return some total

variable (fuel : ℕ)

/-- `remote_dir_fetch` as it is called for the panel. -/
def fetchRemoteDir (conn : Connection) (path : CString) : Ui (Option ℕ) := do
  let requestId := makeRequestId conn.sock
  if ← onSocket (sendPacket conn.sock conn.ethertype conn.host .dirListBegin
      (dirListBeginBytes requestId path)) then
    match ← fetchPages conn fuel fuel 0 with
    | none => return none
    | some total =>
      let _ ← onSocket (sendPacket conn.sock conn.ethertype conn.host .dirListEnd
        (htonl requestId))
      return some total
  else return none

/-- `remote_panel_load`: whether it returns 0. -/
def remotePanelLoad : Ui Bool := do
  let app ← getApp
  match ← fetchRemoteDir fuel app.conn app.remotePath with
  | none =>
    setApp fun app => { app with remotePanel := { app.remotePanel with loaded := false } }
    setStatus "Remote listing failed for %s" [app.remotePath]
    return false
  | some total =>
    setApp fun app => { app with remotePanel :=
      { app.remotePanel with count := total, selected := 0, scroll := 0, loaded := true } }
    setStatus "Remote: %s" [app.remotePath]
    return true

def RemotePanel.entryAt (panel : RemotePanel) (i : ℤ) : RemoteDirEntry :=
  panel.entries[i.toNat]?.getD ⟨[],0,0,0,0,false⟩

/-- `entry = &app->remote.entries[app->remote.selected]`, or `empty` where there is none. -/
def selectedRemote {α : Type} (empty : Ui α) (k : RemoteDirEntry → Ui α) :
    Ui α := do
  let app ← getApp
  if app.remotePanel.loaded = false ∨ app.remotePanel.count ≤ 0 then empty
  else do
    observe (.deref app.remotePanel.selected app.remotePanel.count)
    k (app.remotePanel.entryAt app.remotePanel.selected)

/-- `remote_panel_enter`. The source returns nothing; here it is whether a directory was loaded. -/
def remotePanelEnter : Ui Bool :=
  selectedRemote
    (do setStatus "Remote directory is empty or not loaded." []; return false)
    fun entry => do
      if entry.isDir = false then
        setStatus "Remote file selected: %s" [.read entry.name]
        return false
      else do
        let next := remotePathJoin rmtdosPathBytes (← getApp).remotePath (.read entry.name)
        if next.rc ≠ 0 then
          setStatus "Remote path is too long." []
          return false
        else do
          setApp fun app => { app with remotePath := (printed rmtdosPathBytes next.out).out }
          remotePanelLoad fuel

/-- The entries that the panel shows, in the form of `RmtDos.RemotePanel`. -/
def RemotePanel.listing (panel : RemotePanel) : RmtDos.RemotePanel :=
  ⟨panel.entries.toList.take panel.count.toNat,panel.selected.toNat,panel.loaded⟩

end RmtDos.Commander
