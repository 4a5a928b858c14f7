import RmtDos.Client.Commander

/-! The handlers of the keys of the file commander, and its main loop. The temporary files of a view
or an edit, the pauses and the screen modes have no part in the state. -/
namespace RmtDos.Commander
open Bytes Memory Resumable

variable (fuel : ℕ)

/-- The end of a transfer that may have changed the remote directory. -/
def finishRemote (ok : Bool) (failed done : String) : Ui Unit := do
  if ok then
    let _ ← remotePanelLoad fuel
    setStatus done []
  else setStatus failed []

/-- `prompt_text`. -/
def promptFor (label : String) (len : ℕ) (buf : CString) : Ui (Option CString) := do
  let r ← ask (.prompt label)
  return promptText len buf r.typed

/-- `prompt_confirm`. -/
def confirm (message : String) (args : List CString) : Ui Bool := do
  let r ← ask (.confirm ⟨message,args⟩)
  return r.isOk

/-- A question that is asked only where there is something to overwrite. -/
def confirmIf (found : Bool) (message : String) : Ui Bool :=
  if found then confirm message [] else return true

/-- A transfer: whether it returns 0. -/
def transfer (t : Transfer) : Ui Bool := do
  let r ← ask (.transfer t)
  return r.isOk

def remoteNotLoaded : Ui Unit := setStatus "Remote directory is empty or not loaded." []

def uploadSelected : Ui Unit :=
  selectedLocal fun entry =>
    if entry.isDir then setStatus "Select a local file before uploading." []
    else if rmtdosPathBytes ≤ entry.name.bytes.length then
      setStatus "Remote filename is too long." []
    else do
      match ← promptFor "Remote DOS filename: " rmtdosPathBytes entry.name with
      | none => setStatus "Upload cancelled." []
      | some remoteName =>
        let app ← getApp
        let remotePath := remotePathJoin fileTransferNameBytes app.remotePath remoteName
        if remotePath.rc ≠ 0 then pathMustFit
        else
          let localPath := joinPath pathMax app.localPanel.cwd entry.name
          if localPath.rc ≠ 0 then setStatus "Local path is too long." []
          else do
            let ok ← transfer (.put localPath.out remotePath.out)
            finishRemote fuel ok "Upload failed." "Upload complete."

/-- `download_remote_file_to`: whether it returns 0. -/
def downloadRemoteFileTo (remoteName localPath : CString) : Ui Bool := do
  let remotePath := remotePathJoin fileTransferNameBytes (← getApp).remotePath remoteName
  if remotePath.rc ≠ 0 then
    pathMustFit
    return false
  else transfer (.get remotePath.out localPath)

/-- The name that `download_prompted` suggests. -/
def suggestedRemote : Ui CString := do
  let app ← getApp
  let panel := app.remotePanel
  if app.focus = .remote ∧ panel.loaded ∧ 0 < panel.count then
    observe (.deref panel.selected panel.count)
    let entry := panel.entryAt panel.selected
    return if entry.isDir then .empty else (CString.read entry.name).take (rmtdosPathBytes-1)
  else return .empty

def downloadPrompted : Ui Unit := do
  let suggestion ← suggestedRemote
  match ← promptFor "Remote DOS filename: " rmtdosPathBytes suggestion with
  | none => setStatus "Download cancelled." []
  | some remoteName =>
    match ← promptFor "Local filename: " (nameMax+1) (remoteName.take nameMax) with
    | none => setStatus "Download cancelled." []
    | some localName =>
      let localPath := joinPath pathMax (← getApp).localPanel.cwd localName
      if localPath.rc ≠ 0 then setStatus "Local path is too long." []
      else do
        let ok ← downloadRemoteFileTo remoteName localPath.out
        if ok then
          let _ ← localPanelReload
          setStatus "Download complete." []
        else setStatus "Download failed." []

def viewLocalSelected : Ui Unit :=
  selectedLocal fun entry =>
    if entry.isDir then localPanelEnter
    else do
      let localPath := joinPath pathMax (← getApp).localPanel.cwd entry.name
      if localPath.rc ≠ 0 then setStatus "Local path is too long." []
      else do
        let r ← ask (.runPager localPath.out)
        setStatus (if r.isOk then "Viewed %s" else "Viewer failed.") [entry.name.take nameMax]

def editLocalSelected : Ui Unit :=
  selectedLocal fun entry =>
    if entry.isDir then localPanelEnter
    else do
      let localPath := joinPath pathMax (← getApp).localPanel.cwd entry.name
      if localPath.rc ≠ 0 then setStatus "Local path is too long." []
      else do
        let r ← ask (.runEditor localPath.out)
        let _ ← localPanelReload
        setStatus (if r.isOk then "Edited %s" else "Editor failed.") [entry.name.take nameMax]

/-- `safe_temp_name`. -/
def safeTempName (name : CString) : List UInt8 :=
  let safe (ch : UInt8) : Bool := 0x30 ≤ ch ∧ ch ≤ 0x39 ∨ 0x41 ≤ ch ∧ ch ≤ 0x5a ∨
    0x61 ≤ ch ∧ ch ≤ 0x7a ∨ ch = 0x2e ∨ ch = 0x5f ∨ ch = 0x2d
  let dest := (name.bytes.take nameMax).map fun ch => if safe ch then ch else 0x5f
  if dest = [] then [0x52,0x45,0x4d,0x4f,0x54,0x45,0x2e,0x54,0x58,0x54] else dest

/-- The common part of `view_remote_selected` and `edit_remote_selected`: a directory is entered, and
for a file `k` gets its path and that of a temporary file. -/
def withRemoteFile (k : CString → CString → Ui Unit) : Ui Unit :=
  selectedRemote remoteNotLoaded fun entry => do
    if entry.isDir then
      let _ ← remotePanelEnter fuel
      return ()
    else do
      let remotePath := remotePathJoin fileTransferNameBytes (← getApp).remotePath (.read entry.name)
      if remotePath.rc ≠ 0 then pathMustFit
      else do
        match ← ask .mkdtemp with
        | .path tmpDir =>
          let tmpPath := joinPath pathMax tmpDir (.read (safeTempName (.read entry.name)))
          if tmpPath.rc ≠ 0 then setStatus "Temp path is too long." []
          else k remotePath.out tmpPath.out
        | r => setStatus "Could not create temp directory: %s" [r.error]

def viewRemoteSelected : Ui Unit :=
  withRemoteFile fuel fun remotePath tmpPath => do
    if ← transfer (.get remotePath tmpPath) then
      let r ← ask (.runPager tmpPath)
      setStatus (if r.isOk then "Remote view complete."
        else "Remote view failed: viewer exited with an error.") []
    else setStatus "Remote view failed: download failed." []

/-- `edit_remote_selected` with the outcomes of its calls. -/
def editRemoteFile : Ui Unit :=
  withRemoteFile fuel fun remotePath tmpPath => do
    match ← ask (.edit remotePath tmpPath) with
    | .outcomes o =>
      let s := editDone o (editBody o remotePath)
      if s.rc = 0 then
        let _ ← remotePanelLoad fuel
        setStatus s.result []
      else setStatus s.result []
    | _ => setStatus EditState.start.result []

/-- `copy_selected` in the remote pane. -/
def copyRemoteSelected : Ui Unit :=
  selectedRemote (return ()) fun entry =>
    if entry.isDir then setStatus "Remote directory copy is not implemented." []
    else do
      let source := remotePathJoin fileTransferNameBytes (← getApp).remotePath (.read entry.name)
      if source.rc ≠ 0 then pathMustFit
      else do
        match ← promptFor "Remote copy to: " (nameMax+1)
            (suggested (.read entry.name) remoteCopySuffix) with
        | none => setStatus "Copy cancelled." []
        | some dstName =>
          let app ← getApp
          let target := remotePathJoin fileTransferNameBytes app.remotePath dstName
          if target.rc ≠ 0 then pathMustFit
          else if strcaseEq source.out target.out then
            setStatus "Remote copy destination must be different." []
          else do
            if ← confirmIf (remoteNameExists app.remotePanel.listing dstName)
                "Remote destination exists. Overwrite?" then
              let ok ← transfer (.copy source.out target.out)
              finishRemote fuel ok "Remote copy failed." "Remote copy complete."
            else setStatus "Copy cancelled." []

/-- Whether the user agrees to overwrite a file, if there is one. -/
def mayOverwrite (path : CString) : Ui Bool := do
  let st ← ask (.stat path)
  confirmIf st.isOk "Destination exists. Overwrite?"

def copyLocalSelected : Ui Unit :=
  selectedLocal fun entry =>
    if entry.isDir then setStatus "Local directory copy is not implemented." []
    else do
      let cwd := (← getApp).localPanel.cwd
      let srcName := entry.name.take nameMax
      let src := joinPath pathMax cwd srcName
      if src.rc ≠ 0 then setStatus "Local path is too long." []
      else do
        match ← promptFor "Copy to: " (nameMax+1)
            (suggested srcName localCopySuffix) with
        | none => setStatus "Copy cancelled." []
        | some dstName =>
          let dst := joinPath pathMax cwd dstName
          if dst.rc ≠ 0 then setStatus "Local path is too long." []
          else if src.out = dst.out then setStatus "Copy destination must be different." []
          else do
            if ← mayOverwrite dst.out then
              let r ← ask (.copyFile src.out dst.out)
              if r.isOk then
                let _ ← localPanelReload
                setStatus "Copied %s to %s" [srcName,dstName]
              else setStatus "Copy failed: %s" [r.error]
            else setStatus "Copy cancelled." []

def copySelected : Ui Unit := do
  if (← getApp).focus = .remote then copyRemoteSelected fuel else copyLocalSelected

def mkdirSelected : Ui Unit := do
  if (← getApp).focus = .remote then
    match ← promptFor "New remote directory: " (nameMax+1) .empty with
    | none => setStatus "Mkdir cancelled." []
    | some name =>
      let path := remotePathJoin fileTransferNameBytes (← getApp).remotePath name
      if path.rc ≠ 0 then pathMustFit
      else do
        let ok ← transfer (.mkdir path.out)
        finishRemote fuel ok "Remote mkdir failed." "Remote directory created."
  else
    match ← promptFor "New directory: " (nameMax+1) .empty with
    | none => setStatus "Mkdir cancelled." []
    | some name =>
      let path := joinPath pathMax (← getApp).localPanel.cwd name
      if path.rc ≠ 0 then setStatus "Local path is too long." []
      else do
        let r ← ask (.mkdir path.out)
        if r.isOk then
          let _ ← localPanelReload
          setStatus "Created directory %s" [name]
        else setStatus "Mkdir failed: %s" [r.error]

def renameRemoteSelected : Ui Unit :=
  selectedRemote (return ()) fun entry => do
    let name := CString.read entry.name
    if name = dotName ∨ name = dotDotName then setStatus "Cannot rename navigation entry." []
    else do
      let source := remotePathJoin fileTransferNameBytes (← getApp).remotePath name
      if source.rc ≠ 0 then pathMustFit
      else do
        match ← promptFor "Remote rename/move to: " (nameMax+1) (name.take nameMax) with
        | none => setStatus "Rename/move cancelled." []
        | some newName =>
          let app ← getApp
          let target := remotePathJoin fileTransferNameBytes app.remotePath newName
          if target.rc ≠ 0 then pathMustFit
          else if strcaseEq source.out target.out then
            setStatus "Remote rename/move destination must be different." []
          else if remoteNameExists app.remotePanel.listing newName then
            setStatus "Remote target already exists." []
          else do
            let ok ← transfer (.rename source.out target.out)
            finishRemote fuel ok "Remote rename/move failed." "Remote rename/move complete."

def renameLocalSelected : Ui Unit :=
  selectedLocal fun entry => do
    if entry.name = dotDotName then setStatus "Cannot rename parent directory entry." []
    else do
      match ← promptFor "Rename/move to: " (nameMax+1) (entry.name.take nameMax) with
      | none => setStatus "Rename/move cancelled." []
      | some newName =>
        let cwd := (← getApp).localPanel.cwd
        let oldPath := joinPath pathMax cwd entry.name
        let newPath := joinPath pathMax cwd newName
        if oldPath.rc ≠ 0 ∨ newPath.rc ≠ 0 then setStatus "Local path is too long." []
        else if oldPath.out = newPath.out then
          setStatus "Rename/move destination must be different." []
        else do
          if ← mayOverwrite newPath.out then
            let r ← ask (.rename oldPath.out newPath.out)
            if r.isOk then
              let _ ← localPanelReload
              setStatus "Renamed/moved to %s" [newName]
            else setStatus "Rename/move failed: %s" [r.error]
          else setStatus "Rename/move cancelled." []

def renameMoveSelected : Ui Unit := do
  if (← getApp).focus = .remote then renameRemoteSelected fuel else renameLocalSelected

def deleteRemoteSelected : Ui Unit :=
  selectedRemote (return ()) fun entry => do
    let name := CString.read entry.name
    if name = dotName ∨ name = dotDotName then setStatus "Cannot delete navigation entry." []
    else do
      if ← confirm "Delete remote %s?" [name.take nameMax] then
        let path := remotePathJoin fileTransferNameBytes (← getApp).remotePath (name.take nameMax)
        if path.rc ≠ 0 then pathMustFit
        else do
          let ok ← transfer (.delete path.out entry.isDir)
          finishRemote fuel ok "Remote delete failed." "Remote delete complete."
      else setStatus "Delete cancelled." []

def deleteLocalSelected : Ui Unit :=
  selectedLocal fun entry => do
    if entry.name = dotDotName then setStatus "Cannot delete parent directory entry." []
    else do
      let deletedName := entry.name.take nameMax
      if ← confirm "Delete %s?" [deletedName] then
        let path := joinPath pathMax (← getApp).localPanel.cwd deletedName
        if path.rc ≠ 0 then setStatus "Local path is too long." []
        else do
          let r ← ask (.remove path.out entry.isDir)
          if r.isOk then
            let _ ← localPanelReload
            setStatus "Deleted %s" [deletedName]
          else setStatus "Delete failed: %s" [r.error]
      else setStatus "Delete cancelled." []

def deleteSelected : Ui Unit := do
  if (← getApp).focus = .remote then deleteRemoteSelected fuel else deleteLocalSelected

/-! The keys. -/

def keyEnter : ℤ := 343
def keyUp : ℤ := 259
def keyDown : ℤ := 258
def keyF (n : ℤ) : ℤ := 264+n

/-- What `getch` returns when no key was pressed. -/
def noKey : ℤ := -1

def isExitKey (ch : ℤ) : Bool := ch = 0x71 ∨ ch = 27 ∨ ch = 29

/-- `KEY_UP` in one pane. -/
def movedUp (selected : ℤ) : ℤ := if 0 < selected then selected-1 else selected

/-- `KEY_DOWN` in one pane. -/
def movedDown (count selected : ℤ) : ℤ := if selected < count-1 then selected+1 else selected

def AppState.toggleFocus (app : AppState) : AppState :=
  { app with focus := if app.focus = .remote then .local else .remote }

def AppState.stop (app : AppState) : AppState := { app with running := false }

/-- A key that moves the selection of the pane in focus. -/
def AppState.select (app : AppState) (moved : ℤ → ℤ → ℤ) : AppState :=
  if app.focus = .local then
    { app with localPanel := { app.localPanel with
        selected := moved app.localPanel.count app.localPanel.selected } }
  else
    { app with remotePanel := { app.remotePanel with
        selected := moved app.remotePanel.count app.remotePanel.selected } }

def viewSelected : Ui Unit := do
  if (← getApp).focus = .local then viewLocalSelected else viewRemoteSelected fuel

def editSelected : Ui Unit := do
  if (← getApp).focus = .local then editLocalSelected else editRemoteFile fuel

def uploadFocused : Ui Unit := do
  if (← getApp).focus ≠ .local then
    setStatus "Switch to the local pane to upload a selected file." []
  else uploadSelected fuel

def refreshSelected : Ui Unit := do
  if (← getApp).focus = .remote then
    let _ ← remotePanelLoad fuel
    return ()
  else
    match ← localPanelReload with
    | some error => setStatus "Refresh failed: %s" [error]
    | none => setStatus "Refreshed %s" [(← getApp).localPanel.cwd]

def processCommanderKey (ch : ℤ) : Ui Unit :=
  if isExitKey ch then setApp AppState.stop
  else if ch = 9 then setApp AppState.toggleFocus
  else if ch = keyUp then setApp fun app => app.select fun _ => movedUp
  else if ch = keyDown then setApp fun app => app.select movedDown
  else if ch = 10 ∨ ch = keyEnter ∨ ch = 0x76 ∨ ch = 0x56 ∨ ch = keyF 3 then viewSelected fuel
  else if ch = 0x65 ∨ ch = 0x45 ∨ ch = keyF 4 then editSelected fuel
  else if ch = keyF 2 ∨ ch = 0x75 ∨ ch = 0x55 then uploadFocused fuel
  else if ch = 0x63 ∨ ch = 0x43 ∨ ch = keyF 5 then copySelected fuel
  else if ch = 0x6e ∨ ch = 0x4e ∨ ch = keyF 6 then renameMoveSelected fuel
  else if ch = 0x6d ∨ ch = 0x4d ∨ ch = keyF 7 then mkdirSelected fuel
  else if ch = 0x78 ∨ ch = 0x58 ∨ ch = keyF 8 then deleteSelected fuel
  else if ch = keyF 9 ∨ ch = 0x64 ∨ ch = 0x44 then downloadPrompted
  else if ch = keyF 10 then setApp AppState.stop
  else if ch = 0x72 ∨ ch = 0x52 then refreshSelected fuel
  else return ()

/-! The drawing of the panels. -/

/-- The offset that brings the selected entry into the window. -/
def scrolled (selected scroll listRows : ℤ) : ℤ :=
  if selected < scroll then selected
  else if scroll+listRows ≤ selected then selected-listRows+1
  else scroll

/-- The loop over the rows: `n` of them are left. -/
def drawRows (scroll count : ℤ) : ℕ → ℤ → Ui Unit
  | 0, _ => return ()
  | n+1, i => do
    if scroll+i < count then
      observe (.deref (scroll+i) count)
      drawRows scroll count n (i+1)
    else return ()

/-- The number of rows that a window has for entries. -/
def listRows : Ui ℤ := do
  let r ← ask .windowRows
  return r.toNumber-4

def drawRemotePanel (rows : ℤ) : Ui Unit := do
  let app ← getApp
  if app.remotePanel.loaded = false then return ()
  else do
    let scroll := scrolled app.remotePanel.selected app.remotePanel.scroll rows
    setApp fun app => { app with remotePanel := { app.remotePanel with scroll } }
    drawRows scroll app.remotePanel.count rows.toNat 0

def drawLocalPanel (rows : ℤ) : Ui Unit := do
  let app ← getApp
  let scroll := scrolled app.localPanel.selected app.localPanel.scroll rows
  setApp fun app => { app with localPanel := { app.localPanel with scroll } }
  drawRows scroll app.localPanel.count rows.toNat 0

def drawCommander : Ui Unit := do
  let remoteRows ← listRows
  drawRemotePanel remoteRows
  let localRows ← listRows
  drawLocalPanel localRows
  observe (.drawn (← getApp) remoteRows localRows)

/-! The main loop. The session it keeps alive and the answers of hosts change nothing here. -/

def handleKey (ch : ℤ) : Ui Unit := if ch ≠ noKey then processCommanderKey fuel ch else return ()

def commanderLoop : ℕ → Ui Unit
  | 0 => .hang
  | n+1 => do
    observe (.waiting (← getApp))
    if (← getApp).running then
      drawCommander
      let r ← ask .getch
      handleKey fuel r.toNumber
      commanderLoop n
    else return ()

def runCommander : Ui Unit := do
  setStatus "Connected. Loading remote DOS directory..." []
  let _ ← remotePanelLoad fuel
  commanderLoop fuel fuel

/-- The state when the socket has been made. -/
def AppState.start (sock : RawSocket) (ethertype : UInt16) : AppState where
  conn := ⟨sock,ethertype,Vector.replicate 6 0⟩
  localPanel := ⟨.empty,[],0,0,0⟩
  remotePanel := ⟨Vector.replicate 256 ⟨[],0,0,0,0,false⟩,0,0,0,false⟩
  focus := .local
  remotePath := remoteRoot
  status := ⟨"Starting...",[]⟩
  running := true

/-- `commander_run` from there: its result. -/
def commanderRun : Ui ℤ := do
  match ← localPanelLoad dotName with
  | some _ => return 1
  | none =>
    match ← ask .selectHost with
    | .host host =>
      setApp fun app => { app with conn := { app.conn with host } }
      runCommander fuel
      return 0
    | _ => return 0

end RmtDos.Commander
