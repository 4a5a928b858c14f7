import RmtDos.Client.CommanderKeys

/-! Whatever the user, the local machine and the network do, the file commander dereferences only
entries that exist, and a drawn panel shows the selected entry. -/
namespace RmtDos.Commander
open Bytes Memory Reading Resumable Prog

/-! The numbers of a panel. -/

/-- The numbers of a panel that has room for `room` entries. -/
structure Windowed (room count selected scroll : ℤ) : Prop where
  count_nonneg : 0 ≤ count
  count_le : count ≤ room
  selected_nonneg : 0 ≤ selected
  selected_lt : selected < count ∨ count = 0
  scroll_nonneg : 0 ≤ scroll

/-- The entry is in a window with so many rows. -/
def Visible (selected scroll rows : ℤ) : Prop := scroll ≤ selected ∧ selected < scroll+rows

section windowed
variable {room count selected scroll rows : ℤ}

theorem windowed_first (h : 0 ≤ count) (hc : count ≤ room) : Windowed room count 0 0 :=
  ⟨h,hc,le_rfl,by omega,le_rfl⟩

theorem Windowed.up (h : Windowed room count selected scroll) :
    Windowed room count (movedUp selected) scroll := by
  obtain ⟨h0,h1,h2,h3,h4⟩ := h
  unfold movedUp
  split <;> constructor <;> omega

theorem Windowed.down (h : Windowed room count selected scroll) :
    Windowed room count (movedDown count selected) scroll := by
  obtain ⟨h0,h1,h2,h3,h4⟩ := h
  unfold movedDown
  split <;> constructor <;> omega

/-- A repair keeps the window in front of no entry, whatever the size of the window is. -/
theorem Windowed.repaired (h : Windowed room count selected scroll) (rows : ℤ) :
    Windowed room count selected (scrolled selected scroll rows) := by
  obtain ⟨h0,h1,h2,h3,h4⟩ := h
  refine ⟨h0,h1,h2,h3,?_⟩
  unfold scrolled
  split_ifs <;> omega

theorem visible_scrolled (h : 1 ≤ rows) : Visible selected (scrolled selected scroll rows) rows := by
  unfold Visible scrolled
  split_ifs <;> omega

end windowed

/-! What holds of the state, and what can be observed of it. -/

/-- The panels hold as many entries as they count, and what is selected is one of them. -/
structure AppState.Ok (app : AppState) : Prop where
  localPanel : Windowed maxLocalEntries app.localPanel.count app.localPanel.selected
    app.localPanel.scroll
  localEntries : app.localPanel.count = app.localPanel.entries.length
  remotePanel : Windowed remoteDirMaxEntries app.remotePanel.count app.remotePanel.selected
    app.remotePanel.scroll

/-- The remote panel shows the selected entry, if there is any and room for it. -/
def AppState.RemoteShown (app : AppState) (rows : ℤ) : Prop :=
  app.remotePanel.loaded = true → 1 ≤ rows → 0 < app.remotePanel.count →
    Visible app.remotePanel.selected app.remotePanel.scroll rows

/-- The local panel shows the selected entry, if there is any and room for it. -/
def AppState.LocalShown (app : AppState) (rows : ℤ) : Prop :=
  1 ≤ rows → 0 < app.localPanel.count →
    Visible app.localPanel.selected app.localPanel.scroll rows

/-- An entry that is dereferenced is one of those that are counted. -/
def Observed.Good : Observed → Prop
  | .deref index count => 0 ≤ index ∧ index < count
  | .drawn app remoteRows localRows =>
    app.Ok ∧ app.RemoteShown remoteRows ∧ app.LocalShown localRows
  | .waiting app => app.Ok

/-- The program keeps the invariant, and only good things are observed. -/
abbrev Kept {α : Type} (p : Ui α) : Prop := Maintains AppState.Ok Observed.Good p

section rules
variable {α β : Type}

theorem kept_pure (a : α) : Kept (pure a) := maintains_done a

theorem kept_bind {p : Ui α} {f : α → Ui β} (hp : Kept p) (hf : ∀ a, Kept (f a)) :
    Kept (p >>= f) := hp.bind hf

theorem kept_ite {c : Prop} [Decidable c] {p q : Ui α} (hp : Kept p) (hq : Kept q) :
    Kept (if c then p else q) := maintains_ite (fun _ => hp) fun _ => hq

theorem kept_getApp : Kept getApp := fun _ h => h

theorem kept_setApp {f : AppState → AppState} (h : ∀ app : AppState, app.Ok → (f app).Ok) :
    Kept (setApp f) := h

theorem kept_setStatus (fmt : String) (args : List CString) : Kept (setStatus fmt args) :=
  kept_setApp fun _ h => ⟨h.localPanel,h.localEntries,h.remotePanel⟩

theorem kept_ask (c : CommanderCall) : Kept (ask c) := fun _ h _ => h

theorem kept_waiting : Kept (do observe (.waiting (← getApp))) := fun _ h => ⟨h,h⟩

theorem kept_onSocket (p : Remote α) : Kept (onSocket p) := by
  intro app happ
  apply (Safe.within safe_true).imp
  rintro a app' ⟨rfl,-⟩
  exact happ

end rules

/-! The panels. -/

theorem length_readLocalDir {cwd : CString} {dir : List DirEnt} {entries : List LocalEntry}
    (h : entries.length ≤ maxLocalEntries) :
    (readLocalDir cwd dir entries).length ≤ maxLocalEntries := by
  induction dir generalizing entries with
  | nil => exact h
  | cons de rest ih =>
    unfold readLocalDir
    split_ifs with hroom hdots hlong
    · exact ih h
    · exact ih h
    · apply ih
      rw [List.length_append]
      exact hroom
    · exact h

theorem ok_loadedLocal {app : AppState} (h : app.Ok) (resolved : CString) (dir : List DirEnt) :
    AppState.Ok { app with localPanel := loadedLocal resolved dir } := by
  refine ⟨?_,?_,h.remotePanel⟩
  · apply windowed_first
    · exact Int.natCast_nonneg _
    · apply Int.ofNat_le.mpr
      apply length_readLocalDir
      split <;> decide
  · simp [loadedLocal]

theorem kept_localPanelLoad (path : CString) : Kept (localPanelLoad path) := by
  apply kept_bind (kept_ask _)
  intro r
  cases r with
  | dir resolved entries =>
    apply kept_bind (kept_setApp fun app h => ok_loadedLocal h resolved entries)
    exact fun _ => kept_pure none
  | _ => exact kept_pure _

theorem kept_localPanelReload : Kept localPanelReload :=
  kept_bind kept_getApp fun app => kept_localPanelLoad app.localPanel.cwd

/-- What is done with the selected entry may rely on its being there. -/
theorem kept_selectedLocal {k : LocalEntry → Ui Unit} (h : ∀ entry, Kept (k entry)) :
    Kept (selectedLocal k) := by
  intro app happ
  apply safe_ite.mpr
  refine ⟨fun _ => happ,?_⟩
  intro hcount
  obtain ⟨-,-,hsel,hlt,-⟩ := happ.localPanel
  exact ⟨⟨hsel,by omega⟩,h _ app happ⟩

theorem kept_selectedRemote {α : Type} {empty : Ui α} {k : RemoteDirEntry → Ui α}
    (he : Kept empty) (h : ∀ entry, Kept (k entry)) : Kept (selectedRemote empty k) := by
  intro app happ
  apply safe_ite.mpr
  refine ⟨fun _ => he app happ,?_⟩
  intro hcount
  obtain ⟨-,hcount⟩ := not_or.mp hcount
  obtain ⟨-,-,hsel,hlt,-⟩ := happ.remotePanel
  exact ⟨⟨hsel,by omega⟩,h _ app happ⟩

theorem kept_localPanelEnter : Kept localPanelEnter := by
  apply kept_selectedLocal
  intro entry
  apply kept_ite (kept_setStatus _ _)
  apply kept_bind kept_getApp
  intro app
  apply kept_ite (kept_setStatus _ _)
  apply kept_bind (kept_localPanelLoad _)
  intro r
  cases r with
  | some error => exact kept_setStatus _ _
  | none => exact kept_bind kept_getApp fun _ => kept_setStatus _ _

/-! A listing of a remote directory. -/

theorem length_readDirEntries {m : Mem} {mapped i n : ℕ} {es : List RemoteDirEntry}
    (h : run m (readDirEntries mapped i n) = some es) : es.length = n := by
  induction n generalizing i es with
  | zero =>
    obtain rfl := Option.some.inj h
    rfl
  | succ n ih =>
    rw [readDirEntries, run_bind] at h
    split at h
    · cases h
    · rw [run_bind, run_pure] at h
      obtain ⟨rest,hrest,rfl⟩ := Option.map_eq_some_iff.mp h
      rw [List.length_cons, ih hrest]

section fetch
variable {sock : RawSocket} {ethertype : UInt16} {destMacAddr : MacAddr} {requestId : UInt32}
  {startIndex : UInt16} {maxEntries mapped received fuel : ℕ}

/-- A page has room in what is left of the array. -/
theorem recvDirPage_length {m : Mem} {page : List RemoteDirEntry}
    (h : run m (recvDirPage sock destMacAddr requestId startIndex maxEntries mapped received) =
      .ok page) : page.length ≤ maxEntries := by
  rw [recvDirPage] at h
  simp only [run_ite, run_bind, run_pure] at h
  split_ifs at h with hshort hmine hbad
  split at h
  · cases h
  · rename_i es hes
    rw [run_pure] at h
    obtain rfl := Received.ok.inj h
    rw [length_readDirEntries hes]
    omega

theorem awaitDirPage_length :
    Safe (fun _ => True) (awaitDirPage sock destMacAddr requestId startIndex maxEntries fuel) ()
      fun r _ => ∀ page ∈ r, page.length ≤ maxEntries := by
  have hnone (page : List RemoteDirEntry) (h : page ∈ none) : page.length ≤ maxEntries := by
    cases h
  induction fuel with
  | zero => trivial
  | succ fuel ih =>
    rw [awaitDirPage]
    apply Safe.bind safe_true
    intro r _ _
    cases r with
    | received length buf =>
      dsimp only
      split
      · exact ih
      · exact hnone
      · rename_i page hpage
        intro _ h
        obtain rfl := Option.some.inj h
        exact recvDirPage_length hpage
      · trivial
    | _ => exact hnone

theorem fetchDirPage_length {attempts : ℕ} :
    Safe (fun _ => True)
      (fetchDirPage sock ethertype destMacAddr fuel startIndex maxEntries attempts) ()
      fun r _ => ∀ page ∈ r, page.length ≤ maxEntries := by
  induction attempts with
  | zero =>
    intro page h
    cases h
  | succ attempts ih =>
    apply Safe.bind safe_true
    intro ok _ _
    apply safe_ite.mpr
    constructor
    · intro _
      apply Safe.bind awaitDirPage_length
      intro r _ hr
      cases r with
      | some page => exact hr
      | none => exact ih
    · intro _ page h
      cases h

/-- The pages of a listing fit into the panel, also those that arrive before it fails. -/
theorem fetchPages_safe {conn : Connection} {app : AppState} {pages total : ℕ} (happ : app.Ok)
    (h : total ≤ remoteDirMaxEntries) :
    Safe Observed.Good (fetchPages conn fuel pages total) app
      fun r app' => app'.Ok ∧ ∀ n ∈ r, n ≤ remoteDirMaxEntries := by
  induction pages generalizing app total with
  | zero => trivial
  | succ pages ih =>
    apply safe_ite.mpr
    refine ⟨?_,fun _ => ⟨happ,by simpa using h⟩⟩
    intro hroom
    apply Safe.bind (Safe.within fetchDirPage_length)
    rintro r app' ⟨happ',hr⟩
    obtain rfl := happ'.symm
    cases r with
    | none => exact ⟨happ,by simp⟩
    | some page =>
      have hpage := hr page rfl
      have hn : total+page.length ≤ remoteDirMaxEntries := by omega
      have hstored (entries : Vector RemoteDirEntry 256) :
          AppState.Ok { app with remotePanel := { app.remotePanel with entries } } :=
        ⟨happ.localPanel,happ.localEntries,happ.remotePanel⟩
      apply safe_ite.mpr
      exact ⟨fun _ => ⟨hstored _,by simpa using hn⟩,fun _ => ih (hstored _) hn⟩

theorem fetchRemoteDir_safe {app : AppState} (happ : app.Ok) (conn : Connection) (path : CString) :
    Safe Observed.Good (fetchRemoteDir fuel conn path) app
      fun r app' => app'.Ok ∧ ∀ n ∈ r, n ≤ remoteDirMaxEntries := by
  apply Safe.bind (kept_onSocket _ app happ)
  intro ok app happ
  apply safe_ite.mpr
  refine ⟨fun _ => ?_,fun _ => ⟨happ,by simp⟩⟩
  apply Safe.bind (fetchPages_safe happ (Nat.zero_le _))
  rintro r app ⟨happ,hr⟩
  cases r with
  | none => exact ⟨happ,hr⟩
  | some total =>
    apply Safe.bind (kept_onSocket _ app happ)
    exact fun _ app happ => ⟨happ,hr⟩

theorem kept_remotePanelLoad : Kept (remotePanelLoad fuel) := by
  intro app happ
  apply Safe.bind (fetchRemoteDir_safe happ app.conn app.remotePath)
  rintro r app' ⟨happ,hr⟩
  cases r with
  | none => exact ⟨happ.localPanel,happ.localEntries,happ.remotePanel⟩
  | some total =>
    have htotal : (total : ℤ) ≤ remoteDirMaxEntries := Int.ofNat_le.mpr (hr total rfl)
    exact ⟨happ.localPanel,happ.localEntries,windowed_first (Int.natCast_nonneg _) htotal⟩

end fetch

variable {fuel : ℕ}

theorem kept_remotePanelEnter : Kept (remotePanelEnter fuel) := by
  apply kept_selectedRemote
  · exact kept_bind (kept_setStatus _ _) fun _ => kept_pure _
  intro entry
  apply kept_ite
  · exact kept_bind (kept_setStatus _ _) fun _ => kept_pure _
  apply kept_bind kept_getApp
  intro app
  apply kept_ite
  · exact kept_bind (kept_setStatus _ _) fun _ => kept_pure _
  apply kept_bind
  · exact kept_setApp fun _ h => ⟨h.localPanel,h.localEntries,h.remotePanel⟩
  · exact fun _ => kept_remotePanelLoad

/-! The handlers of the keys. -/

theorem kept_finishRemote (ok : Bool) (failed done : String) :
    Kept (finishRemote fuel ok failed done) := by
  apply kept_ite
  · exact kept_bind kept_remotePanelLoad fun _ => kept_setStatus _ _
  · exact kept_setStatus _ _

theorem kept_promptFor (label : String) (len : ℕ) (buf : CString) :
    Kept (promptFor label len buf) := kept_bind (kept_ask _) fun _ => kept_pure _

theorem kept_confirm (message : String) (args : List CString) : Kept (confirm message args) :=
  kept_bind (kept_ask _) fun _ => kept_pure _

theorem kept_confirmIf (found : Bool) (message : String) : Kept (confirmIf found message) :=
  kept_ite (kept_confirm _ _) (kept_pure _)

theorem kept_transfer (t : Transfer) : Kept (transfer t) :=
  kept_bind (kept_ask _) fun _ => kept_pure _

/-- A handler that may be cancelled at a prompt. -/
theorem kept_prompted {label cancelled : String} {len : ℕ} {buf : CString} {k : CString → Ui Unit}
    (h : ∀ name, Kept (k name)) :
    Kept (do
      match ← promptFor label len buf with
      | none => setStatus cancelled []
      | some name => k name) := by
  apply kept_bind (kept_promptFor _ _ _)
  intro r
  cases r with
  | none => exact kept_setStatus _ _
  | some name => exact h name

theorem kept_uploadSelected : Kept (uploadSelected fuel) := by
  apply kept_selectedLocal
  intro entry
  apply kept_ite (kept_setStatus _ _)
  apply kept_ite (kept_setStatus _ _)
  apply kept_prompted
  intro remoteName
  apply kept_bind kept_getApp
  intro app
  apply kept_ite (kept_setStatus _ _)
  apply kept_ite (kept_setStatus _ _)
  exact kept_bind (kept_transfer _) fun ok => kept_finishRemote ok _ _

theorem kept_downloadRemoteFileTo (remoteName localPath : CString) :
    Kept (downloadRemoteFileTo remoteName localPath) := by
  apply kept_bind kept_getApp
  intro app
  apply kept_ite
  · exact kept_bind (kept_setStatus _ _) fun _ => kept_pure _
  · exact kept_transfer _

theorem kept_suggestedRemote : Kept suggestedRemote := by
  intro app happ
  apply safe_ite.mpr
  refine ⟨?_,fun _ => happ⟩
  rintro ⟨-,-,hcount⟩
  obtain ⟨-,-,hsel,hlt,-⟩ := happ.remotePanel
  exact ⟨⟨hsel,by omega⟩,happ⟩

theorem kept_downloadPrompted : Kept downloadPrompted := by
  apply kept_bind kept_suggestedRemote
  intro suggestion
  apply kept_prompted
  intro remoteName
  apply kept_prompted
  intro localName
  apply kept_bind kept_getApp
  intro app
  apply kept_ite (kept_setStatus _ _)
  apply kept_bind (kept_downloadRemoteFileTo _ _)
  intro ok
  apply kept_ite
  · exact kept_bind kept_localPanelReload fun _ => kept_setStatus _ _
  · exact kept_setStatus _ _

theorem kept_viewLocalSelected : Kept viewLocalSelected := by
  apply kept_selectedLocal
  intro entry
  apply kept_ite kept_localPanelEnter
  apply kept_bind kept_getApp
  intro app
  apply kept_ite (kept_setStatus _ _)
  exact kept_bind (kept_ask _) fun _ => kept_setStatus _ _

theorem kept_editLocalSelected : Kept editLocalSelected := by
  apply kept_selectedLocal
  intro entry
  apply kept_ite kept_localPanelEnter
  apply kept_bind kept_getApp
  intro app
  apply kept_ite (kept_setStatus _ _)
  apply kept_bind (kept_ask _)
  intro r
  exact kept_bind kept_localPanelReload fun _ => kept_setStatus _ _

theorem kept_withRemoteFile {k : CString → CString → Ui Unit} (h : ∀ p t, Kept (k p t)) :
    Kept (withRemoteFile fuel k) := by
  apply kept_selectedRemote (kept_setStatus _ _)
  intro entry
  apply kept_ite
  · exact kept_bind kept_remotePanelEnter fun _ => kept_pure _
  apply kept_bind kept_getApp
  intro app
  apply kept_ite (kept_setStatus _ _)
  apply kept_bind (kept_ask _)
  intro r
  cases r with
  | path tmpDir => exact kept_ite (kept_setStatus _ _) (h _ _)
  | _ => exact kept_setStatus _ _

theorem kept_viewRemoteSelected : Kept (viewRemoteSelected fuel) := by
  apply kept_withRemoteFile
  intro remotePath tmpPath
  apply kept_bind (kept_transfer _)
  intro ok
  apply kept_ite
  · exact kept_bind (kept_ask _) fun _ => kept_setStatus _ _
  · exact kept_setStatus _ _

theorem kept_editRemoteFile : Kept (editRemoteFile fuel) := by
  apply kept_withRemoteFile
  intro remotePath tmpPath
  apply kept_bind (kept_ask _)
  intro r
  cases r with
  | outcomes o =>
    apply kept_ite
    · exact kept_bind kept_remotePanelLoad fun _ => kept_setStatus _ _
    · exact kept_setStatus _ _
  | _ => exact kept_setStatus _ _

theorem kept_copyRemoteSelected : Kept (copyRemoteSelected fuel) := by
  apply kept_selectedRemote (kept_pure _)
  intro entry
  apply kept_ite (kept_setStatus _ _)
  apply kept_bind kept_getApp
  intro app
  apply kept_ite (kept_setStatus _ _)
  apply kept_prompted
  intro dstName
  apply kept_bind kept_getApp
  intro app
  apply kept_ite (kept_setStatus _ _)
  apply kept_ite (kept_setStatus _ _)
  apply kept_bind (kept_confirmIf _ _)
  intro go
  apply kept_ite
  · exact kept_bind (kept_transfer _) fun ok => kept_finishRemote ok _ _
  · exact kept_setStatus _ _

theorem kept_mayOverwrite (path : CString) : Kept (mayOverwrite path) := by
  apply kept_bind (kept_ask _)
  exact fun st => kept_confirmIf _ _

/-- The end of a handler that may have changed the local directory. -/
theorem kept_finishLocal {c : CommanderCall} {fmt failed : String} {args : List CString} :
    Kept (do
      let r ← ask c
      if r.isOk then
        let _ ← localPanelReload
        setStatus fmt args
      else setStatus failed [r.error]) := by
  apply kept_bind (kept_ask _)
  intro r
  apply kept_ite
  · exact kept_bind kept_localPanelReload fun _ => kept_setStatus _ _
  · exact kept_setStatus _ _

theorem kept_copyLocalSelected : Kept copyLocalSelected := by
  apply kept_selectedLocal
  intro entry
  apply kept_ite (kept_setStatus _ _)
  apply kept_bind kept_getApp
  intro app
  apply kept_ite (kept_setStatus _ _)
  apply kept_prompted
  intro dstName
  apply kept_ite (kept_setStatus _ _)
  apply kept_ite (kept_setStatus _ _)
  apply kept_bind (kept_mayOverwrite _)
  intro go
  exact kept_ite kept_finishLocal (kept_setStatus _ _)

/-- A handler that depends on the pane in focus. -/
theorem kept_focused {pane : FocusPane} {p q : Ui Unit} (hp : Kept p) (hq : Kept q) :
    Kept (do if (← getApp).focus = pane then p else q) :=
  kept_bind kept_getApp fun _ => kept_ite hp hq

theorem kept_mkdirSelected : Kept (mkdirSelected fuel) := by
  apply kept_focused
  · apply kept_prompted
    intro name
    apply kept_bind kept_getApp
    intro app
    apply kept_ite (kept_setStatus _ _)
    exact kept_bind (kept_transfer _) fun ok => kept_finishRemote ok _ _
  · apply kept_prompted
    intro name
    apply kept_bind kept_getApp
    intro app
    exact kept_ite (kept_setStatus _ _) kept_finishLocal

theorem kept_renameRemoteSelected : Kept (renameRemoteSelected fuel) := by
  apply kept_selectedRemote (kept_pure _)
  intro entry
  apply kept_ite (kept_setStatus _ _)
  apply kept_bind kept_getApp
  intro app
  apply kept_ite (kept_setStatus _ _)
  apply kept_prompted
  intro newName
  apply kept_bind kept_getApp
  intro app
  apply kept_ite (kept_setStatus _ _)
  apply kept_ite (kept_setStatus _ _)
  apply kept_ite (kept_setStatus _ _)
  exact kept_bind (kept_transfer _) fun ok => kept_finishRemote ok _ _

theorem kept_renameLocalSelected : Kept renameLocalSelected := by
  apply kept_selectedLocal
  intro entry
  apply kept_ite (kept_setStatus _ _)
  apply kept_prompted
  intro newName
  apply kept_bind kept_getApp
  intro app
  apply kept_ite (kept_setStatus _ _)
  apply kept_ite (kept_setStatus _ _)
  apply kept_bind (kept_mayOverwrite _)
  intro go
  exact kept_ite kept_finishLocal (kept_setStatus _ _)

theorem kept_deleteRemoteSelected : Kept (deleteRemoteSelected fuel) := by
  apply kept_selectedRemote (kept_pure _)
  intro entry
  apply kept_ite (kept_setStatus _ _)
  apply kept_bind (kept_confirm _ _)
  intro yes
  apply kept_ite ?_ (kept_setStatus _ _)
  apply kept_bind kept_getApp
  intro app
  apply kept_ite (kept_setStatus _ _)
  exact kept_bind (kept_transfer _) fun ok => kept_finishRemote ok _ _

theorem kept_deleteLocalSelected : Kept deleteLocalSelected := by
  apply kept_selectedLocal
  intro entry
  apply kept_ite (kept_setStatus _ _)
  apply kept_bind (kept_confirm _ _)
  intro yes
  apply kept_ite ?_ (kept_setStatus _ _)
  apply kept_bind kept_getApp
  intro app
  exact kept_ite (kept_setStatus _ _) kept_finishLocal

theorem kept_refreshSelected : Kept (refreshSelected fuel) := by
  apply kept_focused
  · exact kept_bind kept_remotePanelLoad fun _ => kept_pure _
  apply kept_bind kept_localPanelReload
  intro r
  cases r with
  | some error => exact kept_setStatus _ _
  | none => exact kept_bind kept_getApp fun _ => kept_setStatus _ _

theorem ok_select {app : AppState} (h : app.Ok) {moved : ℤ → ℤ → ℤ}
    (hm : ∀ {room count selected scroll : ℤ}, Windowed room count selected scroll →
      Windowed room count (moved count selected) scroll) : (app.select moved).Ok := by
  unfold AppState.select
  split
  · exact ⟨hm h.localPanel,h.localEntries,h.remotePanel⟩
  · exact ⟨h.localPanel,h.localEntries,hm h.remotePanel⟩

theorem kept_stop : Kept (setApp AppState.stop) :=
  kept_setApp fun _ h => ⟨h.localPanel,h.localEntries,h.remotePanel⟩

theorem kept_processCommanderKey (ch : ℤ) : Kept (processCommanderKey fuel ch) := by
  unfold processCommanderKey
  repeat' apply kept_ite
  · exact kept_stop
  · exact kept_setApp fun _ h => ⟨h.localPanel,h.localEntries,h.remotePanel⟩
  · exact kept_setApp fun _ h => ok_select h Windowed.up
  · exact kept_setApp fun _ h => ok_select h Windowed.down
  · exact kept_focused kept_viewLocalSelected kept_viewRemoteSelected
  · exact kept_focused kept_editLocalSelected kept_editRemoteFile
  · exact kept_bind kept_getApp fun _ => kept_ite (kept_setStatus _ _) kept_uploadSelected
  · exact kept_focused kept_copyRemoteSelected kept_copyLocalSelected
  · exact kept_focused kept_renameRemoteSelected kept_renameLocalSelected
  · exact kept_mkdirSelected
  · exact kept_focused kept_deleteRemoteSelected kept_deleteLocalSelected
  · exact kept_downloadPrompted
  · exact kept_stop
  · exact kept_refreshSelected
  · exact kept_pure _

theorem kept_handleKey (ch : ℤ) : Kept (handleKey fuel ch) :=
  kept_ite (kept_processCommanderKey _) (kept_pure _)

/-! The drawing and the main loop. -/

theorem drawRows_safe {app : AppState} {Q : Unit → AppState → Prop} {scroll count i : ℤ} {n : ℕ}
    (h : 0 ≤ scroll+i) (hQ : Q () app) :
    Safe Observed.Good (drawRows scroll count n i) app Q := by
  induction n generalizing i with
  | zero => exact hQ
  | succ n ih =>
    apply safe_ite.mpr
    refine ⟨?_,fun _ => hQ⟩
    intro hlt
    exact ⟨⟨h,hlt⟩,ih (by omega)⟩

theorem drawRemotePanel_safe {app : AppState} (happ : app.Ok) (rows : ℤ) :
    Safe Observed.Good (drawRemotePanel rows) app
      fun _ app' => app'.Ok ∧ app'.RemoteShown rows := by
  apply safe_ite.mpr
  constructor
  · intro hloaded
    exact ⟨happ,fun h => absurd h (by simp [hloaded])⟩
  · intro hloaded
    have hrepaired := happ.remotePanel.repaired rows
    apply drawRows_safe
    · simpa using hrepaired.scroll_nonneg
    · exact ⟨⟨happ.localPanel,happ.localEntries,hrepaired⟩,fun _ hrows _ => visible_scrolled hrows⟩

theorem drawLocalPanel_safe {app : AppState} {remoteRows : ℤ} (happ : app.Ok)
    (h : app.RemoteShown remoteRows) (rows : ℤ) :
    Safe Observed.Good (drawLocalPanel rows) app
      fun _ app' => app'.Ok ∧ app'.RemoteShown remoteRows ∧ app'.LocalShown rows := by
  have hrepaired := happ.localPanel.repaired rows
  apply drawRows_safe
  · simpa using hrepaired.scroll_nonneg
  · exact ⟨⟨hrepaired,happ.localEntries,happ.remotePanel⟩,h,fun hrows _ => visible_scrolled hrows⟩

theorem kept_drawCommander : Kept drawCommander := by
  intro app happ r
  apply Safe.bind (drawRemotePanel_safe happ _)
  rintro _ app ⟨happ,hremote⟩ r
  apply Safe.bind (drawLocalPanel_safe happ hremote _)
  rintro _ app ⟨happ,hremote,hlocal⟩
  exact ⟨⟨happ,hremote,hlocal⟩,happ⟩

theorem kept_commanderLoop (n : ℕ) : Kept (commanderLoop fuel n) := by
  induction n with
  | zero => exact fun _ _ => trivial
  | succ n ih =>
    apply kept_bind kept_waiting
    intro _
    apply kept_bind kept_getApp
    intro app
    apply kept_ite ?_ (kept_pure _)
    apply kept_bind kept_drawCommander
    intro _
    apply kept_bind (kept_ask _)
    intro r
    apply kept_bind (kept_handleKey _)
    exact fun _ => ih

theorem kept_commanderRun : Kept (commanderRun fuel) := by
  apply kept_bind (kept_localPanelLoad _)
  intro r
  cases r with
  | some error => exact kept_pure _
  | none =>
    apply kept_bind (kept_ask _)
    intro r
    cases r with
    | host host =>
      apply kept_bind
      · exact kept_setApp fun _ h => ⟨h.localPanel,h.localEntries,h.remotePanel⟩
      intro _
      apply kept_bind ?_ fun _ => kept_pure _
      apply kept_bind (kept_setStatus _ _)
      intro _
      exact kept_bind kept_remotePanelLoad fun _ => kept_commanderLoop _
    | _ => exact kept_pure _

theorem ok_start (sock : RawSocket) (ethertype : UInt16) : (AppState.start sock ethertype).Ok :=
  ⟨windowed_first le_rfl (Int.natCast_nonneg _),rfl,windowed_first le_rfl (Int.natCast_nonneg _)⟩

/-- Up to any point of any run of the commander, every entry that is dereferenced exists; whenever a
key is awaited or the panels have been drawn, what is selected in a panel is one of the entries that
it counts, and these have room in its array; and a drawn panel shows the selected entry. -/
theorem commanderRun_safe {D : Type} {env : D → CommanderCall → CommanderReply → D → Prop}
    {sock : RawSocket} {ethertype : UInt16} {d : D} {os : List Observed}
    (h : Emitted env (commanderRun fuel) (AppState.start sock ethertype) d os) :
    ∀ o ∈ os, o.Good := by
  have hsafe := @kept_commanderRun fuel _ (ok_start sock ethertype)
  exact hsafe.emitted h

/-- The replies to a user who moves down in a directory with one file and then quits, while no packet
can be sent. -/
def shortVisit : List CommanderReply :=
  [.dir localPanelA.cwd (localPanelA.entries.map fun e => ⟨e.name,some e.isDir⟩),
    .host (Vector.replicate 6 1),.socket (.sent false),.number 10,.number 10,.number keyDown,.number 10,.number 10,.number 0x71]

theorem commanderRun_safe_visit :
    (outputs (commanderRun 4) (AppState.start ⟨Vector.replicate 6 2,1⟩ 0x80ab) shortVisit).length = 9 ∧
      ∀ o ∈ outputs (commanderRun 4) (AppState.start ⟨Vector.replicate 6 2,1⟩ 0x80ab) shortVisit,
        o.Good :=
  ⟨by rfl,commanderRun_safe emitted_outputs⟩

end RmtDos.Commander
