import RmtDos.Client.CommanderSafety

/-! A change of the remote directory that fails. The path is replaced and the panel is no longer
loaded, while `local_panel_load` leaves the local panel as it was. -/
namespace RmtDos.Commander
open Bytes Memory Reading Resumable Prog

/-- The remote pane has the path, the selection and the entries that it had. -/
structure Unmoved (app app' : AppState) : Prop where
  remotePath : app'.remotePath = app.remotePath
  count : app'.remotePanel.count = app.remotePanel.count
  selected : app'.remotePanel.selected = app.remotePanel.selected
  loaded : app'.remotePanel.loaded = app.remotePanel.loaded
  displayed : app'.remotePanel.entries.toList.take app.remotePanel.count.toNat =
    app.remotePanel.entries.toList.take app.remotePanel.count.toNat

def AppState.remoteEntry (app : AppState) : RemoteDirEntry :=
  app.remotePanel.entryAt app.remotePanel.selected

/-- The path of the selected entry. -/
def AppState.nextPath (app : AppState) : Joined :=
  remotePathJoin rmtdosPathBytes app.remotePath (.read app.remoteEntry.name)

/-- A directory is selected, and its path fits. -/
structure AppState.Enters (app : AppState) : Prop where
  loaded : app.remotePanel.loaded = true
  count : 0 < app.remotePanel.count
  isDir : app.remoteEntry.isDir = true
  fits : app.nextPath.rc = 0

/-- The panel after a load that fails: only entries may have been overwritten. -/
def AppState.unloaded (app : AppState) (entries : Vector RemoteDirEntry 256) (path : CString) :
    AppState :=
  { app with
    remotePanel := { app.remotePanel with entries, loaded := false }
    remotePath := path
    status := ⟨"Remote listing failed for %s",[path]⟩ }

/-- Nothing but entries of the remote panel differs. -/
def SameButEntries (app app' : AppState) : Prop :=
  ∃ entries, app' = { app with remotePanel := { app.remotePanel with entries } }

variable {fuel : ℕ} {app app' : AppState}

theorem sameButEntries_refl (app : AppState) : SameButEntries app app :=
  ⟨app.remotePanel.entries,rfl⟩

theorem SameButEntries.trans {app'' : AppState} (h : SameButEntries app app')
    (h' : SameButEntries app' app'') : SameButEntries app app'' := by
  obtain ⟨entries,rfl⟩ := h
  obtain ⟨entries',rfl⟩ := h'
  exact ⟨entries',rfl⟩

theorem onSocket_same {α : Type} (p : Remote α) (app : AppState) :
    Safe (fun _ => True) (onSocket p) app fun _ app' => SameButEntries app app' := by
  apply (Safe.within safe_true).imp
  rintro a app' ⟨rfl,-⟩
  exact sameButEntries_refl app'

theorem fetchPages_same (conn : Connection) (pages total : ℕ) (app : AppState) :
    Safe (fun _ => True) (fetchPages conn fuel pages total) app
      fun _ app' => SameButEntries app app' := by
  induction pages generalizing app total with
  | zero => trivial
  | succ pages ih =>
    apply safe_ite.mpr
    refine ⟨fun _ => ?_,fun _ => sameButEntries_refl app⟩
    apply Safe.bind (onSocket_same _ app)
    intro r app' happ
    cases r with
    | none => exact happ
    | some page =>
      have hstored (entries : Vector RemoteDirEntry 256) : SameButEntries app
          { app' with remotePanel := { app'.remotePanel with entries } } :=
        happ.trans ⟨entries,rfl⟩
      apply safe_ite.mpr
      refine ⟨fun _ => hstored _,fun _ => ?_⟩
      apply (ih _ _).imp
      exact fun _ _ h => (hstored _).trans h

theorem fetchRemoteDir_same (conn : Connection) (path : CString) (app : AppState) :
    Safe (fun _ => True) (fetchRemoteDir fuel conn path) app
      fun _ app' => SameButEntries app app' := by
  apply Safe.bind (onSocket_same _ app)
  intro ok app₁ h₁
  apply safe_ite.mpr
  refine ⟨fun _ => ?_,fun _ => h₁⟩
  apply Safe.bind (fetchPages_same conn fuel 0 app₁)
  intro r app₂ h₂
  cases r with
  | none => exact h₁.trans h₂
  | some total =>
    apply Safe.bind (onSocket_same _ app₂)
    exact fun _ app₃ h₃ => (h₁.trans h₂).trans h₃

theorem remotePanelLoad_failed (app : AppState) :
    Safe (fun _ => True) (remotePanelLoad fuel) app
      fun ok app' => ok = false → ∃ entries, app' = app.unloaded entries app.remotePath := by
  apply Safe.bind (fetchRemoteDir_same app.conn app.remotePath app)
  rintro r _ ⟨entries,rfl⟩
  cases r with
  | none => exact fun _ => ⟨entries,rfl⟩
  | some total =>
    intro h
    cases h

/-- What an enter does that does not end with a loaded directory. -/
theorem remotePanelEnter_failed (app : AppState) :
    Safe (fun _ => True) (remotePanelEnter fuel) app fun ok app' => ok = false →
      (app.Enters ∧ ∃ entries, app' = app.unloaded entries
        (printed rmtdosPathBytes app.nextPath.out).out) ∨
      (¬ app.Enters ∧ ∃ status, app' = { app with status }) := by
  apply safe_ite.mpr
  constructor
  · intro hempty _
    refine .inr ⟨?_,_,rfl⟩
    rintro ⟨hloaded,hcount,-,-⟩
    obtain h | h := hempty
    · simp [hloaded] at h
    · omega
  intro hsome
  obtain ⟨hloaded,hcount⟩ := not_or.mp hsome
  refine ⟨trivial,safe_ite.mpr ⟨?_,?_⟩⟩
  · intro hfile _
    refine .inr ⟨fun h => ?_,_,rfl⟩
    have hdir := h.isDir
    rw [AppState.remoteEntry, hfile] at hdir
    cases hdir
  intro hdir
  apply safe_ite.mpr
  constructor
  · intro hlong _
    exact .inr ⟨fun h => hlong h.fits,_,rfl⟩
  intro hfits
  apply (remotePanelLoad_failed _).imp
  intro ok app' h hok
  obtain ⟨entries,rfl⟩ := h hok
  exact .inl ⟨⟨eq_true_of_ne_false hloaded,by omega,eq_true_of_ne_false hdir,not_not.mp hfits⟩,entries,rfl⟩

/-- As long as nothing is loaded, no directory can be entered. -/
theorem remotePanelEnter_unloaded (h : app.remotePanel.loaded = false) :
    Safe (fun _ => True) (remotePanelEnter fuel) app
      fun ok app' => ok = false ∧ ∃ status, app' = { app with status } :=
  safe_ite.mpr ⟨fun _ => ⟨rfl,_,rfl⟩,fun hsome => absurd (.inl h) hsome⟩

/-- The local panel stays as it was where it cannot be loaded. -/
theorem localPanelLoad_failed (path : CString) (app : AppState) :
    Safe (fun _ => True) (localPanelLoad path) app fun error app' => error ≠ none → app' = app := by
  intro r
  cases r with
  | dir resolved entries => exact fun h => absurd rfl h
  | _ => exact fun _ => rfl

/-- A directory that is not loaded leaves the panel as it was exactly when its path has no room or
nothing is entered, whatever the network does: where a fetch begins that fails, the panel is not
loaded any more. -/
theorem remotePanelEnter_unmoved_iff {D : Type}
    {env : D → CommanderCall → CommanderReply → D → Prop} {d d' : D} {os : List Observed}
    (h : Exec env (remotePanelEnter fuel) app d os false app' d') :
    Unmoved app app' ↔ ¬ app.Enters := by
  obtain ⟨henters,entries,rfl⟩ | ⟨hnot,status,rfl⟩ := (remotePanelEnter_failed app).exec h rfl
  · constructor
    · intro hunmoved
      have hloaded := hunmoved.loaded.trans henters.loaded
      cases hloaded
    · exact fun hnot => absurd henters hnot
  · exact ⟨fun _ => hnot,fun _ => ⟨rfl,rfl,rfl,rfl,rfl⟩⟩

/-- A panel with one directory. -/
def oneDirectory : AppState :=
  { AppState.start ⟨Vector.replicate 6 2,1⟩ 0x80ab with
    remotePanel := ⟨Vector.replicate 256 ⟨[0x41],0x10,0,0,0,true⟩,1,0,0,true⟩ }

/-- The panel after an enter while no packet can be sent. -/
def oneUnloaded : AppState :=
  oneDirectory.unloaded oneDirectory.remotePanel.entries pathA

theorem exec_oneDirectory : Exec played (remotePanelEnter 0) oneDirectory [.socket (.sent false)]
    [.deref 0 1] false oneUnloaded [] := by
  refine ⟨[],rfl,?_⟩
  exact ⟨_,_,rfl,rfl,rfl,rfl,rfl⟩

theorem remotePanelEnter_unmoved_once : Unmoved oneDirectory oneUnloaded ↔ ¬ oneDirectory.Enters :=
  remotePanelEnter_unmoved_iff exec_oneDirectory

theorem remotePanelEnter_moves :
    ¬ ∀ (fuel : ℕ) (app app' : AppState) (rs rs' : List CommanderReply) (os : List Observed),
      app.remotePanel.loaded = true → 0 ≤ app.remotePanel.selected →
      app.remotePanel.selected < app.remotePanel.count → app.remoteEntry.isDir = true →
      Exec played (remotePanelEnter fuel) app rs os false app' rs' → Unmoved app app' := by
  intro h
  have hunmoved := h 0 _ _ _ _ _ rfl le_rfl (by decide) rfl exec_oneDirectory
  cases hunmoved.loaded

end RmtDos.Commander
