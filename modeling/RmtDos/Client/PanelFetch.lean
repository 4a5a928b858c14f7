import RmtDos.Client.PanelReload

/-! The fetch into the remote panel against the fetch that returns a list: the pages end up one after
the other in the entries of the panel, and the panel is entered under the path that the model of the
path alone gives. -/
namespace RmtDos.Commander
open Bytes Memory Resumable Prog

/-- The network as the code of the socket sees it. -/
def socketEnv {D : Type} (env : D → CommanderCall → CommanderReply → D → Prop)
    (d : D) (c : SocketCall) (r : SocketReply) (d' : D) : Prop :=
  ∃ r', CommanderReply.toSocket r' = r ∧ env d (.socket c) r' d'

variable {D : Type} {env : D → CommanderCall → CommanderReply → D → Prop} {conn : Connection}
  {fuel : ℕ} {app app' : AppState} {d d' : D} {os : List Observed}

theorem exec_onSocket {α : Type} {p : Remote α} {a : α} :
    Exec env (onSocket p) app d os a app' d' ↔
      os = [] ∧ app' = app ∧ Exec (socketEnv env) p () d [] a () d' := exec_within

/-- The first entries of an array are those of the list. -/
def filled (es : List RemoteDirEntry) (entries : Vector RemoteDirEntry 256) :
    Vector RemoteDirEntry 256 := storePage 0 es entries

@[simp] theorem getElem_filled {es : List RemoteDirEntry} {entries : Vector RemoteDirEntry 256}
    {i : ℕ} (hi : i < 256) : (filled es entries)[i] = es[i]?.getD entries[i] := by
  simp [filled, storePage]

theorem filled_nil (entries : Vector RemoteDirEntry 256) : filled [] entries = entries := by
  ext i hi
  simp

theorem storePage_filled (es page : List RemoteDirEntry) (entries : Vector RemoteDirEntry 256) :
    storePage es.length page (filled es entries) = filled (es ++ page) entries := by
  ext i hi
  rw [getElem_filled, storePage, Vector.getElem_ofFn]
  change (if es.length ≤ i then page[i-es.length]?.getD (filled es entries)[i]
    else (filled es entries)[i]) = _
  rw [getElem_filled]
  split
  · rename_i hi'
    rw [List.getElem?_append_right hi', List.getElem?_eq_none hi', Option.getD_none]
  · rw [List.getElem?_append_left (by omega)]

/-- The first entries of the panel are those of the list. -/
def AppState.withEntries (app : AppState) (es : List RemoteDirEntry) : AppState :=
  { app with remotePanel := { app.remotePanel with
      entries := filled es app.remotePanel.entries } }

theorem withEntries_nil (app : AppState) : app.withEntries [] = app := by
  rw [AppState.withEntries, filled_nil]

theorem store_withEntries (app : AppState) (es page : List RemoteDirEntry) :
    (fun app : AppState => { app with remotePanel :=
      { app.remotePanel with
        entries := storePage es.length page app.remotePanel.entries } }) (app.withEntries es) =
      app.withEntries (es ++ page) := by
  simp only [AppState.withEntries, storePage_filled]

/-- A run of the loop into the panel is one of the loop that returns a list. -/
theorem fetchPages_refines {r : Option ℕ} {pages : ℕ} {es : List RemoteDirEntry}
    (h : Exec env (fetchPages conn fuel pages es.length) (app.withEntries es) d os r app' d') :
    os = [] ∧ ∃ result, Exec (socketEnv env) (fetchDirPages conn.sock conn.ethertype conn.host fuel
        remoteDirMaxEntries pages es) () d [] result () d' ∧ r = result.map List.length ∧
      ∀ fs ∈ result, app' = app.withEntries fs := by
  induction pages generalizing es d os with
  | zero => exact h.elim
  | succ pages ih =>
    rw [fetchPages] at h
    rw [fetchDirPages]
    split at h
    · rw [if_pos ‹_›]
      obtain ⟨os₁,page,app₁,d₁,os₂,hpage,h,rfl⟩ := exec_bind.mp h
      obtain ⟨rfl,rfl,hfetched⟩ := exec_onSocket.mp hpage
      cases page with
      | none =>
        obtain ⟨rfl,rfl,rfl,rfl⟩ := h
        refine ⟨rfl,none,?_,rfl,by simp⟩
        exact exec_bind.mpr ⟨[],none,(),d',[],hfetched,⟨rfl,rfl,rfl,rfl⟩,rfl⟩
      | some page =>
        change Exec env (if page.length < remoteDirPageEntries then
          .done (some (es.length+page.length)) else
            fetchPages conn fuel pages (es.length+page.length)) _ d₁ os₂ r app' d' at h
        rw [store_withEntries, ← List.length_append] at h
        suffices hrest : os₂ = [] ∧ ∃ result, Exec (socketEnv env)
            (if page.length < remoteDirPageEntries then .done (some (es ++ page)) else
              fetchDirPages conn.sock conn.ethertype conn.host fuel remoteDirMaxEntries pages
                (es ++ page)) () d₁ [] result () d' ∧ r = result.map List.length ∧
            ∀ fs ∈ result, app' = app.withEntries fs by
          obtain ⟨rfl,result,hrest,hresult⟩ := hrest
          refine ⟨rfl,result,?_,hresult⟩
          exact exec_bind.mpr ⟨[],some page,(),d₁,[],hfetched,hrest,rfl⟩
        by_cases hshort : page.length < remoteDirPageEntries
        · rw [if_pos hshort] at h ⊢
          obtain ⟨rfl,rfl,rfl,rfl⟩ := h
          exact ⟨rfl,some (es ++ page),⟨rfl,rfl,rfl,rfl⟩,rfl,by simp⟩
        · rw [if_neg hshort] at h ⊢
          exact ih h
    · rw [if_neg ‹_›]
      obtain ⟨rfl,rfl,rfl,rfl⟩ := h
      refine ⟨rfl,some es,⟨rfl,rfl,rfl,rfl⟩,rfl,by simp⟩

/-- Where the fetch into the panel ends, `remote_dir_fetch` as it returns a list ends with as many
entries, and the panel has these. -/
theorem fetchRemoteDir_refines {r : Option ℕ} {path : CString}
    (h : Exec env (fetchRemoteDir fuel conn path) app d os r app' d') :
    os = [] ∧ ∃ result, Exec (socketEnv env) (remoteDirFetch conn.sock conn.ethertype conn.host fuel
        remoteDirMaxEntries path) () d [] result () d' ∧ r = result.map List.length ∧
      ∀ es ∈ result, app' = app.withEntries es := by
  obtain ⟨os₁,ok,app₁,d₁,os₂,hbegin,hrest,rfl⟩ := exec_bind.mp h
  obtain ⟨rfl,hsame,hsent⟩ := exec_onSocket.mp hbegin
  rw [hsame] at hrest
  cases ok with
  | false =>
    obtain ⟨rfl,rfl,rfl,rfl⟩ := hrest
    refine ⟨rfl,none,?_,rfl,by simp⟩
    exact exec_bind.mpr ⟨[],false,(),d',[],hsent,⟨rfl,rfl,rfl,rfl⟩,rfl⟩
  | true =>
    obtain ⟨os₃,total,app₂,d₂,os₄,hpages,htotal,rfl⟩ := exec_bind.mp hrest
    rw [← withEntries_nil app] at hpages
    obtain ⟨rfl,result,hfetched,rfl,hentries⟩ :=
      @fetchPages_refines D env conn fuel app app₂ d₁ d₂ os₃ total fuel [] hpages
    cases result with
    | none =>
      obtain ⟨rfl,rfl,rfl,rfl⟩ := htotal
      refine ⟨rfl,none,?_,rfl,by simp⟩
      refine exec_bind.mpr ⟨[],true,(),d₁,[],hsent,?_,rfl⟩
      exact exec_bind.mpr ⟨[],none,(),d',[],hfetched,⟨rfl,rfl,rfl,rfl⟩,rfl⟩
    | some es =>
      obtain ⟨os₅,ok,app₃,d₃,os₆,hend,hdone,rfl⟩ := exec_bind.mp htotal
      obtain ⟨rfl,hsame',hended⟩ := exec_onSocket.mp hend
      obtain ⟨rfl,rfl,rfl,rfl⟩ := hdone
      refine ⟨rfl,some es,?_,rfl,?_⟩
      · refine exec_bind.mpr ⟨[],true,(),d₁,[],hsent,?_,rfl⟩
        refine exec_bind.mpr ⟨[],some es,(),d₂,[],hfetched,?_,rfl⟩
        exact exec_bind.mpr ⟨[],ok,(),d',[],hended,⟨rfl,rfl,rfl,rfl⟩,rfl⟩
      · intro fs hfs
        obtain rfl := Option.some.inj hfs
        exact hsame'.trans (hentries es rfl)

/-- A panel that is loaded with a list shows the list. -/
theorem listing_withEntries {es : List RemoteDirEntry} (h : es.length ≤ remoteDirMaxEntries)
    (app : AppState) :
    RemotePanel.listing { (app.withEntries es).remotePanel with
      count := es.length, selected := 0, scroll := 0, loaded := true } = ⟨es,0,true⟩ := by
  rw [remoteDirMaxEntries] at h
  have htake : (filled es app.remotePanel.entries).toList.take es.length = es := by
    apply List.ext_getElem
    · simp [h]
    · intro i hi hes
      simp [hes]
  simp only [RemotePanel.listing, AppState.withEntries, Int.toNat_natCast, htake, Int.toNat_zero]

/-- The panel is loaded exactly where `remote_dir_fetch` returns a list, and then shows it. -/
theorem remotePanelLoad_refines {ok : Bool} (happ : app.Ok)
    (h : Exec env (remotePanelLoad fuel) app d os ok app' d') :
    ∃ result, Exec (socketEnv env) (remoteDirFetch app.conn.sock app.conn.ethertype app.conn.host fuel
        remoteDirMaxEntries app.remotePath) () d [] result () d' ∧
      ok = result.isSome ∧ app'.remotePanel.loaded = result.isSome ∧
      ∀ es ∈ result, app'.remotePanel.listing = ⟨es,0,true⟩ := by
  change Exec env ((fetchRemoteDir fuel app.conn app.remotePath).bind _) app d os ok app' d' at h
  obtain ⟨os₁,total,app₁,d₁,os₂,hfetch,hrest,rfl⟩ := exec_bind.mp h
  obtain ⟨rfl,result,hresult,rfl,hentries⟩ := fetchRemoteDir_refines hfetch
  cases result with
  | none =>
    obtain ⟨rfl,rfl,rfl,rfl⟩ := hrest
    exact ⟨none,hresult,rfl,rfl,by simp⟩
  | some es =>
    obtain ⟨-,hroom⟩ := (fetchRemoteDir_safe happ _ _).exec hfetch
    obtain rfl := hentries es rfl
    obtain ⟨rfl,rfl,rfl,rfl⟩ := hrest
    refine ⟨some es,hresult,rfl,rfl,?_⟩
    intro fs hfs
    obtain rfl := Option.some.inj hfs
    exact listing_withEntries (hroom _ rfl) app

/-- What is selected is one of the entries that the panel shows. -/
theorem listing_selected (happ : app.Ok) (hcount : 0 < app.remotePanel.count) :
    app.remotePanel.listing.entries[app.remotePanel.listing.selected]? = some app.remoteEntry := by
  obtain ⟨-,hroom,hsel,hlt,-⟩ := happ.remotePanel
  rw [remoteDirMaxEntries] at hroom
  have hin : app.remotePanel.selected.toNat < app.remotePanel.count.toNat := by omega
  have hroom' : app.remotePanel.selected.toNat < 256 := by omega
  simp only [RemotePanel.listing, List.getElem?_take_of_lt hin, Vector.getElem?_toList,
    AppState.remoteEntry, RemotePanel.entryAt, Vector.getElem?_eq_getElem hroom', Option.getD_some]

theorem remotePanelLoad_path (app : AppState) :
    Safe (fun _ => True) (remotePanelLoad fuel) app
      fun _ app' => app'.remotePath = app.remotePath := by
  apply Safe.bind (fetchRemoteDir_same app.conn app.remotePath app)
  rintro r _ ⟨entries,rfl⟩
  cases r with
  | none => rfl
  | some total => rfl

/-- The path of the panel after an enter is that of the model of the path alone. -/
theorem remotePanelEnter_path (happ : app.Ok) :
    Safe (fun _ => True) (remotePanelEnter fuel) app fun _ app' =>
      app'.remotePath = RmtDos.remotePanelEnter app.remotePath app.remotePanel.listing := by
  rw [RmtDos.remotePanelEnter]
  apply safe_ite.mpr
  constructor
  · intro hempty
    change app.remotePath = if app.remotePanel.loaded = true then _ else _
    split
    · have hcount : app.remotePanel.count.toNat = 0 := by
        obtain h | h := hempty
        · simp_all
        · omega
      simp [RemotePanel.listing, hcount]
    · rfl
  intro hsome
  obtain ⟨hloaded,hcount⟩ := not_or.mp hsome
  have hloaded' : app.remotePanel.listing.loaded = true := eq_true_of_ne_false hloaded
  rw [if_pos hloaded', listing_selected happ (by omega)]
  refine ⟨trivial,safe_ite.mpr ⟨?_,?_⟩⟩
  · intro hfile
    change app.remotePath = if app.remoteEntry.isDir = true then _ else _
    rw [if_neg (by simp [AppState.remoteEntry, hfile])]
  intro hdir
  have hdir' : app.remoteEntry.isDir = true := eq_true_of_ne_false hdir
  simp only [if_pos hdir']
  apply safe_ite.mpr
  constructor
  · intro hlong
    exact (if_neg hlong).symm
  · intro hfits
    apply (remotePanelLoad_path _).imp
    intro _ app' hpath
    exact hpath.trans (if_pos (not_not.mp hfits)).symm

end RmtDos.Commander
