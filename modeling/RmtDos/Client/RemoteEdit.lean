import RmtDos.Client.RemotePath

/-! `edit_remote_selected`: a remote file is downloaded into a temporary file, edited, and uploaded
if its fingerprint changed. -/
namespace RmtDos
open Bytes

/-- The hash of `file_fingerprint`, over the bytes of the file in order. -/
def fingerprintHash (content : List UInt8) : UInt64 :=
  content.foldl (fun h b => ((h <<< 5)+h) ^^^ b.toUInt64) 5381

/-- `file_fingerprint` on a file that can be read, or none. -/
def fileFingerprint (readable : Bool) (content : List UInt8) : Option (UInt64 × ℕ) :=
  if readable then some (fingerprintHash content,content.length) else none

/-- The outcomes of the calls: `mkdtemp`; what the download leaves in the temporary
file, and whether it succeeded; the two reads for the fingerprints; the exit of the editor and what
it leaves; the answer at the prompt; the upload; and `unlink`. -/
structure EditOutcomes where
  tmpDirMade : Bool
  downloadLeaves : Option (List UInt8)
  downloadFails : Bool
  beforeReadable : Bool
  editorLeaves : List UInt8
  editorFails : Bool
  afterReadable : Bool
  uploadChosen : Bool
  uploadFails : Bool
  unlinked : Bool
  deriving DecidableEq

/-- The locals of `edit_remote_selected`, with the temporary file and what was uploaded. -/
structure EditState where
  tempFile : Option (List UInt8)
  uploaded : Option (CString × List UInt8)
  downloaded : Bool
  keepTemp : Bool
  rc : ℤ
  result : String
  deriving DecidableEq

/-- Before the download. -/
def EditState.start : EditState := ⟨none,none,false,false,-1,"Remote edit failed."⟩

/-- From the upload prompt on, where the fingerprints differ. -/
def editChanged (o : EditOutcomes) (remotePath : CString) (content : List UInt8) (s : EditState) :
    EditState :=
  if o.uploadChosen then
    if o.uploadFails then
      { s with rc := -1, keepTemp := true, result := "Remote edit failed: upload failed." }
    else
      { s with
        uploaded := some (remotePath,content)
        rc := 0
        result := "Remote edit complete; changes uploaded." }
  else
    { s with rc := 0, keepTemp := true, result := "Remote edit complete; changes kept local only." }

/-- From the editor on. -/
def editOpened (o : EditOutcomes) (remotePath : CString) (before : UInt64 × ℕ) (s : EditState) :
    EditState :=
  let s := { s with tempFile := some o.editorLeaves }
  if o.editorFails then
    { s with keepTemp := true, result := "Remote edit failed: editor exited with an error." }
  else
    match fileFingerprint o.afterReadable o.editorLeaves with
    | none =>
      { s with keepTemp := true, result := "Remote edit failed: cannot re-read temp file." }
    | some after =>
      if before.1 ≠ after.1 ∨ before.2 ≠ after.2 then editChanged o remotePath o.editorLeaves s
      else { s with rc := 0, result := "Remote edit complete; file unchanged." }

/-- From the download to the label `done`. -/
def editBody (o : EditOutcomes) (remotePath : CString) : EditState :=
  let s := { EditState.start with tempFile := o.downloadLeaves }
  match o.downloadFails, o.downloadLeaves with
  | false, some content =>
    let s := { s with downloaded := true }
    match fileFingerprint o.beforeReadable content with
    | none => { s with keepTemp := true, result := "Remote edit failed: cannot read temp file." }
    | some before => editOpened o remotePath before s
  | _, _ => { s with result := "Remote edit failed: download failed." }

/-- From the label `done` on. -/
def editDone (o : EditOutcomes) (s : EditState) : EditState :=
  if s.keepTemp ∧ s.downloaded then s
  else if o.unlinked then { s with tempFile := none }
  else s

/-- `edit_remote_selected`; none where it returns before the download. The temporary path always
fits. -/
def editRemoteSelected (panel : RemotePanel) (remotePath : CString) (o : EditOutcomes) :
    Option EditState :=
  if panel.loaded then do
    let entry ← panel.entries[panel.selected]?
    if entry.isDir then none
    else
      let joined := remotePathJoin fileTransferNameBytes remotePath (.read entry.name)
      if joined.rc ≠ 0 ∨ o.tmpDirMade = false then none
      else some (editDone o (editBody o joined.out))
  else none

/-- The content of the temporary file after the editor, if it ran. -/
def editedContent (o : EditOutcomes) (downloaded : List UInt8) : List UInt8 :=
  if o.beforeReadable then o.editorLeaves else downloaded

/-- No edit is lost: nothing changed, the changes were uploaded, or the temporary file has them. -/
def EditKept (o : EditOutcomes) (downloaded : List UInt8) (s : EditState) : Prop :=
  editedContent o downloaded = downloaded ∨
    (∃ remotePath, s.uploaded = some (remotePath,editedContent o downloaded)) ∨
    s.tempFile = some (editedContent o downloaded)

/-- What tells the edit from the download: a call that failed, or the fingerprint. -/
def EditNoticed (o : EditOutcomes) (downloaded : List UInt8) : Prop :=
  o.beforeReadable = false ∨ o.editorFails ∨ o.afterReadable = false ∨
    downloaded.length ≠ o.editorLeaves.length ∨
    fingerprintHash downloaded ≠ fingerprintHash o.editorLeaves

variable {o : EditOutcomes} {downloaded : List UInt8} {remotePath : CString} {s : EditState}

/-- Past the guards only the body counts. -/
theorem editRemoteSelected_some {panel : RemotePanel}
    (h : editRemoteSelected panel remotePath o = some s) : ∃ p, s = editDone o (editBody o p) := by
  unfold editRemoteSelected at h
  split_ifs at h
  cases hentry : panel.entries[panel.selected]? with
  | none => simp [hentry] at h
  | some entry =>
    rw [hentry] at h
    change (if entry.isDir then none else _) = some s at h
    split_ifs at h
    exact ⟨_,(Option.some.inj h).symm⟩

theorem kept_of_flag (h : s.keepTemp = true) (hd : s.downloaded = true)
    (ht : s.tempFile = some (editedContent o downloaded)) : EditKept o downloaded (editDone o s) := by
  rw [editDone, if_pos ⟨h,hd⟩]
  exact .inr (.inr ht)

theorem editDone_uploaded : (editDone o s).uploaded = s.uploaded := by
  unfold editDone
  split_ifs <;> rfl

/-- A changed fingerprint: the changes are uploaded, or stay in the temporary file. -/
theorem editChanged_kept (hd : s.downloaded = true)
    (ht : s.tempFile = some (editedContent o downloaded)) :
    EditKept o downloaded (editDone o (editChanged o remotePath (editedContent o downloaded) s)) := by
  unfold editChanged
  split_ifs
  · exact kept_of_flag rfl hd ht
  · exact .inr (.inl ⟨remotePath,editDone_uploaded⟩)
  · exact kept_of_flag rfl hd ht

/-- An unchanged fingerprint: the temporary file is removed, if `unlink` can. -/
theorem editUnchanged_kept_iff (hk : s.keepTemp = false) (hu : s.uploaded = none)
    (ht : s.tempFile = some (editedContent o downloaded)) :
    EditKept o downloaded (editDone o s) ↔
      editedContent o downloaded = downloaded ∨ o.unlinked = false := by
  refine or_congr_right ?_
  rw [editDone_uploaded, hu, editDone, if_neg (by simp [hk])]
  split_ifs with hun
  · simp [hun]
  · simp [hun, ht]

/-- The editor ran. -/
theorem editOpened_kept_iff {before : UInt64 × ℕ} (hbefore : o.beforeReadable = true)
    (hfp : before = (fingerprintHash downloaded,downloaded.length)) (hd : s.downloaded = true)
    (hk : s.keepTemp = false) (hu : s.uploaded = none) :
    EditKept o downloaded (editDone o (editOpened o remotePath before s)) ↔
      editedContent o downloaded = downloaded ∨ EditNoticed o downloaded ∨ o.unlinked = false := by
  have hedited : editedContent o downloaded = o.editorLeaves := if_pos hbefore
  unfold editOpened fileFingerprint
  by_cases hfails : o.editorFails = true
  · rw [if_pos hfails]
    exact iff_of_true (kept_of_flag rfl hd (congrArg some hedited.symm))
      (.inr (.inl (.inr (.inl hfails))))
  rw [if_neg hfails]
  by_cases hafter : o.afterReadable = true
  · rw [if_pos hafter, hfp]
    dsimp only
    split_ifs with hchanged
    · refine iff_of_true ?_ (.inr (.inl (.inr (.inr (.inr hchanged.symm)))))
      rw [← hedited]
      exact editChanged_kept hd rfl
    · refine (editUnchanged_kept_iff ?_ ?_ ?_).trans ?_
      · exact hk
      · exact hu
      · exact congrArg some hedited.symm
      have hnot : ¬ EditNoticed o downloaded := by
        rintro (h | h | h | h)
        · simp [hbefore] at h
        · exact hfails h
        · simp [hafter] at h
        · exact hchanged h.symm
      rw [or_iff_right hnot]
  · rw [if_neg hafter]
    exact iff_of_true (kept_of_flag rfl hd (congrArg some hedited.symm))
      (.inr (.inl (.inr (.inr (.inl (by simpa using hafter))))))

/-- An edited file is lost exactly if no call failed, the edit keeps the length and the hash, and the
temporary file is removed. -/
theorem editKept_iff (panel : RemotePanel) (remotePath : CString) (o : EditOutcomes)
    (s : EditState) (downloaded : List UInt8)
    (h : editRemoteSelected panel remotePath o = some s) (hok : o.downloadFails = false)
    (hl : o.downloadLeaves = some downloaded) :
    EditKept o downloaded s ↔
      editedContent o downloaded = downloaded ∨ EditNoticed o downloaded ∨ o.unlinked = false := by
  obtain ⟨p,rfl⟩ := editRemoteSelected_some h
  simp only [editBody, hok, hl, fileFingerprint]
  by_cases hbefore : o.beforeReadable = true
  · rw [if_pos hbefore]
    exact editOpened_kept_iff hbefore rfl rfl rfl rfl
  · have hsame : editedContent o downloaded = downloaded := if_neg hbefore
    exact iff_of_true (.inl hsame) (.inl hsame)

/-! One remote file, whose edit the fingerprint does not see. -/

def onePanel : RemotePanel := ⟨[⟨[65],0,2,0,0,false⟩],0,true⟩

/-- Two bytes are replaced by two others with the same hash. -/
def sameHash : EditOutcomes := ⟨true,some [32,97],false,true,[33,64],false,true,true,false,true⟩

theorem editKept_iff_sameHash :
    EditKept { sameHash with unlinked := false } [32,97]
        (editDone { sameHash with unlinked := false }
          (editBody { sameHash with unlinked := false } ⟨[67,58,92,65],by decide⟩)) ↔
      editedContent { sameHash with unlinked := false } [32,97] = [32,97] ∨
        EditNoticed { sameHash with unlinked := false } [32,97] ∨ (false : Bool) = false :=
  editKept_iff onePanel remoteRoot { sameHash with unlinked := false } _ [32,97] (by decide) rfl rfl

/-- The edit is lost. -/
theorem sameHash_lost :
    ¬ ∀ panel remotePath o s downloaded, editRemoteSelected panel remotePath o = some s →
      o.downloadFails = false → o.downloadLeaves = some downloaded → EditKept o downloaded s := by
  intro h
  have hunchanged : editRemoteSelected onePanel remoteRoot sameHash =
      some ⟨none,none,true,false,0,"Remote edit complete; file unchanged."⟩ := by decide
  obtain hkept | ⟨p,hkept⟩ | hkept := h onePanel remoteRoot sameHash _ [32,97] hunchanged rfl rfl
  · exact absurd hkept (by decide)
  · cases hkept
  · cases hkept

end RmtDos
