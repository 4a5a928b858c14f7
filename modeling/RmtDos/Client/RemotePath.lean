import RmtDos.Client.Responses

/-! The path of the remote panel: `remote_path_join` and the directories entered from the root. -/
namespace RmtDos
open Bytes

def backslash : UInt8 := 92

def dotName : CString := ⟨[46],by decide⟩
def dotDotName : CString := ⟨[46,46],by decide⟩
def separator : CString := ⟨[backslash],by decide⟩

/-- The return value of `remote_path_join` and what its buffer holds. -/
structure Joined where
  rc : ℤ
  out : CString
  deriving DecidableEq

/-- `snprintf` of a string into `outLen` bytes, and the test on its result. -/
def printed (outLen : ℕ) (s : CString) : Joined :=
  ⟨if outLen ≤ s.bytes.length then -1 else 0,s.take (outLen-1)⟩

/-- What is left of a path without its last name. -/
def parentOf (dir : CString) : CString :=
  let tmp := dir.take (rmtdosPathBytes-1)
  let len := tmp.bytes.length
  let tmp := if 3 < len ∧ tmp.bytes.getLast? = some backslash then tmp.take (len-1) else tmp
  match strrchr backslash tmp.bytes with
  | some slash => if 2 < slash then tmp.take slash else tmp.take (slash+1)
  | none => tmp

def remotePathJoin (outLen : ℕ) (dir name : CString) : Joined :=
  if name = dotName ∨ name.bytes = [] then printed outLen dir
  else if name = dotDotName then printed outLen (parentOf dir)
  else
    let middle := if dir.bytes.getLast? = some backslash then dir else dir.append separator
    printed outLen (middle.append name)

/-- `struct RemotePanel`; the count is the number of entries. -/
structure RemotePanel where
  entries : List RemoteDirEntry
  selected : ℕ
  loaded : Bool

/-- `remote_panel_enter`: the path of the panel after it. -/
def remotePanelEnter (remotePath : CString) (panel : RemotePanel) : CString :=
  if panel.loaded then
    match panel.entries[panel.selected]? with
    | some entry =>
      if entry.isDir then
        let next := remotePathJoin rmtdosPathBytes remotePath (.read entry.name)
        if next.rc = 0 then (printed rmtdosPathBytes next.out).out else remotePath
      else remotePath
    | none => remotePath
  else remotePath

/-- The path that `commander_run` starts with. -/
def remoteRoot : CString := ⟨[67,58,backslash],by decide⟩

/-! Canonical paths. -/

/-- A name between two separators. -/
def Segment (s : List UInt8) : Prop := s ≠ [] ∧ backslash ∉ s

/-- The path through the segments, on a drive. -/
def pathOf (drive : UInt8) (segs : List (List UInt8)) : List UInt8 :=
  if segs = [] then [drive,58,backslash] else drive :: 58 :: segs.flatMap (backslash :: ·)

/-- `X:\` or `X:\s1\…\sn`. -/
def Canonical (drive : UInt8) (p : CString) : Prop :=
  ∃ segs, (∀ s ∈ segs, Segment s) ∧ p.bytes = pathOf drive segs

variable {drive : UInt8} {segs : List (List UInt8)} {s : List UInt8} {outLen : ℕ} {p : CString}

theorem pathOf_snoc :
    pathOf drive (segs ++ [s]) = drive :: 58 :: segs.flatMap (backslash :: ·) ++ backslash :: s := by
  simp [pathOf]

theorem getLast?_append_segment (l : List UInt8) (hs : Segment s) :
    (l ++ s).getLast? ≠ some backslash := by
  obtain ⟨hne,hfree⟩ := hs
  rw [List.getLast?_append_of_ne_nil l hne]
  intro h
  exact hfree (List.mem_of_getLast? h)

/-! Joining a name to a canonical path. -/

theorem printed_fits (h : p.bytes.length < outLen) : printed outLen p = ⟨0,p⟩ := by
  rw [printed, if_neg (Nat.not_le.mpr h), CString.take_of_le (Nat.le_sub_one_of_lt h)]

theorem printed_rc : (printed outLen p).rc = 0 ↔ p.bytes.length < outLen := by
  simp only [printed]
  split_ifs with h
  · simp [Nat.not_lt.mpr h]
  · simp [Nat.not_le.mp h]

theorem printed_rc_neg : (printed outLen p).rc = -1 ↔ outLen ≤ p.bytes.length := by
  simp only [printed]
  split_ifs with h
  · simp [h]
  · simp [h]

theorem length_pathOf_lt (hs : Segment s) :
    (pathOf drive segs).length < (pathOf drive (segs ++ [s])).length := by
  have hpos := List.length_pos_of_ne_nil hs.1
  rw [pathOf_snoc, pathOf]
  split_ifs with h
  · subst h
    simpa using hpos
  · simp

theorem segments_snoc (hsegs : ∀ t ∈ segs, Segment t) (hs : Segment s) :
    ∀ t ∈ segs ++ [s], Segment t := by
  intro t ht
  rcases List.mem_append.mp ht with ht | ht
  · exact hsegs t ht
  · rw [List.mem_singleton.mp ht]
    exact hs

/-- The separator is written unless the path ends in one, which the root does. -/
theorem join_pathOf {dir name : CString} (hsegs : ∀ s ∈ segs, Segment s)
    (hdir : dir.bytes = pathOf drive segs) (hdot : name ≠ dotName) (hdots : name ≠ dotDotName)
    (hname : name.bytes ≠ []) :
    ∃ full : CString, full.bytes = pathOf drive (segs ++ [name.bytes]) ∧
      ∀ outLen, remotePathJoin outLen dir name = printed outLen full := by
  refine ⟨_,?_,fun outLen => by rw [remotePathJoin, if_neg (by simp [hdot,hname]), if_neg hdots]⟩
  rcases List.eq_nil_or_concat' segs with rfl | ⟨init,s,rfl⟩
  · have hlast : dir.bytes.getLast? = some backslash := by
      rw [hdir]
      rfl
    rw [if_pos hlast]
    simp [CString.append, hdir, pathOf]
  · have hlast : dir.bytes.getLast? ≠ some backslash := by
      rw [hdir, pathOf_snoc, List.append_cons]
      exact getLast?_append_segment _ (hsegs s (by simp))
    rw [if_neg hlast]
    simp [CString.append, hdir, pathOf, separator]

/-- Cutting the last segment off. -/
theorem parentOf_pathOf (hs : Segment s) (hp : p.bytes = pathOf drive (segs ++ [s]))
    (hlen : p.bytes.length < rmtdosPathBytes) : (parentOf p).bytes = pathOf drive segs := by
  have hlast : p.bytes.getLast? ≠ some backslash := by
    rw [hp, pathOf_snoc, List.append_cons]
    exact getLast?_append_segment _ hs
  have hslash : strrchr backslash p.bytes =
      some (drive :: 58 :: segs.flatMap (backslash :: ·)).length := by
    rw [hp, pathOf_snoc]
    exact strrchr_append _ hs.2
  simp only [parentOf, CString.take_of_le (Nat.le_sub_one_of_lt hlen), hlast, and_false, if_false,
    hslash]
  rw [pathOf_snoc] at hp
  by_cases hsegs : segs = []
  · subst hsegs
    simp [CString.take, hp, pathOf]
  · obtain ⟨t,rest,rfl⟩ := List.exists_cons_of_ne_nil hsegs
    rw [if_pos (by simp), pathOf, if_neg hsegs]
    simp only [CString.take, hp]
    exact List.take_left

theorem parentOf_root (hp : p.bytes = pathOf drive []) : parentOf p = p := by
  have htake : p.take (rmtdosPathBytes-1) = p :=
    CString.take_of_le (by simp [hp, pathOf, rmtdosPathBytes])
  have hslash : strrchr backslash p.bytes = some 2 := by
    rw [hp]
    exact strrchr_append [drive,58] List.not_mem_nil
  have hlen : ¬ 3 < p.bytes.length := by
    simp [hp, pathOf]
  simp only [parentOf, htake, hlen, false_and, if_false, hslash]
  exact CString.take_of_le (by simp [hp, pathOf])

theorem join_dotDot (dir : CString) :
    remotePathJoin outLen dir dotDotName = printed outLen (parentOf dir) := by
  rw [remotePathJoin, if_neg (by decide), if_pos rfl]

theorem join_dot (dir : CString) : remotePathJoin outLen dir dotName = printed outLen dir :=
  if_pos (.inl rfl)

theorem join_empty {dir name : CString} (h : name.bytes = []) :
    remotePathJoin outLen dir name = printed outLen dir :=
  if_pos (.inr h)

/-- A path stays canonical over a join that succeeds. -/
theorem Canonical.join {dir name : CString} (hdir : Canonical drive dir)
    (hlen : dir.bytes.length < rmtdosPathBytes) (hname : backslash ∉ name.bytes)
    (h : (remotePathJoin outLen dir name).rc = 0) :
    Canonical drive (remotePathJoin outLen dir name).out ∧
      (remotePathJoin outLen dir name).out.bytes.length < outLen := by
  obtain ⟨segs,hsegs,hbytes⟩ := hdir
  -- whatever is printed is a canonical path
  suffices hfull : ∃ full : CString, Canonical drive full ∧
      remotePathJoin outLen dir name = printed outLen full by
    obtain ⟨full,hcan,heq⟩ := hfull
    rw [heq, printed_rc] at h
    rw [heq, printed_fits h]
    exact ⟨hcan,h⟩
  by_cases hdot : name = dotName
  · subst hdot
    exact ⟨dir,⟨segs,hsegs,hbytes⟩,join_dot dir⟩
  by_cases hempty : name.bytes = []
  · exact ⟨dir,⟨segs,hsegs,hbytes⟩,join_empty hempty⟩
  by_cases hdots : name = dotDotName
  · subst hdots
    refine ⟨parentOf dir,?_,join_dotDot dir⟩
    rcases List.eq_nil_or_concat' segs with rfl | ⟨init,s,rfl⟩
    · rw [parentOf_root hbytes]
      exact ⟨[],hsegs,hbytes⟩
    · exact ⟨init,fun t ht => hsegs t (by simp [ht]),
        parentOf_pathOf (hsegs s (by simp)) hbytes hlen⟩
  · obtain ⟨full,hfull,heq⟩ := join_pathOf hsegs hbytes hdot hdots hempty
    exact ⟨full,⟨_,segments_snoc hsegs ⟨hempty,hname⟩,hfull⟩,heq outLen⟩

/-- What entering a directory keeps of the path. -/
theorem remotePanelEnter_canonical {panel : RemotePanel} (hp : Canonical drive p)
    (hlen : p.bytes.length < rmtdosPathBytes)
    (hnames : ∀ e ∈ panel.entries, backslash ∉ (CString.read e.name).bytes) :
    Canonical drive (remotePanelEnter p panel) ∧
      (remotePanelEnter p panel).bytes.length < rmtdosPathBytes := by
  unfold remotePanelEnter
  split_ifs with hloaded
  · split
    · next entry hentry =>
      have hfree := hnames entry (List.mem_of_getElem? hentry)
      dsimp only
      split_ifs with hdir hrc
      · obtain ⟨hcan,hnext⟩ := hp.join hlen hfree hrc
        rw [printed_fits hnext]
        exact ⟨hcan,hnext⟩
      · exact ⟨hp,hlen⟩
      · exact ⟨hp,hlen⟩
    · exact ⟨hp,hlen⟩
  · exact ⟨hp,hlen⟩

theorem enterAll_canonical {panels : List RemotePanel} (hp : Canonical drive p)
    (hlen : p.bytes.length < rmtdosPathBytes)
    (hnames : ∀ panel ∈ panels, ∀ e ∈ panel.entries, backslash ∉ (CString.read e.name).bytes) :
    Canonical drive (panels.foldl remotePanelEnter p) ∧
      (panels.foldl remotePanelEnter p).bytes.length < rmtdosPathBytes := by
  induction panels generalizing p with
  | nil => exact ⟨hp,hlen⟩
  | cons panel panels ih =>
    obtain ⟨hcan,hnext⟩ := remotePanelEnter_canonical hp hlen (hnames panel List.mem_cons_self)
    exact ih hcan hnext fun q hq => hnames q (List.mem_cons_of_mem panel hq)

/-- Going down into an entry and up again: the join fails only where the path does not fit, and
`..` is its inverse. The buffers of the callers have up to 128 bytes. -/
theorem remotePathJoin_canonical (drive : UInt8) (segs : List (List UInt8)) (dir name : CString)
    (outLen : ℕ) (hsegs : ∀ s ∈ segs, Segment s) (hdir : dir.bytes = pathOf drive segs)
    (hname : Segment name.bytes) (hdot : name ≠ dotName) (hdots : name ≠ dotDotName) :
    ((remotePathJoin outLen dir name).rc = -1 ↔
        outLen ≤ (pathOf drive (segs ++ [name.bytes])).length) ∧
      ((remotePathJoin outLen dir name).rc ≠ -1 →
        (remotePathJoin outLen dir name).rc = 0 ∧
          (remotePathJoin outLen dir name).out.bytes = pathOf drive (segs ++ [name.bytes]) ∧
          Canonical drive (remotePathJoin outLen dir name).out ∧
          (outLen ≤ rmtdosPathBytes →
            remotePathJoin outLen (remotePathJoin outLen dir name).out dotDotName = ⟨0,dir⟩)) ∧
      (segs = [] → dir.bytes.length < outLen → remotePathJoin outLen dir dotDotName = ⟨0,dir⟩) ∧
      (dir.bytes.length < outLen → remotePathJoin outLen dir dotName = ⟨0,dir⟩) ∧
      ∀ panels : List RemotePanel,
        (∀ panel ∈ panels, ∀ e ∈ panel.entries, backslash ∉ (CString.read e.name).bytes) →
          Canonical 67 (panels.foldl remotePanelEnter remoteRoot) ∧
            (panels.foldl remotePanelEnter remoteRoot).bytes.length < rmtdosPathBytes := by
  obtain ⟨full,hfull,heq⟩ := join_pathOf hsegs hdir hdot hdots hname.1
  refine ⟨?_,?_,?_,?_,?_⟩
  · rw [heq, ← hfull]
    exact printed_rc_neg
  · intro hrc
    have hfits : full.bytes.length < outLen := by
      rw [heq] at hrc
      exact Nat.not_le.mp fun h => hrc (printed_rc_neg.mpr h)
    have hshorter : dir.bytes.length < full.bytes.length := by
      rw [hfull, hdir]
      exact length_pathOf_lt hname
    rw [heq, printed_fits hfits]
    refine ⟨rfl,hfull,⟨_,segments_snoc hsegs hname,hfull⟩,fun hout => ?_⟩
    have hparent : parentOf full = dir := by
      apply CString.ext_bytes
      rw [parentOf_pathOf hname hfull (hfits.trans_le hout), hdir]
    rw [join_dotDot, hparent, printed_fits (hshorter.trans hfits)]
  · rintro rfl hfits
    rw [join_dotDot, parentOf_root hdir, printed_fits hfits]
  · intro hfits
    rw [join_dot, printed_fits hfits]
  · intro panels hnames
    exact enterAll_canonical ⟨[],by simp,rfl⟩ (by decide) hnames

/-- `C:\DOS\UTIL`. -/
def utilPath : CString := ⟨[67,58,92,68,79,83,92,85,84,73,76],by decide⟩

def folderA : RemoteDirEntry := ⟨[65,0],0x10,0,0,0,true⟩

/-- Into a directory below `C:\DOS\UTIL` and out of it, and two directories down from the root. -/
theorem remotePathJoin_canonical_util :
    (remotePathJoin 64 utilPath ⟨[65],by decide⟩).out.bytes = utilPath.bytes ++ [92,65] ∧
      remotePathJoin 64 (remotePathJoin 64 utilPath ⟨[65],by decide⟩).out dotDotName =
        ⟨0,utilPath⟩ ∧
      Canonical 67 ([⟨[folderA],0,true⟩,⟨[folderA],0,true⟩].foldl remotePanelEnter remoteRoot) := by
  obtain ⟨-,hjoin,-,-,hpanels⟩ := remotePathJoin_canonical 67 [[68,79,83],[85,84,73,76]] utilPath
    ⟨[65],by decide⟩ 64 (by simp [Segment, backslash]) rfl ⟨by decide,by decide⟩ (by decide)
    (by decide)
  obtain ⟨-,hout,-,hback⟩ := hjoin (by decide)
  have hname : backslash ∉ (CString.read folderA.name).bytes := by decide
  exact ⟨hout,hback (by decide),(hpanels _ (by simp [hname])).1⟩

end RmtDos
