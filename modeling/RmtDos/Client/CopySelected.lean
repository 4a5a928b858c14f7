import RmtDos.Client.FileTransfer
import RmtDos.Client.RemoteEdit
import RmtDos.Server.CopySource

/-! `copy_selected`: a file is copied on the remote machine, or on the local one. Both sides compare
the spellings of the two paths, and the target is emptied before the source is read. -/
namespace RmtDos
open Bytes Resumable Prog Dos

def nameMax : ℕ := 255
def pathMax : ℕ := 4096

/-- `tolower`, in the C locale. -/
def toLower (b : UInt8) : UInt8 := if 0x41 ≤ b ∧ b ≤ 0x5a then b+0x20 else b

/-- `strcasecmp` returns 0. -/
def strcaseEq (s t : CString) : Bool := s.bytes.map toLower = t.bytes.map toLower

/-- `prompt_text`: what the buffer holds after it, or none where it returns -1. -/
def promptText (len : ℕ) (buf : CString) (input : Option CString) : Option CString :=
  match input with
  | none => none
  | some typed =>
    let typed := typed.take (len-1)
    if typed.bytes ≠ [] then some typed else if buf.bytes ≠ [] then some buf else none

/-- The suggested name: `snprintf`, and `strncat` of a suffix. -/
def suggested (name suffix : CString) : CString := ((name.take nameMax).append suffix).take nameMax

def remoteNameExists (panel : RemotePanel) (name : CString) : Bool :=
  panel.loaded && panel.entries.any fun e => strcaseEq (.read e.name) name

def remoteCopySuffix : CString := ⟨[46,67,80,89],by decide⟩
def localCopySuffix : CString := ⟨[46,99,111,112,121],by decide⟩

/-- The remote half of `copy_selected` with the checks of `send_two_path_op`: the paths that go into
the packet, or none where no packet is sent. -/
def remoteCopyNames (remotePath : CString) (panel : RemotePanel) (input : Option CString)
    (confirm : Bool) : Option (CString × CString) :=
  if panel.loaded then do
    let entry ← panel.entries[panel.selected]?
    if entry.isDir then none else
    let source := remotePathJoin fileTransferNameBytes remotePath (.read entry.name)
    if source.rc ≠ 0 then none else
    let dstName ←
      promptText (nameMax+1) (suggested (.read entry.name) remoteCopySuffix) input
    let target := remotePathJoin fileTransferNameBytes remotePath dstName
    if target.rc ≠ 0 then none else
    if strcaseEq source.out target.out then none else
    if remoteNameExists panel dstName && !confirm then none else
    if !validateRemoteName source.out || !validateRemoteName target.out then none else
    some (source.out,target.out)
  else none

/-- The packet of `file_remote_copy`. -/
def copyPacket (client : MacAddr) (sessionId transferId : UInt32) (source target : CString) :
    Packet :=
  ⟨client,sessionId,132,.fileCopy transferId (snprintf 63 source) (snprintf 63 target)⟩

/-! The local half. -/

structure LocalEntry where
  name : CString
  isDir : Bool

structure LocalPanel where
  cwd : CString
  entries : List LocalEntry
  selected : ℕ

def joinPath (outLen : ℕ) (dir name : CString) : Joined :=
  printed outLen ((dir.append ⟨[0x2f],by decide⟩).append name)

/-- The paths of a local copy, or none where `copy_selected` returns before the `stat`. -/
def localCopyNames (panel : LocalPanel) (input : Option CString) : Option (CString × CString) := do
  let entry ← panel.entries[panel.selected]?
  if entry.isDir then none else
  let srcName := entry.name.take nameMax
  let src := joinPath pathMax panel.cwd srcName
  if src.rc ≠ 0 then none else
  let dstName ← promptText (nameMax+1) (suggested srcName localCopySuffix) input
  let dst := joinPath pathMax panel.cwd dstName
  if dst.rc ≠ 0 then none else
  if src.out = dst.out then none else
  some (src.out,dst.out)

/-- The calls on the two streams. -/
inductive LocalCall
  | stat (path : CString)
  | fopenSrc (path : CString)
  | fopenDst (path : CString)
  | fread (count : ℕ)
  | fwrite (data : List UInt8)
  | ferrorSrc
  | fcloseSrc
  | fcloseDst

/-- Code that copies local files. -/
abbrev LocalCopy := Prog Unit LocalCall StdioReply Empty

def StdioReply.isOk : StdioReply → Bool
  | .ok => true
  | _ => false

def StdioReply.bytes : StdioReply → List UInt8
  | .data bs => bs
  | _ => []

def StdioReply.isSet : StdioReply → Bool
  | .flag b => b
  | _ => false

def localCall (c : LocalCall) : LocalCopy StdioReply := .call (fun _ => c) (fun _ s => s) .done

/-- The `while` loop: whether it gets to its end. -/
def localCopyLoop : ℕ → LocalCopy Bool
  | 0 => .hang
  | fuel+1 => do
    let n ← localCall (.fread 8192)
    if n.bytes = [] then return true
    let written ← localCall (.fwrite n.bytes)
    if written.isOk then localCopyLoop fuel
    else
      let _ ← localCall .fcloseSrc
      let _ ← localCall .fcloseDst
      return false

/-- `copy_selected` from the `stat` on: whether it reports the copy. -/
def localCopy (confirm : Bool) (fuel : ℕ) (srcPath dstPath : CString) : LocalCopy Bool := do
  let st ← localCall (.stat dstPath)
  if st.isOk && !confirm then return false
  let src ← localCall (.fopenSrc srcPath)
  if !src.isOk then return false
  let dst ← localCall (.fopenDst dstPath)
  if !dst.isOk then
    let _ ← localCall .fcloseSrc
    return false
  if ← localCopyLoop fuel then
    let error ← localCall .ferrorSrc
    if error.isSet then
      let _ ← localCall .fcloseSrc
      return false
    let closed ← localCall .fcloseDst
    let _ ← localCall .fcloseSrc
    return closed.isOk
  else return false

/-- The local files, and the two streams: the file and position of the one, and of the other what it
has not yet written. -/
structure LocalFs (G : Type) where
  content : G → Option (List UInt8)
  src : Option (G × ℕ)
  dst : Option (G × ℕ × List UInt8)

variable {G : Type} [DecidableEq G] (linux : List UInt8 → G)

/-- The file after the front of what a stream holds is written to it. -/
def flushed (d : LocalFs G) (f : G) (pos : ℕ) (held : List UInt8) (n : ℕ) :
    G → Option (List UInt8) :=
  Function.update d.content f (some (storedFront ((d.content f).getD []) pos held n))

/-- What a call may do; `linux` gives the file that a path leads to. -/
inductive LinuxStep (d : LocalFs G) : LocalCall → StdioReply → LocalFs G → Prop
  | stat (path : CString) (he : d.content (linux path.bytes) ≠ none) :
      LinuxStep d (.stat path) .ok d
  | noStat (path : CString) (he : d.content (linux path.bytes) = none) :
      LinuxStep d (.stat path) .failed d
  | fopenSrc (path : CString) (he : d.content (linux path.bytes) ≠ none) :
      LinuxStep d (.fopenSrc path) .ok { d with src := some (linux path.bytes,0) }
  | noSrc (path : CString) : LinuxStep d (.fopenSrc path) .failed d
  | fopenDst (path : CString) : LinuxStep d (.fopenDst path) .ok { d with
      content := Function.update d.content (linux path.bytes) (some [])
      dst := some (linux path.bytes,0,[]) }
  | noDst (path : CString) : LinuxStep d (.fopenDst path) .failed d
  | fread (count : ℕ) (bs : List UInt8) (f : G) (pos : ℕ) (hs : d.src = some (f,pos))
      (hp : bs <+: ((d.content f).getD []).drop pos) (hl : bs.length ≤ count) :
      LinuxStep d (.fread count) (.data bs) { d with src := some (f,pos+bs.length) }
  | fwrite (data : List UInt8) (f : G) (pos : ℕ) (held : List UInt8) (k n : ℕ)
      (hd : d.dst = some (f,pos,held)) (hn : n ≤ (held ++ data.take k).length) :
      LinuxStep d (.fwrite data) (if data.length ≤ k then .ok else .failed) { d with
        content := flushed d f pos (held ++ data.take k) n
        dst := some (f,pos+n,(held ++ data.take k).drop n) }
  | ferrorSrc (b : Bool) : LinuxStep d .ferrorSrc (.flag b) d
  | fcloseSrc (r : StdioReply) : LinuxStep d .fcloseSrc r { d with src := none }
  | fcloseDst (f : G) (pos : ℕ) (held : List UInt8) (n : ℕ) (hd : d.dst = some (f,pos,held))
      (hn : n ≤ held.length) :
      LinuxStep d .fcloseDst (if n = held.length then .ok else .failed) { d with
        content := flushed d f pos held n
        dst := none }

/-- A local copy that is confirmed, to another path to the same file, which is not empty. -/
def LocalClobbers (content : G → Option (List UInt8)) (confirm : Bool) (src dst : CString) : Prop :=
  linux src.bytes = linux dst.bytes ∧ confirm = true ∧
    ∃ old, content (linux src.bytes) = some old ∧ old ≠ []

variable {linux} {content : G → Option (List UInt8)} {confirm : Bool} {fuel n : ℕ}
  {src dst : CString} {d d' : LocalFs G} {result : Bool} {c : LocalCall} {r : StdioReply} {s : G}
  {os : List Empty}

/-- The front of nothing. -/
theorem flushed_nil {f : G} {pos : ℕ} (hn : n ≤ 0) (hs : d.content s = some []) :
    flushed d f pos [] n s = some [] := by
  rw [flushed, Nat.le_zero.mp hn, storedFront, if_pos rfl]
  by_cases hf : s = f
  · rw [← hf, hs]
    exact Function.update_self _ _ _
  · rw [Function.update_of_ne hf]
    exact hs

/-- The stream that writes is not on the file. -/
def Away (s : G) (d : LocalFs G) : Prop := ∀ x, d.dst = some x → x.1 ≠ s

/-- Behind a stream on another file nothing is lost. -/
theorem LinuxStep.away (hs : LinuxStep linux d c r d') (hc : ∀ path, c = .fopenDst path →
    linux path.bytes ≠ s) (hd : Away s d) : d'.content s = d.content s ∧ Away s d' := by
  cases hs with
  | fopenDst path =>
    have hne := hc path rfl
    refine ⟨Function.update_of_ne hne.symm _ _,?_⟩
    rintro x ⟨⟩
    exact hne
  | fwrite data f pos held k n hdst hn =>
    have hne := hd _ hdst
    refine ⟨Function.update_of_ne hne.symm _ _,?_⟩
    rintro x ⟨⟩
    exact hne
  | fcloseDst f pos held n hdst hn => exact ⟨Function.update_of_ne (hd _ hdst).symm _ _,nofun⟩
  | _ => exact ⟨rfl,hd⟩

theorem localCopyLoop_callsIn :
    (localCopyLoop fuel).CallsIn fun c => ∀ path, c ≠ .fopenDst path := by
  induction fuel with
  | zero => trivial
  | succ fuel ih =>
    refine ⟨fun _ => nofun,fun n => ?_⟩
    dsimp only [done_bind]
    refine callsIn_ite.mpr ⟨fun _ => trivial,fun _ => ⟨fun _ => nofun,fun written => ?_⟩⟩
    refine callsIn_ite.mpr ⟨fun _ => ih,fun _ => ?_⟩
    exact ⟨fun _ => nofun,fun _ => ⟨fun _ => nofun,fun _ => trivial⟩⟩

theorem localCopy_callsIn : (localCopy confirm fuel src dst).CallsIn fun c =>
    ∀ path, c = .fopenDst path → path = dst := by
  refine ⟨fun _ => nofun,fun st => callsIn_ite.mpr ⟨fun _ => trivial,fun _ => ?_⟩⟩
  refine ⟨fun _ => nofun,fun s => callsIn_ite.mpr ⟨fun _ => trivial,fun _ => ?_⟩⟩
  refine ⟨fun _ path he => (LocalCall.fopenDst.inj he).symm,fun t => ?_⟩
  refine callsIn_ite.mpr ⟨fun _ => ⟨fun _ => nofun,fun _ => trivial⟩,fun _ => ?_⟩
  have hloop : (localCopyLoop fuel).CallsIn _ := localCopyLoop_callsIn
  refine CallsIn.bind (hloop.imp fun c hc path he => absurd he (hc path)) fun ended => ?_
  refine callsIn_ite.mpr ⟨fun _ => ⟨fun _ => nofun,fun error => ?_⟩,fun _ => trivial⟩
  refine callsIn_ite.mpr ⟨fun _ => ?_,fun _ => ?_⟩
  · exact ⟨fun _ => nofun,fun _ => trivial⟩
  · exact ⟨fun _ => nofun,fun _ => ⟨fun _ => nofun,fun _ => trivial⟩⟩

/-- The file is empty, what is read is read from it, and nothing is held. -/
def Quiet (s : G) (d : LocalFs G) : Prop :=
  d.content s = some [] ∧ (∀ x, d.src = some x → x.1 = s) ∧ ∀ x, d.dst = some x → x.2.2 = []

theorem LinuxStep.quiet (hs : LinuxStep linux d c r d') (hw : ∀ data, c ≠ .fwrite data)
    (ho : ∀ path, c = .fopenSrc path → linux path.bytes = s) (hd : Quiet s d) : Quiet s d' := by
  obtain ⟨hcont,hsrc,hdst⟩ := hd
  cases hs with
  | fopenSrc path =>
    refine ⟨hcont,?_,hdst⟩
    rintro x ⟨⟩
    exact ho path rfl
  | fopenDst path =>
    refine ⟨?_,hsrc,?_⟩
    · by_cases hp : s = linux path.bytes
      · rw [hp]
        exact Function.update_self _ _ _
      · exact (Function.update_of_ne hp _ _).trans hcont
    · rintro x ⟨⟩
      rfl
  | fread count bs f pos hs =>
    refine ⟨hcont,?_,hdst⟩
    rintro x ⟨⟩
    exact hsrc (f,pos) hs
  | fwrite data => exact absurd rfl (hw data)
  | fcloseSrc => exact ⟨hcont,nofun,hdst⟩
  | fcloseDst f pos held n hd hn =>
    obtain rfl := hdst _ hd
    exact ⟨flushed_nil hn hcont,hsrc,nofun⟩
  | _ => exact ⟨hcont,hsrc,hdst⟩

theorem localCopyLoop_quiet (hd : Quiet s d)
    (hx : Exec (LinuxStep linux) (localCopyLoop fuel) () d os result () d') : Quiet s d' := by
  cases fuel with
  | zero => exact hx.elim
  | succ fuel =>
    obtain ⟨r,d₁,hr,hx⟩ := hx
    have hq := hr.quiet nofun nofun hd
    have hnone : r.bytes = [] := by
      cases hr with
      | fread count bs f pos hs hp hl =>
        obtain rfl := hd.2.1 _ hs
        rw [hd.1, Option.getD_some, List.drop_nil] at hp
        exact List.prefix_nil.mp hp
    dsimp only [done_bind] at hx
    rw [if_pos hnone] at hx
    obtain ⟨-,-,-,rfl⟩ := hx
    exact hq

/-- What comes after the loop. -/
theorem localCopy_quiet (hd : Quiet (linux src.bytes) d)
    (hx : Exec (LinuxStep linux) (localCopy confirm fuel src dst) () d os result () d') :
    Quiet (linux src.bytes) d' := by
  obtain ⟨st,d₁,hst,hx⟩ := hx
  replace hd := hst.quiet nofun nofun hd
  obtain ⟨-,-,-,-,rfl⟩ | ⟨-,hx⟩ := exec_ite.mp hx
  · exact hd
  obtain ⟨s,d₂,hs,hx⟩ := hx
  replace hd := hs.quiet nofun (fun path he => by rw [LocalCall.fopenSrc.inj he]) hd
  obtain ⟨-,-,-,-,rfl⟩ | ⟨-,hx⟩ := exec_ite.mp hx
  · exact hd
  obtain ⟨t,d₃,ht,hx⟩ := hx
  replace hd := ht.quiet nofun nofun hd
  obtain ⟨-,hx⟩ | ⟨-,hx⟩ := exec_ite.mp hx
  · obtain ⟨q,d₄,hq,-,-,-,rfl⟩ := hx
    exact hq.quiet nofun nofun hd
  obtain ⟨os₁,ended,_,d₄,os₂,hloop,hx,-⟩ := exec_bind.mp hx
  replace hd := localCopyLoop_quiet hd hloop
  refine hx.invariant (Quiet (linux src.bytes))
    (P := fun c => (∀ data, c ≠ .fwrite data) ∧ ∀ path, c ≠ .fopenSrc path) ?_
    (fun e c r e₁ hc hs => hs.quiet hc.1 fun path he => absurd he (hc.2 path)) hd
  have hcalls {c : LocalCall} (hc : c = .ferrorSrc ∨ c = .fcloseSrc ∨ c = .fcloseDst) :
      (∀ data, c ≠ .fwrite data) ∧ ∀ path, c ≠ .fopenSrc path := by
    obtain rfl | rfl | rfl := hc <;> exact ⟨nofun,nofun⟩
  refine callsIn_ite.mpr ⟨fun _ => ⟨fun _ => hcalls (.inl rfl),fun error => ?_⟩,fun _ => trivial⟩
  refine callsIn_ite.mpr ⟨fun _ => ?_,fun _ => ?_⟩
  · exact ⟨fun _ => hcalls (.inr (.inl rfl)),fun _ => trivial⟩
  · exact ⟨fun _ => hcalls (.inr (.inr rfl)),
      fun _ => ⟨fun _ => hcalls (.inr (.inl rfl)),fun _ => trivial⟩⟩

/-- A local copy that does not clobber leaves the source as it was. -/
theorem localCopy_spares (hn : ¬ LocalClobbers linux content confirm src dst)
    (hx : Exec (LinuxStep linux) (localCopy confirm fuel src dst) ()
      ⟨content,none,none⟩ os result () d') :
    d'.content (linux src.bytes) = content (linux src.bytes) := by
  by_cases hst : linux src.bytes = linux dst.bytes
  · cases hold : content (linux src.bytes) with
    | none =>
      obtain ⟨st,d₁,hs,hx⟩ := hx
      obtain rfl : d₁ = ⟨content,none,none⟩ := by cases hs <;> rfl
      obtain ⟨-,-,-,-,rfl⟩ | ⟨-,hx⟩ := exec_ite.mp hx
      · exact hold
      obtain ⟨s,d₂,hs,hx⟩ := hx
      obtain ⟨hfail,rfl⟩ : s = .failed ∧ d₂ = ⟨content,none,none⟩ := by
        cases hs with
        | fopenSrc path he => exact absurd hold he
        | noSrc path => exact ⟨rfl,rfl⟩
      obtain ⟨-,-,-,-,rfl⟩ | ⟨hok,-⟩ := exec_ite.mp hx
      · exact hold
      · exact absurd (by rw [hfail]; rfl) hok
    | some old =>
      by_cases hempty : old = []
      · subst hempty
        have hstart : Quiet (linux src.bytes) ⟨content,none,none⟩ :=
          ⟨hold,by rintro _ ⟨⟩,by rintro _ ⟨⟩⟩
        exact (localCopy_quiet hstart hx).1
      · obtain ⟨st,d₁,hs,hx⟩ := hx
        obtain ⟨hok,rfl⟩ : st = .ok ∧ d₁ = ⟨content,none,none⟩ := by
          cases hs with
          | stat path he => exact ⟨rfl,rfl⟩
          | noStat path he =>
            rw [← hst] at he
            exact absurd (hold.symm.trans he) nofun
        have hno : confirm = false := by
          by_contra hyes
          exact hn ⟨hst,(Bool.not_eq_false _).mp hyes,old,hold,hempty⟩
        obtain ⟨-,-,-,-,rfl⟩ | ⟨hgo,-⟩ := exec_ite.mp hx
        · exact hold
        · exact absurd (by rw [hok, hno]; rfl) hgo
  · refine (hx.invariant (fun e => e.content (linux src.bytes) = content (linux src.bytes) ∧
      Away (linux src.bytes) e) localCopy_callsIn ?_ ⟨rfl,by rintro _ ⟨⟩⟩).1
    rintro e c r e₁ hc hs ⟨hcont,haway⟩
    obtain ⟨hsame,haway⟩ := hs.away (s := linux src.bytes)
      (fun path he => by rw [hc path he]; exact Ne.symm hst) haway
    exact ⟨hsame.trans hcont,haway⟩

/-- The copy of a file to itself: it is emptied and the copy reported. -/
theorem localCopy_clobbers (hc : LocalClobbers linux content confirm src dst) :
    ∃ d', Exec (LinuxStep linux) (localCopy confirm 1 src dst) ()
      ⟨content,none,none⟩ [] true () d' ∧ d'.content (linux src.bytes) = some [] := by
  obtain ⟨hst,rfl,old,hold,-⟩ := hc
  have hsome : content (linux src.bytes) ≠ none := by
    rw [hold]
    nofun
  let d₁ : LocalFs G := ⟨content,some (linux src.bytes,0),none⟩
  let d₂ : LocalFs G := ⟨Function.update content (linux dst.bytes) (some []),
    some (linux src.bytes,0),some (linux dst.bytes,0,[])⟩
  have h₂ : d₂.content (linux src.bytes) = some [] := by
    rw [hst]
    exact Function.update_self _ _ _
  let d₃ : LocalFs G := { d₂ with src := some (linux src.bytes,0+0) }
  let d₄ : LocalFs G :=
    { d₃ with content := flushed d₃ (linux dst.bytes) 0 [] 0, dst := none }
  let d₅ : LocalFs G := { d₄ with src := none }
  have hread : LinuxStep linux d₂ (.fread 8192) (.data []) d₃ :=
    .fread 8192 [] _ 0 rfl List.nil_prefix (Nat.zero_le _)
  have hloop : Exec (LinuxStep linux) (localCopyLoop 1) () d₂ [] true () d₃ :=
    ⟨.data [],d₃,hread,rfl,rfl,rfl,rfl⟩
  have hclose : LinuxStep linux d₃ .fcloseDst .ok d₄ := .fcloseDst _ 0 [] 0 rfl (Nat.le_refl 0)
  refine ⟨d₅,⟨.ok,_,.stat dst (hst ▸ hsome),.ok,d₁,.fopenSrc src hsome,.ok,d₂,.fopenDst dst,?_⟩,
    flushed_nil (Nat.le_refl 0) h₂⟩
  exact (exec_bind (p := localCopyLoop 1)).mpr ⟨[],true,(),d₃,[],hloop,
    ⟨.flag false,d₃,.ferrorSrc false,.ok,d₄,hclose,.ok,d₅,.fcloseSrc .ok,rfl,rfl,rfl,rfl⟩,rfl⟩

/-- What a local copy does to its source. -/
theorem localKept_iff :
    (∀ fuel os result d', Exec (LinuxStep linux) (localCopy confirm fuel src dst) ()
      ⟨content,none,none⟩ os result () d' →
        d'.content (linux src.bytes) = content (linux src.bytes)) ↔
      ¬ LocalClobbers linux content confirm src dst := by
  constructor
  · intro h hc
    obtain ⟨d',hx,hempty⟩ := localCopy_clobbers hc
    obtain ⟨-,-,old,hold,hne⟩ := hc
    have hsame := (h _ _ _ _ hx).symm.trans hempty
    rw [hold] at hsame
    exact hne (Option.some.inj hsame)
  · intro hn fuel os result d' hx
    exact localCopy_spares hn hx

/-! The remote half. -/

theorem toLower_pathCharFold {a : UInt8} (ha : a ≠ 0x2f) :
    toLower (pathCharFold a) = toLower a := by
  unfold pathCharFold
  split_ifs with h
  · have hup : 0x41 ≤ a-0x20 ∧ a-0x20 ≤ 0x5a := by grind
    have hlow : ¬ (0x41 ≤ a ∧ a ≤ 0x5a) := by grind
    rw [toLower, if_pos hup, toLower, if_neg hlow, UInt8.sub_add_cancel]
  · rfl

/-- Without a slash, names that DOS does not tell apart the commander does not either. -/
theorem toLower_of_dosPathEqual {a b : List UInt8} (ha : 0x2f ∉ a) (hb : 0x2f ∉ b)
    (h : dosPathEqual a b = true) : a.map toLower = b.map toLower := by
  induction a generalizing b with
  | nil =>
    cases b with
    | nil => rfl
    | cons y b => exact absurd h nofun
  | cons x a ih =>
    cases b with
    | nil => exact absurd h nofun
    | cons y b =>
      rw [List.mem_cons, not_or] at ha hb
      rw [dosPathEqual] at h
      split_ifs at h with hxy
      have hlow : toLower x = toLower y := by
        rw [← toLower_pathCharFold (Ne.symm ha.1), hxy, toLower_pathCharFold (Ne.symm hb.1)]
      rw [List.map_cons, List.map_cons, hlow, ih ha.2 hb.2 h]

section Remote
variable {remotePath source target : CString} {panel : RemotePanel} {input : Option CString}

/-- What the checks of the commander let through. -/
theorem remoteCopyNames_spec
    (h : remoteCopyNames remotePath panel input confirm = some (source,target)) :
    strcaseEq source target = false ∧ validateRemoteName source = true ∧
      validateRemoteName target = true := by
  unfold remoteCopyNames at h
  simp only [Option.bind_eq_bind, Option.bind_eq_some_iff, Option.ite_none_left_eq_some,
    Option.ite_none_right_eq_some, Option.some.injEq, Prod.mk.injEq] at h
  obtain ⟨-,entry,-,-,-,dst,-,-,hcase,-,hval,rfl,rfl⟩ := h
  simp only [Bool.or_eq_true, Bool.not_eq_true', not_or, Bool.not_eq_false] at hval
  exact ⟨Bool.not_eq_true _ ▸ hcase,hval⟩

theorem copyPacket_longEnough {client : MacAddr} {sessionId transferId : UInt32} :
    (copyPacket client sessionId transferId source target).LongEnough :=
  Nat.le_refl 132

variable {F : Type} [DecidableEq F] {resolve : List UInt8 → F} {mac : MacAddr}
  {s : FileTransferState × Files F}

/-- What a remote copy does to its source. -/
theorem remoteKept_iff (client : MacAddr) (sessionId transferId : UInt32)
    (hr : remoteCopyNames remotePath panel input confirm = some (source,target))
    (hs : s.1.pendingOp = .none) :
    (∀ s', ServedAgain resolve mac (copyPacket client sessionId transferId source target) s s' →
      s'.2.content (resolve source.bytes) = s.2.content (resolve source.bytes)) ↔
      ¬ Clobbers resolve s.2 source.bytes target.bytes := by
  obtain ⟨hcase,hsource,htarget⟩ := remoteCopyNames_spec hr
  obtain ⟨-,hlen,hslash⟩ := validateRemoteName_eq.mp hsource
  obtain ⟨-,hlen',hslash'⟩ := validateRemoteName_eq.mp htarget
  have hguard : dosPathEqual source.bytes target.bytes = false := by
    by_contra heq
    have hlow := toLower_of_dosPathEqual hslash hslash' ((Bool.not_eq_false _).mp heq)
    rw [strcaseEq, decide_eq_false_iff_not] at hcase
    exact hcase hlow
  have hp : (copyPacket client sessionId transferId source target).payload =
      .fileCopy transferId (snprintf 63 source) (snprintf 63 target) := rfl
  rw [← nameOf_snprintf hlen, ← nameOf_snprintf hlen'] at hguard ⊢
  exact (copySpares_iff hp copyPacket_longEnough hs).trans
    (or_iff_right (Bool.eq_false_iff.mp hguard))

end Remote

/-- A copy that was let through leaves its source as it was in every run exactly if the two paths do
not lead to one file with something in it, which can be opened twice or which the user confirms. -/
theorem sourceKept_iff {F : Type} [DecidableEq F] (resolve : List UInt8 → F) (mac client : MacAddr)
    (sessionId transferId : UInt32) (s : FileTransferState × Files F) (remotePath : CString)
    (panel : RemotePanel) (input : Option CString) (confirm : Bool) (source target : CString)
    (hr : remoteCopyNames remotePath panel input confirm = some (source,target))
    (hs : s.1.pendingOp = .none) (linux : List UInt8 → G) (content : G → Option (List UInt8))
    (localPanel : LocalPanel) (localInput : Option CString) (localConfirm : Bool)
    (src dst : CString) (_hl : localCopyNames localPanel localInput = some (src,dst)) :
    ((∀ s', ServedAgain resolve mac (copyPacket client sessionId transferId source target) s s' →
      s'.2.content (resolve source.bytes) = s.2.content (resolve source.bytes)) ↔
        ¬ Clobbers resolve s.2 source.bytes target.bytes) ∧
      ((∀ fuel os result d', Exec (LinuxStep linux) (localCopy localConfirm fuel src dst) ()
        ⟨content,none,none⟩ os result () d' →
          d'.content (linux src.bytes) = content (linux src.bytes)) ↔
        ¬ LocalClobbers linux content localConfirm src dst) :=
  ⟨remoteKept_iff client sessionId transferId hr hs,localKept_iff⟩

/-! Resolution by components, and a file named in two ways on either machine. -/

/-- A component of a full path; `..` does not lead out of the drive, which is the first. -/
def dosComponent (path : List (List UInt8)) (name : List UInt8) : List (List UInt8) :=
  if name = [] ∨ name = [46] then path
  else if name = [46,46] then path.take (max 1 (path.length-1))
  else path ++ [name]

/-- The components of a full path, in upper case. -/
def dosResolve (path : List UInt8) : List (List UInt8) :=
  ((path.map pathCharFold).splitOn backslash).foldl dosComponent []

def linuxComponent (path : List (List UInt8)) (name : List UInt8) : List (List UInt8) :=
  if name = [] ∨ name = [46] then path
  else if name = [46,46] then path.dropLast
  else path ++ [name]

/-- The components of an absolute path without links. -/
def linuxResolve (path : List UInt8) : List (List UInt8) :=
  (path.splitOn 0x2f).foldl linuxComponent []

/-- `C:\A` holds one byte. -/
def fileA : Files (List (List UInt8)) :=
  ⟨fun f => if f = [[0x43,0x3a],[0x41]] then [7] else [],fun _ => none⟩

def pathA : CString := ⟨[0x43,0x3a,0x5c,0x41],by decide⟩

/-- The user typed `.\A`. -/
def dotPathA : CString := ⟨[0x43,0x3a,0x5c,0x2e,0x5c,0x41],by decide⟩

/-- `/t/a` holds one byte. -/
def localFileA : List (List UInt8) → Option (List UInt8) :=
  fun f => if f = [[0x74],[0x61]] then some [7] else none

def localPanelA : LocalPanel := ⟨⟨[0x2f,0x74],by decide⟩,[⟨⟨[0x61],by decide⟩,false⟩],0⟩

def localPathA : CString := ⟨[0x2f,0x74,0x2f,0x61],by decide⟩

/-- The user typed `./a`. -/
def localDotPathA : CString := ⟨[0x2f,0x74,0x2f,0x2e,0x2f,0x61],by decide⟩

theorem remoteCopyNames_dot :
    remoteCopyNames remoteRoot onePanel (some ⟨[0x2e,0x5c,0x41],by decide⟩) false =
      some (pathA,dotPathA) := by
  decide

theorem localCopyNames_dot :
    localCopyNames localPanelA (some ⟨[0x2e,0x2f,0x61],by decide⟩) =
      some (localPathA,localDotPathA) := by
  decide

theorem clobbers_dot : Clobbers dosResolve fileA pathA.bytes dotPathA.bytes :=
  ⟨by decide,by decide,by decide,by decide,5,6,by decide,by decide,by decide,rfl,rfl⟩

theorem localClobbers_dot : LocalClobbers linuxResolve localFileA true localPathA localDotPathA :=
  ⟨by decide,rfl,[7],by decide,by decide⟩

/-- Either way the file is emptied, and success is reported. -/
theorem source_emptied :
    (remoteCopyNames remoteRoot onePanel (some ⟨[0x2e,0x5c,0x41],by decide⟩) false =
        some (pathA,dotPathA) ∧
      fileA.content (dosResolve pathA.bytes) = [7] ∧
      ∃ a s', ServedPacket dosResolve (Vector.replicate 6 0)
          (copyPacket (Vector.replicate 6 0) 1 2 pathA dotPathA) (fileTransferInit,fileA) [a] s' ∧
        a.body = .fileAck 2 .copy .ok 0 ∧ s'.2.content (dosResolve pathA.bytes) = []) ∧
      localCopyNames localPanelA (some ⟨[0x2e,0x2f,0x61],by decide⟩) =
        some (localPathA,localDotPathA) ∧
      localFileA (linuxResolve localPathA.bytes) = some [7] ∧
      ∃ d', Exec (LinuxStep linuxResolve) (localCopy true 1 localPathA localDotPathA) ()
          ⟨localFileA,none,none⟩ [] true () d' ∧
        d'.content (linuxResolve localPathA.bytes) = some [] := by
  refine ⟨⟨remoteCopyNames_dot,by decide,?_⟩,localCopyNames_dot,by decide,
    localCopy_clobbers localClobbers_dot⟩
  have hsource : nameOf (snprintf 63 pathA) = pathA.bytes := nameOf_snprintf (by decide)
  have htarget : nameOf (snprintf 63 dotPathA) = dotPathA.bytes := nameOf_snprintf (by decide)
  have hp : (copyPacket (Vector.replicate 6 0) 1 2 pathA dotPathA).payload =
      .fileCopy 2 (snprintf 63 pathA) (snprintf 63 dotPathA) := rfl
  have hc := clobbers_dot
  rw [← hsource] at hc ⊢
  rw [← htarget] at hc
  exact served_clobbers hp copyPacket_longEnough rfl (by rw [hsource, htarget]; decide) hc

theorem sourceKept_iff_dot :
    ((∀ s', ServedAgain dosResolve (Vector.replicate 6 0)
        (copyPacket (Vector.replicate 6 0) 1 2 pathA dotPathA) (fileTransferInit,fileA) s' →
      s'.2.content (dosResolve pathA.bytes) = fileA.content (dosResolve pathA.bytes)) ↔
        ¬ Clobbers dosResolve fileA pathA.bytes dotPathA.bytes) ∧
      ((∀ fuel os result d', Exec (LinuxStep linuxResolve)
        (localCopy true fuel localPathA localDotPathA) () ⟨localFileA,none,none⟩ os result () d' →
          d'.content (linuxResolve localPathA.bytes) =
            localFileA (linuxResolve localPathA.bytes)) ↔
        ¬ LocalClobbers linuxResolve localFileA true localPathA localDotPathA) :=
  sourceKept_iff dosResolve (Vector.replicate 6 0) (Vector.replicate 6 0) 1 2
    (fileTransferInit,fileA) remoteRoot onePanel _ false pathA dotPathA remoteCopyNames_dot rfl
    linuxResolve localFileA localPanelA _ true localPathA localDotPathA localCopyNames_dot

end RmtDos
