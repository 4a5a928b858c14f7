import RmtDos.Dos.Process

/-! Whose files the TSR works on. The idle step runs under whatever process is current, so a
transfer stays with its file exactly as long as the process under which it was begun has not
exited. -/
namespace RmtDos
open Resumable Prog Runs Dos Processes

variable {mac : MacAddr} {fuel : ℕ} {g g' : FileTransferState} {d d' : Processes} {os : List Reply}

/-- The pending operation makes a call with the handle of the transfer. -/
def UsesHandle (g : FileTransferState) : Prop :=
  match g.pendingOp with
  | .putBegin | .getBegin => g.active = true ∧ ¬ g.handle < 0
  | .putEnd | .getEnd => ¬ g.handle < 0
  | .putData => g.chunkOffset = g.expectedOffset
  | .getDataReq => getRefused g = false
  | _ => False

/-- The process under which the transfer was begun has not exited when its handle is used. -/
def OwnerPresent (s : FileTransferState × Processes) : ForegroundEvent → Prop
  | .idle _ => UsesHandle s.1 → s.2.owner ≠ none
  | _ => True

/-- The invariant between two steps. -/
structure Tracked (g : FileTransferState) (d : Processes) : Prop where
  numbered : d.Numbered
  handle : ¬ g.handle < 0 → ∃ i above below, d.transfer = some i ∧ i < d.nextFile ∧
    d.HeldAt g.handle.toUInt16 i above below
  inTransfer : InTransfer g → ¬ g.handle < 0
  pending : g.pendingOp = .putData ∨ g.pendingOp = .getDataReq → InTransfer g

/-- The handle leads to the file of the transfer as long as the owner is there. -/
theorem Tracked.own_iff (hI : Tracked g d) (hh : ¬ g.handle < 0) :
    d.entered.Own g.handle.toUInt16 ↔ d.owner ≠ none := by
  obtain ⟨i,above,below,ht,-,htab,hheld,habs,howner⟩ := hI.handle hh
  cases above with
  | nil =>
    have hc : d.current ∈ below := by
      rw [List.nil_append] at htab
      exact htab ▸ List.mem_cons_self
    refine iff_of_false ?_ (by simp [howner])
    rintro ⟨j,hj,hj' | hj'⟩
    · obtain rfl : i = j := Option.some.inj (ht.symm.trans hj')
      exact habs _ hc _ hj
    · exact absurd (hI.numbered _ List.mem_cons_self _ _ hj) (Nat.not_lt.mpr hj')
  | cons t above =>
    obtain ⟨rfl,-⟩ := List.cons.inj htab
    exact iff_of_true ⟨i,hheld _ List.mem_cons_self,.inl ht⟩ (by simp [howner])

/-! The idle step, when the handle leads elsewhere. -/

theorem strays_closed {b : Bool} {k : Int16} (h : Closed Processes.Step b k d d')
    (h₀ : d.strays ≠ [] ∨ (b = true ∧ ¬ k < 0 ∧ ¬ d.Own k.toUInt16)) : d'.strays ≠ [] := by
  unfold Closed at h
  split_ifs at h with hb
  · obtain ⟨r,hr⟩ := h
    obtain rfl := hr
    exact strays_act (h₀.elim .inr fun h => .inl h.2.2)
  · rw [h]
    exact h₀.resolve_right fun h' => hb ⟨h'.1,h'.2.1⟩

theorem strays_idle (hu : UsesHandle g) (ho : ¬ d.Own g.handle.toUInt16)
    (hh : ¬ g.handle < 0) (he : Exec Processes.Step (fileTransferProcessIdle mac fuel) g d os () g' d') :
    d'.strays ≠ [] := by
  obtain ⟨hn,-⟩ | ⟨-,he⟩ := exec_idle.mp he
  · simp [UsesHandle, hn] at hu
  unfold UsesHandle at hu
  cases hp : g.pendingOp with
  | putBegin =>
    rw [hp] at hu he
    obtain ⟨d₁,r,hc,hs,-⟩ := exec_putBegin.mp he
    exact hs.strays (strays_closed hc (.inr ⟨hu.1,hh,ho⟩))
  | putData =>
    rw [hp] at hu he
    obtain ⟨hne,-⟩ | ⟨-,r,hs,-⟩ := exec_putData.mp he
    · exact absurd hu hne
    · obtain rfl := hs
      exact strays_act (.inl ho)
  | putEnd =>
    rw [hp] at he
    obtain ⟨hc,-⟩ := exec_putEnd.mp he
    exact strays_closed hc (.inr ⟨rfl,hh,ho⟩)
  | getBegin =>
    rw [hp] at hu he
    obtain ⟨d₁,r,d₂,hc,hs,hend⟩ := exec_getBegin.mp he
    have h₂ : d₂.strays ≠ [] := hs.strays (strays_closed hc (.inr ⟨hu.1,hh,ho⟩))
    obtain ⟨-,rfl,-⟩ | ⟨-,found,d₃,⟨_,_,_,_,_,_,q₁,q₂,q₃,q₄⟩,hend⟩ := hend
    · exact h₂
    have h₃ : d₃.strays ≠ [] := q₄.strays (q₃.strays (q₂.strays (q₁.strays h₂)))
    obtain ⟨-,rfl,-⟩ | ⟨-,hc',-⟩ := hend
    · exact h₃
    · exact strays_closed hc' (.inl h₃)
  | getDataReq =>
    rw [hp] at hu he
    obtain ⟨hr,-⟩ | ⟨-,r,d₁,hs,hend⟩ := exec_getDataReq.mp he
    · exact absurd (show getRefused g = true from hr) (by simp [hu])
    have h₁ : d₁.strays ≠ [] := by
      obtain rfl := hs
      exact strays_act (.inl ho)
    obtain ⟨-,rfl,-⟩ | ⟨-,q,hq,-⟩ := hend
    · exact h₁
    · exact hq.strays h₁
  | getEnd =>
    rw [hp] at he
    obtain ⟨hc,-⟩ := exec_getEnd.mp he
    exact strays_closed hc (.inr ⟨rfl,hh,ho⟩)
  | _ => simp [hp] at hu

/-! The idle step, when every call leads to a file of its own. -/

theorem kept_exec {α : Type} {p : Tsr α} {a : α} (h : Exec Processes.Step p g d os a g' d')
    (hn : d.Numbered) : SameProcess d d' ∧ d'.Numbered := by
  refine h.invariant_all (fun e => SameProcess d e ∧ e.Numbered) ?_ ⟨.refl d,hn⟩
  rintro e c r e₁ hs ⟨hsame,hnum⟩
  obtain ⟨hsame',hnum'⟩ := hs.kept hnum
  exact ⟨hsame.trans hsame',hnum'⟩

theorem closed_own {b : Bool} {k : Int16} (h : Closed Processes.Step b k d d')
    (ho : b = true → ¬ k < 0 → d.Own k.toUInt16) :
    (¬ (b = true ∧ ¬ k < 0) ∧ d' = d) ∨ d' = d.setHandle k.toUInt16 none := by
  unfold Closed at h
  split_ifs at h with hb
  · obtain ⟨r,hr⟩ := h
    obtain rfl := hr
    rw [act_of_own (ho hb.1 hb.2)]
    exact .inr rfl
  · exact .inl ⟨hb,h⟩

/-- A file just opened is closed again. -/
theorem closed_opened_own {k : Int16} (hk : ¬ k < 0) (hf : d.current k.toUInt16 = none)
    (hb : d.base ≤ d.nextFile) (h : Closed Processes.Step true k (d.opened k.toUInt16) d') :
    d' = { d with nextFile := d.nextFile+1 } := by
  have ho : (d.opened k.toUInt16).Own k.toUInt16 := ⟨d.nextFile,setHandle_self,.inr hb⟩
  simp only [Closed, hk, not_false_eq_true, and_self, if_true] at h
  obtain ⟨r,hr⟩ := h
  obtain rfl := hr
  rw [act_of_own ho]
  have hu : Function.update d.current k.toUInt16 none = d.current :=
    Function.update_eq_self_iff.mpr hf.symm
  simp only [Processes.opened, Processes.setHandle, Function.update_idem, hu]

theorem copyLoop_own {hin hout : Int16} {n : UInt32} {result : Bool × UInt32}
    (h : Exec Processes.Step (copyLoop hin hout fuel n) g d os result g' d')
    (hi : d.Own hin.toUInt16) (ho : d.Own hout.toUInt16) : d' = d := by
  refine h.invariant (· = d) (copyLoop_callsIn hin hout n) ?_ rfl
  rintro e c r e₁ hc hs rfl
  cases c with
  | read k count =>
    obtain rfl : k = hin.toUInt16 := hc
    exact hs.trans (act_of_own hi)
  | write k data =>
    obtain rfl : k = hout.toUInt16 := hc
    exact hs.trans (act_of_own ho)
  | _ => exact hc.elim

/-- A copy works on the two files it opens, and leaves the handle table as it was. -/
theorem copyFile_own {result : Bool × UInt32}
    (h : Exec Processes.Step (dosCopyFile fuel) g d os result g' d') (hb : d.base ≤ d.nextFile) :
    d'.current = d.current ∧ d'.strays = d.strays := by
  obtain ⟨-,r,d₁,ho,⟨hr,-,-,rfl⟩ | ⟨hr,q,d₂,hq,h⟩⟩ := exec_dosCopyFile.mp h
  · obtain ⟨-,rfl⟩ | ⟨hn,-⟩ := ho.open_cases (.inr ⟨_,rfl⟩)
    · exact ⟨rfl,rfl⟩
    · exact absurd hr hn
  obtain ⟨hn,-⟩ | ⟨-,hf,rfl⟩ := ho.open_cases (.inr ⟨_,rfl⟩)
  · exact absurd hn hr
  obtain ⟨hn,-,-,hc⟩ | ⟨hn,d₃,d₄,hl,h₁,h₂⟩ := h
  · obtain ⟨-,rfl⟩ | ⟨hn',-⟩ := hq.open_cases (.inl ⟨_,rfl⟩)
    · exact closed_opened_own hr hf hb hc ▸ ⟨rfl,rfl⟩
    · exact absurd hn hn'
  obtain ⟨hn',-⟩ | ⟨-,hf',rfl⟩ := hq.open_cases (.inl ⟨_,rfl⟩)
  · exact absurd hn' hn
  have hne : (handleOf r).toUInt16 ≠ (handleOf q).toUInt16 := by
    intro he
    rw [← he] at hf'
    simp [Processes.opened] at hf'
  have hin : ((d.opened (handleOf r).toUInt16).opened (handleOf q).toUInt16).Own
      (handleOf r).toUInt16 := ⟨d.nextFile,(setHandle_of_ne hne).trans setHandle_self,.inr hb⟩
  have hout : ((d.opened (handleOf r).toUInt16).opened (handleOf q).toUInt16).Own
      (handleOf q).toUInt16 := ⟨d.nextFile+1,setHandle_self,.inr (hb.trans (Nat.le_succ _))⟩
  obtain rfl := copyLoop_own hl hin hout
  obtain rfl := closed_opened_own hn hf' (hb.trans (Nat.le_succ _)) h₁
  have hu : Function.update d.current (handleOf r).toUInt16 none = d.current :=
    Function.update_eq_self_iff.mpr hf.symm
  obtain ⟨hno,-⟩ | rfl := closed_own h₂ fun _ _ => ⟨d.nextFile,setHandle_self,.inr hb⟩
  · exact absurd ⟨rfl,hr⟩ hno
  · exact ⟨by simp [Processes.opened, Processes.setHandle, hu],rfl⟩

/-- The next state after an operation that leaves the transfer and its handle alone. -/
theorem Tracked.same (hI : Tracked g d) (hh : g'.handle = g.handle) (ha : g'.active = g.active)
    (hm : g'.mode = g.mode) (hp : g'.pendingOp = .none) (hc : d'.current = d.current)
    (hk : SameProcess d.entered d') (hn : d'.Numbered) : Tracked g' d' := by
  refine ⟨hn,?_,?_,by simp [hp]⟩
  · rw [hh]
    intro h
    obtain ⟨i,above,below,ht,hi,htab,hheld,habs,howner⟩ := hI.handle h
    refine ⟨i,above,below,hk.transfer.trans ht,hi.trans_le hk.nextFile,?_,hheld,habs,
      hk.owner.trans howner⟩
    rw [hc, hk.parents]
    exact htab
  · rw [InTransfer, ha, hm, hh]
    exact hI.inTransfer

/-- The next state after the end of a transfer, or a `BEGIN` that failed. -/
theorem Tracked.ended (hh : g'.handle < 0) (ht : ¬ InTransfer g') (hp : g'.pendingOp = .none)
    (hn : d'.Numbered) : Tracked g' d' :=
  ⟨hn,fun h => absurd hh h,fun h => absurd h ht,by simp [hp]⟩

/-- The next state after a `BEGIN` that opened a file: the current process owns it. -/
theorem Tracked.begun {op : FileOp} (hop : op = .putBegin ∨ op = .getBegin) (hh : ¬ g'.handle < 0)
    (hp : g'.pendingOp = .none) (hn : d.Numbered) :
    Tracked g' ((d.opened g'.handle.toUInt16).remember op g') := by
  have hr : (d.opened g'.handle.toUInt16).remember op g' =
      { d.opened g'.handle.toUInt16 with
        transfer := some d.nextFile, owner := some d.parents.length } := by
    rw [remember, if_pos hop, if_neg hh]
    simp [Processes.opened, Processes.setHandle]
  rw [hr]
  refine ⟨hn.opened,fun _ => ?_,fun _ => hh,by simp [hp]⟩
  refine ⟨d.nextFile,[(d.opened g'.handle.toUInt16).current],d.parents,rfl,Nat.lt_succ_self _,
    rfl,?_,fun t ht k hk => ?_,rfl⟩
  · simp [Processes.opened, Processes.setHandle]
  · exact lt_irrefl _ (hn t (List.mem_cons_of_mem _ ht) k _ hk)

theorem numbered_remember {op : FileOp} (hn : d.Numbered) : (d.remember op g).Numbered := by
  unfold remember
  split <;> exact hn

theorem remember_other {op : FileOp} (hop : ¬ (op = .putBegin ∨ op = .getBegin)) :
    d.remember op g = d := if_neg hop

theorem strays_remember {op : FileOp} : (d.remember op g).strays = d.strays := by
  unfold remember
  split <;> rfl

/-- The close at the start of a `BEGIN`. -/
theorem begin_closed {k : Int16} {b : Bool} (hn : d.Numbered)
    (hc : Closed Processes.Step b k d.entered d')
    (ho : b = true → ¬ k < 0 → d.entered.Own k.toUInt16) :
    d'.strays = d.strays ∧ d'.Numbered ∧ d'.base ≤ d'.nextFile := by
  obtain ⟨-,rfl⟩ | rfl := closed_own hc ho
  · exact ⟨rfl,hn,le_rfl⟩
  · exact ⟨rfl,Numbered.setHandle hn nofun,le_rfl⟩

theorem sizeQuery_same {name : List UInt8} {found : DosRegs}
    (h : SizeQuery Processes.Step name d found d') : d' = d := by
  obtain ⟨_,_,_,_,_,_,h₀,h₁,h₂,h₃⟩ := h
  rw [h₃, h₂, h₁, h₀]

theorem collect_same {result : FileAckStatus × UInt16}
    (h : Exec Processes.Step (collectDirEntries fuel) g d os result g' d') : d' = d := by
  refine h.invariant (· = d) collectDirEntries_callsIn ?_ rfl
  rintro e c r e₁ hc hs rfl
  cases c <;> first | exact hs | exact hc.elim

theorem putBegin_proper
    (he : Exec Processes.Step (idleOp mac fuel .putBegin) g d.entered os () g' d') (hn : d.Numbered)
    (hs : d.strays = []) (ho : g.active = true → ¬ g.handle < 0 → d.entered.Own g.handle.toUInt16)
    (hp : g.pendingOp = .none) :
    d'.strays = [] ∧ Tracked g' (d'.remember .putBegin g') := by
  obtain ⟨d₁,r,hc,hr,rfl,-⟩ := exec_putBegin.mp he
  obtain ⟨hs₁,hn₁,-⟩ := begin_closed hn hc ho
  obtain ⟨hneg,rfl⟩ | ⟨hnn,-,rfl⟩ := hr.open_cases (.inl ⟨_,rfl⟩)
  · refine ⟨hs₁.trans hs,.ended hneg ?_ hp (numbered_remember hn₁)⟩
    simp [InTransfer, Int16.not_le.mpr hneg]
  · exact ⟨hs₁.trans hs,.begun (.inl rfl) hnn hp hn₁⟩

theorem getBegin_proper
    (he : Exec Processes.Step (idleOp mac fuel .getBegin) g d.entered os () g' d') (hn : d.Numbered)
    (hs : d.strays = []) (ho : g.active = true → ¬ g.handle < 0 → d.entered.Own g.handle.toUInt16)
    (hp : g.pendingOp = .none) :
    d'.strays = [] ∧ Tracked g' (d'.remember .getBegin g') := by
  have hminus : (-1 : Int16) < 0 := by decide
  obtain ⟨d₁,r,d₂,hc,hr,hend⟩ := exec_getBegin.mp he
  obtain ⟨hs₁,hn₁,hb₁⟩ := begin_closed hn hc ho
  obtain ⟨hneg,rfl,rfl,-⟩ | ⟨hnn,found,d₃,hq,hend⟩ := hend
  · obtain ⟨-,rfl⟩ | ⟨hnn,-⟩ := hr.open_cases (.inr ⟨_,rfl⟩)
    · exact ⟨hs₁.trans hs,.ended hminus (by simp [InTransfer, getClosed]) hp (numbered_remember hn₁)⟩
    · exact absurd hneg hnn
  obtain ⟨hneg,-⟩ | ⟨-,hf,rfl⟩ := hr.open_cases (.inr ⟨_,rfl⟩)
  · exact absurd hneg hnn
  obtain rfl := sizeQuery_same hq
  obtain ⟨-,rfl,rfl,-⟩ | ⟨-,hc',rfl,-⟩ := hend
  · rw [eq_of_sansDir (sansDir_storeDta found)]
    exact ⟨hs₁.trans hs,.begun (.inr rfl) hnn hp hn₁⟩
  · obtain rfl := closed_opened_own hnn hf hb₁ hc'
    rw [eq_of_sansDir (sansDir_storeDta found)]
    exact ⟨hs₁.trans hs,.ended hminus (by simp [InTransfer, getClosed]) hp
      (numbered_remember (hn₁.mono (Nat.le_succ _)))⟩

/-- With the owner there, an idle step works on its own files only. -/
theorem idle_proper (hI : Tracked g d) (hs : d.strays = []) (ho : UsesHandle g → d.owner ≠ none)
    (he : Exec Processes.Step (fileTransferProcessIdle mac fuel) g d.entered os () g' d') :
    d'.strays = [] ∧ Tracked g' (d'.remember g.pendingOp g') := by
  obtain ⟨hk,hn'⟩ := kept_exec he hI.numbered
  have hown (hu : UsesHandle g) (hh : ¬ g.handle < 0) : d.entered.Own g.handle.toUInt16 :=
    (hI.own_iff hh).mpr (ho hu)
  obtain ⟨hn,-,rfl,rfl⟩ | ⟨hn,he⟩ := exec_idle.mp he
  · rw [hn, remember_other (by decide)]
    exact ⟨hs,hI.same rfl rfl rfl hn rfl (.refl _) hn'⟩
  unfold UsesHandle at hown
  cases hp : g.pendingOp with
  | none => exact absurd hp hn
  | putBegin =>
    rw [hp] at hown he
    exact putBegin_proper he hI.numbered hs (fun ha hh => hown ⟨ha,hh⟩ hh) rfl
  | putData =>
    rw [hp] at hown he
    rw [remember_other (by decide)]
    have hh := hI.inTransfer (hI.pending (.inl hp))
    obtain ⟨-,rfl,rfl,-⟩ | ⟨hoff,r,hw,hend⟩ := exec_putData.mp he
    · exact ⟨hs,hI.same rfl rfl rfl rfl rfl hk hn'⟩
    · obtain rfl := hw.trans (act_of_own (hown hoff hh))
      obtain ⟨-,rfl,-⟩ | ⟨-,rfl,-⟩ := hend <;> exact ⟨hs,hI.same rfl rfl rfl rfl rfl hk hn'⟩
  | putEnd =>
    rw [hp] at hown he
    rw [remember_other (by decide)]
    obtain ⟨hc,rfl,-⟩ := exec_putEnd.mp he
    have hs' : d'.strays = [] := by
      obtain ⟨-,rfl⟩ | rfl := closed_own hc fun _ hh => hown hh hh <;> exact hs
    exact ⟨hs',.ended (show (-1 : Int16) < 0 by decide) (by simp [InTransfer]) rfl hn'⟩
  | ack =>
    rw [hp] at he
    rw [remember_other (by decide)]
    obtain ⟨rfl,rfl,-⟩ := exec_ack.mp he
    exact ⟨hs,hI.same rfl rfl rfl rfl rfl hk hn'⟩
  | getBegin =>
    rw [hp] at hown he
    exact getBegin_proper he hI.numbered hs (fun ha hh => hown ⟨ha,hh⟩ hh) rfl
  | getDataReq =>
    rw [hp] at hown he
    rw [remember_other (by decide)]
    have hh := hI.inTransfer (hI.pending (.inr hp))
    obtain ⟨chunk,count,offset,rfl⟩ := getDataReq_record he
    obtain ⟨-,rfl,-⟩ | ⟨hr,r,d₁,hseek,⟨-,rfl,-⟩ | ⟨-,q,hread,-⟩⟩ := exec_getDataReq.mp he
    · exact ⟨hs,hI.same rfl rfl rfl rfl rfl hk hn'⟩
    · obtain rfl := hseek.trans (act_of_own (hown hr hh))
      exact ⟨hs,hI.same rfl rfl rfl rfl rfl hk hn'⟩
    · obtain rfl := hseek.trans (act_of_own (hown hr hh))
      obtain rfl := hread.trans (act_of_own (hown hr hh))
      exact ⟨hs,hI.same rfl rfl rfl rfl rfl hk hn'⟩
  | getEnd =>
    rw [hp] at hown he
    rw [remember_other (by decide)]
    obtain ⟨hc,rfl,-⟩ := exec_getEnd.mp he
    have hs' : d'.strays = [] := by
      obtain ⟨-,rfl⟩ | rfl := closed_own hc fun _ hh => hown hh hh <;> exact hs
    exact ⟨hs',.ended (show (-1 : Int16) < 0 by decide) (by simp [InTransfer]) rfl hn'⟩
  | dirListDataReq =>
    rw [hp] at he
    rw [remember_other (by decide)]
    obtain ⟨result,hc,-⟩ := exec_dirListDataReq.mp he
    obtain rfl := collect_same hc
    rw [eq_of_sansDir (hc.keeps collectDirEntries_keeps)]
    exact ⟨hs,hI.same rfl rfl rfl rfl rfl hk hn'⟩
  | mkdir =>
    rw [hp] at he
    rw [remember_other (by decide)]
    obtain ⟨r,hr,rfl,-⟩ := exec_mkdir.mp he
    obtain rfl := hr
    exact ⟨hs,hI.same rfl rfl rfl rfl rfl hk hn'⟩
  | delete =>
    rw [hp] at he
    rw [remember_other (by decide)]
    obtain ⟨r,hr,rfl,-⟩ := exec_delete.mp he
    obtain rfl : d' = d.entered := by
      unfold deleteCall at hr
      split at hr <;> exact hr
    exact ⟨hs,hI.same rfl rfl rfl rfl rfl hk hn'⟩
  | rename =>
    rw [hp] at he
    rw [remember_other (by decide)]
    obtain ⟨-,rfl,rfl,-⟩ | ⟨-,r,hr,rfl,-⟩ := exec_rename.mp he
    · exact ⟨hs,hI.same rfl rfl rfl rfl rfl hk hn'⟩
    · obtain rfl := hr
      exact ⟨hs,hI.same rfl rfl rfl rfl rfl hk hn'⟩
  | copy =>
    rw [hp] at he
    rw [remember_other (by decide)]
    obtain ⟨-,rfl,rfl,-⟩ | ⟨-,result,g₁,hc,rfl,-⟩ := exec_copy.mp he
    · exact ⟨hs,hI.same rfl rfl rfl rfl rfl hk hn'⟩
    · obtain ⟨hcur,hstr⟩ := copyFile_own hc le_rfl
      rw [eq_of_sansChunk (hc.keeps dosCopyFile_keeps)]
      exact ⟨hstr.trans hs,hI.same rfl rfl rfl rfl hcur hk hn'⟩

theorem tracked_packet {p : Packet} (hI : Tracked g d) :
    Tracked (fileTransferHandlePacket p g) d := by
  obtain he | ⟨hadm,hacc⟩ := handlePacket_cases p g
  · rwa [he]
  have hh := handlePacket_handle p g
  refine ⟨hI.numbered,hh ▸ hI.handle,fun ht => hh ▸ hI.inTransfer (inTransfer_of_handlePacket ht),?_⟩
  generalize fileTransferHandlePacket p g = g₂ at hacc
  cases hacc with
  | putData t offset count data hp ha hm => exact fun _ => ⟨ha,.inl hm⟩
  | getDataReq t offset count hp ha hm => exact fun _ => ⟨ha,.inr hm⟩
  | dirListBegin | dirListEnd => simp [rememberClient, hadm.1]
  | _ => simp [ackQueued]

/-! The foreground between the steps of the TSR. -/

theorem Tracked.foreground (hI : Tracked g d) (hn : d'.Numbered) (ht : d'.transfer = d.transfer)
    (hle : d.nextFile ≤ d'.nextFile) (hh : ∀ i above below, d.transfer = some i → i < d.nextFile →
      d.HeldAt g.handle.toUInt16 i above below →
      ∃ above' below', d'.HeldAt g.handle.toUInt16 i above' below') : Tracked g d' := by
  refine ⟨hn,fun h => ?_,hI.inTransfer,hI.pending⟩
  obtain ⟨i,above,below,hi,hlt,hheld⟩ := hI.handle h
  obtain ⟨above',below',hheld'⟩ := hh i above below hi hlt hheld
  exact ⟨i,above',below',ht.trans hi,hlt.trans_le hle,hheld'⟩

theorem Tracked.started (hI : Tracked g d) : Tracked g d.started := by
  refine hI.foreground ?_ rfl le_rfl fun i above below _ _ hd => ?_
  · intro t ht
    exact hI.numbered t (by simpa [Processes.started] using ht)
  · obtain ⟨htab,hheld,habs,howner⟩ := hd
    cases above with
    | nil =>
      refine ⟨[],d.current :: below,by simpa [Processes.started] using htab,nofun,?_,howner⟩
      have hc : d.current ∈ below := by
        rw [List.nil_append] at htab
        exact htab ▸ List.mem_cons_self
      intro t ht
      obtain rfl | ht := List.mem_cons.mp ht
      · exact habs _ hc
      · exact habs t ht
    | cons t above =>
      obtain ⟨rfl,hps⟩ := List.cons.inj htab
      refine ⟨d.current :: d.current :: above,below,by simp [Processes.started, hps],?_,habs,howner⟩
      simpa using hheld

theorem Tracked.exited (hI : Tracked g d) (hp : d.parents ≠ []) : Tracked g d.exited := by
  obtain ⟨p,ps,hps⟩ := List.exists_cons_of_ne_nil hp
  have hd : d.exited = { d with
      current := p, parents := ps
      owner := if d.owner = some (p :: ps).length then none else d.owner } := by
    simp only [Processes.exited, hps]
  rw [hd]
  refine hI.foreground ?_ rfl le_rfl fun i above below _ _ hheld => ?_
  · intro t ht
    exact hI.numbered t (List.mem_cons_of_mem _ (hps ▸ ht))
  obtain ⟨htab,hheld,habs,howner⟩ := hheld
  rw [hps] at htab
  cases above with
  | nil =>
    refine ⟨[],p :: ps,rfl,nofun,fun t ht => habs t ?_,by simp [howner]⟩
    rw [List.nil_append] at htab
    exact htab ▸ List.mem_cons_of_mem _ ht
  | cons t above =>
    obtain ⟨rfl,hrest⟩ := List.cons.inj htab
    refine ⟨above,below,hrest,fun t ht => hheld t (List.mem_cons_of_mem _ ht),habs,?_⟩
    -- the owner is the last of `above`, so it exits exactly if it is alone there
    have hlen : (p :: ps).length = above.length+below.length := by
      rw [hrest]
      exact List.length_append
    simp only [howner, reduceCtorEq, if_false, Option.some.injEq, hlen]
    cases above with
    | nil => simp
    | cons u above => simp

theorem Tracked.openFile {h : UInt16} (hI : Tracked g d) (hf : d.current h = none) :
    Tracked g (d.opened h) := by
  refine hI.foreground hI.numbered.opened rfl (Nat.le_succ _) fun i above below _ hlt hd => ?_
  have hfile : some d.nextFile ≠ some i := by
    simpa using hlt.ne'
  have hne : d.current h ≠ some i := by simp [hf]
  obtain ⟨above',below',h₁,h₂,h₃,h₄⟩ := hd.setHandle hfile hne
  exact ⟨above',below',h₁,h₂,h₃,h₄⟩

theorem Tracked.closeFile {h : UInt16} (hI : Tracked g d) (hf : d.current h ≠ d.transfer) :
    Tracked g (d.setHandle h none) :=
  hI.foreground (hI.numbered.setHandle nofun) rfl le_rfl fun _ _ _ hi _ hd =>
    hd.setHandle nofun (hi ▸ hf)

theorem tracked_step {s s' : FileTransferState × Processes} {e : ForegroundEvent}
    (hI : Tracked s.1 s.2) (hg : s.2.strays = []) (ho : OwnerPresent s e)
    (hs : ForegroundStep mac s e s') : Tracked s'.1 s'.2 ∧ s'.2.strays = [] := by
  cases e with
  | packet p =>
    obtain rfl := hs
    exact ⟨tracked_packet hI,hg⟩
  | idle sent =>
    obtain ⟨d,⟨fuel,he⟩,hd⟩ := hs
    obtain ⟨hstr,hI'⟩ := idle_proper hI hg ho he
    rw [hd, strays_remember]
    exact ⟨hI',hstr⟩
  | start =>
    obtain rfl := hs
    exact ⟨hI.started,hg⟩
  | exit =>
    obtain ⟨hp,rfl⟩ := hs
    refine ⟨hI.exited hp,?_⟩
    simp only [Processes.exited]
    split <;> exact hg
  | openFile h =>
    obtain ⟨hf,rfl⟩ := hs
    exact ⟨hI.openFile hf,hg⟩
  | closeFile h =>
    obtain ⟨hf,rfl⟩ := hs
    exact ⟨hI.closeFile hf,hg⟩

/-- An idle step that uses the handle when the owner has exited goes astray. -/
theorem ownerPresent_of_proper {s s' : FileTransferState × Processes} {e : ForegroundEvent}
    (hI : Tracked s.1 s.2) (hs : ForegroundStep mac s e s') (hg : s'.2.strays = []) :
    OwnerPresent s e := by
  cases e with
  | idle sent =>
    intro hu howner
    obtain ⟨d,⟨fuel,he⟩,hd⟩ := hs
    have hh : ¬ s.1.handle < 0 := by
      have hin := hI.inTransfer
      have hpend := hI.pending
      unfold UsesHandle at hu
      cases hp : s.1.pendingOp with
      | putData => exact hin (hpend (.inl hp))
      | getDataReq => exact hin (hpend (.inr hp))
      | putBegin | getBegin =>
        rw [hp] at hu
        exact hu.2
      | putEnd | getEnd =>
        rw [hp] at hu
        exact hu
      | _ => simp [hp] at hu
    have hno : ¬ s.2.entered.Own s.1.handle.toUInt16 := fun h => (hI.own_iff hh).mp h howner
    have hstr : d.strays ≠ [] := strays_idle hu hno hh he
    rw [hd, strays_remember] at hg
    exact hstr hg
  | _ => trivial

/-- In every run of the TSR and the foreground, all calls of the TSR lead to files of its own
exactly if the process of the `BEGIN` is there whenever the handle of the transfer is used. -/
theorem ownFiles_iff {d₀ : Processes} {tr : List (ForegroundEvent × (FileTransferState × Processes))}
    (hn : d₀.Numbered) (h₀ : d₀.strays = [])
    (h : Run (ForegroundStep mac) (fileTransferInit,d₀) tr) :
    (∀ x ∈ tr, x.2.2.strays = []) ↔ Along OwnerPresent (fileTransferInit,d₀) tr := by
  refine h.exact (fun s => Tracked s.1 s.2 ∧ s.2.strays = []) (fun s => s.2.strays = []) ?_
    (fun s hs => hs.2) (fun s e s' hI hs hg => ownerPresent_of_proper hI.1 hs hg) ?_
  · exact fun s e s' hI ho hs => tracked_step hI.1 hI.2 ho hs
  · refine ⟨⟨hn,fun h => absurd (show (-1 : Int16) < 0 by decide) h,?_,?_⟩,h₀⟩
    · simp [InTransfer, fileTransferInit]
    · simp [fileTransferInit]

/-! An upload begun under a program that exits before the first chunk is written. -/

def shell : Processes := ⟨fun _ => none,[],0,none,none,0,[]⟩

def beginUpload : Packet :=
  ⟨Vector.replicate 6 1,1,72,.filePutBegin 7 1 (Vector.replicate 64 0x41)⟩

def uploadChunk : Packet := ⟨Vector.replicate 6 1,1,11,.filePutData 7 0 1 [0x58]⟩

/-- The record after the `BEGIN`, with the file behind handle 5, and with the chunk queued. -/
def begunRecord : FileTransferState :=
  { (fileTransferHandlePacket beginUpload fileTransferInit).taken with
    handle := 5, active := true, mode := .put }

def chunkRecord : FileTransferState := fileTransferHandlePacket uploadChunk begunRecord

/-- The processes `d` after the idle step of the `BEGIN`. -/
def begunUnder (d : Processes) : Processes :=
  (d.entered.opened 5).remember .putBegin begunRecord

theorem begin_step {d : Processes} (hf : d.current 5 = none) :
    ForegroundStep (Vector.replicate 6 0) (fileTransferHandlePacket beginUpload fileTransferInit,d)
      (.idle [ackOf (Vector.replicate 6 0) begunRecord .begin .ok 0]) (begunRecord,begunUnder d) := by
  have hop : (fileTransferHandlePacket beginUpload fileTransferInit).pendingOp ≠ .none := by decide
  refine ⟨d.entered.opened 5,(tsrIdle_op hop).mpr ⟨0,?_⟩,rfl⟩
  refine exec_putBegin.mpr ⟨d.entered,⟨false,5,0,0,0,[]⟩,rfl,?_,rfl,rfl⟩
  exact ⟨by decide,hf,rfl⟩

/-- The chunk is written under `d`, wherever the handle leads there. -/
theorem chunk_step (d : Processes) :
    ForegroundStep (Vector.replicate 6 0) (chunkRecord,d)
      (.idle [ackOf (Vector.replicate 6 0) chunkRecord .data .ok 1])
      ({ chunkRecord.taken with expectedOffset := 1 },
        d.entered.act (.write 5 (chunkRecord.chunk.toList.take 1)) 5) := by
  have hop : chunkRecord.pendingOp ≠ .none := by decide
  refine ⟨_,(tsrIdle_op hop).mpr ⟨0,?_⟩,rfl⟩
  exact exec_putData.mpr (.inr ⟨rfl,⟨false,1,0,0,0,[]⟩,rfl,.inl ⟨rfl,rfl,rfl⟩⟩)

/-- The steps of the TSR from `BEGIN` to the first chunk, under the processes `d` and `e`. -/
def beginSteps (d : Processes) : List (ForegroundEvent × (FileTransferState × Processes)) :=
  [(.packet beginUpload,fileTransferHandlePacket beginUpload fileTransferInit,d),
    (.idle [ackOf (Vector.replicate 6 0) begunRecord .begin .ok 0],begunRecord,begunUnder d)]

def chunkSteps (e : Processes) : List (ForegroundEvent × (FileTransferState × Processes)) :=
  [(.packet uploadChunk,chunkRecord,e),
    (.idle [ackOf (Vector.replicate 6 0) chunkRecord .data .ok 1],
      { chunkRecord.taken with expectedOffset := 1 },
      e.entered.act (.write 5 (chunkRecord.chunk.toList.take 1)) 5)]

/-- Begun under the shell, which stays: the chunk is written to the file of the upload. -/
theorem ownFiles_iff_shell :
    (∀ x ∈ beginSteps shell ++ chunkSteps (begunUnder shell), x.2.2.strays = []) ↔
      Along OwnerPresent (fileTransferInit,shell)
        (beginSteps shell ++ chunkSteps (begunUnder shell)) :=
  @ownFiles_iff (Vector.replicate 6 0) shell _ (by simp [shell, Processes.Numbered]) rfl
    (.cons rfl (.cons (begin_step rfl) (.cons rfl (.cons (chunk_step _) (.nil _)))))

/-- The upload is begun under a program that the shell has started; it exits, and the shell
opens a file of its own as handle 5. -/
def otherProgram : Processes := (begunUnder shell.started).exited.opened 5

/-- The chunk goes to the file of the shell. -/
theorem chunk_astray :
    Run (ForegroundStep (Vector.replicate 6 0)) (fileTransferInit,shell)
        ((.start,fileTransferInit,shell.started) :: beginSteps shell.started ++
          (.exit,begunRecord,(begunUnder shell.started).exited) ::
            (.openFile 5,begunRecord,otherProgram) :: chunkSteps otherProgram) ∧
      otherProgram.transfer = some 0 ∧ otherProgram.current 5 = some 1 ∧
      (otherProgram.entered.act (.write 5 (chunkRecord.chunk.toList.take 1)) 5).strays =
        [.write 5 (chunkRecord.chunk.toList.take 1)] := by
  refine ⟨.cons rfl (.cons rfl (.cons (begin_step rfl) (.cons ⟨nofun,rfl⟩ (.cons ⟨rfl,rfl⟩
    (.cons rfl (.cons (chunk_step _) (.nil _))))))),rfl,rfl,?_⟩
  have hown : ¬ otherProgram.entered.Own 5 := by decide
  rw [act, if_neg hown]
  rfl

end RmtDos
