import RmtDos.Server.UpToDate

/-! When an update sends nothing, every viewer has the screen, if the last sweep was undisturbed and
began after all of them had joined. -/
namespace RmtDos
open Runs

variable {screens : FrameBuffer → VideoState → Prop} {K : SweepKind} {Of : VideoState → Prop}
  {mem mem₀ : FrameBuffer} {video video₀ : VideoState} {m m' : SessionMgr} {now : UInt32}
  {t t' : SessionTable} {sent sent' : Fin 4 → List ScreenFrame} {holders holders' : Fin 4 → Bool}
  {r : SweepRecord} {n : ℕ}

/-- The holders with a session in use have been sent the first `n` bytes of the screen. -/
def Held (t : SessionTable) (sent : Fin 4 → List ScreenFrame) (holders : Fin 4 → Bool)
    (mem : FrameBuffer) (video : VideoState) (n : ℕ) : Prop :=
  ∀ i : Fin 4, (t.slot i).inUse → holders i → ∀ j < n, ∃ f ∈ sent i, f.Carries mem video j

/-- What a record says. -/
def RecordInv (screens : FrameBuffer → VideoState → Prop) (K : SweepKind) (Of : VideoState → Prop)
    (m : SessionMgr) (sent : Fin 4 → List ScreenFrame) : SweepRecord → Prop
  | .broken => True
  | .going mem video holders => screens mem video ∧ Of video ∧ K.chksum m = K.sum mem video ∧
      (0 < K.pos m video ∧ K.pos m video < K.total video) ∧
      Held m.sessions sent holders mem video (K.pos m video)
  | .complete mem video holders => screens mem video ∧ Of video ∧ K.chksum m = K.sum mem video ∧
      Held m.sessions sent holders mem video (K.total video)

/-- Sessions end, and more is sent. -/
structure Later (t : SessionTable) (sent : Fin 4 → List ScreenFrame) (t' : SessionTable)
    (sent' : Fin 4 → List ScreenFrame) : Prop where
  inUse : ∀ i : Fin 4, (t'.slot i).inUse → (t.slot i).inUse
  sent : ∀ i, ∀ f ∈ sent i, f ∈ sent' i

theorem Held.later (h : Held t sent holders mem video n) (hl : Later t sent t' sent') :
    Held t' sent' holders mem video n := by
  intro i hi hh j hj
  obtain ⟨f,hf,hc⟩ := h i (hl.inUse i hi) hh j hj
  exact ⟨f,hl.sent i f hf,hc⟩

theorem RecordInv.cutOff (h : RecordInv screens K Of m sent r) (hsum : K.chksum m' = K.chksum m)
    (hl : Later m.sessions sent m'.sessions sent') :
    RecordInv screens K Of m' sent' r.cutOff := by
  cases r with
  | broken => trivial
  | going => trivial
  | complete mem video holders =>
    obtain ⟨hs,hof,hc,hheld⟩ := h
    exact ⟨hs,hof,hsum.trans hc,hheld.later hl⟩

/-- A new slot has been sent nothing, but is no holder. -/
theorem RecordInv.join {i : Fin 4} (h : RecordInv screens K Of m sent r)
    (hsum : K.chksum m' = K.chksum m) (hpos : ∀ v, K.pos m' v = K.pos m v)
    (hother : ∀ k : Fin 4, k ≠ i → m'.sessions.slot k = m.sessions.slot k) :
    RecordInv screens K Of m' (Function.update sent i []) (r.join i) := by
  have hheld {mem : FrameBuffer} {video : VideoState} {holders : Fin 4 → Bool} {n : ℕ}
      (hh : Held m.sessions sent holders mem video n) :
      Held m'.sessions (Function.update sent i []) (Function.update holders i false) mem video
        n := by
    intro k hk hold j hj
    by_cases hki : k = i
    · subst hki
      simp at hold
    · rw [Function.update_of_ne hki] at hold ⊢
      rw [hother k hki] at hk
      exact hh k hk hold j hj
  cases r with
  | broken => trivial
  | going mem video holders =>
    obtain ⟨hs,hof,hc,hp,hh⟩ := h
    rw [SweepRecord.join, RecordInv, hpos, hsum]
    exact ⟨hs,hof,hc,hp,hheld hh⟩
  | complete mem video holders =>
    obtain ⟨hs,hof,hc,hh⟩ := h
    exact ⟨hs,hof,hsum.trans hc,hheld hh⟩

/-- Each session in use gets a frame with the bytes of the chunk. -/
theorem chunk_carries {body : UInt16 → UInt16 → ScreenBody} {frames : List ScreenFrame}
    {range : ℕ × ℕ} {i : Fin 4} {j : ℕ} (hb : Bodies K Of video body)
    (hsent : ChunkSent mem body t frames range) (hi : (t.slot i).inUse) (hof : Of video₀)
    (hsame : K.same video₀ video) (heq : screenSlice mem range = screenSlice mem₀ range)
    (hl : range.1 ≤ j) (hu : j < range.1+range.2) :
    ∃ f ∈ frames.filter fun f => f.to (t.slot i), f.Carries mem₀ video₀ j := by
  obtain ⟨payloadLen,offset,count,rfl,hoff,-⟩ := hsent
  have hmem : t.slot i ∈ t.toList := Vector.mem_toList_iff.mpr (Vector.getElem_mem _)
  refine ⟨⟨(t.slot i).macAddr,(t.slot i).sessionId,payloadLen,body offset count,screenSlice mem range⟩,
    List.mem_filter.mpr ⟨mem_sendToSessions.mpr ⟨_,hmem,hi,rfl⟩,by simp [ScreenFrame.to]⟩,?_⟩
  have hk : j-range.1 < (screenSlice mem₀ range).length := by
    rw [length_screenSlice]
    omega
  refine hb _ _ _ offset count j hof hsame rfl (hoff ▸ hl) ?_
  simp only [heq, hoff, List.getElem?_eq_getElem hk, screenSlice_getElem]
  rw [Nat.add_sub_cancel' hl]

theorem recordInv_upTo (hs : screens mem video) (hof : Of video)
    (hc : K.chksum m = K.sum mem video) (hpos : K.pos m video = n) (h0 : 0 < n)
    (hn : n ≤ K.total video) (hh : Held m.sessions sent holders mem video n) :
    RecordInv screens K Of m sent (SweepRecord.upTo K n mem video holders) := by
  unfold SweepRecord.upTo
  split
  next hlt =>
    subst hpos
    exact ⟨hs,hof,hc,⟨h0,hlt⟩,hh⟩
  next hge =>
    have hend : n = K.total video := by omega
    exact ⟨hs,hof,hc,hend ▸ hh⟩

/-- The slots with what an update has sent them. -/
def sentTo (t : SessionTable) (frames : List ScreenFrame) (sent : Fin 4 → List ScreenFrame)
    (i : Fin 4) : List ScreenFrame := sent i ++ frames.filter fun f => f.to (t.slot i)

theorem later_sentTo (now : UInt32) (t : SessionTable) (frames : List ScreenFrame)
    (sent : Fin 4 → List ScreenFrame) :
    Later t sent (pruneSessions now t) (sentTo (pruneSessions now t) frames sent) := by
  refine ⟨fun i hi => ?_,fun i f hf => List.mem_append_left _ hf⟩
  obtain h | h := slot_prune now t i
  · exact h ▸ hi
  · rw [h] at hi
    exact absurd hi (by decide)

theorem next_start (h : K.AtStart m video) (r : SweepRecord) : r.next K m mem video =
    if K.sum mem video = K.chksum m then r.cutOff
    else SweepRecord.upTo K (min (K.step video) (K.total video)) mem video fun _ => true := by
  unfold SweepRecord.next
  exact if_pos h

theorem next_going (h : ¬ K.AtStart m video) :
    (SweepRecord.going mem₀ video₀ holders).next K m mem video =
      if K.same video₀ video ∧
          screenSlice mem (K.range m video) = screenSlice mem₀ (K.range m video) then
        .upTo K ((K.range m video).1+(K.range m video).2) mem₀ video₀ holders
      else .broken := by
  unfold SweepRecord.next
  exact if_neg h

theorem next_complete (h : ¬ K.AtStart m video) :
    (SweepRecord.complete mem₀ video₀ holders).next K m mem video =
      .complete mem₀ video₀ holders := by
  unfold SweepRecord.next
  exact if_neg h

theorem next_broken (h : ¬ K.AtStart m video) :
    SweepRecord.broken.next K m mem video = .broken := by
  unfold SweepRecord.next
  exact if_neg h

/-- An update of the kind makes the record that it should make. -/
theorem RecordInv.next (hk : KindSpec K Of) (hu : KindUpdate K Of mem video now m) (hof : Of video)
    (hs : screens mem video) (h : RecordInv screens K Of m sent r) :
    RecordInv screens K Of (sessionMgrUpdateAll mem video now m).2
      (sentTo (pruneSessions now m.sessions) (sessionMgrUpdateAll mem video now m).1 sent)
      (r.next K m mem video) := by
  have hsess := updateAll_sessions mem video now m
  have hlater := later_sentTo now m.sessions (sessionMgrUpdateAll mem video now m).1 sent
  have hsum := hu.chksum
  rw [← hsess] at hlater ⊢
  -- a chunk that carries a screen reaches all slots
  have hnew {mem₀ : FrameBuffer} {video₀ : VideoState} (hno : ¬ K.Unchanged m mem video)
      (hof₀ : Of video₀) (hsame : K.same video₀ video)
      (heq : screenSlice mem (K.chunk m video) = screenSlice mem₀ (K.chunk m video)) {i : Fin 4}
      (hi : ((sessionMgrUpdateAll mem video now m).2.sessions.slot i).inUse) {j : ℕ}
      (hl : (K.chunk m video).1 ≤ j) (hj : j < (K.chunk m video).1+(K.chunk m video).2) :
      ∃ f ∈ sentTo (sessionMgrUpdateAll mem video now m).2.sessions
        (sessionMgrUpdateAll mem video now m).1 sent i, f.Carries mem₀ video₀ j := by
    obtain ⟨body,hb,hsent⟩ := hu.sends hno
    rw [← hsess] at hsent
    obtain ⟨f,hf,hc⟩ := chunk_carries hb hsent hi hof₀ hsame heq hl hj
    exact ⟨f,List.mem_append_right _ hf,hc⟩
  by_cases hstart : K.AtStart m video
  · rw [if_pos hstart] at hsum
    rw [next_start hstart]
    by_cases hc : K.sum mem video = K.chksum m
    · rw [if_pos hc]
      exact h.cutOff (hsum.trans hc) hlater
    · have hno : ¬ K.Unchanged m mem video := fun hun => hc hun.2
      have hmoves := hu.moves hno
      rw [SweepKind.chunk, if_pos hstart] at hnew hmoves
      rw [if_neg hc]
      refine recordInv_upTo hs hof hsum (hmoves.trans (Nat.zero_add _)) (hk.pos_of video hof)
        (Nat.min_le_right ..) fun i hi _ j hj => ?_
      exact hnew hno hof (hk.same_refl video) rfl hi (Nat.zero_le j) (by rwa [Nat.zero_add])
  · have hno : ¬ K.Unchanged m mem video := fun hun => hstart hun.1
    have hmoves := hu.moves hno
    rw [if_neg hstart] at hsum
    rw [SweepKind.chunk, if_neg hstart] at hnew hmoves
    cases r with
    | broken =>
      rw [next_broken hstart]
      trivial
    | complete mem₀ video₀ holders =>
      obtain ⟨hs₀,hof₀,hc₀,hh⟩ := h
      rw [next_complete hstart]
      exact ⟨hs₀,hof₀,hsum.trans hc₀,hh.later hlater⟩
    | going mem₀ video₀ holders =>
      obtain ⟨hs₀,hof₀,hc₀,⟨h0,hlt⟩,hh⟩ := h
      rw [next_going hstart]
      split
      next hcond =>
        obtain ⟨hsame,heq⟩ := hcond
        have hp := hk.pos_same video₀ video m hsame
        have htotal := hk.total_same video₀ video hsame
        rw [hp] at h0 hlt hh
        refine recordInv_upTo hs₀ hof₀ (hsum.trans hc₀)
          ((hk.pos_same video₀ video _ hsame).trans hmoves) ?_ ?_ fun i hi hold j hj => ?_
        · simp only [SweepKind.range]
          omega
        · simp only [SweepKind.range]
          omega
        · by_cases hjp : j < K.pos m video
          · exact hh.later hlater i hi hold j hjp
          · exact hnew hno hof₀ hsame heq hi (Nat.le_of_not_lt hjp) hj
      next => trivial

/-! The whole state. -/

theorem sendCgaChunk_videoChksum (mem : FrameBuffer) (video : VideoState) (m : SessionMgr) :
    (sendCgaChunk mem video m).2.videoChksum = m.videoChksum := by
  rw [sendCgaChunk]

theorem sendCga_videoChksum (mem : FrameBuffer) (video : VideoState) (m : SessionMgr) :
    (sessionMgrSendCgaGraphics mem video m).2.videoChksum = m.videoChksum := by
  have hm : (wrapOffset m).videoChksum = m.videoChksum := by
    unfold wrapOffset
    split <;> rfl
  rw [sendCga_wrapOffset]
  split_ifs
  · exact hm
  · exact (sendCgaChunk_videoChksum ..).trans hm
  · exact (sendCgaChunk_videoChksum ..).trans hm

theorem sendText_cga (mem : FrameBuffer) (video : VideoState) (m : SessionMgr) :
    (sessionMgrSendText mem video m).2.cgaGraphicsChksum = m.cgaGraphicsChksum ∧
      (sessionMgrSendText mem video m).2.cgaNextOffset = m.cgaNextOffset := by
  have hm : (wrapRow video m).cgaGraphicsChksum = m.cgaGraphicsChksum ∧
      (wrapRow video m).cgaNextOffset = m.cgaNextOffset := by
    unfold wrapRow
    split <;> exact ⟨rfl,rfl⟩
  rw [sendText_wrapRow]
  split_ifs
  · exact hm
  · exact hm
  · exact hm

/-- An update of another kind, or without sessions, leaves the checksum alone. -/
theorem updateAll_videoChksum (h : ¬ ((pruneSessions now m.sessions).any Session.inUse ∧
    ¬ isCgaGraphicsMode video.videoMode)) :
    (sessionMgrUpdateAll mem video now m).2.videoChksum = m.videoChksum := by
  unfold sessionMgrUpdateAll
  dsimp only
  split_ifs with hlive hmode
  · exact sendCga_videoChksum ..
  · exact absurd ⟨hlive,hmode⟩ h
  · rfl

theorem updateAll_cgaChksum (h : ¬ ((pruneSessions now m.sessions).any Session.inUse ∧
    isCgaGraphicsMode video.videoMode)) :
    (sessionMgrUpdateAll mem video now m).2.cgaGraphicsChksum = m.cgaGraphicsChksum := by
  unfold sessionMgrUpdateAll
  dsimp only
  split_ifs with hlive hmode
  · exact absurd ⟨hlive,hmode⟩ h
  · exact (sendText_cga ..).1
  · rfl

theorem wordOffset_sendCga (h : WordOffset m) (mem : FrameBuffer) (video : VideoState) :
    WordOffset (sessionMgrSendCgaGraphics mem video m).2 := by
  obtain ⟨-,hoff⟩ := wrapOffset_offset h video
  have hword : WordOffset (wrapOffset m) := by
    rw [WordOffset, hoff]
    exact Nat.dvd_mul_left 2 _
  have hsent (sum : UInt16) : WordOffset
      (sendCgaChunk mem video { wrapOffset m with cgaGraphicsChksum := sum }).2 := by
    obtain ⟨-,hnext,-⟩ := @sendCgaChunk_spec mem { wrapOffset m with cgaGraphicsChksum := sum } _
      video hoff (startWord_lt video)
    rw [WordOffset, hnext]
    exact Nat.dvd_mul_left 2 _
  rw [sendCga_wrapOffset]
  split_ifs
  · exact hword
  · exact hsent _
  · exact hsent _

theorem wordOffset_updateAll (h : WordOffset m) (mem : FrameBuffer) (video : VideoState)
    (now : UInt32) : WordOffset (sessionMgrUpdateAll mem video now m).2 := by
  unfold sessionMgrUpdateAll
  dsimp only
  split_ifs
  · exact @wordOffset_sendCga
      { m with sessions := pruneSessions now m.sessions, videoNextRow := 0 } h mem video
  · rw [WordOffset, (sendText_cga ..).2]
    exact Nat.dvd_zero 2
  · exact Nat.dvd_zero 2

/-- What holds between the steps. -/
structure ViewInv (screens : FrameBuffer → VideoState → Prop) (s : Viewers) : Prop where
  screen : screens s.mem s.video
  word : WordOffset s.m
  text : RecordInv screens textKind TextScreen s.m s.sent s.text
  cga : RecordInv screens cgaKind CgaScreen s.m s.sent s.cga

variable {s s' : Viewers} {e : ViewEvent}

theorem ViewInv.tick (hd : DistinctScreens screens) (h : ViewInv screens s) (now : UInt32) :
    ViewInv screens (s.tick now) := by
  have hlater : Later s.m.sessions s.sent (sessionMgrUpdateAll s.mem s.video now s.m).2.sessions
      (sentTo (pruneSessions now s.m.sessions) (sessionMgrUpdateAll s.mem s.video now s.m).1
        s.sent) := by
    rw [updateAll_sessions]
    exact later_sentTo ..
  refine ⟨h.screen,wordOffset_updateAll h.word _ _ _,?_,?_⟩
  · simp only [Viewers.tick]
    split
    next hc =>
      obtain ⟨hlive,hmode⟩ := hc
      have hv := hd.valid _ _ h.screen (by simpa using hmode)
      exact h.text.next text_spec (text_update hv hlive) hv h.screen
    next hc => exact h.text.cutOff (updateAll_videoChksum hc) hlater
  · simp only [Viewers.tick]
    split
    next hc =>
      obtain ⟨hlive,hmode⟩ := hc
      exact h.cga.next cga_spec (cga_update hmode h.word hlive) hmode h.screen
    next hc => exact h.cga.cutOff (updateAll_cgaChksum hc) hlater

theorem RecordInv.later (h : RecordInv screens K Of m sent r) (hsum : K.chksum m' = K.chksum m)
    (hpos : ∀ v, K.pos m' v = K.pos m v) (hl : Later m.sessions sent m'.sessions sent') :
    RecordInv screens K Of m' sent' r := by
  cases r with
  | broken => trivial
  | going mem video holders =>
    obtain ⟨hs,hof,hc,hp,hh⟩ := h
    rw [RecordInv, hpos, hsum]
    exact ⟨hs,hof,hc,hp,hh.later hl⟩
  | complete mem video holders =>
    obtain ⟨hs,hof,hc,hh⟩ := h
    exact ⟨hs,hof,hsum.trans hc,hh.later hl⟩

/-- A client that has a slot, or gets none, changes no record. -/
theorem ViewInv.later (h : ViewInv screens s) {t : SessionTable}
    (ht : ∀ i : Fin 4, (t.slot i).inUse → (s.m.sessions.slot i).inUse) :
    ViewInv screens { s with m := { s.m with sessions := t } } := by
  have hl : Later s.m.sessions s.sent t s.sent := ⟨ht,fun _ _ hf => hf⟩
  exact ⟨h.screen,h.word,h.text.later rfl (fun _ => rfl) hl,h.cga.later rfl (fun _ => rfl) hl⟩

theorem ViewInv.join (h : ViewInv screens s) (macAddr : MacAddr) (sessionId now : UInt32) :
    ViewInv screens (s.join macAddr sessionId now) := by
  have hcases := start_cases macAddr sessionId now s.m.sessions
  unfold Viewers.join
  extract_lets r s'
  split
  next i hfind hi =>
    have hother (k : Fin 4) (hk : k ≠ i) : r.2.slot k = s.m.sessions.slot k := by
      obtain ⟨l,-,hl⟩ | ⟨-,⟨l,heq,-⟩ | ⟨heq,-⟩⟩ := hcases
      · exact absurd hl (find_none hfind l)
      · have hli : l = i := Option.some.inj ((congrArg Prod.fst heq).symm.trans hi)
        rw [congrArg Prod.snd heq, Vector.slot_put, if_neg (hli ▸ hk.symm)]
      · rw [congrArg Prod.snd heq]
    exact ⟨h.screen,h.word,h.text.join rfl (fun _ => rfl) hother,
      h.cga.join rfl (fun _ => rfl) hother⟩
  next hno =>
    refine h.later fun i hi => ?_
    obtain ⟨l,heq,-⟩ | ⟨hnone,⟨l,heq,-⟩ | ⟨heq,-⟩⟩ := hcases
    · rw [congrArg Prod.snd heq, Vector.slot_put] at hi
      split at hi
      next hli => exact hli ▸ hi
      next => exact hi
    · have hfind : sessionMgrFind macAddr sessionId s.m.sessions = none := by
        cases hf : sessionMgrFind macAddr sessionId s.m.sessions with
        | none => rfl
        | some k => exact absurd (find_some hf) (hnone k)
      exact absurd (congrArg Prod.fst heq) (hno l hfind)
    · rwa [congrArg Prod.snd heq] at hi

theorem ViewInv.step (hd : DistinctScreens screens) (h : ViewInv screens s)
    (hs : ViewStep screens s e s') : ViewInv screens s' := by
  obtain ⟨rfl,hscreen⟩ := hs
  cases e with
  | tick now => exact h.tick hd now
  | start macAddr sessionId now => exact h.join macAddr sessionId now
  | write mem => exact ⟨hscreen,h.word,h.text,h.cga⟩
  | mode video => exact ⟨hscreen,h.word,h.text,h.cga⟩

theorem viewInv_start (h : screens mem video) : ViewInv screens (Viewers.start mem video) :=
  ⟨h,Nat.dvd_zero 2,trivial,trivial⟩

/-! Updates that send nothing. -/

theorem kindOf_cga (h : isCgaGraphicsMode video.videoMode = true) : kindOf video = cgaKind :=
  if_pos h

theorem kindOf_text (h : isCgaGraphicsMode video.videoMode = false) : kindOf video = textKind :=
  if_neg (by rw [h]; decide)

/-- A byte of one screen is the byte of another screen of the mode. -/
theorem ScreenFrame.Carries.congr {f : ScreenFrame} {j : ℕ} (h : f.Carries mem₀ video₀ j)
    (hmode : isCgaGraphicsMode video₀.videoMode = isCgaGraphicsMode video.videoMode)
    (hsame : (kindOf video).same video₀ video)
    (hbyte : mem₀ (UInt16.ofNat j) = mem (UInt16.ofNat j)) : f.Carries mem video j := by
  unfold ScreenFrame.Carries at h ⊢
  rw [hmode, hbyte] at h
  split
  next hbody =>
    simp only [hbody] at h
    obtain ⟨htext,hrows,hcols,hin⟩ := h
    have hdims : video₀.textRows = video.textRows ∧ video₀.textCols = video.textCols := by
      simpa [kindOf_text htext, textKind] using hsame
    exact ⟨htext,hrows.trans hdims.1,hcols.trans hdims.2,hin⟩
  next hbody =>
    simp only [hbody] at h
    obtain ⟨hcga,hvideo,hin⟩ := h
    have hv : video₀.videoMode = video.videoMode := by
      simpa [kindOf_cga hcga, cgaKind] using hsame
    exact ⟨hcga,hvideo.trans hv,hin⟩

/-- With a session in use, an update sends nothing exactly if the checksum is unchanged at the start
of a sweep. -/
theorem KindUpdate.sends_nothing_iff (hu : KindUpdate K Of mem video now m)
    (hlive : (pruneSessions now m.sessions).any Session.inUse) :
    (sessionMgrUpdateAll mem video now m).1 = [] ↔ K.Unchanged m mem video := by
  refine ⟨fun hnil => ?_,hu.quiet⟩
  by_contra hno
  obtain ⟨body,-,payloadLen,offset,count,hframes,-⟩ := hu.sends hno
  obtain ⟨i,hi,huse⟩ := Vector.any_eq_true.mp hlive
  have hmem := @mem_sendToSessions (pruneSessions now m.sessions) payloadLen (body offset count)
    (screenSlice mem (K.chunk m video))
  rw [← hframes, hnil] at hmem
  exact List.not_mem_nil (hmem.mpr
    ⟨_,Vector.mem_toList_iff.mpr (Vector.getElem_mem hi),huse,rfl⟩)

/-- The checksum is the only reason for an update to send nothing. -/
theorem ViewInv.quiet_iff (hd : DistinctScreens screens) (h : ViewInv screens s) (e : ViewEvent) :
    s.Quiet e ↔ s.Silent e := by
  cases e with
  | tick now =>
    refine and_congr_right fun hlive => ?_
    cases hmode : isCgaGraphicsMode s.video.videoMode with
    | true =>
      rw [kindOf_cga hmode]
      exact ((cga_update hmode h.word hlive).sends_nothing_iff hlive).symm
    | false =>
      rw [kindOf_text hmode]
      exact ((text_update (hd.valid _ _ h.screen hmode) hlive).sends_nothing_iff hlive).symm
  | start macAddr sessionId now => exact Iff.rfl
  | write mem => exact Iff.rfl
  | mode video => exact Iff.rfl

/-- What the record of the kind says. -/
theorem ViewInv.record (h : ViewInv screens s) (hr : s.record = .complete mem video holders) :
    screens mem video ∧
      isCgaGraphicsMode video.videoMode = isCgaGraphicsMode s.video.videoMode ∧
      (kindOf s.video).chksum s.m = (kindOf s.video).sum mem video ∧
      ((kindOf s.video).same video s.video →
        Held s.m.sessions s.sent holders mem video (screenSize s.video)) := by
  cases hmode : isCgaGraphicsMode s.video.videoMode with
  | true =>
    have hcga := h.cga
    rw [Viewers.record, if_pos hmode] at hr
    rw [hr] at hcga
    obtain ⟨hs,hof,hc,hh⟩ := hcga
    rw [kindOf_cga hmode, screenSize, if_pos hmode]
    exact ⟨hs,hof,hc,fun _ => hh⟩
  | false =>
    have htext := h.text
    rw [Viewers.record, if_neg (by rw [hmode]; decide)] at hr
    rw [hr] at htext
    obtain ⟨hs,hof,hc,hh⟩ := htext
    rw [kindOf_text hmode, screenSize, if_neg (by rw [hmode]; decide)]
    refine ⟨hs,hof.text,hc,fun hsame => ?_⟩
    have htotal : screenBytes video = screenBytes s.video := text_spec.total_same _ _ hsame
    rw [← htotal]
    exact hh

theorem ViewInv.upToDate (hd : DistinctScreens screens) (h : ViewInv screens s)
    (hq : s.Quiet (.tick now)) (hswept : s.Swept (.tick now)) : UpToDate (s.tick now) := by
  obtain ⟨mem₀,video₀,holders,hr,hsame,hall⟩ := hswept hq
  obtain ⟨hs₀,hmode,hc,hheld⟩ := h.record hr
  obtain ⟨-,-,hsum⟩ := hq
  have hbytes := hd.distinct _ _ _ _ hs₀ h.screen hmode hsame (hc.symm.trans hsum.symm)
  intro i hi j hj
  have hi' : ((pruneSessions now s.m.sessions).slot i).inUse := by
    rw [← updateAll_sessions s.mem s.video]
    exact hi
  have hold := (later_sentTo now _ [] s.sent).inUse i hi'
  obtain ⟨f,hf,hcarries⟩ := hheld hsame i hold (hall i hi') j hj
  exact ⟨f,List.mem_append_left _ hf,hcarries.congr hmode hsame (hbytes j hj)⟩

/-- In a run, the updates that find the checksum unchanged are those that send nothing, and each
finds all viewers up to date, if each comes after a sweep that was for this mode, has sent one
screen to its end, and began after the slots of all sessions in use were allocated. -/
theorem quiet_upToDate (hd : DistinctScreens screens) (h : screens mem video)
    {tr : List (ViewEvent × Viewers)}
    (hrun : Run (ViewStep screens) (Viewers.start mem video) tr)
    (hswept : Along Viewers.Swept (Viewers.start mem video) tr) :
    Along (fun s e => (s.Quiet e ↔ s.Silent e) ∧ (s.Quiet e → UpToDate (s.step e)))
      (Viewers.start mem video) tr := by
  have hinv := viewInv_start h
  generalize Viewers.start mem video = s at hrun hswept hinv
  induction hrun with
  | nil => trivial
  | @cons s s' e tr hstep _ ih =>
    refine ⟨⟨hinv.quiet_iff hd e,fun hq => ?_⟩,ih hswept.2 (hinv.step hd hstep)⟩
    cases e with
    | tick now => exact hinv.upToDate hd hq hswept.1
    | _ => exact hq.elim

/-! A screen of one cell, and a client that joins when it has been sent to another. -/

def oneCell : VideoState := ⟨3,0,1,1,0,0⟩

def oneScreen (mem : FrameBuffer) (video : VideoState) : Prop :=
  mem = (fun _ => 1) ∧ video = oneCell

theorem oneScreen_distinct : DistinctScreens oneScreen where
  valid := by
    rintro _ _ ⟨rfl,rfl⟩ _
    exact ⟨by decide,by decide,by decide,by decide⟩
  distinct := by
    rintro _ _ _ _ ⟨rfl,rfl⟩ ⟨rfl,rfl⟩ _ _ _ _ _
    rfl

/-- The first client has the screen. -/
def firstJoined : Viewers :=
  (Viewers.start (fun _ => 1) oneCell).step (.start (Vector.replicate 6 1) 5 0)
def firstServed : Viewers := firstJoined.step (.tick 0)

/-- The second client joins. -/
def secondJoined : Viewers := firstServed.step (.start (Vector.replicate 6 2) 6 0)

/-- No session of a table is stale at its start. -/
theorem prune_fresh {t : SessionTable} (h : ∀ i : Fin 4, (t.slot i).stale 0 = false) :
    pruneSessions 0 t = t := by
  apply Vector.ext
  intro i hi
  have hfresh := h ⟨i,hi⟩
  simp only [Fin.getElem_fin] at hfresh
  simp [pruneSessions, hfresh]

theorem prune_oneViewer_eq : pruneSessions 0 oneViewer = oneViewer := prune_fresh (by decide)

def twoViewers : SessionTable := (sessionMgrStart (Vector.replicate 6 2) 6 0 oneViewer).2

theorem prune_twoViewers_eq : pruneSessions 0 twoViewers = twoViewers := prune_fresh (by decide)

theorem twoViewers_live : (pruneSessions 0 twoViewers).any Session.inUse = true := by
  rw [prune_twoViewers_eq]
  exact Vector.any_eq_true.mpr ⟨1,by decide,by decide⟩

/-- The update that serves the first client. -/
theorem firstServed_update :
    KindUpdate textKind TextScreen (fun _ => 1) oneCell 0 firstJoined.m :=
  text_update ⟨by decide,by decide,by decide,by decide⟩ oneViewer_live

theorem firstJoined_changed : ¬ textKind.Unchanged firstJoined.m (fun _ => 1) oneCell := by
  decide

theorem firstJoined_atStart : textKind.AtStart firstJoined.m oneCell := by
  decide

/-- All of the cell has been sent. -/
theorem firstServed_unchanged : textKind.Unchanged firstServed.m (fun _ => 1) oneCell := by
  have hmoves := firstServed_update.moves firstJoined_changed
  have hsum := firstServed_update.chksum
  rw [SweepKind.chunk, if_pos firstJoined_atStart] at hmoves
  rw [if_pos firstJoined_atStart] at hsum
  refine ⟨.inr (hmoves ▸ ?_),hsum.symm⟩
  decide

theorem firstServed_sessions : firstServed.m.sessions = oneViewer :=
  (updateAll_sessions ..).trans prune_oneViewer_eq

theorem secondJoined_eq : secondJoined = { firstServed with
    m := { firstServed.m with sessions := twoViewers }
    sent := Function.update firstServed.sent 1 []
    text := firstServed.text.join 1
    cga := firstServed.cga.join 1 } := by
  have hfind : sessionMgrFind (Vector.replicate 6 2) 6 oneViewer = none := by decide
  have hslot : (sessionMgrStart (Vector.replicate 6 2) 6 0 oneViewer).1 = some 1 := by decide
  simp only [secondJoined, Viewers.step, Viewers.join, firstServed_sessions, hfind, hslot]
  rfl

theorem secondJoined_unchanged :
    textKind.Unchanged { firstServed.m with sessions := twoViewers } (fun _ => 1) oneCell :=
  firstServed_unchanged

theorem secondJoined_quiet : secondJoined.Quiet (.tick 0) := by
  rw [secondJoined_eq]
  exact ⟨twoViewers_live,secondJoined_unchanged⟩

theorem secondJoined_update : (sessionMgrUpdateAll (fun _ => 1) oneCell 0
    { firstServed.m with sessions := twoViewers }).1 = [] :=
  (text_update ⟨by decide,by decide,by decide,by decide⟩ twoViewers_live).quiet
    secondJoined_unchanged

/-- The second client has been sent nothing. -/
theorem secondJoined_notUpToDate : ¬ UpToDate (secondJoined.step (.tick 0)) := by
  intro h
  have huse : (secondJoined.tick 0).m.sessions[(1 : Fin 4)].inUse := by
    rw [secondJoined_eq]
    simp only [Viewers.tick, updateAll_sessions, prune_twoViewers_eq]
    decide
  have hsize : 0 < screenSize (secondJoined.tick 0).video := by
    rw [secondJoined_eq]
    exact (show 0 < screenSize oneCell by decide)
  obtain ⟨f,hf,-⟩ := h 1 huse 0 hsize
  rw [secondJoined_eq] at hf
  simp only [Viewers.step, Viewers.tick, Function.update_self, List.nil_append,
    List.mem_filter] at hf
  have hnil := secondJoined_update
  rw [List.eq_nil_iff_forall_not_mem] at hnil
  exact hnil f hf.1

theorem secondJoined_run : Run (ViewStep oneScreen) (Viewers.start (fun _ => 1) oneCell)
    [(.start (Vector.replicate 6 1) 5 0,firstJoined),(.tick 0,firstServed),
      (.start (Vector.replicate 6 2) 6 0,secondJoined),
      (.tick 0,secondJoined.step (.tick 0))] := by
  have hone : oneScreen (fun _ => 1) oneCell := ⟨rfl,rfl⟩
  have hsecond : oneScreen secondJoined.mem secondJoined.video := by
    rw [secondJoined_eq]
    exact hone
  exact .cons ⟨rfl,hone⟩ (.cons ⟨rfl,hone⟩ (.cons ⟨rfl,hsecond⟩ (.cons ⟨rfl,hsecond⟩ (.nil _))))

theorem lateJoin_notUpToDate : ¬ ∀ (screens : FrameBuffer → VideoState → Prop) (mem : FrameBuffer)
    (video : VideoState) (tr : List (ViewEvent × Viewers)), DistinctScreens screens →
      screens mem video → Run (ViewStep screens) (Viewers.start mem video) tr →
      Along (fun s e => s.Quiet e → UpToDate (s.step e)) (Viewers.start mem video) tr := by
  intro h
  have hall := h _ _ _ _ oneScreen_distinct ⟨rfl,rfl⟩ secondJoined_run
  exact secondJoined_notUpToDate (hall.2.2.2.1 secondJoined_quiet)

theorem firstServed_record :
    firstServed.record = .complete (fun _ => 1) oneCell fun _ => true := by
  have hchanged : ¬ textKind.sum (fun _ => 1) oneCell = textKind.chksum firstJoined.m := by decide
  have hnext : firstJoined.text.next textKind firstJoined.m (fun _ => 1) oneCell =
      .complete (fun _ => 1) oneCell fun _ => true := by
    rw [next_start firstJoined_atStart, if_neg hchanged, SweepRecord.upTo, if_neg (by decide)]
  have hlive : (pruneSessions 0 firstJoined.m.sessions).any Session.inUse ∧
      ¬ isCgaGraphicsMode oneCell.videoMode := ⟨oneViewer_live,by decide⟩
  exact (if_pos hlive).trans hnext

theorem firstJoined_notQuiet : ¬ firstJoined.Quiet (.tick 0) :=
  fun hq => firstJoined_changed hq.2

theorem quiet_upToDate_oneViewer :
    Run (ViewStep oneScreen) (Viewers.start (fun _ => 1) oneCell)
        [(.start (Vector.replicate 6 1) 5 0,firstJoined),(.tick 0,firstServed),
          (.tick 0,firstServed.step (.tick 0))] ∧
      Along (fun s e => (s.Quiet e ↔ s.Silent e) ∧ (s.Quiet e → UpToDate (s.step e)))
        (Viewers.start (fun _ => 1) oneCell)
        [(.start (Vector.replicate 6 1) 5 0,firstJoined),(.tick 0,firstServed),
          (.tick 0,firstServed.step (.tick 0))] := by
  have hone : oneScreen (fun _ => 1) oneCell := ⟨rfl,rfl⟩
  have hrun : Run (ViewStep oneScreen) (Viewers.start (fun _ => 1) oneCell)
      [(.start (Vector.replicate 6 1) 5 0,firstJoined),(.tick 0,firstServed),
        (.tick 0,firstServed.step (.tick 0))] :=
    .cons ⟨rfl,hone⟩ (.cons ⟨rfl,hone⟩ (.cons ⟨rfl,hone⟩ (.nil _)))
  refine ⟨hrun,quiet_upToDate oneScreen_distinct hone hrun ?_⟩
  refine ⟨trivial,fun hq => absurd hq firstJoined_notQuiet,fun _ => ?_,trivial⟩
  exact ⟨_,_,_,firstServed_record,by decide,fun _ _ => rfl⟩

end RmtDos
