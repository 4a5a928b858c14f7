import RmtDos.Server.Viewers

/-! What the records say about the frames that the slots have been sent. -/
namespace RmtDos
open Runs

variable {mem mem₀ : FrameBuffer} {video video₀ : VideoState} {m : SessionMgr} {now : UInt32}
  {K : SweepKind}

/-- What the next update of the kind sends, if it sends anything. -/
def SweepKind.chunk (K : SweepKind) (m : SessionMgr) (video : VideoState) : ℕ × ℕ :=
  if K.AtStart m video then (0,min (K.step video) (K.total video)) else K.range m video

/-- The offset of a graphics frame is the offset of a word. -/
def WordOffset (m : SessionMgr) : Prop := 2 ∣ m.cgaNextOffset.toNat

/-- What a frame with such a body carries. -/
def Bodies (K : SweepKind) (Of : VideoState → Prop) (video : VideoState)
    (body : UInt16 → UInt16 → ScreenBody) : Prop :=
  ∀ (f : ScreenFrame) (mem₀ : FrameBuffer) (video₀ : VideoState) (offset count : UInt16) (j : ℕ),
    Of video₀ → K.same video₀ video → f.body = body offset count → offset.toNat ≤ j →
    f.data[j-offset.toNat]? = some (mem₀ (UInt16.ofNat j)) → f.Carries mem₀ video₀ j

/-- An update of the kind. -/
structure KindUpdate (K : SweepKind) (Of : VideoState → Prop) (mem : FrameBuffer)
    (video : VideoState) (now : UInt32) (m : SessionMgr) : Prop where
  quiet : K.Unchanged m mem video → (sessionMgrUpdateAll mem video now m).1 = []
  sends : ¬ K.Unchanged m mem video → ∃ body, Bodies K Of video body ∧
    ChunkSent mem body (pruneSessions now m.sessions) (sessionMgrUpdateAll mem video now m).1
      (K.chunk m video)
  moves : ¬ K.Unchanged m mem video →
    K.pos (sessionMgrUpdateAll mem video now m).2 video =
      (K.chunk m video).1+(K.chunk m video).2
  chksum : K.chksum (sessionMgrUpdateAll mem video now m).2 =
    if K.AtStart m video then K.sum mem video else K.chksum m

/-- The two kinds. -/
structure KindSpec (K : SweepKind) (Of : VideoState → Prop) : Prop where
  same_refl : ∀ v, K.same v v
  total_same : ∀ v w, K.same v w → K.total v = K.total w
  pos_same : ∀ v w m, K.same v w → K.pos m v = K.pos m w
  pos_of : ∀ v, Of v → 0 < min (K.step v) (K.total v)
  update : ∀ mem video now m, Of video → WordOffset m →
    (pruneSessions now m.sessions).any Session.inUse → KindUpdate K Of mem video now m

/-! The text sweep. -/

theorem text_atStart (hv : TextScreen video) :
    textKind.AtStart m video ↔ m.videoNextRow = 0 ∨ video.textRows.toUInt16 ≤ m.videoNextRow := by
  have hpos : 0 < rowBytes video := Nat.mul_pos hv.cols (by decide)
  have hz : m.videoNextRow.toNat*rowBytes video = 0 ↔ m.videoNextRow = 0 := by
    rw [Nat.mul_eq_zero, or_iff_left hpos.ne']
    exact UInt16.toNat_inj (b := 0)
  rw [SweepKind.AtStart, textRows_toUInt16]
  simp only [textKind, screenBytes_eq, hz, Nat.mul_le_mul_right_iff hpos]

theorem text_bodies : Bodies textKind TextScreen video (textBody video) := by
  intro f mem₀ video₀ offset count j hv hsame hb hle hdata
  simp only [textKind, Bool.decide_and, Bool.and_eq_true, decide_eq_true_eq] at hsame
  rw [ScreenFrame.Carries, hb]
  exact ⟨hv.text,hsame.1.symm,hsame.2.symm,hle,hdata⟩

/-- The rows that are left, in bytes. -/
theorem min_rowBytes (n : ℕ) :
    min (textKind.step video) (textKind.total video-n*rowBytes video) =
      min (frameRows video) (video.textRows.toNat-n)*rowBytes video := by
  simp only [textKind, screenBytes_eq]
  rw [← Nat.sub_mul, Nat.mul_min_mul_right]

/-- The row at which the next update starts. -/
def startRow (m : SessionMgr) (video : VideoState) : ℕ :=
  if textKind.AtStart m video then 0 else m.videoNextRow.toNat

theorem text_chunk (m : SessionMgr) (video : VideoState) :
    textKind.chunk m video = (startRow m video*rowBytes video,
      min (frameRows video) (video.textRows.toNat-startRow m video)*rowBytes video) := by
  rw [SweepKind.chunk, startRow]
  split
  · have hmin := @min_rowBytes video 0
    rw [Nat.zero_mul, Nat.sub_zero] at hmin
    rw [hmin, Nat.zero_mul, Nat.sub_zero]
  · exact Prod.ext rfl (min_rowBytes _)

/-- The cursor wraps around behind the last row. -/
def wrapRow (video : VideoState) (m : SessionMgr) : SessionMgr :=
  if video.textRows.toUInt16 ≤ m.videoNextRow then { m with videoNextRow := 0 } else m

theorem sendText_wrapRow (m : SessionMgr) : sessionMgrSendText mem video m =
    if (wrapRow video m).videoNextRow = 0 then
      if textChksum mem video = (wrapRow video m).videoChksum then ([],wrapRow video m)
      else sendTextChunk mem video { wrapRow video m with videoChksum := textChksum mem video }
    else sendTextChunk mem video (wrapRow video m) := rfl

@[simp] theorem wrapRow_sessions : (wrapRow video m).sessions = m.sessions := by
  unfold wrapRow
  split <;> rfl

@[simp] theorem wrapRow_videoChksum : (wrapRow video m).videoChksum = m.videoChksum := by
  unfold wrapRow
  split <;> rfl

/-- The cursor of an update that starts at that row. -/
theorem wrapRow_row (hv : TextScreen video) :
    ((wrapRow video m).videoNextRow = 0 ↔ textKind.AtStart m video) ∧
      (wrapRow video m).videoNextRow.toNat = startRow m video := by
  have hz : UInt16.toNat 0 = 0 := rfl
  rw [text_atStart hv, startRow, wrapRow]
  by_cases hle : video.textRows.toUInt16 ≤ m.videoNextRow
  · rw [if_pos hle, if_pos ((text_atStart hv).mpr (.inr hle))]
    exact ⟨iff_of_true rfl (.inr hle),hz⟩
  · rw [if_neg hle]
    refine ⟨(or_iff_left hle).symm,?_⟩
    split
    next hs =>
      rw [text_atStart hv, or_iff_left hle] at hs
      rw [hs, hz]
    next => rfl

theorem startRow_lt (hv : TextScreen video) : startRow m video < video.textRows.toNat := by
  rw [startRow]
  split
  · exact hv.rows
  next hs =>
    rw [text_atStart hv, not_or, textRows_toUInt16] at hs
    exact Nat.lt_of_not_le hs.2

theorem text_update (hv : TextScreen video)
    (hlive : (pruneSessions now m.sessions).any Session.inUse) :
    KindUpdate textKind TextScreen mem video now m := by
  obtain ⟨m₁,hm₁⟩ : ∃ m₁ : SessionMgr, m₁ = wrapRow video { m with
    sessions := pruneSessions now m.sessions, cgaNextOffset := 0 } := ⟨_,rfl⟩
  have hupdate := (@updateAll_text mem video m hv now hlive).trans (sendText_wrapRow _)
  obtain ⟨hstart,hrow⟩ := @wrapRow_row video { m with
    sessions := pruneSessions now m.sessions, cgaNextOffset := 0 } hv
  have hsum : m₁.videoChksum = m.videoChksum := by rw [hm₁, wrapRow_videoChksum]
  have hsess : m₁.sessions = pruneSessions now m.sessions := by rw [hm₁, wrapRow_sessions]
  rw [← hm₁] at hupdate hstart hrow
  -- an update that sends a chunk and leaves the checksum `sum`
  have hsends (sum : UInt16) (hno : ¬ textKind.Unchanged m mem video)
      (heq : sessionMgrUpdateAll mem video now m =
        sendTextChunk mem video { m₁ with videoChksum := sum })
      (hs : sum = if textKind.AtStart m video then textChksum mem video else m.videoChksum) :
      KindUpdate textKind TextScreen mem video now m := by
    obtain ⟨hchunk,hnext,hkeep⟩ := @sendTextChunk_spec mem video { m₁ with videoChksum := sum } _ hv
      hrow (startRow_lt hv)
    rw [← heq] at hchunk hnext hkeep
    refine ⟨fun hu => absurd hu hno,fun _ => ⟨_,text_bodies,?_⟩,fun _ => ?_,hkeep.trans hs⟩
    · rw [text_chunk, ← hsess]
      exact hchunk
    · rw [text_chunk]
      exact (congrArg (· * rowBytes video) hnext).trans (Nat.add_mul ..)
  by_cases hs : textKind.AtStart m video
  · rw [if_pos (hstart.mpr hs), hsum] at hupdate
    by_cases hc : textChksum mem video = m.videoChksum
    · have hu : textKind.Unchanged m mem video := ⟨hs,hc⟩
      rw [if_pos hc] at hupdate
      refine ⟨fun _ => congrArg Prod.fst hupdate,fun hno => absurd hu hno,
        fun hno => absurd hu hno,?_⟩
      rw [hupdate, if_pos hs]
      exact hsum.trans hc.symm
    · rw [if_neg hc] at hupdate
      exact hsends _ (fun hu => hc hu.2) hupdate (if_pos hs).symm
  · rw [if_neg (mt hstart.mp hs)] at hupdate
    exact hsends m₁.videoChksum (fun hu => hs hu.1) hupdate (hsum.trans (if_neg hs).symm)

theorem text_spec : KindSpec textKind TextScreen where
  same_refl := fun v => by simp [textKind]
  total_same := by
    intro v w h
    simp only [textKind, Bool.decide_and, Bool.and_eq_true, decide_eq_true_eq] at h
    simp only [textKind, screenBytes, h]
  pos_same := by
    intro v w m h
    simp only [textKind, Bool.decide_and, Bool.and_eq_true, decide_eq_true_eq] at h
    simp only [textKind, rowBytes, h]
  pos_of := by
    intro v hv
    have hpos : 0 < rowBytes v := Nat.mul_pos hv.cols (by decide)
    have hrows := frameRows_pos hv
    simp only [textKind, screenBytes_eq]
    exact lt_min (Nat.mul_pos (by omega) hpos) (Nat.mul_pos hv.rows hpos)
  update := fun _ _ _ _ hv _ hlive => text_update hv hlive

/-! The graphics sweep. -/

def CgaScreen (video : VideoState) : Prop := isCgaGraphicsMode video.videoMode = true

theorem cga_bodies (video : VideoState) : Bodies cgaKind CgaScreen video (cgaBody video) := by
  intro f mem₀ video₀ offset count j hv₀ hsame hb hle hdata
  have hmode : video₀.videoMode = video.videoMode := by simpa [cgaKind] using hsame
  rw [ScreenFrame.Carries, hb]
  exact ⟨hv₀,hmode.symm,hle,hdata⟩

/-- The cursor wraps around behind the last byte. -/
def wrapOffset (m : SessionMgr) : SessionMgr :=
  if cgaGraphicsFrameBytes ≤ m.cgaNextOffset then { m with cgaNextOffset := 0 } else m

theorem sendCga_wrapOffset (m : SessionMgr) : sessionMgrSendCgaGraphics mem video m =
    if (wrapOffset m).cgaNextOffset = 0 then
      if cgaChksum mem = (wrapOffset m).cgaGraphicsChksum then ([],wrapOffset m)
      else sendCgaChunk mem video { wrapOffset m with cgaGraphicsChksum := cgaChksum mem }
    else sendCgaChunk mem video (wrapOffset m) := rfl

@[simp] theorem wrapOffset_sessions : (wrapOffset m).sessions = m.sessions := by
  unfold wrapOffset
  split <;> rfl

@[simp] theorem wrapOffset_chksum : (wrapOffset m).cgaGraphicsChksum = m.cgaGraphicsChksum := by
  unfold wrapOffset
  split <;> rfl

theorem cgaKind_sum : cgaKind.sum mem video = cgaChksum mem := by rw [cgaKind]

theorem cgaKind_chksum : cgaKind.chksum m = m.cgaGraphicsChksum := by rw [cgaKind]

theorem cga_unchanged : cgaKind.Unchanged m mem video ↔
    cgaKind.AtStart m video ∧ cgaChksum mem = m.cgaGraphicsChksum := by
  rw [SweepKind.Unchanged, cgaKind_sum, cgaKind_chksum]

theorem cga_atStart :
    cgaKind.AtStart m video ↔ m.cgaNextOffset = 0 ∨ cgaGraphicsFrameBytes ≤ m.cgaNextOffset := by
  rw [SweepKind.AtStart, cgaFrameBytes_le]
  exact or_congr_left (UInt16.toNat_inj (b := 0))

/-- The word at which the next update starts. -/
def startWord (m : SessionMgr) (video : VideoState) : ℕ :=
  if cgaKind.AtStart m video then 0 else m.cgaNextOffset.toNat/2

theorem wrapOffset_offset (hm : WordOffset m) (video : VideoState) :
    ((wrapOffset m).cgaNextOffset = 0 ↔ cgaKind.AtStart m video) ∧
      (wrapOffset m).cgaNextOffset.toNat = startWord m video*2 := by
  have hz : UInt16.toNat 0 = 0 := rfl
  rw [cga_atStart, startWord, wrapOffset]
  by_cases hle : cgaGraphicsFrameBytes ≤ m.cgaNextOffset
  · rw [if_pos hle, if_pos (cga_atStart.mpr (.inr hle))]
    exact ⟨iff_of_true rfl (.inr hle),hz⟩
  · rw [if_neg hle]
    refine ⟨(or_iff_left hle).symm,?_⟩
    split
    next hs =>
      rw [cga_atStart, or_iff_left hle] at hs
      rw [hs, hz]
    next => exact (Nat.div_mul_cancel hm).symm

theorem startWord_lt (video : VideoState) : startWord m video < cgaScreenWords := by
  rw [startWord, cgaScreenWords]
  split
  · decide
  next hs =>
    rw [cga_atStart, not_or, cgaFrameBytes_le] at hs
    omega

theorem cga_chunk (hm : WordOffset m) (video : VideoState) :
    cgaKind.chunk m video = (startWord m video*2,
      min cgaFrameWords (cgaScreenWords-startWord m video)*2) := by
  rw [SweepKind.chunk, startWord]
  split
  · rfl
  · have hcancel := Nat.div_mul_cancel hm
    simp only [SweepKind.range, cgaKind, cgaFrameWords, cgaScreenWords]
    exact Prod.ext hcancel.symm (by simp only; omega)

theorem cga_update (hv : CgaScreen video) (hm : WordOffset m)
    (hlive : (pruneSessions now m.sessions).any Session.inUse) :
    KindUpdate cgaKind CgaScreen mem video now m := by
  obtain ⟨m₁,hm₁⟩ : ∃ m₁ : SessionMgr, m₁ = wrapOffset { m with
    sessions := pruneSessions now m.sessions, videoNextRow := 0 } := ⟨_,rfl⟩
  have hupdate := (@updateAll_cga mem video m hv now hlive).trans (sendCga_wrapOffset _)
  obtain ⟨hstart,hoff⟩ := @wrapOffset_offset { m with
    sessions := pruneSessions now m.sessions, videoNextRow := 0 } hm video
  have hsum : m₁.cgaGraphicsChksum = m.cgaGraphicsChksum := by rw [hm₁, wrapOffset_chksum]
  have hsess : m₁.sessions = pruneSessions now m.sessions := by rw [hm₁, wrapOffset_sessions]
  rw [← hm₁] at hupdate hstart hoff
  have hsends (sum : UInt16) (hno : ¬ cgaKind.Unchanged m mem video)
      (heq : sessionMgrUpdateAll mem video now m =
        sendCgaChunk mem video { m₁ with cgaGraphicsChksum := sum })
      (hs : sum = if cgaKind.AtStart m video then cgaKind.sum mem video else cgaKind.chksum m) :
      KindUpdate cgaKind CgaScreen mem video now m := by
    obtain ⟨hchunk,hnext,hkeep⟩ := @sendCgaChunk_spec mem { m₁ with cgaGraphicsChksum := sum } _
      video hoff (startWord_lt video)
    rw [← heq] at hchunk hnext hkeep
    refine ⟨fun hu => absurd hu hno,fun _ => ⟨_,cga_bodies video,?_⟩,fun _ => ?_,?_⟩
    · rw [cga_chunk hm, ← hsess]
      exact hchunk
    · rw [cga_chunk hm]
      exact hnext.trans (Nat.add_mul ..)
    · rw [← hs]
      exact hkeep
  by_cases hs : cgaKind.AtStart m video
  · rw [if_pos (hstart.mpr hs), hsum] at hupdate
    by_cases hc : cgaChksum mem = m.cgaGraphicsChksum
    · have hu : cgaKind.Unchanged m mem video := cga_unchanged.mpr ⟨hs,hc⟩
      rw [if_pos hc] at hupdate
      refine ⟨fun _ => congrArg Prod.fst hupdate,fun hno => absurd hu hno,
        fun hno => absurd hu hno,?_⟩
      rw [hupdate, if_pos hs, cgaKind_sum, cgaKind_chksum, hsum, hc]
    · rw [if_neg hc] at hupdate
      exact hsends _ (fun hu => hc (cga_unchanged.mp hu).2) hupdate
        (by rw [if_pos hs, cgaKind_sum])
  · rw [if_neg (mt hstart.mp hs)] at hupdate
    exact hsends m₁.cgaGraphicsChksum (fun hu => hs hu.1) hupdate
      (by rw [if_neg hs, cgaKind_chksum, hsum])

theorem cga_spec : KindSpec cgaKind CgaScreen where
  same_refl := fun v => by simp [cgaKind]
  total_same := fun _ _ _ => rfl
  pos_same := fun _ _ _ _ => rfl
  pos_of := fun _ _ => show 0 < min 1478 16000 by decide
  update := fun _ _ _ _ hv hm hlive => cga_update hv hm hlive

end RmtDos
