import RmtDos.Server.Sweep

/-! A sweep over a text screen. Each update sends as many whole rows as fit into a frame, so the
frames tile the screen and a client that gets them shows it. -/
namespace RmtDos
open Memory Reading

/-- A text mode whose screen lies in the frame buffer. -/
structure TextScreen (video : VideoState) : Prop where
  rows : 1 ≤ video.textRows.toNat
  cols : 1 ≤ video.textCols.toNat
  fits : video.textRows.toNat*video.textCols.toNat*2 ≤ 32768
  text : isCgaGraphicsMode video.videoMode = false

/-- The bytes of a row, of the screen, and the whole rows that fit into a frame. -/
def rowBytes (video : VideoState) : ℕ := video.textCols.toNat*2
def screenBytes (video : VideoState) : ℕ := video.textRows.toNat*video.textCols.toNat*2
def frameRows (video : VideoState) : ℕ := 1480/rowBytes video

/-- The number of updates of a sweep. -/
def sweepLength (video : VideoState) : ℕ :=
  (video.textRows.toNat+frameRows video-1)/frameRows video

def textBody (video : VideoState) : UInt16 → UInt16 → ScreenBody :=
  .vgaText video.textRows video.textCols video.cursorRow video.cursorCol

variable {mem : FrameBuffer} {video : VideoState} {m : SessionMgr} {n : ℕ}

theorem rowBytes_le : rowBytes video ≤ 510 := by
  have := video.textCols.toNat_lt
  simp only [rowBytes]
  omega

theorem frameRows_pos (hv : TextScreen video) : 2 ≤ frameRows video := by
  have hcols := hv.cols
  have hle := @rowBytes_le video
  exact (Nat.le_div_iff_mul_le (by simp only [rowBytes]; omega)).mpr (by omega)

theorem frameRows_fit : frameRows video*rowBytes video ≤ 1480 := Nat.div_mul_le_self 1480 _

theorem screenBytes_eq : screenBytes video = video.textRows.toNat*rowBytes video := by
  rw [screenBytes, rowBytes, Nat.mul_assoc]

/-- The rows of the next frame. -/
theorem toNat_textRowCount {row : UInt16}
    (hn : row.toNat < video.textRows.toNat) :
    (textRowCount video row).toNat = min (frameRows video) (video.textRows.toNat-row.toNat) := by
  have hcols := video.textCols.toNat_lt
  have hrows := video.textRows.toNat_lt
  have hfull : ((ethFrameLen-(combinedHeaderLen+8))/(video.textCols.toUInt16*videoWord)).toNat =
      frameRows video := by
    have hc : (ethFrameLen-(combinedHeaderLen+8)).toNat = 1480 := rfl
    have hw : (video.textCols.toUInt16*videoWord).toNat = rowBytes video := by
      rw [UInt16.toNat_mul, UInt8.toNat_toUInt16]
      have h2 : videoWord.toNat = 2 := rfl
      rw [h2, rowBytes]
      omega
    rw [UInt16.toNat_div, hc, hw, frameRows]
  have hle : frameRows video ≤ 1480 := Nat.div_le_self ..
  have hr : video.textRows.toUInt16.toNat = video.textRows.toNat := UInt8.toNat_toUInt16 _
  unfold textRowCount
  extract_lets rows
  have hsum : (rows+row).toNat = frameRows video+row.toNat := by
    rw [UInt16.toNat_add, hfull]
    omega
  split
  next hlt =>
    rw [UInt16.lt_iff_toNat_lt, hr, hsum] at hlt
    rw [UInt16.toNat_sub_of_le _ _ (by rw [UInt16.le_iff_toNat_le, hr]; omega), hr]
    omega
  next hge =>
    rw [UInt16.lt_iff_toNat_lt, hr, hsum] at hge
    rw [hfull]
    omega

/-- The frame that starts at row `n`. -/
theorem sendTextChunk_spec (hv : TextScreen video) (hn : m.videoNextRow.toNat = n)
    (hlt : n < video.textRows.toNat) :
    let k := min (frameRows video) (video.textRows.toNat-n)
    ChunkSent mem (textBody video) m.sessions (sendTextChunk mem video m).1
        (n*rowBytes video,k*rowBytes video) ∧
      (sendTextChunk mem video m).2.videoNextRow.toNat = n+k ∧
      (sendTextChunk mem video m).2.videoChksum = m.videoChksum := by
  intro k
  have hcols := video.textCols.toNat_lt
  have hrows := video.textRows.toNat_lt
  have hcount : (textRowCount video m.videoNextRow).toNat = k := by
    rw [toNat_textRowCount (by omega), hn]
  have hkle : k ≤ frameRows video := Nat.min_le_left ..
  have hkn : n+k ≤ video.textRows.toNat := by omega
  have hkb : k*rowBytes video ≤ 1480 := (Nat.mul_le_mul_right _ hkle).trans frameRows_fit
  have hnb : n*rowBytes video ≤ 32768 := by
    have hle := Nat.mul_le_mul_right (rowBytes video) (Nat.le_of_lt hlt)
    have := hv.fits
    rw [← screenBytes_eq] at hle
    exact hle.trans this
  have hc : video.textCols.toUInt16.toNat = video.textCols.toNat := UInt8.toNat_toUInt16 _
  have h2 : videoWord.toNat = 2 := rfl
  have hkc : k*video.textCols.toNat*2 = k*rowBytes video := by rw [rowBytes, Nat.mul_assoc]
  have hnc : n*video.textCols.toNat*2 = n*rowBytes video := by rw [rowBytes, Nat.mul_assoc]
  have hwords : (textRowCount video m.videoNextRow*video.textCols.toUInt16).toNat =
      k*video.textCols.toNat := by
    rw [UInt16.toNat_mul, hcount, hc]
    omega
  have hoff : (m.videoNextRow*video.textCols.toUInt16*videoWord).toNat = n*rowBytes video := by
    rw [UInt16.toNat_mul, UInt16.toNat_mul, hn, hc, h2]
    omega
  have hbytes : (textRowCount video m.videoNextRow*video.textCols.toUInt16*videoWord).toNat =
      k*rowBytes video := by
    rw [UInt16.toNat_mul, hwords, h2]
    omega
  have hlen : (8+textRowCount video m.videoNextRow*video.textCols.toUInt16*videoWord).toNat =
      8+k*rowBytes video := by
    have h8 : UInt16.toNat 8 = 8 := rfl
    rw [UInt16.toNat_add, hbytes, h8]
    omega
  refine ⟨⟨_,_,_,?_,hoff,hbytes,hlen,?_⟩,?_,?_⟩
  · rw [sendTextChunk, textBody, ← screenSlice_eq_copy hoff (by rw [hwords]; omega)]
  · rw [hlen]
    have h1514 : ethFrameLen.toNat = 1514 := rfl
    omega
  · rw [sendTextChunk]
    simp only [UInt16.toNat_add, hn, hcount]
    omega
  · rw [sendTextChunk]

/-- The sweep goes on at row `n`; at row 0 the screen has changed. -/
structure Sweeping (mem : FrameBuffer) (video : VideoState) (n : ℕ) (m : SessionMgr) : Prop where
  row : m.videoNextRow.toNat = n
  more : n < video.textRows.toNat
  changed : n = 0 → textChksum mem video ≠ m.videoChksum
  begun : 0 < n → textChksum mem video = m.videoChksum

/-- The sweep is over, and the screen is the one it has sent. -/
structure Swept (mem : FrameBuffer) (video : VideoState) (m : SessionMgr) : Prop where
  row : m.videoNextRow = 0 ∨ m.videoNextRow.toNat = video.textRows.toNat
  same : textChksum mem video = m.videoChksum

theorem updateAll_text (hv : TextScreen video) {now : UInt32}
    (hlive : (pruneSessions now m.sessions).any Session.inUse) :
    sessionMgrUpdateAll mem video now m = sessionMgrSendText mem video
      { m with sessions := pruneSessions now m.sessions, cgaNextOffset := 0 } := by
  simp only [sessionMgrUpdateAll, hlive, if_true, hv.text, Bool.false_eq_true, if_false]

theorem textRows_toUInt16 (row : UInt16) :
    video.textRows.toUInt16 ≤ row ↔ video.textRows.toNat ≤ row.toNat := by
  rw [UInt16.le_iff_toNat_le, UInt8.toNat_toUInt16]

/-- An update within the sweep sends the next rows and advances. -/
theorem updateAll_sweeping (hv : TextScreen video) {now : UInt32}
    (hlive : (pruneSessions now m.sessions).any Session.inUse) (h : Sweeping mem video n m) :
    let k := min (frameRows video) (video.textRows.toNat-n)
    ChunkSent mem (textBody video) (pruneSessions now m.sessions)
        (sessionMgrUpdateAll mem video now m).1 (n*rowBytes video,k*rowBytes video) ∧
      (sessionMgrUpdateAll mem video now m).2.videoNextRow.toNat = n+k ∧
      textChksum mem video = (sessionMgrUpdateAll mem video now m).2.videoChksum := by
  intro k
  have hmore : ¬ video.textRows.toUInt16 ≤ m.videoNextRow := by
    have := h.more
    rw [textRows_toUInt16, h.row]
    omega
  rw [updateAll_text hv hlive, sessionMgrSendText]
  simp only [if_neg hmore]
  split
  next h0 =>
    have hn : n = 0 := by
      rw [← h.row, h0]
      rfl
    rw [if_neg (h.changed hn)]
    obtain ⟨hchunk,hnext,hkeep⟩ := @sendTextChunk_spec mem video
      { m with
        sessions := pruneSessions now m.sessions
        cgaNextOffset := 0
        videoChksum := textChksum mem video } n hv h.row h.more
    exact ⟨hchunk,hnext,hkeep.symm⟩
  next h0 =>
    have hn : 0 < n := by
      rw [← h.row]
      exact Nat.pos_of_ne_zero fun hz => h0 (UInt16.toNat_inj.mp hz)
    obtain ⟨hchunk,hnext,hkeep⟩ := @sendTextChunk_spec mem video
      { m with sessions := pruneSessions now m.sessions, cgaNextOffset := 0 } n hv h.row h.more
    exact ⟨hchunk,hnext,(h.begun hn).trans hkeep.symm⟩

/-- An update after the sweep sends nothing. -/
theorem updateAll_swept (hv : TextScreen video) {now : UInt32}
    (hlive : (pruneSessions now m.sessions).any Session.inUse) (h : Swept mem video m) :
    (sessionMgrUpdateAll mem video now m).1 = [] ∧
      Swept mem video (sessionMgrUpdateAll mem video now m).2 := by
  rw [updateAll_text hv hlive]
  unfold sessionMgrSendText
  extract_lets m'
  have hrow : m'.videoNextRow = 0 := by
    obtain h0 | hend := h.row
    · simp only [m', h0]
      split <;> rfl
    · simp only [m', textRows_toUInt16, hend, le_refl, if_true]
  have hsum : m'.videoChksum = m.videoChksum := by
    simp only [m', apply_ite SessionMgr.videoChksum, ite_self]
  rw [if_pos hrow, if_pos (h.same.trans hsum.symm)]
  exact ⟨rfl,.inl hrow,h.same.trans hsum.symm⟩

theorem textSweep_rule (hv : TextScreen video) :
    SweepRule mem video (textBody video) (rowBytes video) video.textRows.toNat (frameRows video)
      (Sweeping mem video) (Swept mem video) where
  unit_pos := Nat.mul_pos hv.cols (by decide)
  step_pos := Nat.lt_of_lt_of_le (by decide) (frameRows_pos hv)
  more := fun _ _ h => h.more
  start := fun _ _ _ h => ⟨h.row,h.more,h.changed,h.begun⟩
  stay := fun _ _ h => ⟨h.row,h.same⟩
  go := by
    intro n m now hlive h
    obtain ⟨hchunk,hrow,hsum⟩ := updateAll_sweeping hv hlive h
    have hpos := frameRows_pos hv
    have hmore := h.more
    refine ⟨hchunk,?_⟩
    split
    next hgo => exact ⟨hrow,hgo,fun h0 => by omega,fun _ => hsum⟩
    next hend => exact ⟨.inr (by omega),hsum⟩
  rest := fun _ _ hlive h => updateAll_swept hv hlive h

/-- The client stores text frames in `video_text_buffer`. -/
theorem stores_text (rs : RawSocket) (globals : PktdrvGlobals) :
    Stores rs globals (textBody video) RemoteHost.videoTextBuffer
      (fun rh => rh.textRows = video.textRows ∧ rh.textCols = video.textCols) := by
  intro c f m i offset count hw hf hmine hi hb hcount hfit
  exact ⟨_,processSocketIo_text hw hf hmine hi hb hcount hfit,fun rh => ⟨rfl,⟨rfl,rfl⟩,rfl⟩⟩

/-- The calls send the screen exactly once, in whole rows that fit into the frames, and a client
with a session in use throughout shows the screen after them. -/
def ScreenDelivered (globals : PktdrvGlobals) (mem : FrameBuffer) (video : VideoState)
    (m : SessionMgr) (calls : List (SessionTable × UInt32)) : Prop :=
  ∃ ranges, SweepSent mem (textBody video) calls (screenUpdates mem video calls m) ranges ∧
    Tiles (rowBytes video) 0 (screenBytes video) ranges ∧ ranges.length = sweepLength video ∧
    ∀ (rs : RawSocket) (c : Client) (i : Fin 16) (mss : List (List Mem)),
      hostlistFindByMac globals.macAddr.toList c.hosts = some i →
      (∀ call ∈ calls, Viewing rs (pruneSessions call.2 call.1)) →
      List.Forall₂ (CallReceived globals) (screenUpdates mem video calls m) mss →
      ∃ rh, (receiveAll rs c mss.flatten).hosts.slot i = some rh ∧
        ∀ j : Fin 32768, j < screenBytes video → rh.videoTextBuffer j = mem (UInt16.ofNat j)

/-- A sweep over a changed text screen delivers it, if its calls find a session in use. -/
theorem textSweep_delivers (globals : PktdrvGlobals) (mem : FrameBuffer) (video : VideoState)
    (m : SessionMgr) (calls : List (SessionTable × UInt32)) (hv : TextScreen video)
    (h0 : m.videoNextRow = 0) (hch : textChksum mem video ≠ m.videoChksum)
    (hlive : ∀ call ∈ calls, (pruneSessions call.2 call.1).any Session.inUse)
    (hlen : sweepLength video ≤ calls.length) : ScreenDelivered globals mem video m calls := by
  have hstart : Sweeping mem video 0 m :=
    ⟨by rw [h0]; rfl,hv.rows,fun _ => hch,fun h => absurd h (Nat.lt_irrefl 0)⟩
  obtain ⟨ranges,hsent,htiles,hcount⟩ := (textSweep_rule hv).tiles_all hlive hstart hlen
  rw [← screenBytes_eq] at htiles
  refine ⟨ranges,hsent,htiles,hcount,fun rs c i mss hi hview hrecv => ?_⟩
  have hfit : ∀ r ∈ ranges, r.1+r.2 ≤ 32768 := fun r hr => (htiles.within r hr).2.trans hv.fits
  obtain ⟨rh,hrh,-,hshown⟩ :=
    (Shows.sweep (stores_text rs globals) hsent hview hfit hrecv (shows_nothing hi)).shown
  refine ⟨rh,hrh,fun j hj => hshown j (.inr ?_)⟩
  exact htiles.covers (Nat.zero_le _) hj

/-! A screen of three frames, and a client that shows it. -/

def screen25x80 : VideoState := ⟨3,0,25,80,0,0⟩

def textCalls : List (SessionTable × UInt32) := List.replicate 3 (oneViewer,0)

def textUpdates : List (List ScreenFrame) :=
  screenUpdates UInt16.toUInt8 screen25x80 textCalls SessionMgr.init

theorem textSweep_delivers_threeFrames : sweepLength screen25x80 = 3 ∧
    ∃ rh, (receiveAll viewerSocket viewerClient (received oneServer textUpdates).flatten).hosts.slot
        0 = some rh ∧
      ∀ j : Fin 32768, j < 4000 → rh.videoTextBuffer j = (UInt16.ofNat j).toUInt8 := by
  have hcalls : ∀ call ∈ textCalls, call = (oneViewer,0) := fun _ => List.eq_of_mem_replicate
  obtain ⟨ranges,-,-,-,hshown⟩ := textSweep_delivers oneServer UInt16.toUInt8 screen25x80
    SessionMgr.init textCalls ⟨by decide,by decide,by decide,by decide⟩ rfl (by decide +kernel)
    (fun call hc => hcalls call hc ▸ oneViewer_live) (by decide)
  have hview : ∀ call ∈ textCalls, Viewing viewerSocket (pruneSessions call.2 call.1) :=
    fun call hc => hcalls call hc ▸ oneViewer_viewing
  exact ⟨by decide,hshown viewerSocket viewerClient 0 _ viewerClient_known hview
    (received_calls oneServer textUpdates)⟩

end RmtDos
