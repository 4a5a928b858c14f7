import RmtDos.Server.Sweep

/-! A sweep over the graphics screen, which sends the first 16000 bytes of the frame buffer. -/
namespace RmtDos
open Memory Reading

def cgaBody (video : VideoState) : UInt16 → UInt16 → ScreenBody :=
  .cgaGraphics video.videoMode (cgaGraphicsBpp video.videoMode)
    (cgaGraphicsWidth video.videoMode) 200

/-- The words of a frame and of the screen. -/
def cgaFrameWords : ℕ := 739
def cgaScreenWords : ℕ := 8000

variable {mem : FrameBuffer} {video : VideoState} {m : SessionMgr} {n : ℕ}

theorem toNat_cgaCount {offset : UInt16} (h : offset.toNat = n*2) (hn : n < cgaScreenWords) :
    (cgaCount offset).toNat = min cgaFrameWords (cgaScreenWords-n)*2 := by
  have hfull : ((maxPayloadLength-10) &&& 0xfffe).toNat = 1478 := rfl
  have htotal : cgaGraphicsFrameBytes.toNat = 16000 := rfl
  simp only [cgaScreenWords] at hn
  unfold cgaCount
  extract_lets count
  have hsum : (count+offset).toNat = 1478+n*2 := by
    rw [UInt16.toNat_add, hfull, h]
    omega
  split
  next hlt =>
    rw [UInt16.lt_iff_toNat_lt, htotal, hsum] at hlt
    rw [UInt16.toNat_sub_of_le _ _ (by rw [UInt16.le_iff_toNat_le, htotal]; omega), htotal, h]
    simp only [cgaFrameWords, cgaScreenWords]
    omega
  next hge =>
    rw [UInt16.lt_iff_toNat_lt, htotal, hsum] at hge
    rw [hfull]
    simp only [cgaFrameWords, cgaScreenWords]
    omega

/-- The frame that starts at word `n`. -/
theorem sendCgaChunk_spec (video : VideoState) (hn : m.cgaNextOffset.toNat = n*2)
    (hlt : n < cgaScreenWords) :
    let k := min cgaFrameWords (cgaScreenWords-n)
    ChunkSent mem (cgaBody video) m.sessions (sendCgaChunk mem video m).1 (n*2,k*2) ∧
      (sendCgaChunk mem video m).2.cgaNextOffset.toNat = (n+k)*2 ∧
      (sendCgaChunk mem video m).2.cgaGraphicsChksum = m.cgaGraphicsChksum := by
  intro k
  have hcount : (cgaCount m.cgaNextOffset).toNat = k*2 := toNat_cgaCount hn hlt
  have hk : k ≤ 739 := Nat.min_le_left ..
  have hkn : n+k ≤ 8000 := by
    simp only [k, cgaScreenWords, cgaFrameWords] at *
    omega
  have h2 : videoWord.toNat = 2 := rfl
  have hwords : 2*(cgaCount m.cgaNextOffset/videoWord).toNat = k*2 := by
    rw [UInt16.toNat_div, hcount, h2]
    omega
  have hlen : (10+cgaCount m.cgaNextOffset).toNat = 10+k*2 := by
    have h10 : UInt16.toNat 10 = 10 := rfl
    rw [UInt16.toNat_add, hcount, h10]
    omega
  refine ⟨⟨_,_,_,?_,hn,hcount,hlen,?_⟩,?_,?_⟩
  · rw [sendCgaChunk, cgaBody, ← screenSlice_eq_copy hn hwords]
  · have h1514 : ethFrameLen.toNat = 1514 := rfl
    rw [hlen, h1514]
    omega
  · rw [sendCgaChunk]
    simp only [UInt16.toNat_add, hn, hcount]
    omega
  · rw [sendCgaChunk]

/-- The sweep goes on at word `n`; at word 0 the cursor may still stand behind the last sweep, and
the screen has changed. -/
structure CgaSweeping (mem : FrameBuffer) (n : ℕ) (m : SessionMgr) : Prop where
  offset : m.cgaNextOffset.toNat = n*2 ∨ n = 0 ∧ m.cgaNextOffset.toNat = 16000
  more : n < cgaScreenWords
  changed : n = 0 → cgaChksum mem ≠ m.cgaGraphicsChksum
  begun : 0 < n → cgaChksum mem = m.cgaGraphicsChksum

/-- The sweep is over, and the screen is the one it has sent. -/
structure CgaSwept (mem : FrameBuffer) (m : SessionMgr) : Prop where
  offset : m.cgaNextOffset = 0 ∨ m.cgaNextOffset.toNat = 16000
  same : cgaChksum mem = m.cgaGraphicsChksum

theorem updateAll_cga (hv : isCgaGraphicsMode video.videoMode) {now : UInt32}
    (hlive : (pruneSessions now m.sessions).any Session.inUse) :
    sessionMgrUpdateAll mem video now m = sessionMgrSendCgaGraphics mem video
      { m with sessions := pruneSessions now m.sessions, videoNextRow := 0 } := by
  simp only [sessionMgrUpdateAll, hlive, if_true, hv]

theorem cgaFrameBytes_le (offset : UInt16) :
    cgaGraphicsFrameBytes ≤ offset ↔ 16000 ≤ offset.toNat := UInt16.le_iff_toNat_le

/-- An update within the sweep sends the next words and advances. -/
theorem updateAll_cgaSweeping (hv : isCgaGraphicsMode video.videoMode) {now : UInt32}
    (hlive : (pruneSessions now m.sessions).any Session.inUse) (h : CgaSweeping mem n m) :
    let k := min cgaFrameWords (cgaScreenWords-n)
    ChunkSent mem (cgaBody video) (pruneSessions now m.sessions)
        (sessionMgrUpdateAll mem video now m).1 (n*2,k*2) ∧
      (sessionMgrUpdateAll mem video now m).2.cgaNextOffset.toNat = (n+k)*2 ∧
      cgaChksum mem = (sessionMgrUpdateAll mem video now m).2.cgaGraphicsChksum := by
  intro k
  have hmore := h.more
  rw [updateAll_cga hv hlive]
  unfold sessionMgrSendCgaGraphics
  extract_lets m'
  have hsessions : m'.sessions = pruneSessions now m.sessions := by
    simp only [m', apply_ite SessionMgr.sessions, ite_self]
  have hsum : m'.cgaGraphicsChksum = m.cgaGraphicsChksum := by
    simp only [m', apply_ite SessionMgr.cgaGraphicsChksum, ite_self]
  have hoff : m'.cgaNextOffset.toNat = n*2 := by
    simp only [cgaScreenWords] at hmore
    obtain ho | ⟨rfl,ho⟩ := h.offset
    · have hlt : ¬ cgaGraphicsFrameBytes ≤ m.cgaNextOffset := by
        rw [cgaFrameBytes_le]
        omega
      simp only [m', if_neg hlt, ho]
    · have hge : cgaGraphicsFrameBytes ≤ m.cgaNextOffset := by
        rw [cgaFrameBytes_le]
        omega
      simp only [m', if_pos hge]
      rfl
  rw [← hsessions]
  split
  next h0 =>
    have hn : n = 0 := by
      rw [h0] at hoff
      have hz : UInt16.toNat 0 = 0 := rfl
      omega
    rw [if_neg (by rw [hsum]; exact h.changed hn)]
    obtain ⟨hchunk,hnext,hkeep⟩ :=
      @sendCgaChunk_spec mem { m' with cgaGraphicsChksum := cgaChksum mem } n video hoff hmore
    dsimp only at hkeep
    exact ⟨hchunk,hnext,hkeep.symm⟩
  next h0 =>
    have hn : 0 < n := by
      by_contra hz
      have hzero : m'.cgaNextOffset.toNat = 0 := by omega
      exact h0 (UInt16.toNat_inj.mp hzero)
    obtain ⟨hchunk,hnext,hkeep⟩ := @sendCgaChunk_spec mem m' n video hoff hmore
    exact ⟨hchunk,hnext,(h.begun hn).trans (hkeep.trans hsum).symm⟩

/-- An update after the sweep sends nothing. -/
theorem updateAll_cgaSwept (hv : isCgaGraphicsMode video.videoMode) {now : UInt32}
    (hlive : (pruneSessions now m.sessions).any Session.inUse) (h : CgaSwept mem m) :
    (sessionMgrUpdateAll mem video now m).1 = [] ∧
      CgaSwept mem (sessionMgrUpdateAll mem video now m).2 := by
  rw [updateAll_cga hv hlive]
  unfold sessionMgrSendCgaGraphics
  extract_lets m'
  have hoff : m'.cgaNextOffset = 0 := by
    obtain h0 | hend := h.offset
    · simp only [m', h0]
      split <;> rfl
    · have hge : cgaGraphicsFrameBytes ≤ m.cgaNextOffset := by
        rw [cgaFrameBytes_le]
        omega
      simp only [m', if_pos hge]
  have hsum : m'.cgaGraphicsChksum = m.cgaGraphicsChksum := by
    simp only [m', apply_ite SessionMgr.cgaGraphicsChksum, ite_self]
  rw [if_pos hoff, if_pos (h.same.trans hsum.symm)]
  exact ⟨rfl,.inl hoff,h.same.trans hsum.symm⟩

theorem cgaSweep_rule (hv : isCgaGraphicsMode video.videoMode) :
    SweepRule mem video (cgaBody video) 2 cgaScreenWords cgaFrameWords (CgaSweeping mem)
      (CgaSwept mem) where
  unit_pos := by decide
  step_pos := by decide
  more := fun _ _ h => h.more
  start := fun _ _ _ h => ⟨h.offset,h.more,h.changed,h.begun⟩
  stay := fun _ _ h => ⟨h.offset,h.same⟩
  go := by
    intro n m now hlive h
    obtain ⟨hchunk,hoff,hsum⟩ := updateAll_cgaSweeping hv hlive h
    have hmore := h.more
    have hpos : 0 < cgaFrameWords := by decide
    refine ⟨hchunk,?_⟩
    split
    next hgo => exact ⟨.inl hoff,hgo,fun h0 => by omega,fun _ => hsum⟩
    next hend =>
      have htotal : n+min cgaFrameWords (cgaScreenWords-n) = cgaScreenWords := by omega
      exact ⟨.inr (by rw [hoff, htotal]; rfl),hsum⟩
  rest := fun _ _ hlive h => updateAll_cgaSwept hv hlive h

end RmtDos
