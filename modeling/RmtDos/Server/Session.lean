import RmtDos.Server.Video

/-! The sessions of the TSR and the screen updates it sends them. One set of checksums and
cursors serves all sessions. -/
namespace RmtDos

def ethFrameLen : UInt16 := 1514
def combinedHeaderLen : UInt16 := 26
def maxPayloadLength : UInt16 := ethFrameLen-combinedHeaderLen
def cgaGraphicsFrameBytes : UInt16 := 16000

/-- `struct Session`. -/
structure Session where
  tLastRecv : UInt32
  sessionId : UInt32
  macAddr : MacAddr
  videoChksum : UInt16
  deriving DecidableEq

def nullIfAddr : MacAddr := Vector.replicate 6 0

def Session.zero : Session := ⟨0,0,nullIfAddr,0⟩

/-- `g_sessions`. -/
abbrev SessionTable := Vector Session 4

def sessionMgrInit : SessionTable := Vector.replicate 4 Session.zero

def sessionMgrFind (macAddr : MacAddr) (sessionId : UInt32) (t : SessionTable) : Option (Fin 4) :=
  (List.finRange 4).find? fun i => (t.slot i).macAddr = macAddr ∧ (t.slot i).sessionId = sessionId

/-- The slot is refreshed: its clock is set and the client is owed a whole screen. -/
def sessionTouch (now : UInt32) (s : Session) : Session :=
  { s with tLastRecv := now, videoChksum := 0 }

/-- `session_mgr_start` for the addresses of the packet, with the clock at `now`. -/
def sessionMgrStart (macAddr : MacAddr) (sessionId now : UInt32) (t : SessionTable) :
    Option (Fin 4) × SessionTable :=
  match sessionMgrFind macAddr sessionId t with
  | some i => (some i,t.put i (sessionTouch now (t.slot i)))
  | none =>
    match sessionMgrFind nullIfAddr 0 t with
    | none => (none,t)
    | some i =>
      (some i,t.put i (sessionTouch now { (t.slot i) with macAddr := macAddr, sessionId := sessionId }))

def sessionMgrReclaim : Session := Session.zero

def sessionLifetimeBiosTicks : UInt32 := 182

/-- A slot whose address is not null. -/
def Session.inUse (s : Session) : Bool := s.macAddr ≠ nullIfAddr

/-- The test for a stale session, with the overflow of the source. -/
def Session.stale (now : UInt32) (s : Session) : Bool :=
  s.tLastRecv+sessionLifetimeBiosTicks < now

/-- The pruning loop of `session_mgr_update_all`. -/
def pruneSessions (now : UInt32) (t : SessionTable) : SessionTable :=
  t.map fun s => if s.inUse ∧ s.stale now then sessionMgrReclaim else s

/-- The struct behind the protocol header of a screen frame. -/
inductive ScreenBody
  | vgaText (textRows textCols cursorRow cursorCol : UInt8) (offset count : UInt16)
  | cgaGraphics (videoMode bpp : UInt8) (width height offset count : UInt16)
  deriving DecidableEq

/-- A screen frame: `data` follows the struct. -/
structure ScreenFrame where
  destMacAddr : MacAddr
  sessionId : UInt32
  payloadLen : UInt16
  body : ScreenBody
  data : List UInt8
  deriving DecidableEq

/-- The globals that `session_mgr_update_all` works on. -/
structure SessionMgr where
  sessions : SessionTable
  videoChksum : UInt16
  cgaGraphicsChksum : UInt16
  cgaNextOffset : UInt16
  videoNextRow : UInt16

def SessionMgr.init : SessionMgr := ⟨sessionMgrInit,0,0,0,0⟩

/-- The loop that sends one frame to every session in use. -/
def sendToSessions (t : SessionTable) (payloadLen : UInt16) (body : ScreenBody)
    (data : List UInt8) : List ScreenFrame :=
  (t.toList.filter Session.inUse).map fun s => ⟨s.macAddr,s.sessionId,payloadLen,body,data⟩

def isCgaGraphicsMode (videoMode : UInt8) : Bool :=
  videoMode = 0x04 ∨ videoMode = 0x05 ∨ videoMode = 0x06

def cgaGraphicsWidth (videoMode : UInt8) : UInt16 := if videoMode = 0x06 then 640 else 320
def cgaGraphicsBpp (videoMode : UInt8) : UInt8 := if videoMode = 0x06 then 1 else 2

/-- `count` of the next graphics frame. -/
def cgaCount (offset : UInt16) : UInt16 :=
  let count := (maxPayloadLength-10) &&& 0xfffe
  if cgaGraphicsFrameBytes < count+offset then cgaGraphicsFrameBytes-offset else count

def sendCgaChunk (mem : FrameBuffer) (video : VideoState) (m : SessionMgr) :
    List ScreenFrame × SessionMgr :=
  let offset := m.cgaNextOffset
  let count := cgaCount offset
  (sendToSessions m.sessions (10+count)
      (.cgaGraphics video.videoMode (cgaGraphicsBpp video.videoMode)
        (cgaGraphicsWidth video.videoMode) 200 offset count)
      (videoCopyFromFrameBuffer mem offset (count/videoWord)),
    { m with cgaNextOffset := offset+count })

def cgaChksum (mem : FrameBuffer) : UInt16 :=
  videoChecksumFrameBuffer mem 0 (cgaGraphicsFrameBytes/videoWord)

def sessionMgrSendCgaGraphics (mem : FrameBuffer) (video : VideoState) (m : SessionMgr) :
    List ScreenFrame × SessionMgr :=
  let m := if cgaGraphicsFrameBytes ≤ m.cgaNextOffset then { m with cgaNextOffset := 0 } else m
  if m.cgaNextOffset = 0 then
    if cgaChksum mem = m.cgaGraphicsChksum then ([],m)
    else sendCgaChunk mem video { m with cgaGraphicsChksum := cgaChksum mem }
  else sendCgaChunk mem video m

/-- The rows of the next text frame. -/
def textRowCount (video : VideoState) (nextRow : UInt16) : UInt16 :=
  let rows := (ethFrameLen-(combinedHeaderLen+8))/(video.textCols.toUInt16*videoWord)
  if video.textRows.toUInt16 < rows+nextRow then video.textRows.toUInt16-nextRow else rows

def sendTextChunk (mem : FrameBuffer) (video : VideoState) (m : SessionMgr) :
    List ScreenFrame × SessionMgr :=
  let rows := textRowCount video m.videoNextRow
  let offset := m.videoNextRow*video.textCols.toUInt16*videoWord
  let wordCount := rows*video.textCols.toUInt16
  (sendToSessions m.sessions (8+wordCount*videoWord)
      (.vgaText video.textRows video.textCols video.cursorRow video.cursorCol offset
        (wordCount*videoWord))
      (videoCopyFromFrameBuffer mem offset wordCount),
    { m with videoNextRow := m.videoNextRow+rows })

def textChksum (mem : FrameBuffer) (video : VideoState) : UInt16 :=
  videoChecksumFrameBuffer mem 0 (video.textRows.toUInt16*video.textCols.toUInt16*videoWord)

/-- The text half of `session_mgr_update_all`; a width of 0, which would stop the source with a
division error, never comes from the BIOS. -/
def sessionMgrSendText (mem : FrameBuffer) (video : VideoState) (m : SessionMgr) :
    List ScreenFrame × SessionMgr :=
  let m := if video.textRows.toUInt16 ≤ m.videoNextRow then { m with videoNextRow := 0 } else m
  if m.videoNextRow = 0 then
    if textChksum mem video = m.videoChksum then ([],m)
    else sendTextChunk mem video { m with videoChksum := textChksum mem video }
  else sendTextChunk mem video m

def sessionMgrUpdateAll (mem : FrameBuffer) (video : VideoState) (now : UInt32) (m : SessionMgr) :
    List ScreenFrame × SessionMgr :=
  let m := { m with sessions := pruneSessions now m.sessions }
  if m.sessions.any Session.inUse then
    if isCgaGraphicsMode video.videoMode then
      sessionMgrSendCgaGraphics mem video { m with videoNextRow := 0 }
    else sessionMgrSendText mem video { m with cgaNextOffset := 0 }
  else ([],{ m with videoNextRow := 0, cgaNextOffset := 0 })

end RmtDos
