import RmtDos.Server.CgaSweep
import RmtDos.Server.SessionTable
import RmtDos.Server.TextSweep

/-! The server and its viewers over a whole run: clients join, sessions expire, and the screen and
its mode change at any time. Two records are kept beside the state of the source: the frames that
each slot has been sent since it was allocated, and what is known of the last sweep of a kind. -/
namespace RmtDos
open Runs

/-! The two kinds of sweeps, in bytes of the frame buffer. -/

structure SweepKind where
  pos : SessionMgr → VideoState → ℕ
  chksum : SessionMgr → UInt16
  sum : FrameBuffer → VideoState → UInt16
  total : VideoState → ℕ
  step : VideoState → ℕ
  same : VideoState → VideoState → Bool

def textKind : SweepKind where
  pos m video := m.videoNextRow.toNat*rowBytes video
  chksum := SessionMgr.videoChksum
  sum := textChksum
  total := screenBytes
  step video := frameRows video*rowBytes video
  same v w := v.textRows = w.textRows ∧ v.textCols = w.textCols

def cgaKind : SweepKind where
  pos m _ := m.cgaNextOffset.toNat
  chksum := SessionMgr.cgaGraphicsChksum
  sum mem _ := cgaChksum mem
  total _ := 16000
  step _ := 1478
  same v w := v.videoMode = w.videoMode

def kindOf (video : VideoState) : SweepKind :=
  if isCgaGraphicsMode video.videoMode then cgaKind else textKind

namespace SweepKind
variable (K : SweepKind)

/-- The next update in the mode is the first of a sweep. -/
def AtStart (m : SessionMgr) (video : VideoState) : Prop :=
  K.pos m video = 0 ∨ K.total video ≤ K.pos m video

instance (m : SessionMgr) (video : VideoState) : Decidable (K.AtStart m video) :=
  inferInstanceAs (Decidable (_ ∨ _))

/-- The update finds the checksum unchanged at the start of a sweep. -/
def Unchanged (m : SessionMgr) (mem : FrameBuffer) (video : VideoState) : Prop :=
  K.AtStart m video ∧ K.sum mem video = K.chksum m

instance (m : SessionMgr) (mem : FrameBuffer) (video : VideoState) :
    Decidable (K.Unchanged m mem video) := inferInstanceAs (Decidable (_ ∧ _))

/-- What the next update sends within a sweep. -/
def range (m : SessionMgr) (video : VideoState) : ℕ × ℕ :=
  (K.pos m video,min (K.step video) (K.total video-K.pos m video))

end SweepKind

/-- The last sweep of a kind: the screen at its start, and the slots that were allocated then. It is
broken if it was cut off, or has sent something else than that screen. -/
inductive SweepRecord
  | broken
  | going (mem : FrameBuffer) (video : VideoState) (holders : Fin 4 → Bool)
  | complete (mem : FrameBuffer) (video : VideoState) (holders : Fin 4 → Bool)

namespace SweepRecord

/-- The next update of the kind will not go on with the sweep. -/
def cutOff : SweepRecord → SweepRecord
  | .complete mem video holders => .complete mem video holders
  | _ => .broken

/-- A slot is allocated. -/
def join (i : Fin 4) : SweepRecord → SweepRecord
  | .broken => .broken
  | .going mem video holders => .going mem video (Function.update holders i false)
  | .complete mem video holders => .complete mem video (Function.update holders i false)

/-- The sweep with `sent` bytes sent. -/
def upTo (K : SweepKind) (sent : ℕ) (mem : FrameBuffer) (video : VideoState)
    (holders : Fin 4 → Bool) : SweepRecord :=
  if sent < K.total video then .going mem video holders else .complete mem video holders

/-- An update of the kind that finds the screen. -/
def next (K : SweepKind) (m : SessionMgr) (mem : FrameBuffer) (video : VideoState)
    (r : SweepRecord) : SweepRecord :=
  if K.AtStart m video then
    if K.sum mem video = K.chksum m then r.cutOff
    else upTo K (min (K.step video) (K.total video)) mem video fun _ => true
  else
    match r with
    | .going mem₀ video₀ holders =>
      if K.same video₀ video ∧
          screenSlice mem (K.range m video) = screenSlice mem₀ (K.range m video) then
        upTo K ((K.range m video).1+(K.range m video).2) mem₀ video₀ holders
      else .broken
    | r => r

end SweepRecord

/-- The state of the server, the screen, and the records. -/
structure Viewers where
  m : SessionMgr
  mem : FrameBuffer
  video : VideoState
  sent : Fin 4 → List ScreenFrame
  text : SweepRecord
  cga : SweepRecord

def Viewers.start (mem : FrameBuffer) (video : VideoState) : Viewers :=
  ⟨SessionMgr.init,mem,video,fun _ => [],.broken,.broken⟩

inductive ViewEvent
  | tick (now : UInt32)
  | start (macAddr : MacAddr) (sessionId now : UInt32)
  | write (mem : FrameBuffer)
  | mode (video : VideoState)

/-- The frame is for the session. -/
def ScreenFrame.to (f : ScreenFrame) (s : Session) : Bool :=
  f.destMacAddr = s.macAddr ∧ f.sessionId = s.sessionId

namespace Viewers

/-- `session_mgr_update_all`, with the frames recorded for the slots. -/
def tick (now : UInt32) (s : Viewers) : Viewers :=
  let t := pruneSessions now s.m.sessions
  let r := sessionMgrUpdateAll s.mem s.video now s.m
  let live := t.any Session.inUse
  let cga := isCgaGraphicsMode s.video.videoMode
  { s with
    m := r.2
    sent := fun i => s.sent i ++ r.1.filter fun f => f.to (t.slot i)
    text := if live ∧ ¬ cga then s.text.next textKind s.m s.mem s.video else s.text.cutOff
    cga := if live ∧ cga then s.cga.next cgaKind s.m s.mem s.video else s.cga.cutOff }

/-- `session_mgr_start`; a client without a slot is allocated one, if there is one. -/
def join (macAddr : MacAddr) (sessionId now : UInt32) (s : Viewers) : Viewers :=
  let r := sessionMgrStart macAddr sessionId now s.m.sessions
  let s' := { s with m := { s.m with sessions := r.2 } }
  match sessionMgrFind macAddr sessionId s.m.sessions, r.1 with
  | none, some i =>
    { s' with sent := Function.update s.sent i [], text := s.text.join i, cga := s.cga.join i }
  | _, _ => s'

def step (s : Viewers) : ViewEvent → Viewers
  | .tick now => s.tick now
  | .start macAddr sessionId now => s.join macAddr sessionId now
  | .write mem => { s with mem := mem }
  | .mode video => { s with video := video }

end Viewers

/-- A step that leads to one of the screens that occur. -/
def ViewStep (screens : FrameBuffer → VideoState → Prop) (s : Viewers) (e : ViewEvent)
    (s' : Viewers) : Prop := s' = s.step e ∧ screens s'.mem s'.video

/-- The bytes of the screen. -/
def screenSize (video : VideoState) : ℕ :=
  if isCgaGraphicsMode video.videoMode then 16000 else screenBytes video

/-- The screens are text screens in the frame buffer or graphics screens, and the checksum
distinguishes those of one mode. -/
structure DistinctScreens (screens : FrameBuffer → VideoState → Prop) : Prop where
  valid : ∀ mem video, screens mem video →
    isCgaGraphicsMode video.videoMode = false → TextScreen video
  distinct : ∀ mem mem' video video', screens mem video → screens mem' video' →
    isCgaGraphicsMode video.videoMode = isCgaGraphicsMode video'.videoMode →
    (kindOf video').same video video' →
    (kindOf video').sum mem video = (kindOf video').sum mem' video' →
    ∀ j < screenSize video', mem (UInt16.ofNat j) = mem' (UInt16.ofNat j)

/-- The frame is of the mode, and has the byte of the screen at `j`. -/
def ScreenFrame.Carries (f : ScreenFrame) (mem : FrameBuffer) (video : VideoState) (j : ℕ) :
    Prop :=
  match f.body with
  | .vgaText textRows textCols _ _ offset _ =>
    isCgaGraphicsMode video.videoMode = false ∧ textRows = video.textRows ∧
      textCols = video.textCols ∧ offset.toNat ≤ j ∧
      f.data[j-offset.toNat]? = some (mem (UInt16.ofNat j))
  | .cgaGraphics videoMode _ _ _ offset _ =>
    isCgaGraphicsMode video.videoMode = true ∧ videoMode = video.videoMode ∧ offset.toNat ≤ j ∧
      f.data[j-offset.toNat]? = some (mem (UInt16.ofNat j))

/-- Each session in use has been sent the whole screen, since its slot was allocated. -/
def UpToDate (s : Viewers) : Prop :=
  ∀ i : Fin 4, (s.m.sessions.slot i).inUse → ∀ j < screenSize s.video,
    ∃ f ∈ s.sent i, f.Carries s.mem s.video j

/-- An update that sends nothing, with a session in use, because the checksum is unchanged. -/
def Viewers.Quiet (s : Viewers) : ViewEvent → Prop
  | .tick now => (pruneSessions now s.m.sessions).any Session.inUse ∧
      (kindOf s.video).Unchanged s.m s.mem s.video
  | _ => False

/-- What is seen of it: no frame, though a session is in use. -/
def Viewers.Silent (s : Viewers) : ViewEvent → Prop
  | .tick now => (pruneSessions now s.m.sessions).any Session.inUse ∧
      (sessionMgrUpdateAll s.mem s.video now s.m).1 = []
  | _ => False

def Viewers.record (s : Viewers) : SweepRecord :=
  if isCgaGraphicsMode s.video.videoMode then s.cga else s.text

/-- If the update will be quiet, the last sweep of the kind was for this mode, has sent one screen
to its end, and began after the slots of all sessions in use were allocated. -/
def Viewers.Swept (s : Viewers) : ViewEvent → Prop
  | .tick now => s.Quiet (.tick now) → ∃ mem video holders,
      s.record = .complete mem video holders ∧ (kindOf s.video).same video s.video ∧
      ∀ i : Fin 4, ((pruneSessions now s.m.sessions).slot i).inUse → holders i
  | _ => True

end RmtDos
