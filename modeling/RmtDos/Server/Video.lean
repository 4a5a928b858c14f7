import RmtDos.Protocol

/-! The display adapter as the TSR reads it: the registers of the BIOS and the bytes of the
frame buffer segment. -/
namespace RmtDos

def videoWord : UInt16 := 2

/-- `struct VideoState`. -/
structure VideoState where
  videoMode : UInt8
  activePage : UInt8
  textRows : UInt8
  textCols : UInt8
  cursorRow : UInt8
  cursorCol : UInt8
  deriving DecidableEq

/-- The segment of the frame buffer; offsets into it wrap. -/
abbrev FrameBuffer := UInt16 → UInt8

def rol1 (x : UInt16) : UInt16 := x <<< 1 ||| x >>> 15

/-- A word of the frame buffer with its bytes swapped. -/
def swappedWord (mem : FrameBuffer) (si : UInt16) : UInt16 :=
  (mem si).toUInt16 <<< 8 ||| (mem (si+1)).toUInt16

def checksumLoop (mem : FrameBuffer) : ℕ → UInt16 → UInt16 → UInt16
  | 0, _, dx => dx
  | n+1, si, dx => checksumLoop mem n (si+2) (rol1 (dx+swappedWord mem si))

/-- The `loop` instruction runs 65536 times when its count is 0. -/
def videoChecksumFrameBuffer (mem : FrameBuffer) (offset words : UInt16) : UInt16 :=
  checksumLoop mem (if words = 0 then 65536 else words.toNat) offset 0

def videoCopyFromFrameBuffer (mem : FrameBuffer) (offset words : UInt16) : List UInt8 :=
  (List.range (2*words.toNat)).map fun i => mem (offset+UInt16.ofNat i)

end RmtDos
