import RmtDos.Client.HostList
import RmtDos.Server.Keystrokes

/-! The keys of the terminal in a session: what `wget_wch` returns, the table that maps it to the
data of the BIOS, and the frame that takes a key to the server. -/
namespace RmtDos
open Memory

/-! `keysyms.h`. -/

def scanEsc : UInt8 := 1
def scan1 : UInt8 := 2
def scan2 : UInt8 := 3
def scan3 : UInt8 := 4
def scan4 : UInt8 := 5
def scan5 : UInt8 := 6
def scan6 : UInt8 := 7
def scan7 : UInt8 := 8
def scan8 : UInt8 := 9
def scan9 : UInt8 := 10
def scan0 : UInt8 := 11
def scanDash : UInt8 := 12
def scanEq : UInt8 := 13
def scanBs : UInt8 := 14
def scanTab : UInt8 := 15
def scanQ : UInt8 := 16
def scanW : UInt8 := 17
def scanE : UInt8 := 18
def scanR : UInt8 := 19
def scanT : UInt8 := 20
def scanY : UInt8 := 21
def scanU : UInt8 := 22
def scanI : UInt8 := 23
def scanO : UInt8 := 24
def scanP : UInt8 := 25
def scanLbrace : UInt8 := 26
def scanRbrace : UInt8 := 27
def scanReturn : UInt8 := 28
def scanA : UInt8 := 30
def scanS : UInt8 := 31
def scanD : UInt8 := 32
def scanF : UInt8 := 33
def scanG : UInt8 := 34
def scanH : UInt8 := 35
def scanJ : UInt8 := 36
def scanK : UInt8 := 37
def scanL : UInt8 := 38
def scanSemicolon : UInt8 := 39
def scanQuote : UInt8 := 40
def scanTilde : UInt8 := 41
def scanBslash : UInt8 := 43
def scanZ : UInt8 := 44
def scanX : UInt8 := 45
def scanC : UInt8 := 46
def scanV : UInt8 := 47
def scanB : UInt8 := 48
def scanN : UInt8 := 49
def scanM : UInt8 := 50
def scanComma : UInt8 := 51
def scanPeriod : UInt8 := 52
def scanFslash : UInt8 := 53
def scanMul : UInt8 := 55
def scanSpace : UInt8 := 57
def scanF1 : UInt8 := 0x3b
def scanF2 : UInt8 := 0x3c
def scanF3 : UInt8 := 0x3d
def scanF4 : UInt8 := 0x3e
def scanF5 : UInt8 := 0x3f
def scanF6 : UInt8 := 0x40
def scanF7 : UInt8 := 0x41
def scanF8 : UInt8 := 0x42
def scanF9 : UInt8 := 0x43
def scanF10 : UInt8 := 0x44
def scanKeypad7 : UInt8 := 0x47
def scanKeypad8 : UInt8 := 0x48
def scanKeypad9 : UInt8 := 0x49
def scanKeypad4 : UInt8 := 0x4b
def scanKeypad5 : UInt8 := 0x4c
def scanKeypad6 : UInt8 := 0x4d
def scanKeypadPlus : UInt8 := 0x4e
def scanKeypad1 : UInt8 := 0x4f
def scanKeypad2 : UInt8 := 0x50
def scanKeypad3 : UInt8 := 0x51
def scanKeypad0 : UInt8 := 0x52
def scanKeypadPeriod : UInt8 := 0x53
def scanF11 : UInt8 := 0x85
def scanF12 : UInt8 := 0x86

/-! The flags of `struct Keystroke`. -/

def ksShift : UInt8 := 1
def ksControl : UInt8 := 4
def ksAlt : UInt8 := 8

/-- `struct Key`, without the name that only the diagnostics print. -/
structure Key where
  bios : UInt8
  ascii : UInt8
  flags : UInt8
  deriving DecidableEq

/-- `UNKNOWN`. -/
def unknown : Key := ⟨0,0,0⟩

/-! The designated initializers of `keymap`, in the order of the source. -/

def keymapAscii : List (ℕ × Key) := [
  (0x000,⟨0x03,0,ksControl ||| ksShift⟩),(0x001,⟨scanA,0x01,ksControl⟩),
  (0x002,⟨scanB,0x02,ksControl⟩),(0x003,⟨scanC,0x03,ksControl⟩),(0x004,⟨scanD,0x04,ksControl⟩),
  (0x005,⟨scanE,0x05,ksControl⟩),(0x006,⟨scanF,0x06,ksControl⟩),(0x007,⟨scanG,0x07,ksControl⟩),
  (0x008,⟨scanH,0x08,ksControl⟩),(0x009,⟨scanTab,0x09,0⟩),(0x00a,⟨scanJ,0x0a,ksControl⟩),
  (0x00b,⟨scanK,0x0b,ksControl⟩),(0x00c,⟨scanL,0x0c,ksControl⟩),(0x00d,⟨scanM,0x0d,ksControl⟩),
  (0x00e,⟨scanN,0x0e,ksControl⟩),(0x00e,⟨scanReturn,0x0a,0⟩),(0x00f,⟨scanO,0x0f,ksControl⟩),
  (0x010,⟨scanP,0x10,ksControl⟩),(0x011,⟨scanQ,0x11,ksControl⟩),(0x012,⟨scanReturn,0x0d,0⟩),
  (0x012,⟨scanR,0x12,ksControl⟩),(0x013,⟨scanS,0x13,ksControl⟩),(0x014,⟨scanT,0x14,ksControl⟩),
  (0x015,⟨scanU,0x15,ksControl⟩),(0x016,⟨scanV,0x16,ksControl⟩),(0x017,⟨scanW,0x17,ksControl⟩),
  (0x018,⟨scanX,0x18,ksControl⟩),(0x019,⟨scanY,0x19,ksControl⟩),(0x01a,⟨scanZ,0x1a,ksControl⟩),
  (0x01b,⟨scanEsc,0x1b,0⟩),(0x01c,⟨0x2b,0x1c,ksControl⟩),(0x01d,⟨0x1d,0x1b,ksControl⟩),
  (0x01e,⟨0x07,0x1e,ksControl⟩),(0x01f,⟨0x0c,0x1f,ksControl ||| ksShift⟩),
  (0x020,⟨scanSpace,0x20,0⟩),(0x021,⟨scan1,0x21,ksShift⟩),(0x022,⟨scanQuote,0x22,ksShift⟩),
  (0x023,⟨scan3,0x23,ksShift⟩),(0x024,⟨scan4,0x24,ksShift⟩),(0x025,⟨scan5,0x25,ksShift⟩),
  (0x026,⟨scan7,0x26,ksShift⟩),(0x027,⟨scanQuote,0x27,0⟩),(0x028,⟨scan9,0x28,ksShift⟩),
  (0x029,⟨scan0,0x29,ksShift⟩),(0x02a,⟨scan8,0x2a,ksShift⟩),(0x02b,⟨scanEq,0x2b,ksShift⟩),
  (0x02c,⟨scanComma,0x2c,0⟩),(0x02d,⟨scanDash,0x2d,0⟩),(0x02e,⟨scanPeriod,0x2e,0⟩),
  (0x02f,⟨scanFslash,0x2f,0⟩),(0x030,⟨scan0,0x30,0⟩),(0x031,⟨scan1,0x31,0⟩),(0x032,⟨scan2,0x32,0⟩),
  (0x033,⟨scan3,0x33,0⟩),(0x034,⟨scan4,0x34,0⟩),(0x035,⟨scan5,0x35,0⟩),(0x036,⟨scan6,0x36,0⟩),
  (0x037,⟨scan7,0x37,0⟩),(0x038,⟨scan8,0x38,0⟩),(0x039,⟨scan9,0x39,0⟩),
  (0x03a,⟨scanSemicolon,0x3a,ksShift⟩),(0x03b,⟨scanSemicolon,0x3b,0⟩),
  (0x03c,⟨scanComma,0x3c,ksShift⟩),(0x03d,⟨scanEq,0x3d,0⟩),(0x03e,⟨scanPeriod,0x3e,ksShift⟩),
  (0x03f,⟨scanFslash,0x3f,ksShift⟩),(0x040,⟨scan2,0x40,ksShift⟩),(0x041,⟨scanA,0x41,ksShift⟩),
  (0x042,⟨scanB,0x42,ksShift⟩),(0x043,⟨scanC,0x43,ksShift⟩),(0x044,⟨scanD,0x44,ksShift⟩),
  (0x045,⟨scanE,0x45,ksShift⟩),(0x046,⟨scanF,0x46,ksShift⟩),(0x047,⟨scanG,0x47,ksShift⟩),
  (0x048,⟨scanH,0x48,ksShift⟩),(0x049,⟨scanI,0x49,ksShift⟩),(0x04a,⟨scanJ,0x4a,ksShift⟩),
  (0x04b,⟨scanK,0x4b,ksShift⟩),(0x04c,⟨scanL,0x4c,ksShift⟩),(0x04d,⟨scanM,0x4d,ksShift⟩),
  (0x04e,⟨scanN,0x4e,ksShift⟩),(0x04f,⟨scanO,0x4f,ksShift⟩),(0x050,⟨scanP,0x50,ksShift⟩),
  (0x051,⟨scanQ,0x51,ksShift⟩),(0x052,⟨scanR,0x52,ksShift⟩),(0x053,⟨scanS,0x53,ksShift⟩),
  (0x054,⟨scanT,0x54,ksShift⟩),(0x055,⟨scanU,0x55,ksShift⟩),(0x056,⟨scanV,0x56,ksShift⟩),
  (0x057,⟨scanW,0x57,ksShift⟩),(0x058,⟨scanX,0x58,ksShift⟩),(0x059,⟨scanY,0x59,ksShift⟩),
  (0x05a,⟨scanZ,0x5a,ksShift⟩),(0x05b,⟨scanLbrace,0x5b,0⟩),(0x05c,⟨scanBslash,0x5c,0⟩),
  (0x05d,⟨scanRbrace,0x5d,0⟩),(0x05e,⟨scan6,0x5e,ksShift⟩),(0x05f,⟨scanDash,0x5f,ksShift⟩),
  (0x060,⟨scanTilde,0x60,0⟩),(0x061,⟨scanA,0x61,0⟩),(0x062,⟨scanB,0x62,0⟩),(0x063,⟨scanC,0x63,0⟩),
  (0x064,⟨scanD,0x64,0⟩),(0x065,⟨scanE,0x65,0⟩),(0x066,⟨scanF,0x66,0⟩),(0x067,⟨scanG,0x67,0⟩),
  (0x068,⟨scanH,0x68,0⟩),(0x069,⟨scanI,0x69,0⟩),(0x06a,⟨scanJ,0x6a,0⟩),(0x06b,⟨scanK,0x6b,0⟩),
  (0x06c,⟨scanL,0x6c,0⟩),(0x06d,⟨scanM,0x6d,0⟩),(0x06e,⟨scanN,0x6e,0⟩),(0x06f,⟨scanO,0x6f,0⟩),
  (0x070,⟨scanP,0x70,0⟩),(0x071,⟨scanQ,0x71,0⟩),(0x072,⟨scanR,0x72,0⟩),(0x073,⟨scanS,0x73,0⟩),
  (0x074,⟨scanT,0x74,0⟩),(0x075,⟨scanU,0x75,0⟩),(0x076,⟨scanV,0x76,0⟩),(0x077,⟨scanW,0x77,0⟩),
  (0x078,⟨scanX,0x78,0⟩),(0x079,⟨scanY,0x79,0⟩),(0x07a,⟨scanZ,0x7a,0⟩),
  (0x07b,⟨scanLbrace,0x7b,ksShift⟩),(0x07c,⟨scanBslash,0x7c,ksShift⟩),
  (0x07d,⟨scanRbrace,0x7d,ksShift⟩),(0x07e,⟨scanTilde,0x7e,ksShift⟩),
  (0x07f,⟨scanBs,0x7f,ksControl⟩)]

def keymapMeta : List (ℕ × Key) := [
  (0x080,⟨scanTilde,0,ksAlt ||| ksControl⟩),(0x081,⟨scanA,0,ksAlt ||| ksControl⟩),
  (0x082,⟨scanB,0,ksAlt ||| ksControl⟩),(0x083,⟨scanC,0,ksAlt ||| ksControl⟩),
  (0x084,⟨scanD,0,ksAlt ||| ksControl⟩),(0x085,⟨scanE,0,ksAlt ||| ksControl⟩),
  (0x086,⟨scanF,0,ksAlt ||| ksControl⟩),(0x087,⟨scanG,0,ksAlt ||| ksControl⟩),
  (0x088,⟨scanH,0,ksAlt ||| ksControl⟩),(0x089,⟨scanI,0,ksAlt ||| ksControl⟩),
  (0x08a,⟨scanJ,0,ksAlt ||| ksControl⟩),(0x08b,⟨scanK,0,ksAlt ||| ksControl⟩),
  (0x08c,⟨scanL,0,ksAlt ||| ksControl⟩),(0x08d,⟨scanM,0,ksAlt ||| ksControl⟩),
  (0x08e,⟨scanN,0,ksAlt ||| ksControl⟩),(0x08f,⟨scanO,0,ksAlt ||| ksControl⟩),
  (0x090,⟨scanP,0,ksAlt ||| ksControl⟩),(0x091,⟨scanQ,0,ksAlt ||| ksControl⟩),
  (0x092,⟨scanR,0,ksAlt ||| ksControl⟩),(0x093,⟨scanS,0,ksAlt ||| ksControl⟩),
  (0x094,⟨scanT,0,ksAlt ||| ksControl⟩),(0x095,⟨scanU,0,ksAlt ||| ksControl⟩),
  (0x096,⟨scanV,0,ksAlt ||| ksControl⟩),(0x097,⟨scanW,0,ksAlt ||| ksControl⟩),
  (0x098,⟨scanX,0,ksAlt ||| ksControl⟩),(0x099,⟨scanY,0,ksAlt ||| ksControl⟩),
  (0x09a,⟨scanZ,0,ksAlt ||| ksControl⟩),(0x09b,⟨scanEsc,0,ksAlt ||| ksControl⟩),
  (0x09c,⟨scanBslash,0,ksAlt ||| ksControl⟩),(0x09d,unknown),
  (0x09e,⟨scan6,0,ksAlt ||| ksControl ||| ksShift⟩),(0x09f,⟨scanFslash,0,ksAlt ||| ksControl⟩),
  (0x0a0,unknown),(0x0a1,⟨0x78,0,ksAlt ||| ksShift⟩),(0x0a2,⟨scanQuote,0,ksAlt ||| ksShift⟩),
  (0x0a3,⟨0x7a,0,ksAlt ||| ksShift⟩),(0x0a4,⟨0x7b,0,ksAlt ||| ksShift⟩),
  (0x0a5,⟨0x7c,0,ksAlt ||| ksShift⟩),(0x0a6,⟨0x7e,0,ksAlt ||| ksShift⟩),
  (0x0a7,⟨scanQuote,0,ksAlt⟩),(0x0a8,⟨0x80,0,ksAlt ||| ksShift⟩),
  (0x0a9,⟨0x81,0,ksAlt ||| ksShift⟩),(0x0aa,⟨0x7f,0,ksAlt ||| ksShift⟩),
  (0x0ab,⟨0x83,0,ksAlt ||| ksShift⟩),(0x0ac,⟨scanComma,0,ksAlt⟩),(0x0ad,⟨scanDash,0,ksAlt⟩),
  (0x0ae,⟨scanPeriod,0,ksAlt⟩),(0x0af,unknown),(0x0b0,⟨0x81,0,ksAlt⟩),(0x0b1,⟨0x78,0,ksAlt⟩),
  (0x0b2,⟨0x79,0,ksAlt⟩),(0x0b3,⟨0x7a,0,ksAlt⟩),(0x0b4,⟨0x7b,0,ksAlt⟩),(0x0b5,⟨0x7c,0,ksAlt⟩),
  (0x0b6,⟨0x7d,0,ksAlt⟩),(0x0b7,⟨0x7e,0,ksAlt⟩),(0x0b8,⟨0x7f,0,ksAlt⟩),(0x0b9,⟨0x80,0,ksAlt⟩),
  (0x0ba,⟨scanSemicolon,0,ksAlt ||| ksShift⟩),(0x0bb,⟨scanSemicolon,0,ksAlt⟩),
  (0x0bc,⟨scanComma,0,ksAlt ||| ksShift⟩),(0x0bd,⟨0x83,0,ksAlt⟩),
  (0x0be,⟨scanPeriod,0,ksAlt ||| ksShift⟩),(0x0bf,⟨scanFslash,0,ksAlt ||| ksShift⟩),
  (0x0c0,⟨0x79,0,ksAlt ||| ksShift⟩),(0x0c1,⟨scanA,0,ksAlt ||| ksShift⟩),
  (0x0c2,⟨scanB,0,ksAlt ||| ksShift⟩),(0x0c3,⟨scanC,0,ksAlt ||| ksShift⟩),
  (0x0c4,⟨scanD,0,ksAlt ||| ksShift⟩),(0x0c5,⟨scanE,0,ksAlt ||| ksShift⟩),
  (0x0c6,⟨scanF,0,ksAlt ||| ksShift⟩),(0x0c7,⟨scanG,0,ksAlt ||| ksShift⟩),
  (0x0c8,⟨scanH,0,ksAlt ||| ksShift⟩),(0x0c9,⟨scanI,0,ksAlt ||| ksShift⟩),
  (0x0ca,⟨scanJ,0,ksAlt ||| ksShift⟩),(0x0cb,⟨scanK,0,ksAlt ||| ksShift⟩),
  (0x0cc,⟨scanL,0,ksAlt ||| ksShift⟩),(0x0cd,⟨scanM,0,ksAlt ||| ksShift⟩),
  (0x0ce,⟨scanN,0,ksAlt ||| ksShift⟩),(0x0cf,⟨scanO,0,ksAlt ||| ksShift⟩),
  (0x0d0,⟨scanP,0,ksAlt ||| ksShift⟩),(0x0d1,⟨scanQ,0,ksAlt ||| ksShift⟩),
  (0x0d2,⟨scanR,0,ksAlt ||| ksShift⟩),(0x0d3,⟨scanS,0,ksAlt ||| ksShift⟩),
  (0x0d4,⟨scanT,0,ksAlt ||| ksShift⟩),(0x0d5,⟨scanU,0,ksAlt ||| ksShift⟩),
  (0x0d6,⟨scanV,0,ksAlt ||| ksShift⟩),(0x0d7,⟨scanW,0,ksAlt ||| ksShift⟩),
  (0x0d8,⟨scanX,0,ksAlt ||| ksShift⟩),(0x0d9,⟨scanY,0,ksAlt ||| ksShift⟩),
  (0x0da,⟨scanZ,0,ksAlt ||| ksShift⟩),(0x0db,⟨scanLbrace,0,ksAlt⟩),(0x0dc,⟨scanBslash,0,ksAlt⟩),
  (0x0dd,⟨scanRbrace,0,ksAlt⟩),(0x0de,⟨0x7d,0,ksAlt ||| ksShift⟩),(0x0df,unknown),
  (0x0e0,⟨scanTilde,0,ksAlt⟩),(0x0e1,⟨scanA,0,ksAlt⟩),(0x0e2,⟨scanB,0,ksAlt⟩),
  (0x0e3,⟨scanC,0,ksAlt⟩),(0x0e4,⟨scanD,0,ksAlt⟩),(0x0e5,⟨scanE,0,ksAlt⟩),(0x0e6,⟨scanF,0,ksAlt⟩),
  (0x0e7,⟨scanG,0,ksAlt⟩),(0x0e8,⟨scanH,0,ksAlt⟩),(0x0e9,⟨scanI,0,ksAlt⟩),(0x0ea,⟨scanJ,0,ksAlt⟩),
  (0x0eb,⟨scanK,0,ksAlt⟩),(0x0ec,⟨scanL,0,ksAlt⟩),(0x0ed,⟨scanM,0,ksAlt⟩),(0x0ee,⟨scanN,0,ksAlt⟩),
  (0x0ef,⟨scanO,0,ksAlt⟩),(0x0f0,⟨scanP,0,ksAlt⟩),(0x0f1,⟨scanQ,0,ksAlt⟩),(0x0f2,⟨scanR,0,ksAlt⟩),
  (0x0f3,⟨scanS,0,ksAlt⟩),(0x0f4,⟨scanT,0,ksAlt⟩),(0x0f5,⟨scanU,0,ksAlt⟩),(0x0f6,⟨scanV,0,ksAlt⟩),
  (0x0f7,⟨scanW,0,ksAlt⟩),(0x0f8,⟨scanX,0,ksAlt⟩),(0x0f9,⟨scanY,0,ksAlt⟩),(0x0fa,⟨scanZ,0,ksAlt⟩),
  (0x0fb,⟨scanLbrace,0,ksAlt ||| ksShift⟩),(0x0fc,⟨scanBslash,0,ksAlt ||| ksShift⟩),
  (0x0fd,⟨scanRbrace,0,ksAlt ||| ksShift⟩),(0x0fe,unknown),(0x0ff,unknown)]

def keymapCurses : List (ℕ × Key) := [
  (0x100,unknown),(0x101,unknown),(0x102,⟨scanKeypad2,0,0⟩),(0x103,⟨scanKeypad8,0,0⟩),
  (0x104,⟨scanKeypad4,0,0⟩),(0x105,⟨scanKeypad6,0,0⟩),(0x106,⟨scanKeypad7,0,0⟩),
  (0x107,⟨scanBs,0x08,0⟩),(0x108,unknown),(0x109,⟨scanF1,0,0⟩),(0x10a,⟨scanF2,0,0⟩),
  (0x10b,⟨scanF3,0,0⟩),(0x10c,⟨scanF4,0,0⟩),(0x10d,⟨scanF5,0,0⟩),(0x10e,⟨scanF6,0,0⟩),
  (0x10f,⟨scanF7,0,0⟩),(0x110,⟨scanF8,0,0⟩),(0x111,⟨scanF9,0,0⟩),(0x112,⟨scanF10,0,0⟩),
  (0x113,⟨scanF11,0,0⟩),(0x114,⟨scanF12,0,0⟩),(0x115,⟨scanF1,0,ksShift⟩),
  (0x116,⟨scanF2,0,ksShift⟩),(0x117,⟨scanF3,0,ksShift⟩),(0x118,⟨scanF4,0,ksShift⟩),
  (0x119,⟨scanF5,0,ksShift⟩),(0x11a,⟨scanF6,0,ksShift⟩),(0x11b,⟨scanF7,0,ksShift⟩),
  (0x11c,⟨scanF8,0,ksShift⟩),(0x11d,⟨scanF9,0,ksShift⟩),(0x11e,⟨scanF10,0,ksShift⟩),
  (0x11f,⟨scanF11,0,ksShift⟩),(0x120,⟨scanF12,0,ksShift⟩),(0x121,⟨scanF1,0,ksControl⟩),
  (0x122,⟨scanF2,0,ksControl⟩),(0x123,⟨scanF3,0,ksControl⟩),(0x124,⟨scanF4,0,ksControl⟩),
  (0x125,⟨scanF5,0,ksControl⟩),(0x126,⟨scanF6,0,ksControl⟩),(0x127,⟨scanF7,0,ksControl⟩),
  (0x128,⟨scanF8,0,ksControl⟩),(0x129,⟨scanF9,0,ksControl⟩),(0x12a,⟨scanF10,0,ksControl⟩),
  (0x12b,⟨scanF11,0,ksControl⟩),(0x12c,⟨scanF12,0,ksControl⟩),
  (0x12d,⟨scanF1,0,ksShift ||| ksControl⟩),(0x12e,⟨scanF2,0,ksShift ||| ksControl⟩),
  (0x12f,⟨scanF3,0,ksShift ||| ksControl⟩),(0x130,⟨scanF4,0,ksShift ||| ksControl⟩),
  (0x131,⟨scanF5,0,ksShift ||| ksControl⟩),(0x132,⟨scanF6,0,ksShift ||| ksControl⟩),
  (0x133,⟨scanF7,0,ksShift ||| ksControl⟩),(0x134,⟨scanF8,0,ksShift ||| ksControl⟩),
  (0x135,⟨scanF9,0,ksShift ||| ksControl⟩),(0x136,⟨scanF10,0,ksShift ||| ksControl⟩),
  (0x137,⟨scanF11,0,ksShift ||| ksControl⟩),(0x138,⟨scanF12,0,ksShift ||| ksControl⟩),
  (0x139,⟨scanF1,0,ksAlt⟩),(0x13a,⟨scanF2,0,ksAlt⟩),(0x13b,⟨scanF3,0,ksAlt⟩),
  (0x13c,⟨scanF4,0,ksAlt⟩),(0x13d,⟨scanF5,0,ksAlt⟩),(0x13e,⟨scanF6,0,ksAlt⟩),
  (0x13f,⟨scanF7,0,ksAlt⟩),(0x140,⟨scanF8,0,ksAlt⟩),(0x141,⟨scanF9,0,ksAlt⟩),
  (0x142,⟨scanF10,0,ksAlt⟩),(0x143,⟨scanF11,0,ksAlt⟩),(0x144,⟨scanF12,0,ksAlt⟩),
  (0x145,⟨scanF1,0,ksAlt ||| ksShift⟩),(0x146,⟨scanF2,0,ksAlt ||| ksShift⟩),
  (0x147,⟨scanF3,0,ksAlt ||| ksShift⟩),(0x14a,⟨scanKeypadPeriod,0,0⟩),(0x14b,⟨scanKeypad0,0,0⟩),
  (0x150,⟨0xa0,0,ksShift⟩),(0x151,⟨0x8d,0,ksShift⟩),(0x152,⟨scanKeypad3,0,0⟩),
  (0x153,⟨scanKeypad9,0,0⟩),(0x157,⟨scanReturn,0x0d,0⟩),(0x162,⟨scanKeypad5,0,0⟩),
  (0x168,⟨scanKeypad1,0,0⟩),(0x182,⟨0x9f,0,ksShift⟩),(0x187,⟨0x97,0,ksShift⟩),
  (0x189,⟨0x73,0,ksShift⟩),(0x192,⟨0x74,0,ksShift⟩),(0x206,⟨0xa3,0,ksAlt⟩),
  (0x207,⟨0xa3,0,ksAlt ||| ksShift⟩),(0x208,⟨0x93,0,ksControl⟩),
  (0x209,⟨0x93,0,ksControl ||| ksShift⟩),(0x20c,⟨0xa0,0,ksAlt⟩),(0x20e,⟨0x91,0,ksControl⟩),
  (0x211,⟨0x9f,0,ksAlt⟩),(0x212,⟨0x9f,0,ksAlt ||| ksShift⟩),(0x213,⟨0x75,0,ksControl⟩),
  (0x214,⟨0x75,0,ksControl ||| ksShift⟩),(0x216,⟨0x97,0,ksAlt⟩),(0x217,⟨0x97,0,ksAlt ||| ksShift⟩),
  (0x218,⟨0x77,0,ksControl⟩),(0x219,⟨0x77,0,ksControl ||| ksShift⟩),(0x21b,⟨0xa2,0,ksAlt⟩),
  (0x21d,⟨0x92,0,ksControl⟩),(0x21f,⟨0xa2,0,ksAlt ||| ksControl⟩),(0x220,⟨0x9b,0,ksAlt⟩),
  (0x222,⟨0x73,0,ksControl⟩),(0x225,⟨0xa1,0,ksAlt⟩),(0x227,⟨0x76,0,ksControl⟩),
  (0x22a,⟨0x99,0,ksAlt⟩),(0x22c,⟨0x84,0,ksControl⟩),(0x22f,⟨0x9d,0,ksAlt⟩),
  (0x231,⟨0x74,0,ksControl⟩),(0x235,⟨0x98,0,ksAlt⟩),(0x237,⟨0x8d,0,ksControl⟩),
  (0x23f,⟨scanKeypadPlus,0,0⟩),(0x241,⟨scanFslash,0x2f,0⟩),(0x243,⟨scanMul,0x2a,0⟩),
  (0x243,⟨scanMul,0x2a,0⟩),(0x244,⟨0x4a,0x2d,0⟩)]

def wchMax : ℕ := 0x250

/-- `keymap`: the last initializer of an element counts. -/
def keymap (wch : ℕ) : Key :=
  (((keymapAscii ++ keymapMeta ++ keymapCurses).reverse.find? fun d => d.1 = wch).map
    Prod.snd).getD unknown

/-- The table has no other flags than those of the three keys. -/
theorem keymap_flags (wch : ℕ) : (keymap wch).flags &&& 0xf2 = 0 := by
  have hall : ∀ d ∈ keymapAscii ++ keymapMeta ++ keymapCurses, d.2.flags &&& 0xf2 = 0 := by
    decide +kernel
  rw [keymap]
  cases hfind : (keymapAscii ++ keymapMeta ++ keymapCurses).reverse.find? fun d => d.1 = wch with
  | none => rfl
  | some d => exact hall d (List.mem_reverse.mp (List.mem_of_find?_eq_some hfind))

/-- What `wget_wch` returns if there is input: `OK` or `KEY_CODE_YES`, and the character. -/
structure WchInput where
  keyCode : Bool
  wch : ℕ
  deriving DecidableEq

/-- `IS_EXIT_WCH_CODE`. -/
def isExitWchCode (wch : ℕ) : Bool := wch = 0x9b ∨ wch = 0x1d

/-- `send_key_from_wch`: the key that it sends, or none where it returns -1. -/
def sendKeyFromWch (wch : ℕ) (extraFlags : UInt16) : Option Keystroke :=
  if 0 < wch ∧ wch < wchMax ∧ ((keymap wch).bios ≠ 0 ∨ (keymap wch).ascii ≠ 0) then
    some ⟨(keymap wch).bios,if extraFlags &&& ksAlt.toUInt16 ≠ 0 then 0 else (keymap wch).ascii,
      (keymap wch).flags.toUInt16 ||| extraFlags⟩
  else none

theorem nibble_of_flags {x : UInt8} (h : x &&& 0xf2 = 0) : x &&& 0x0f = x := by
  have hlow : x &&& 0x0d = x := by
    calc x &&& 0x0d = (0xf2 &&& x) ||| (0x0d &&& x) := by
          rw [UInt8.and_comm 0xf2, h, UInt8.zero_or, UInt8.and_comm]
      _ = (0xff : UInt8) &&& x := (or_and_right 0xf2 0x0d x).symm
      _ = x := by
          rw [UInt8.and_comm]
          exact UInt8.and_neg_one
  calc x &&& 0x0f = x &&& 0x0d &&& 0x0f := by rw [hlow]
    _ = x &&& 0x0d := UInt8.and_assoc x 0x0d 0x0f
    _ = x := hlow

/-- The server's mask leaves all flags of a key. -/
theorem sendKeyFromWch_flags (alt : Bool) {wch : ℕ} {key : Keystroke}
    (h : sendKeyFromWch wch (if alt then ksAlt.toUInt16 else 0) = some key) :
    key.flags17 = key.shifts.toUInt16 := by
  rw [sendKeyFromWch] at h
  split at h
  next =>
    have hkey := (Option.some.inj h).symm
    have halt : (if alt then ksAlt.toUInt16 else 0) = (if alt then ksAlt else 0).toUInt16 := by
      cases alt <;> rfl
    have hnibble : (if alt then ksAlt else 0) &&& 0x0f = (if alt then ksAlt else 0) := by
      cases alt <;> rfl
    simp only [hkey, Keystroke.shifts, halt, ← UInt8.toUInt16_or, UInt8.toUInt8_toUInt16]
    rw [or_and_right, nibble_of_flags (keymap_flags wch), hnibble]
  next => cases h

/-- What one call of `process_stdin_session_mode` does: the key that it sends, the input that it
leaves, and `g_running`. -/
structure StdinTurn where
  sent : Option Keystroke
  rest : List WchInput
  running : Bool

/-- `process_stdin_session_mode` on the input of the terminal; without input `wget_wch` returns
`ERR`. -/
def processStdinSessionMode : List WchInput → StdinTurn
  | [] => ⟨none,[],true⟩
  | x::rest =>
    if isExitWchCode x.wch then ⟨none,rest,false⟩
    else if x.keyCode = false ∧ x.wch = 0x1b then
      match rest with
      | [] => ⟨sendKeyFromWch x.wch 0,[],true⟩
      | alt::rest =>
        match if isExitWchCode alt.wch then none else sendKeyFromWch alt.wch ksAlt.toUInt16 with
        | some key => ⟨some key,rest,true⟩
        | none => ⟨sendKeyFromWch x.wch 0,rest,true⟩
    else ⟨sendKeyFromWch x.wch 0,rest,true⟩

/-- The stores of `send_packet` for the number of a packet type. -/
def clientStores (sock : RawSocket) (ethertype : UInt16) (destMacAddr : MacAddr)
    (pktType : UInt16) (payload : List UInt8) : List (ℕ × List UInt8) :=
  [(6,sock.ifAddr.toList),(0,destMacAddr.toList),(12,htons ethertype),(14,htonl packetSignature),
    (18,htonl sock.sessionId),(22,htons (UInt16.ofNat payload.length)),(24,htons pktType),
    (26,payload)]

def clientFrame (sock : RawSocket) (ethertype : UInt16) (destMacAddr : MacAddr)
    (pktType : UInt16) (payload : List UInt8) : List UInt8 :=
  slice (stores (fun _ => 0) (clientStores sock ethertype destMacAddr pktType payload)) 0
    (26+payload.length)

/-- The frame of `send_keystrokes`. -/
def sendKeystrokes (sock : RawSocket) (ethertype : UInt16) (destMacAddr : MacAddr)
    (keys : List Keystroke) : List UInt8 :=
  clientFrame sock ethertype destMacAddr 7 (keys.flatMap Keystroke.bytes)

end RmtDos
