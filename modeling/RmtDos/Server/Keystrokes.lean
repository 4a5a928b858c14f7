import RmtDos.Server.Receive

/-! The keys that the TSR puts into the keyboard buffer of the BIOS. The buffer holds 15 keys, and
the shift flags of the machine are changed for the time of the BIOS call only. -/
namespace RmtDos
open Memory Reading

/-- A word of the keyboard buffer. -/
structure KeyWord where
  scanCode : UInt8
  ascii : UInt8
  deriving DecidableEq

/-- The keyboard data of the BIOS: the flag bytes at 0040:0017 and 0040:0018 and the keys that no
program has read, the oldest first. -/
structure BiosKeyboard where
  flags17 : UInt8
  flags18 : UInt8
  buffer : List KeyWord

def keyboardCapacity : ℕ := 15

/-- What the code relies on when it calls `int 16h` AH=05h: AL is 0 and the key is behind the
others, or AL is 1 and the buffer is full. The flag bytes may be anything afterwards. -/
structure StoresKeys (int16 : KeyWord → BiosKeyboard → UInt8 × BiosKeyboard) : Prop where
  room (key : KeyWord) (k : BiosKeyboard) (h : k.buffer.length < keyboardCapacity) :
    (int16 key k).1 = 0 ∧ (int16 key k).2.buffer = k.buffer ++ [key]
  full (key : KeyWord) (k : BiosKeyboard) (h : keyboardCapacity ≤ k.buffer.length) :
    (int16 key k).1 = 1 ∧ (int16 key k).2.buffer = k.buffer

variable (int16 : KeyWord → BiosKeyboard → UInt8 × BiosKeyboard)

/-- The flag bytes for the time of the call. -/
def composeFlags (flags : UInt8) (k : BiosKeyboard) : BiosKeyboard :=
  let cl := flags &&& 0x0f
  let ah := k.flags18 &&& 0xfc
  let ah := if cl &&& 0x04 ≠ 0 then ah ||| 0x01 else ah
  let ah := if cl &&& 0x08 ≠ 0 then ah ||| 0x02 else ah
  { k with flags17 := (k.flags17 &&& 0xf0) ||| cl, flags18 := ah }

/-- `x86_inject_keystroke`: 1 on success, and the keyboard afterwards. -/
def x86InjectKeystroke (biosScanCode asciiValue flags17 : UInt8) (k : BiosKeyboard) :
    UInt8 × BiosKeyboard :=
  let (al,k') := int16 ⟨biosScanCode,asciiValue⟩ (composeFlags flags17 k)
  ((al &&& 1) ^^^ 1,{ k' with flags17 := k.flags17, flags18 := k.flags18 })

/-- The key as the BIOS gets it. -/
def Keystroke.word (key : Keystroke) : KeyWord := ⟨key.biosScanCode,key.asciiValue⟩

/-- The loop of `handle_inject_keystroke`; the parameter of the call is a byte. -/
def handleInjectKeystroke (keys : List Keystroke) (k : BiosKeyboard) : BiosKeyboard :=
  keys.foldl
    (fun k key =>
      (x86InjectKeystroke int16 key.biosScanCode key.asciiValue key.flags17.toUInt8 k).2) k

/-- The shift flags of 0040:0017 under which a key is stored. -/
def Keystroke.shifts (key : Keystroke) : UInt8 := key.flags17.toUInt8 &&& 0x0f

/-- The key of the client with the flag bytes of the time it was stored, on a machine whose flag byte
was `flags17`. -/
def StoredAs (flags17 : UInt8) (key : Keystroke) (x : KeyWord × UInt8 × UInt8) : Prop :=
  x.1 = key.word ∧ x.2.1 &&& 0x0f = key.shifts ∧ x.2.1 &&& 0xf0 = flags17 &&& 0xf0 ∧
    (x.2.2 &&& 0x01 ≠ 0 ↔ key.shifts &&& 0x04 ≠ 0) ∧ (x.2.2 &&& 0x02 ≠ 0 ↔ key.shifts &&& 0x08 ≠ 0)

/-- The key as it is stored, with the flag bytes of this time. -/
def Keystroke.storing (key : Keystroke) (k : BiosKeyboard) : KeyWord × UInt8 × UInt8 :=
  (key.word,(composeFlags key.flags17.toUInt8 k).flags17,
    (composeFlags key.flags17.toUInt8 k).flags18)

variable {int16} {k : BiosKeyboard} {key : Keystroke} {keys : List Keystroke}

theorem or_and_right (a b c : UInt8) : (a ||| b) &&& c = (a &&& c) ||| (b &&& c) := by
  apply UInt8.toBitVec_inj.mp
  ext i
  simp [Bool.and_or_distrib_right]

/-- Setting a bit on a condition, in a byte without it. -/
theorem bit_set_iff {ah bit : UInt8} {c : Prop} [Decidable c] (hbit : bit &&& bit ≠ 0)
    (hah : ah &&& bit = 0) : (if c then ah ||| bit else ah) &&& bit ≠ 0 ↔ c := by
  split
  next hc => simpa [or_and_right, hah, hc] using hbit
  next hc => simp [hah, hc]

/-- Another bit is not changed. -/
theorem bit_set_other {ah bit bit' : UInt8} {c : Prop} [Decidable c] (hbit : bit' &&& bit = 0) :
    (if c then ah ||| bit' else ah) &&& bit = ah &&& bit := by
  split
  next => rw [or_and_right, hbit, UInt8.or_zero]
  next => rfl

/-- The flag bytes during the call are the shift state of the client over the locks of the
machine. -/
theorem storedAs_storing (k : BiosKeyboard) (key : Keystroke) :
    StoredAs k.flags17 key (key.storing k) := by
  refine ⟨rfl,?_,?_,?_,?_⟩
  · simp only [Keystroke.storing, composeFlags, or_and_right, UInt8.and_assoc, Keystroke.shifts]
    rw [show (0xf0 : UInt8) &&& 0x0f = 0 by decide, UInt8.and_zero, UInt8.zero_or]
    rfl
  · simp only [Keystroke.storing, composeFlags, or_and_right, UInt8.and_assoc]
    rw [show (0x0f : UInt8) &&& 0xf0 = 0 by decide, UInt8.and_zero, UInt8.or_zero]
    rfl
  · have hclear : k.flags18 &&& 0xfc &&& 0x01 = 0 := by
      rw [UInt8.and_assoc]
      exact UInt8.and_zero
    rw [Keystroke.storing, composeFlags, bit_set_other (by decide), bit_set_iff (by decide) hclear]
    rfl
  · have hclear : k.flags18 &&& 0xfc &&& 0x02 = 0 := by
      rw [UInt8.and_assoc]
      exact UInt8.and_zero
    rw [Keystroke.storing, composeFlags, bit_set_iff (by decide) ((bit_set_other (by decide)).trans hclear)]
    rfl

/-- What one key does: it is behind the others, or all is as it was. The flag bytes are the ones of
the machine again. -/
theorem injectKey_cases (h : StoresKeys int16) (key : Keystroke) (k : BiosKeyboard) :
    x86InjectKeystroke int16 key.biosScanCode key.asciiValue key.flags17.toUInt8 k =
        (1,{ k with buffer := k.buffer ++ [key.word] }) ∨
      keyboardCapacity ≤ k.buffer.length ∧
        x86InjectKeystroke int16 key.biosScanCode key.asciiValue key.flags17.toUInt8 k = (0,k) := by
  have hbuffer : (composeFlags key.flags17.toUInt8 k).buffer = k.buffer := rfl
  by_cases hroom : k.buffer.length < keyboardCapacity
  · obtain ⟨hal,hkeys⟩ := h.room key.word (composeFlags key.flags17.toUInt8 k) hroom
    left
    simp only [x86InjectKeystroke]
    rw [← Keystroke.word, hal, hkeys, hbuffer]
    rfl
  · obtain ⟨hal,hkeys⟩ :=
      h.full key.word (composeFlags key.flags17.toUInt8 k) (Nat.le_of_not_lt hroom)
    refine .inr ⟨Nat.le_of_not_lt hroom,?_⟩
    simp only [x86InjectKeystroke]
    rw [← Keystroke.word, hal, hkeys, hbuffer]
    rfl

/-! The keys of a frame. -/

/-- `struct Keystroke` as the client has it in memory. -/
def Keystroke.bytes (key : Keystroke) : List UInt8 :=
  [key.biosScanCode,key.asciiValue,key.flags17.toUInt8,(key.flags17 >>> 8).toUInt8]

@[simp] theorem Keystroke.length_bytes (key : Keystroke) : key.bytes.length = 4 := rfl

theorem length_keyBytes (keys : List Keystroke) :
    (keys.flatMap Keystroke.bytes).length = 4*keys.length := by
  induction keys with
  | nil => rfl
  | cons key keys ih =>
    rw [List.flatMap_cons, List.length_append, ih, key.length_bytes, List.length_cons]
    omega

variable {m : Mem}

/-- The loop reads back the keys that the client put into the payload. -/
theorem run_recvKeys {i : ℕ} (h : slice m i (4*keys.length) = keys.flatMap Keystroke.bytes) :
    run m (recvKeys i keys.length) = keys := by
  induction keys generalizing i with
  | nil => rfl
  | cons key keys ih =>
    have hlen : 4*(key :: keys).length = 4+4*keys.length := by
      rw [List.length_cons]
      omega
    rw [hlen, List.flatMap_cons] at h
    obtain ⟨hkey,hkeys⟩ := slice_eq_append h key.length_bytes
    obtain ⟨h0,h1,h2,h3⟩ : m i = key.biosScanCode ∧ m (i+1) = key.asciiValue ∧
        m (i+2) = key.flags17.toUInt8 ∧ m (i+3) = (key.flags17 >>> 8).toUInt8 := by
      simpa [slice, Keystroke.bytes, List.range'] using hkey
    simp only [List.length_cons, recvKeys, run_bind, run_byte, run_pure, ih hkeys, h0, h1, h2, h3,
      low_or_high]

/-- A frame of keys reaches the keyboard, all of them in order. -/
theorem protocolProcess_keys (hsig : slice m 14 4 = htonl packetSignature)
    (hlen : slice m 22 2 = htons (UInt16.ofNat (4*keys.length))) (htype : slice m 24 2 = htons 7)
    (hkeys : slice m 26 (4*keys.length) = keys.flatMap Keystroke.bytes)
    (hshort : 4*keys.length < 65536) (globals : PktdrvGlobals) (video : VideoState) (now : UInt32)
    (sessions : SessionTable) (file : FileTransferState) (received : ℕ) :
    run m (protocolProcess globals video now sessions file received) =
      ⟨sessions,file,[],keys⟩ := by
  have hcount : (UInt16.ofNat (4*keys.length)).toNat/4 = keys.length := by
    rw [UInt16.toNat_ofNat']
    omega
  simp only [run_protocolProcess, recvInjectKeystroke, run_bind, run_be16, hsig, htype, hlen,
    ntohl_htonl, ntohs_htons, hcount, run_recvKeys hkeys]
  rfl

end RmtDos
