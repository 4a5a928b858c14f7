import RmtDos.Client.Keyboard
import RmtDos.Server.BufferPool

/-! Typing in a session. The terminal, the link, the buffers of the TSR and the keyboard of the DOS
machine take turns in any order: the user types, the client takes its input, a frame is received or
lost, the timer tick takes a frame from the ready list, a program reads a key, and somebody uses the
keyboard of the machine itself. The ready list is a stack, so keys that wait for one tick together
are stored in the wrong order. -/
namespace RmtDos
open Memory Reading Runs

/-- The input of the terminal that the client has taken and that it has not, the frames on their
way to the server, its buffers with the one that the driver fills and the one that
`protocol_process` has, the keyboard and the keys that programs have read. The logs and the counts
of the keys sent, lost, handled, stored, refused and typed at the machine itself are for the
statements only. -/
structure Typing (n : ℕ) where
  taken : List WchInput
  input : List WchInput
  running : Bool
  inFlight : List (List UInt8)
  pool : Bufmgr n
  driver : Option (Fin n)
  handling : Option (Fin n)
  keyboard : BiosKeyboard
  read : List KeyWord
  sent : List Keystroke
  lost : ℕ
  handled : List Keystroke
  stored : List (KeyWord × UInt8 × UInt8)
  refused : ℕ
  own : ℕ
  ownFlags : UInt8 × UInt8

/-- A session begins on a machine with keys in its buffer. -/
def Typing.start (count : ℕ) [NeZero count] (flags17 flags18 : UInt8) (buffer : List KeyWord) :
    Typing count where
  taken := []
  input := []
  running := true
  inFlight := []
  pool := bufferInit count
  driver := none
  handling := none
  keyboard := ⟨flags17,flags18,buffer⟩
  read := []
  sent := []
  lost := 0
  handled := []
  stored := []
  refused := 0
  own := 0
  ownFlags := (flags17,flags18)

inductive TypingEvent
  | type (x : WchInput)
  | turn
  | lose
  | acquire
  | acquireOther
  | markReady
  | handle
  | release
  | readKey
  | ownKey (key : KeyWord)
  | ownFlags (flags17 flags18 : UInt8)

variable (int16 : KeyWord → BiosKeyboard → UInt8 × BiosKeyboard)

/-- The keys that the BIOS takes, as it takes them. -/
def storings : List Keystroke → BiosKeyboard → List (KeyWord × UInt8 × UInt8)
  | [], _ => []
  | key::keys, k =>
    let r := x86InjectKeystroke int16 key.biosScanCode key.asciiValue key.flags17.toUInt8 k
    (if r.1 = 0 then [] else [key.storing k]) ++ storings keys r.2

/-- How many of the keys the BIOS refuses. -/
def refusals : List Keystroke → BiosKeyboard → ℕ
  | [], _ => 0
  | key::keys, k =>
    let r := x86InjectKeystroke int16 key.biosScanCode key.asciiValue key.flags17.toUInt8 k
    (if r.1 = 0 then 1 else 0)+refusals keys r.2

variable {n : ℕ}

/-- The keys of a frame are handled. -/
def Typing.inject (s : Typing n) (keys : List Keystroke) : Typing n := { s with
  keyboard := handleInjectKeystroke int16 keys s.keyboard
  handled := s.handled ++ keys
  stored := s.stored ++ storings int16 keys s.keyboard
  refused := s.refused+refusals int16 keys s.keyboard }

variable (sock : RawSocket) (ethertype : UInt16) (destMacAddr : MacAddr) (globals : PktdrvGlobals)

/-- What `protocol_process` takes for keys in a buffer with the data, whatever it does else. -/
def BringsKeys (data : Vector UInt8 1504) (keys : List Keystroke) : Prop :=
  ∀ m, Arrived data.toList m → ∀ video now sessions file received,
    (run m (protocolProcess globals video now sessions file received)).keys = keys

/-- The driver has one frame at a time: it gets a buffer, fills it and marks it ready. Frames of
other senders use the buffers too, as long as they bring no keys. A frame for which there is no
buffer is lost. -/
inductive TypingStep (s : Typing n) : TypingEvent → Typing n → Prop
  | type (x : WchInput) : TypingStep s (.type x) { s with input := s.input ++ [x] }
  | turn (h : s.running = true) : TypingStep s .turn { s with
      taken := s.taken ++
        s.input.take (s.input.length-(processStdinSessionMode s.input).rest.length)
      input := (processStdinSessionMode s.input).rest
      running := (processStdinSessionMode s.input).running
      sent := s.sent ++ (processStdinSessionMode s.input).sent.toList
      inFlight := s.inFlight ++ (processStdinSessionMode s.input).sent.toList.map fun key =>
        sendKeystrokes sock ethertype destMacAddr [key] }
  | lose {bs : List UInt8} {rest : List (List UInt8)} (h : s.inFlight = bs :: rest) :
      TypingStep s .lose { s with inFlight := rest, lost := s.lost+1 }
  | acquire {bs : List UInt8} {rest : List (List UInt8)} (h : s.inFlight = bs :: rest)
      (hidle : s.driver = none) (bytes : UInt16) {i : Fin n} {pool : Bufmgr n}
      (ha : bufferAcquire bytes s.pool = (some i,pool)) (data : Vector UInt8 1504)
      (hdata : bs <+: data.toList) : TypingStep s .acquire { s with
        inFlight := rest, pool := bufferStore i data pool, driver := some i }
  | acquireOther (hidle : s.driver = none) (bytes : UInt16) {i : Fin n} {pool : Bufmgr n}
      (ha : bufferAcquire bytes s.pool = (some i,pool)) (data : Vector UInt8 1504)
      (hdata : BringsKeys globals data []) : TypingStep s .acquireOther { s with
        pool := bufferStore i data pool, driver := some i }
  | markReady {i : Fin n} (h : s.driver = some i) : TypingStep s .markReady { s with
        pool := bufferMarkReady i s.pool, driver := none }
  | handle (hidle : s.handling = none) {i : Fin n} {pool : Bufmgr n}
      (hg : bufferGetReady s.pool = (some i,pool)) (m : Mem)
      (hm : Arrived (pool.buffers i).data.toList m) (video : VideoState) (now : UInt32)
      (sessions : SessionTable) (file : FileTransferState) (received : ℕ) (p : Processed)
      (hp : run m (protocolProcess globals video now sessions file received) = p) :
      TypingStep s .handle
        { s.inject int16 p.keys with pool := pool, handling := some i }
  | release {i : Fin n} (h : s.handling = some i) : TypingStep s .release { s with
        pool := bufferRelease i s.pool, handling := none }
  | readKey {key : KeyWord} {rest : List KeyWord} (h : s.keyboard.buffer = key :: rest) :
      TypingStep s .readKey { s with
        keyboard := { s.keyboard with buffer := rest }, read := s.read ++ [key] }
  | ownKey (key : KeyWord) (h : s.keyboard.buffer.length < keyboardCapacity) :
      TypingStep s (.ownKey key) { s with
        keyboard := { s.keyboard with buffer := s.keyboard.buffer ++ [key] }, own := s.own+1 }
  | ownFlags (flags17 flags18 : UInt8) : TypingStep s (.ownFlags flags17 flags18) { s with
        keyboard := { s.keyboard with flags17 := flags17, flags18 := flags18 }
        ownFlags := (flags17,flags18) }

/-- No frame waits behind the one that is handled. -/
def Typing.ReadyAlone (s : Typing n) : TypingEvent → Prop
  | .handle => ∀ i, s.pool.readyList = some i → (s.pool.buffers i).next = none
  | _ => True

/-- The keys that the client may send for what it has taken. An escape takes the next input with it:
as the key with Alt, or as nothing. -/
inductive KeysFor : List WchInput → List Keystroke → Prop
  | nil : KeysFor [] []
  | exit {xs : List WchInput} {keys : List Keystroke} (h : KeysFor xs keys) (x : WchInput)
      (hx : isExitWchCode x.wch = true) : KeysFor (xs ++ [x]) keys
  | key {xs : List WchInput} {keys : List Keystroke} (h : KeysFor xs keys) (x : WchInput)
      (hx : isExitWchCode x.wch = false) :
      KeysFor (xs ++ [x]) (keys ++ (sendKeyFromWch x.wch 0).toList)
  | alt {xs : List WchInput} {keys : List Keystroke} (h : KeysFor xs keys) (x alt : WchInput)
      (hx : x.wch = 0x1b) (key : Keystroke) (halt : isExitWchCode alt.wch = false)
      (hkey : sendKeyFromWch alt.wch ksAlt.toUInt16 = some key) :
      KeysFor (xs ++ [x,alt]) (keys ++ [key])
  | escape {xs : List WchInput} {keys : List Keystroke} (h : KeysFor xs keys) (x alt : WchInput)
      (hx : x.wch = 0x1b)
      (halt : isExitWchCode alt.wch = true ∨ sendKeyFromWch alt.wch ksAlt.toUInt16 = none) :
      KeysFor (xs ++ [x,alt]) (keys ++ (sendKeyFromWch x.wch 0).toList)

/-- The keys in the buffers of a list. -/
def HoldKeys (m : Bufmgr n) (l : List (Fin n)) (waiting : List (List Keystroke)) : Prop :=
  List.Forall₂ (fun i keys => BringsKeys globals (m.buffers i).data keys) l waiting

/-- The keys between the client and the keyboard: in the buffer that the driver fills and in those
that are ready, the last received first, and in the frames in flight. -/
structure OnTheWay (s : Typing n) (free ready : List (Fin n)) (waiting : List (List Keystroke))
    (flying : List Keystroke) : Prop where
  inFlight : s.inFlight = flying.map fun key => sendKeystrokes sock ethertype destMacAddr [key]
  pool : Pool s.pool ⟨free,ready,s.driver.toList,s.handling.toList⟩
  waiting : HoldKeys globals s.pool (s.driver.toList ++ ready) waiting

/-- The keys of the server and those on their way to it are sent keys, each once, and in the order
of the client if frames never wait together. -/
structure Delivered (ordered : Prop) (s : Typing n) (waiting : List (List Keystroke))
    (flying : List Keystroke) : Prop where
  once : (s.handled ++ waiting.reverse.flatten ++ flying).Subperm s.sent
  order : ordered → (s.handled ++ waiting.reverse.flatten ++ flying).Sublist s.sent
  count : s.handled.length+waiting.flatten.length+flying.length+s.lost = s.sent.length

/-- What became of the keys that were handled: those that the BIOS took are stored in their order,
and what programs have read and what is in the buffer has them in this order. -/
structure AtKeyboard (buffer : List KeyWord) (s : Typing n) : Prop where
  stored : ∃ kept, kept.Sublist s.handled ∧ kept.length+s.refused = s.handled.length ∧
    List.Forall₂ (fun key x => ∃ flags17, StoredAs flags17 key x) kept s.stored
  read : ∃ rest, s.read ++ s.keyboard.buffer = buffer ++ rest ∧
    (s.stored.map Prod.fst).Sublist rest ∧ s.stored.length+s.own = rest.length
  flags : (s.keyboard.flags17,s.keyboard.flags18) = s.ownFlags

/-- Where the keys of a session are. Each list is a part of the one before, and the counts say what
is missing: from what was sent over the link and the buffers to what is read. -/
structure KeysKept (ordered : Prop) (buffer : List KeyWord) (s : Typing n) : Prop where
  sent : KeysFor s.taken s.sent
  handled : ∃ free ready waiting flying,
    OnTheWay sock ethertype destMacAddr globals s free ready waiting flying ∧
      Delivered ordered s waiting flying
  keyboard : AtKeyboard buffer s

/-- All that was sent has come to the keyboard, and only that. -/
structure AllHandled (s : Typing n) : Prop where
  lost : s.lost = 0
  refused : s.refused = 0
  own : s.own = 0
  inFlight : s.inFlight = []
  driver : s.driver = none
  ready : s.pool.readyList = none

variable {int16 sock ethertype destMacAddr globals} {s s' : Typing n} {e : TypingEvent}
  {free ready : List (Fin n)} {waiting : List (List Keystroke)} {flying : List Keystroke}
  {ordered : Prop} {buffer : List KeyWord}

/-- What a turn takes, and what it sends for it. -/
theorem stdin_keysFor (input : List WchInput) {xs : List WchInput} {keys : List Keystroke}
    (h : KeysFor xs keys) : ∃ front, input = front ++ (processStdinSessionMode input).rest ∧
      KeysFor (xs ++ front) (keys ++ (processStdinSessionMode input).sent.toList) := by
  cases input with
  | nil => exact ⟨[],rfl,by simpa [processStdinSessionMode] using h⟩
  | cons x rest =>
    rw [processStdinSessionMode.eq_def]
    simp only
    split
    next hexit => exact ⟨[x],rfl,by simpa using h.exit x hexit⟩
    next hexit =>
    rw [Bool.not_eq_true] at hexit
    split
    next hesc =>
      cases rest with
      | nil => exact ⟨[x],rfl,h.key x hexit⟩
      | cons alt rest =>
        simp only
        split
        next key hkey =>
          split at hkey
          next => cases hkey
          next halt =>
            exact ⟨[x,alt],rfl,h.alt x alt hesc.2 key (by simpa using halt) hkey⟩
        next hnone =>
          refine ⟨[x,alt],rfl,h.escape x alt hesc.2 ?_⟩
          by_cases halt : isExitWchCode alt.wch = true
          · exact .inl halt
          · rw [if_neg halt] at hnone
            exact .inr hnone
    next => exact ⟨[x],rfl,h.key x hexit⟩

/-- A frame of one key brings this key. -/
theorem keys_sendKeystrokes {key : Keystroke} {m : Mem}
    (h : Arrived (sendKeystrokes sock ethertype destMacAddr [key]) m) (video : VideoState)
    (now : UInt32) (sessions : SessionTable) (file : FileTransferState) (received : ℕ) :
    run m (protocolProcess globals video now sessions file received) =
      ⟨sessions,file,[],[key]⟩ := by
  have hapart : Apart (clientStores sock ethertype destMacAddr 7
      ([key].flatMap Keystroke.bytes)) := by
    simp [Apart, clientStores]
  have hfield {i n : ℕ} {bs : List UInt8}
      (hs : (i,bs) ∈ clientStores sock ethertype destMacAddr 7 ([key].flatMap Keystroke.bytes))
      (hn : bs.length = n) (hi : i+n ≤ 26+([key].flatMap Keystroke.bytes).length) :
      slice m i n = bs := by
    subst hn
    exact Arrived.store h hapart hs hi
  simp only [clientStores, length_keyBytes] at hfield
  have hshort : 4*[key].length < 65536 := show 4*1 < 65536 by decide
  refine protocolProcess_keys ?_ ?_ ?_ ?_ hshort globals video now sessions file received
  · exact hfield (by simp) (by simp) (by simp)
  · exact hfield (by simp) (by simp) (by simp)
  · exact hfield (by simp) (by simp) (by simp)
  · exact hfield (by simp) (length_keyBytes _) le_rfl

/-- So does a buffer that begins with the frame. -/
theorem bringsKeys_frame {key : Keystroke} {data : Vector UInt8 1504}
    (h : sendKeystrokes sock ethertype destMacAddr [key] <+: data.toList) :
    BringsKeys globals data [key] := by
  intro m hm video now sessions file received
  have hframe : Arrived (sendKeystrokes sock ethertype destMacAddr [key]) m := by
    rw [Arrived] at hm ⊢
    rw [← take_slice h.length_le, hm]
    exact (List.prefix_iff_eq_take.mp h).symm
  rw [keys_sendKeystrokes hframe]

theorem HoldKeys.congr {m m' : Bufmgr n} {l : List (Fin n)} (h : HoldKeys globals m l waiting)
    (hdata : ∀ j ∈ l, (m'.buffers j).data = (m.buffers j).data) : HoldKeys globals m' l waiting := by
  induction h with
  | nil => exact .nil
  | cons hi _ ih =>
    refine .cons ?_ (ih fun j hj => hdata j (List.mem_cons_of_mem _ hj))
    rw [hdata _ List.mem_cons_self]
    exact hi

theorem HoldKeys.split {m : Bufmgr n} {l l' : List (Fin n)}
    (h : HoldKeys globals m (l ++ l') waiting) : ∃ front back, waiting = front ++ back ∧
      HoldKeys globals m l front ∧ HoldKeys globals m l' back := by
  induction l generalizing waiting with
  | nil => exact ⟨[],waiting,rfl,.nil,h⟩
  | cons i l ih =>
    cases h with
    | cons hi h =>
      obtain ⟨front,back,rfl,hfront,hback⟩ := ih h
      exact ⟨_::front,back,rfl,.cons hi hfront,hback⟩

/-- The driver gets a buffer and fills it. -/
theorem OnTheWay.acquire
    (h : OnTheWay sock ethertype destMacAddr globals s free ready waiting flying)
    (hidle : s.driver = none) {bytes : UInt16} {i : Fin n} {pool : Bufmgr n}
    (ha : bufferAcquire bytes s.pool = (some i,pool)) {data : Vector UInt8 1504}
    {keys : List Keystroke} (hdata : BringsKeys globals data keys) :
    (∃ free', Pool (bufferStore i data pool) ⟨free',ready,[i],s.handling.toList⟩) ∧
      HoldKeys globals (bufferStore i data pool) (i :: ready) (keys :: waiting) := by
  have hp := h.pool
  have hwaiting := h.waiting
  rw [hidle] at hp hwaiting
  obtain ⟨t,rfl : free = i :: t,hp'⟩ := pool_acquire hp ha
  have hready : i ∉ ready := (hp.disjoint.1 i List.mem_cons_self).1
  refine ⟨⟨t,pool_store hp' List.mem_cons_self data⟩,.cons ?_ (hwaiting.congr fun j hj => ?_)⟩
  · rw [data_store, if_pos rfl]
    exact hdata
  · have hpool : pool = (bufferAcquire bytes s.pool).2 := (congrArg Prod.snd ha).symm
    rw [data_store, if_neg (ne_of_mem_of_not_mem hj hready), hpool, data_acquire]

theorem OnTheWay.markReady
    (h : OnTheWay sock ethertype destMacAddr globals s free ready waiting flying)
    {i : Fin n} (hi : s.driver = some i) :
    OnTheWay sock ethertype destMacAddr globals
      { s with pool := bufferMarkReady i s.pool, driver := none } free (i :: ready) waiting flying := by
  have hp := h.pool
  have hwaiting := h.waiting
  rw [hi] at hp hwaiting
  refine ⟨h.inFlight,?_,hwaiting.congr fun j _ => data_markReady i j s.pool⟩
  have hp' := pool_markReady hp (List.mem_singleton_self i)
  simpa using hp'

/-- The buffer that is handled is the first of the ready list. -/
theorem OnTheWay.handle
    (h : OnTheWay sock ethertype destMacAddr globals s free ready waiting flying)
    (hidle : s.handling = none) {i : Fin n} {pool : Bufmgr n}
    (hg : bufferGetReady s.pool = (some i,pool)) : ∃ front keys back ready',
      waiting = front ++ keys :: back ∧ BringsKeys globals (pool.buffers i).data keys ∧
      Pool pool ⟨free,ready',s.driver.toList,[i]⟩ ∧
      HoldKeys globals pool (s.driver.toList ++ ready') (front ++ back) ∧
      (s.ReadyAlone .handle → back = []) := by
  have hp := h.pool
  rw [hidle] at hp
  obtain ⟨t,rfl : ready = i :: t,hp'⟩ := pool_getReady hp hg
  have hdata (j : Fin n) : (pool.buffers j).data = (s.pool.buffers j).data := by
    have hpool : pool = (bufferGetReady s.pool).2 := (congrArg Prod.snd hg).symm
    rw [hpool, data_getReady]
  have hall : HoldKeys globals pool (s.driver.toList ++ i :: t) waiting :=
    h.waiting.congr fun j _ => hdata j
  obtain ⟨front,rest,rfl,hfront,hrest⟩ := hall.split
  cases hrest with
  | cons hi hback =>
    refine ⟨front,_,_,t,rfl,hi,hp',List.rel_append hfront hback,fun halone => ?_⟩
    -- the link of the first buffer is null, so the list ends there
    obtain ⟨hhead,htail⟩ := hp.readyChain
    obtain rfl := (LinkedList.Linked.head_eq_none htail).mp (halone i hhead)
    exact List.forall₂_nil_left_iff.mp hback

/-- A buffer that is free again brings no more keys. -/
theorem OnTheWay.release
    (h : OnTheWay sock ethertype destMacAddr globals s free ready waiting flying)
    {i : Fin n} (hi : s.handling = some i) :
    OnTheWay sock ethertype destMacAddr globals
      { s with pool := bufferRelease i s.pool, handling := none } (i :: free) ready waiting
      flying := by
  have hp := h.pool
  rw [hi] at hp
  obtain ⟨-,hready,hdriver⟩ := hp.disjoint
  refine ⟨h.inFlight,?_,h.waiting.congr fun j hj => data_release ?_ s.pool⟩
  · have hp' := pool_release hp (List.mem_singleton_self i)
    simpa using hp'
  · have hji : j ∉ [i] := by
      rcases List.mem_append.mp hj with hj | hj
      · exact (hdriver j hj).2.2
      · exact (hready j hj).2.2
    simpa using hji

/-! What a key does at the keyboard. -/

theorem Typing.inject_cons (s : Typing n) (key : Keystroke) (keys : List Keystroke) :
    s.inject int16 (key :: keys) = (s.inject int16 [key]).inject int16 keys := by
  simp [Typing.inject, handleInjectKeystroke, storings, refusals, Nat.add_assoc]

/-- A key that is handled is stored or refused. -/
theorem AtKeyboard.injectKey (hbios : StoresKeys int16) (h : AtKeyboard buffer s)
    (key : Keystroke) : AtKeyboard buffer (s.inject int16 [key]) := by
  obtain ⟨kept,hkept,hrefused,hall⟩ := h.stored
  obtain ⟨tail,hread,htail,hown⟩ := h.read
  obtain hinject | ⟨-,hinject⟩ := injectKey_cases hbios key s.keyboard
  · have hs : s.inject int16 [key] = { s with
        keyboard := { s.keyboard with buffer := s.keyboard.buffer ++ [key.word] }
        handled := s.handled ++ [key]
        stored := s.stored ++ [key.storing s.keyboard] } := by
      simp [Typing.inject, handleInjectKeystroke, storings, refusals, hinject]
    rw [hs]
    constructor
    case stored =>
      refine ⟨kept ++ [key],hkept.append (.refl _),?_,
        List.rel_append hall (.cons ⟨_,storedAs_storing s.keyboard key⟩ .nil)⟩
      simp only [List.length_append]
      omega
    case read =>
      refine ⟨tail ++ [key.word],by simp [← List.append_assoc, hread],?_,?_⟩
      · rw [List.map_append, List.map_singleton]
        exact htail.append (.refl _)
      · simp only [List.length_append, List.length_cons, List.length_nil]
        omega
    case flags => exact h.flags
  · have hs : s.inject int16 [key] =
        { s with handled := s.handled ++ [key], refused := s.refused+1 } := by
      simp [Typing.inject, handleInjectKeystroke, storings, refusals, hinject]
    rw [hs]
    constructor
    case stored =>
      refine ⟨kept,hkept.trans (List.sublist_append_left _ _),?_,hall⟩
      simp only [List.length_append, List.length_cons, List.length_nil]
      omega
    case read => exact ⟨tail,hread,htail,hown⟩
    case flags => exact h.flags

theorem AtKeyboard.inject (hbios : StoresKeys int16) (h : AtKeyboard buffer s)
    (keys : List Keystroke) : AtKeyboard buffer (s.inject int16 keys) := by
  induction keys generalizing s with
  | nil =>
    have hs : s.inject int16 [] = s := by
      simp [Typing.inject, handleInjectKeystroke, storings, refusals]
    rw [hs]
    exact h
  | cons key keys ih =>
    rw [Typing.inject_cons]
    exact ih (h.injectKey hbios key)

/-- No key that is sent has a flag that the server masks. -/
theorem KeysFor.flags {xs : List WchInput} {keys : List Keystroke} (h : KeysFor xs keys) :
    ∀ key ∈ keys, key.flags17 = key.shifts.toUInt16 := by
  have hplain {x : WchInput} : ∀ key ∈ (sendKeyFromWch x.wch 0).toList,
      key.flags17 = key.shifts.toUInt16 := fun key hkey =>
    sendKeyFromWch_flags false (Option.mem_toList.mp hkey)
  induction h with
  | nil => exact List.forall_mem_nil _
  | exit _ _ _ ih => exact ih
  | key _ x _ ih => exact List.forall_mem_append.mpr ⟨ih,hplain⟩
  | alt _ _ _ _ key _ hkey ih =>
    refine List.forall_mem_append.mpr ⟨ih,?_⟩
    rw [List.forall_mem_singleton]
    exact sendKeyFromWch_flags true hkey
  | escape _ x _ _ _ ih => exact List.forall_mem_append.mpr ⟨ih,hplain⟩

theorem words_storedAs {keys : List Keystroke} {xs : List (KeyWord × UInt8 × UInt8)}
    (h : List.Forall₂ (fun key x => ∃ flags17, StoredAs flags17 key x) keys xs) :
    xs.map Prod.fst = keys.map Keystroke.word := by
  induction h with
  | nil => rfl
  | cons hx _ ih =>
    obtain ⟨_,hword,-⟩ := hx
    rw [List.map_cons, List.map_cons, hword, ih]

/-! What a step does to the keys on their way. -/

theorem Delivered.lose {s' : Typing n} {key : Keystroke}
    (h : Delivered ordered s waiting (key :: flying)) (hhandled : s'.handled = s.handled)
    (hsent : s'.sent = s.sent) (hlost : s'.lost = s.lost+1) :
    Delivered ordered s' waiting flying := by
  obtain ⟨honce,horder,hcount⟩ := h
  have hpart : (s.handled ++ waiting.reverse.flatten ++ flying).Sublist
      (s.handled ++ waiting.reverse.flatten ++ key :: flying) :=
    List.Sublist.append (.refl _) (List.sublist_cons_self key flying)
  constructor <;> rw [hhandled, hsent]
  · exact hpart.subperm.trans honce
  · exact fun hordered => hpart.trans (horder hordered)
  · rw [hlost, ← hcount, List.length_cons]
    omega

/-- What the client sends is behind all the other keys. -/
theorem Delivered.send {s' : Typing n} {keys : List Keystroke}
    (h : Delivered ordered s waiting flying) (hhandled : s'.handled = s.handled)
    (hsent : s'.sent = s.sent ++ keys) (hlost : s'.lost = s.lost) :
    Delivered ordered s' waiting (flying ++ keys) := by
  obtain ⟨honce,horder,hcount⟩ := h
  constructor <;> rw [hhandled, hsent]
  · rw [← List.append_assoc]
    exact (List.subperm_append_right keys).mpr honce
  · rw [← List.append_assoc]
    exact fun hordered => (horder hordered).append (.refl _)
  · rw [hlost, List.length_append, List.length_append, ← hcount]
    omega

/-- The keys of a frame that is received are the last ones before those in flight. -/
theorem Delivered.acquire {s' : Typing n} {keys : List Keystroke}
    (h : Delivered ordered s waiting (keys ++ flying)) (hhandled : s'.handled = s.handled)
    (hsent : s'.sent = s.sent) (hlost : s'.lost = s.lost) :
    Delivered ordered s' (keys :: waiting) flying := by
  obtain ⟨honce,horder,hcount⟩ := h
  constructor <;> rw [hhandled, hsent]
  · simpa using honce
  · simpa using horder
  · rw [hlost, ← hcount]
    simp only [List.flatten_cons, List.length_append]
    omega

/-- The keys of the buffer that is handled come behind the others, but before those that wait. -/
theorem Delivered.handle {s' : Typing n} {front back : List (List Keystroke)}
    {keys : List Keystroke} (h : Delivered ordered s (front ++ keys :: back) flying)
    (halone : ordered → back = []) (hhandled : s'.handled = s.handled ++ keys)
    (hsent : s'.sent = s.sent) (hlost : s'.lost = s.lost) :
    Delivered ordered s' (front ++ back) flying := by
  obtain ⟨honce,horder,hcount⟩ := h
  constructor <;> rw [hhandled, hsent]
  · refine (List.Perm.subperm ?_).trans honce
    simp only [List.reverse_append, List.reverse_cons, List.flatten_append, List.flatten_cons,
      List.flatten_nil, List.append_nil, List.append_assoc]
    refine .append_left _ ?_
    simp only [← List.append_assoc]
    exact .append_right _ (.append_right _ List.perm_append_comm)
  · intro hordered
    obtain rfl := halone hordered
    simpa using horder hordered
  · rw [hlost, ← hcount]
    simp only [List.flatten_append, List.flatten_cons, List.length_append]
    omega

theorem KeysKept.start (count : ℕ) [NeZero count] (flags17 flags18 : UInt8)
    (buffer : List KeyWord) : KeysKept sock ethertype destMacAddr globals ordered buffer
      (Typing.start count flags17 flags18 buffer) where
  sent := .nil
  handled := ⟨_,[],[],[],⟨rfl,pool_init count,.nil⟩,⟨.refl _,fun _ => .refl _,rfl⟩⟩
  keyboard := ⟨⟨[],.slnil,rfl,.nil⟩,⟨[],(List.append_nil buffer).symm,.slnil,rfl⟩,rfl⟩

/-- The front of the input that a turn takes. -/
theorem take_front {α : Type*} {input front rest : List α} (h : input = front ++ rest) :
    input.take (input.length-rest.length) = front := by
  rw [h, List.length_append, Nat.add_sub_cancel, List.take_left]

theorem KeysKept.step (hbios : StoresKeys int16)
    (h : KeysKept sock ethertype destMacAddr globals ordered buffer s)
    (ho : ordered → s.ReadyAlone e)
    (hs : TypingStep int16 sock ethertype destMacAddr globals s e s') :
    KeysKept sock ethertype destMacAddr globals ordered buffer s' := by
  obtain ⟨free,ready,waiting,flying,hway,hdelivered⟩ := h.handled
  obtain ⟨hstored,hread,hflags⟩ := h.keyboard
  have ⟨hfly,hpool,hwaiting⟩ := hway
  have ⟨honce,horder,hcount⟩ := hdelivered
  cases hs with
  | type x => exact ⟨h.sent,⟨_,_,_,_,⟨hfly,hpool,hwaiting⟩,⟨honce,horder,hcount⟩⟩,hstored,hread,hflags⟩
  | turn hrunning =>
    obtain ⟨front,hfront,hkeys⟩ := stdin_keysFor s.input h.sent
    refine ⟨?_,⟨_,_,_,_,⟨?_,hpool,hwaiting⟩,hdelivered.send rfl rfl rfl⟩,hstored,hread,hflags⟩
    · exact (take_front hfront).symm ▸ hkeys
    · rw [List.map_append, ← hfly]
  | lose hhead =>
    rw [hhead] at hfly
    obtain ⟨key,flying,rfl,rfl,rfl⟩ := List.map_eq_cons_iff.mp hfly.symm
    exact ⟨h.sent,⟨_,_,_,_,⟨rfl,hpool,hwaiting⟩,hdelivered.lose rfl rfl rfl⟩,hstored,hread,hflags⟩
  | acquire hhead hidle bytes ha data hdata =>
    rw [hhead] at hfly
    obtain ⟨key,flying,rfl,rfl,rfl⟩ := List.map_eq_cons_iff.mp hfly.symm
    obtain ⟨⟨free',hpool'⟩,hwaiting'⟩ := hway.acquire hidle ha (bringsKeys_frame hdata)
    have hdelivered : Delivered ordered s waiting ([key] ++ flying) := hdelivered
    exact ⟨h.sent,⟨_,_,_,_,⟨rfl,hpool',hwaiting'⟩,hdelivered.acquire rfl rfl rfl⟩,hstored,hread,
      hflags⟩
  | acquireOther hidle bytes ha data hdata =>
    obtain ⟨⟨free',hpool'⟩,hwaiting'⟩ := hway.acquire hidle ha hdata
    have hdelivered : Delivered ordered s waiting ([] ++ flying) := hdelivered
    exact ⟨h.sent,⟨_,_,_,_,⟨hfly,hpool',hwaiting'⟩,hdelivered.acquire rfl rfl rfl⟩,hstored,hread,
      hflags⟩
  | markReady hi =>
    exact ⟨h.sent,⟨_,_,_,_,hway.markReady hi,⟨honce,horder,hcount⟩⟩,hstored,hread,hflags⟩
  | handle hidle hg m hm video now sessions file received p hp =>
    obtain ⟨front,keys,back,ready',rfl,hkeys,hpool',hwaiting',halone⟩ := hway.handle hidle hg
    have hpkeys : p.keys = keys := hp ▸ hkeys m hm video now sessions file received
    have hkeyboard := h.keyboard.inject hbios p.keys
    refine ⟨h.sent,⟨_,_,_,_,⟨hfly,hpool',hwaiting'⟩,?_⟩,
      hkeyboard.stored,hkeyboard.read,hkeyboard.flags⟩
    exact hdelivered.handle (fun hordered => halone (ho hordered))
      (congrArg (s.handled ++ ·) hpkeys) rfl rfl
  | release hi =>
    exact ⟨h.sent,⟨_,_,_,_,hway.release hi,⟨honce,horder,hcount⟩⟩,hstored,hread,hflags⟩
  | readKey hbuffer =>
    refine ⟨h.sent,⟨_,_,_,_,⟨hfly,hpool,hwaiting⟩,⟨honce,horder,hcount⟩⟩,hstored,?_,hflags⟩
    obtain ⟨tail,hread,htail,hown⟩ := hread
    refine ⟨tail,?_,htail,hown⟩
    rw [← hread, hbuffer, List.append_assoc]
    rfl
  | ownKey key hroom =>
    refine ⟨h.sent,⟨_,_,_,_,⟨hfly,hpool,hwaiting⟩,⟨honce,horder,hcount⟩⟩,hstored,?_,hflags⟩
    obtain ⟨tail,hread,htail,hown⟩ := hread
    refine ⟨tail ++ [key],?_,htail.trans (List.sublist_append_left _ _),?_⟩
    · rw [← List.append_assoc, hread, List.append_assoc]
    · rw [List.length_append, ← hown]
      rfl
  | ownFlags flags17 flags18 =>
    exact ⟨h.sent,⟨_,_,_,_,⟨hfly,hpool,hwaiting⟩,⟨honce,horder,hcount⟩⟩,hstored,hread,rfl⟩

/-- The keys that were handled are read in their order, if the keyboard was only theirs. -/
theorem AtKeyboard.exact (h : AtKeyboard buffer s) (hrefused : s.refused = 0) (hown : s.own = 0) :
    s.read ++ s.keyboard.buffer = buffer ++ s.handled.map Keystroke.word := by
  obtain ⟨kept,hkept,hlength,hall⟩ := h.stored
  obtain ⟨rest,hread,hrest,hstored⟩ := h.read
  have hkeys : kept = s.handled := hkept.eq_of_length (by omega)
  have hwords : s.stored.map Prod.fst = rest :=
    hrest.eq_of_length (by rw [List.length_map]; omega)
  rw [hread, ← hwords, words_storedAs hall, hkeys]

/-- With no frame behind, the keys that were sent are the keys that were handled. -/
theorem KeysKept.handled_sent (h : KeysKept sock ethertype destMacAddr globals ordered buffer s)
    (hall : AllHandled s) : s.handled.Perm s.sent ∧ (ordered → s.handled = s.sent) := by
  obtain ⟨free,ready,waiting,flying,⟨hfly,hpool,hwaiting⟩,honce,horder,hcount⟩ := h.handled
  rw [hall.inFlight] at hfly
  obtain rfl := List.map_eq_nil_iff.mp hfly.symm
  obtain rfl := (LinkedList.Linked.head_eq_none hpool.readyChain).mp hall.ready
  rw [hall.driver] at hwaiting
  obtain rfl := List.forall₂_nil_left_iff.mp hwaiting
  have hlength : s.sent.length = s.handled.length := by
    simpa [hall.lost] using hcount.symm
  simp only [List.reverse_nil, List.flatten_nil, List.append_nil] at honce horder
  exact ⟨honce.perm_of_length_le hlength.le,fun hordered =>
    (horder hordered).eq_of_length hlength.symm⟩

/-- Typing in a session, over all its runs. -/
theorem typing_keysKept {int16 : KeyWord → BiosKeyboard → UInt8 × BiosKeyboard}
    (hbios : StoresKeys int16) (sock : RawSocket) (ethertype : UInt16) (destMacAddr : MacAddr)
    (globals : PktdrvGlobals) (count : ℕ) [NeZero count] (flags17 flags18 : UInt8)
    (buffer : List KeyWord) {tr : List (TypingEvent × Typing count)}
    (h : Run (TypingStep int16 sock ethertype destMacAddr globals)
      (.start count flags17 flags18 buffer) tr) :
    ∀ x ∈ tr, KeysKept sock ethertype destMacAddr globals
        (Along Typing.ReadyAlone (.start count flags17 flags18 buffer) tr) buffer x.2 ∧
      (∀ key ∈ x.2.sent, key.flags17 = key.shifts.toUInt16) ∧
      (AllHandled x.2 →
        (x.2.read ++ x.2.keyboard.buffer).Perm (buffer ++ x.2.sent.map Keystroke.word) ∧
        (Along Typing.ReadyAlone (.start count flags17 flags18 buffer) tr →
          x.2.read ++ x.2.keyboard.buffer = buffer ++ x.2.sent.map Keystroke.word)) := by
  have hkept := h.invariant _ (fun _ _ _ hk ho hs => KeysKept.step hbios hk ho hs)
    (along_of_imp id) (.start count flags17 flags18 buffer)
  intro x hx
  refine ⟨hkept x hx,(hkept x hx).sent.flags,fun hall => ?_⟩
  have hread := (hkept x hx).keyboard.exact hall.refused hall.own
  obtain ⟨hperm,heq⟩ := (hkept x hx).handled_sent hall
  refine ⟨?_,fun halone => ?_⟩
  · rw [hread]
    exact (hperm.map Keystroke.word).append_left buffer
  · rw [hread, heq halone]

/-! Two keys over two ticks. -/

/-- A buffer with the keys is handled, whatever the memory is behind it. -/
theorem TypingStep.handle_keys (hidle : s.handling = none) {i : Fin n} {pool : Bufmgr n}
    (hg : bufferGetReady s.pool = (some i,pool)) {keys : List Keystroke}
    (hkeys : BringsKeys globals (pool.buffers i).data keys) :
    TypingStep int16 sock ethertype destMacAddr globals s .handle
      { s.inject int16 keys with pool := pool, handling := some i } := by
  have hm := arrived_getD (pool.buffers i).data.toList
  have hp := hkeys _ hm ⟨0,0,0,0,0,0⟩ 0 sessionMgrInit fileTransferInit 60
  rw [← hp]
  exact .handle hidle hg _ hm _ _ _ _ _ _ rfl

/-- The bytes at the front of a buffer. -/
def bufferData (bs : List UInt8) (h : bs.length ≤ 1504) : Vector UInt8 1504 :=
  ⟨(bs ++ List.replicate (1504-bs.length) 0).toArray,by simp; omega⟩

theorem prefix_bufferData (bs : List UInt8) (h : bs.length ≤ 1504) :
    bs <+: (bufferData bs h).toList := List.prefix_append ..

/-- A keyboard buffer with room for 15 keys. -/
def int16Store (key : KeyWord) (k : BiosKeyboard) : UInt8 × BiosKeyboard :=
  if k.buffer.length < keyboardCapacity then (0,{ k with buffer := k.buffer ++ [key] }) else (1,k)

theorem int16Store_storesKeys : StoresKeys int16Store where
  room key k h := by simp [int16Store, h]
  full key k h := by simp [int16Store, Nat.not_lt_of_le h]

def letterA : WchInput := ⟨false,0x61⟩

def letterB : WchInput := ⟨false,0x62⟩

/-- The two letters are taken one at a time, and the first one is read. -/
theorem typing_keysKept_twoKeys : ∃ s : Typing 2, s.sent = [⟨30,0x61,0⟩,⟨48,0x62,0⟩] ∧
    s.read = [⟨30,0x61⟩] ∧ s.read ++ s.keyboard.buffer = [] ++ s.sent.map Keystroke.word := by
  let sock : RawSocket := ⟨Vector.replicate 6 0,0⟩
  let mac : MacAddr := Vector.replicate 6 0
  have hlength (key : Keystroke) : (sendKeystrokes sock 0 mac [key]).length ≤ 1504 := by
    simp [sendKeystrokes, clientFrame]
  have hfront (key : Keystroke) := prefix_bufferData _ (hlength key)
  have hrun : ∃ tr, Run (TypingStep int16Store sock 0 mac ⟨mac,0⟩) (Typing.start 2 0 0 []) tr ∧
      Along Typing.ReadyAlone (Typing.start 2 0 0 []) tr ∧
      ∃ x ∈ tr, AllHandled x.2 ∧ x.2.sent = [⟨30,0x61,0⟩,⟨48,0x62,0⟩] ∧
        x.2.read = [⟨30,0x61⟩] := by
    refine ⟨_,.cons (.type letterA) (.cons (.turn rfl) (.cons (.acquire rfl rfl 60 rfl _ (hfront _))
      (.cons (.markReady rfl) (.cons (.handle_keys rfl rfl (bringsKeys_frame (hfront _)))
      (.cons (.release rfl) (.cons (.type letterB) (.cons (.turn rfl)
      (.cons (.acquire rfl rfl 60 rfl _ (hfront _)) (.cons (.markReady rfl)
      (.cons (.handle_keys rfl rfl (bringsKeys_frame (hfront _)))
      (.cons (.readKey rfl) (.nil _)))))))))))),?_,?_⟩
    · refine ⟨trivial,trivial,trivial,trivial,fun i hi => ?_,trivial,trivial,trivial,trivial,
        trivial,fun i hi => ?_,trivial,trivial⟩
      · cases hi
        rfl
      · cases hi
        rfl
    · exact ⟨_,List.mem_of_mem_getLast? rfl,⟨rfl,rfl,rfl,rfl,rfl,rfl⟩,rfl,rfl⟩
  obtain ⟨tr,hrun,halone,x,hx,hall,hsent,hread⟩ := hrun
  have hkept := typing_keysKept int16Store_storesKeys sock 0 mac ⟨mac,0⟩ 2 0 0 [] hrun x hx
  exact ⟨x.2,hsent,hread,(hkept.2.2 hall).2 halone⟩

end RmtDos
