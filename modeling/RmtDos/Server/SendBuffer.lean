import RmtDos.Lib.Memory
import RmtDos.Server.IdleSpec
import RmtDos.Server.Session

/-! The frames of the TSR as bytes. Every frame is built by stores into the one send buffer, and
the packet driver takes it from there, padded to the least length of a frame by whatever the
buffer holds. -/
namespace RmtDos
open Memory

/-- `g_pktdrv_info.mac_addr` and `g_ethertype`. -/
structure PktdrvGlobals where
  macAddr : MacAddr
  ethertype : UInt16

def minEthFrameSize : ℕ := 60

/-- What `pktdrv_send` hands to the driver. -/
def pktdrvFrame (sendBuffer : Mem) (length : ℕ) : List UInt8 :=
  slice sendBuffer 0 (max length minEthFrameSize)

/-- A builder stores into the send buffer and passes it on. -/
inductive SendOp
  | store (i : ℕ) (bs : List UInt8)
  | send (length : ℕ)

/-- The frames sent, and the buffer afterwards. -/
def runSends : List SendOp → Mem → List (List UInt8) × Mem
  | [], m => ([],m)
  | .store i bs::ops, m => runSends ops (store m i bs)
  | .send length::ops, m =>
    let rest := runSends ops m
    (pktdrvFrame m length :: rest.1,rest.2)

def storeOps (ss : List (ℕ × List UInt8)) : List SendOp := ss.map fun s => .store s.1 s.2

variable (globals : PktdrvGlobals)

/-- `prep_for_reply` for the request in the receive buffer. -/
def prepForReply (buffer : Mem) : List (ℕ × List UInt8) :=
  [(0,slice buffer 6 6),(6,globals.macAddr.toList),(12,htons globals.ethertype),
    (18,slice buffer 18 4),(26,List.replicate 1488 0),(14,htonl packetSignature)]

/-- `MIN (MAX_PAYLOAD_LENGTH, ...)` of a ping. -/
def pingLength (buffer : Mem) : ℕ := min 1488 (ntohs (slice buffer 22 2)).toNat

def handlePing (buffer : Mem) (bytes : ℕ) : List SendOp :=
  storeOps (prepForReply globals buffer ++
    [(24,htons 2),(22,htons (UInt16.ofNat (pingLength buffer))),
      (26,slice buffer 26 (pingLength buffer))]) ++ [.send bytes]

def handleStatusReq (buffer : Mem) (video : VideoState) : List SendOp :=
  storeOps (prepForReply globals buffer ++
    [(24,htons 4),(22,htons 6),(26,[video.videoMode]),(27,[video.activePage]),
      (28,[video.textRows]),(29,[video.textCols]),(30,[video.cursorRow]),
      (31,[video.cursorCol])]) ++ [.send 32]

def DirListEntry.bytes (e : DirListEntry) : List UInt8 :=
  [e.attributes,e.reserved] ++ htonl e.size ++ htons e.dosDate ++ htons e.dosTime ++ e.name.toList

@[simp] theorem DirListEntry.length_bytes (e : DirListEntry) : e.bytes.length = 74 := by
  simp [DirListEntry.bytes]

theorem length_entryBytes (entries : List DirListEntry) :
    (entries.flatMap DirListEntry.bytes).length = 74*entries.length := by
  induction entries with
  | nil => rfl
  | cons e entries ih =>
    rw [List.flatMap_cons, List.length_append, ih, e.length_bytes, List.length_cons]
    omega

def ReplyBody.pktType : ReplyBody → UInt16
  | .fileAck .. => 12
  | .fileGetData .. => 15
  | .dirListData .. => 19

def ReplyBody.stores : ReplyBody → List (ℕ × List UInt8)
  | .fileAck transferId command status offset =>
    [(26,htonl transferId),(30,htons command.code),(32,htons status.code),(34,htonl offset)]
  | .fileGetData transferId offset count status data =>
    [(26,htonl transferId),(30,htonl offset),(34,htons count),(36,htons status.code),(38,data)]
  | .dirListData requestId startIndex entryCount status entries =>
    [(26,htonl requestId),(30,htons startIndex),(32,htons entryCount),(34,htons status.code),
      (36,entries.flatMap DirListEntry.bytes)]

/-- The stores of `send_file_ack`, `send_file_get_data` and `send_dir_list_data`. -/
def Reply.stores (r : Reply) : List (ℕ × List UInt8) :=
  [(0,r.destMacAddr.toList),(6,r.srcMacAddr.toList),(12,htons globals.ethertype),
    (14,htonl packetSignature),(18,htonl r.sessionId),(22,htons r.payloadLen),
    (24,htons r.body.pktType)] ++ r.body.stores

def Reply.length (r : Reply) : ℕ := 26+r.payloadLen.toNat

def sendReply (r : Reply) : List SendOp := storeOps (r.stores globals) ++ [.send r.length]

def ScreenBody.pktType : ScreenBody → UInt16
  | .vgaText .. => 6
  | .cgaGraphics .. => 8

def ScreenBody.stores (data : List UInt8) : ScreenBody → List (ℕ × List UInt8)
  | .vgaText textRows textCols cursorRow cursorCol offset count =>
    [(26,[textRows]),(27,[textCols]),(28,[cursorRow]),(29,[cursorCol]),(30,htons offset),
      (32,htons count),(34,data)]
  | .cgaGraphics videoMode bpp width height offset count =>
    [(26,[videoMode]),(27,[bpp]),(28,htons width),(30,htons height),(32,htons offset),
      (34,htons count),(36,data)]

/-- The stores before the loop over the sessions. -/
def ScreenFrame.headStores (f : ScreenFrame) : List (ℕ × List UInt8) :=
  [(6,globals.macAddr.toList),(12,htons globals.ethertype),(14,htonl packetSignature),
    (22,htons f.payloadLen),(24,htons f.body.pktType)] ++ f.body.stores f.data

/-- The stores of the loop. -/
def ScreenFrame.addrStores (f : ScreenFrame) : List (ℕ × List UInt8) :=
  [(0,f.destMacAddr.toList),(18,htonl f.sessionId)]

def ScreenFrame.length (f : ScreenFrame) : ℕ := 26+f.payloadLen.toNat

/-- The frames of one screen update, which differ in their addresses only. -/
def sendScreens : List ScreenFrame → List SendOp
  | [] => []
  | f::fs => storeOps (f.headStores globals) ++
      (f::fs).flatMap fun f => storeOps f.addrStores ++ [.send f.length]

/-! What a builder sends. -/

@[simp] theorem runSends_storeOps (ss : List (ℕ × List UInt8)) (ops : List SendOp) (m : Mem) :
    runSends (storeOps ss ++ ops) m = runSends ops (stores m ss) := by
  induction ss generalizing m with
  | nil => rfl
  | cons s ss ih => exact ih _

theorem runSends_send (length : ℕ) (ops : List SendOp) (m : Mem) :
    runSends (.send length :: ops) m =
      (pktdrvFrame m length :: (runSends ops m).1,(runSends ops m).2) := rfl

/-- One frame is sent, and it is the buffer after the stores. -/
theorem runSends_one (ss : List (ℕ × List UInt8)) (length : ℕ) (m : Mem) :
    runSends (storeOps ss ++ [.send length]) m =
      ([pktdrvFrame (stores m ss) length],stores m ss) := by
  rw [runSends_storeOps]
  rfl

/-! The frames of a screen update on the wire. -/

def ScreenFrame.stores (f : ScreenFrame) : List (ℕ × List UInt8) :=
  f.headStores globals ++ f.addrStores

/-- The bytes of the frame. -/
def ScreenFrame.wire (f : ScreenFrame) : Mem := Memory.stores (fun _ => 0) (f.stores globals)

def ScreenBody.structSize : ScreenBody → ℕ
  | .vgaText .. => 8
  | .cgaGraphics .. => 10

/-- The payload is the struct and the data. -/
def ScreenFrame.Sized (f : ScreenFrame) : Prop :=
  f.payloadLen.toNat = f.body.structSize+f.data.length

theorem covered_screen (f : ScreenFrame) (j : ℕ) :
    Covered (f.stores globals) j ↔ j < 26+f.body.structSize+f.data.length := by
  obtain ⟨dest,sessionId,payloadLen,body,data⟩ := f
  cases body <;>
  · simp only [ScreenFrame.stores, ScreenFrame.headStores, ScreenFrame.addrStores,
      ScreenBody.stores, ScreenBody.structSize, List.cons_append, List.nil_append, covered_cons,
      covered_nil, Vector.length_toList, length_htons, length_htonl, List.length_cons,
      List.length_nil, or_false]
    omega

theorem apart_screen (f : ScreenFrame) : Apart (f.stores globals) := by
  obtain ⟨dest,sessionId,payloadLen,body,data⟩ := f
  cases body <;>
    simp [ScreenFrame.stores, ScreenFrame.headStores, ScreenFrame.addrStores, ScreenBody.stores,
      Apart]

/-- The frame stands at the start of a buffer. -/
def ScreenFrame.OnWire (f : ScreenFrame) (m : Mem) : Prop := AgreeBelow f.length (f.wire globals) m

/-- A field of a frame reads back from a buffer with the frame. -/
theorem ScreenFrame.OnWire.slice {f : ScreenFrame} {m : Mem} {i : ℕ} {bs : List UInt8}
    (h : f.OnWire globals m) (hf : f.Sized) (hs : (i,bs) ∈ f.stores globals) :
    slice m i bs.length = bs := by
  have hin (j : ℕ) (hl : i ≤ j) (hu : j < i+bs.length) : j < f.length := by
    have hc := (covered_screen globals f j).mp ⟨_,hs,hl,hu⟩
    rw [ScreenFrame.length, hf]
    omega
  have hback := slice_stores_mem (fun _ => 0) (apart_screen globals f) hs
  calc Memory.slice m i bs.length
      = Memory.slice (f.wire globals) i bs.length :=
        slice_congr fun j hl hu => (h j (hin j hl hu)).symm
    _ = bs := hback

/-- A buffer received from the wire starts with the bytes that were sent. -/
def Arrived (bs : List UInt8) (m : Mem) : Prop := slice m 0 bs.length = bs

theorem arrived_getD (bs : List UInt8) : Arrived bs fun j => bs.getD j 0 :=
  List.ext_getElem (length_slice ..) fun k h₁ h₂ => by
    simp [slice, h₂]

/-- A store of the sender reads back from the buffer of the receiver. -/
theorem Arrived.store {m₀ m : Mem} {ss : List (ℕ × List UInt8)} {n i : ℕ} {bs : List UInt8}
    (h : Arrived (slice (Memory.stores m₀ ss) 0 n) m) (ha : Apart ss) (hs : (i,bs) ∈ ss)
    (hn : i+bs.length ≤ n) : slice m i bs.length = bs := by
  rw [Arrived, length_slice] at h
  calc slice m i bs.length
      = slice (Memory.stores m₀ ss) i bs.length :=
        slice_congr fun j _ hu => slice_eq_iff.mp h j (Nat.zero_le j) (by omega)
    _ = bs := slice_stores_mem m₀ ha hs

/-- The loop over the sessions sends each frame as it is, whatever the buffer held. -/
theorem runSends_addrs {n : UInt16} {body : ScreenBody} {data : List UInt8} {ms : List Mem}
    {head : ScreenFrame} (hhead : head.payloadLen = n ∧ head.body = body ∧ head.data = data) (frames : List ScreenFrame)
    (hf : ∀ f ∈ frames, f.payloadLen = n ∧ f.body = body ∧ f.data = data) (m : Mem)
    (hm : ∀ j < 26+n.toNat, ¬ Covered head.addrStores j →
      m j = stores (fun _ => 0) (head.headStores globals) j)
    (ha : List.Forall₂ Arrived (runSends (frames.flatMap fun f =>
      storeOps f.addrStores ++ [.send f.length]) m).1 ms) :
    List.Forall₂ (ScreenFrame.OnWire globals) frames ms := by
  induction frames generalizing m ms with
  | nil =>
    cases ha
    exact .nil
  | cons f frames ih =>
    obtain ⟨hn,hb,hd⟩ := hf f List.mem_cons_self
    have haddr (j : ℕ) : Covered f.addrStores j ↔ Covered head.addrStores j := by
      simp [ScreenFrame.addrStores]
    have hsame : f.headStores globals = head.headStores globals := by
      simp only [ScreenFrame.headStores, hn, hb, hd, hhead]
    rw [List.flatMap_cons, List.append_assoc, runSends_storeOps, List.singleton_append,
      runSends_send] at ha
    obtain ⟨m₁,ms,h₁,hrest,rfl⟩ := List.forall₂_cons_left_iff.mp ha
    have hwire (j : ℕ) (hj : j < 26+n.toNat) :
        stores m f.addrStores j = f.wire globals j := by
      by_cases hc : Covered f.addrStores j
      · exact (stores_append_covered _ m _ hc).symm
      · rw [stores_uncovered _ hc, hm j hj (mt (haddr j).mpr hc), ScreenFrame.wire,
          ScreenFrame.stores, stores_append_uncovered _ _ hc, hsame]
    refine .cons ?_ (ih (fun f hfm => hf f (List.mem_cons_of_mem _ hfm)) _ ?_ hrest)
    · intro j hj
      have hlen : f.length = 26+n.toNat := by rw [ScreenFrame.length, hn]
      have hle : f.length ≤ max f.length minEthFrameSize := Nat.le_max_left ..
      simp only [Arrived, pktdrvFrame, length_slice] at h₁
      rw [← hwire j (by omega)]
      exact (slice_eq_iff.mp h₁ j (Nat.zero_le j) (by omega)).symm
    · intro j hj hc
      rw [stores_uncovered _ (mt (haddr j).mp hc)]
      exact hm j hj hc

/-- Every client receives the frames of a screen update as they were built. -/
theorem sendScreens_onWire {n : UInt16} {body : ScreenBody} {data : List UInt8}
    (hsize : n.toNat = body.structSize+data.length) {frames : List ScreenFrame} {ms : List Mem}
    (hf : ∀ f ∈ frames, f.payloadLen = n ∧ f.body = body ∧ f.data = data) (sendBuffer : Mem)
    (ha : List.Forall₂ Arrived (runSends (sendScreens globals frames) sendBuffer).1 ms) :
    List.Forall₂ (ScreenFrame.OnWire globals) frames ms := by
  cases frames with
  | nil =>
    cases ha
    exact .nil
  | cons f frames =>
    have hfirst := hf f List.mem_cons_self
    rw [sendScreens, runSends_storeOps] at ha
    refine runSends_addrs globals hfirst _ hf _ (fun j hj hc => ?_) ha
    have hcov := (covered_screen globals f j).mpr (by
      obtain ⟨-,hb,hd⟩ := hfirst
      rw [hb, hd]
      omega)
    have hhead : Covered (f.headStores globals) j := by
      rw [ScreenFrame.stores, covered_append] at hcov
      exact hcov.resolve_right hc
    exact stores_covered _ _ hhead

end RmtDos
