import RmtDos.Client.HostList
import RmtDos.Server.SendBuffer

/-! The client's side of a screen update: what a screen frame of the server does to the record of
the server, and that frames for other clients do nothing. -/
namespace RmtDos
open Memory Reading

variable {globals : PktdrvGlobals} {rs : RawSocket} {c : Client} {f : ScreenFrame} {m : Mem}

/-- The frame is for the client behind the socket. -/
def ScreenFrame.For (f : ScreenFrame) (rs : RawSocket) : Prop :=
  f.destMacAddr = rs.ifAddr ∧ f.sessionId = rs.sessionId

theorem eq_of_slice_one {i : ℕ} {b : UInt8} (h : slice m i 1 = [b]) : m i = b := by
  rw [slice_succ] at h
  exact (List.cons.inj h).1

section fields
variable (h : f.OnWire globals m) (hf : f.Sized)
include h hf

theorem wire_dest : slice m 0 6 = f.destMacAddr.toList := by
  have hs : (0,f.destMacAddr.toList) ∈ f.stores globals := by
    simp [ScreenFrame.stores, ScreenFrame.addrStores]
  simpa using h.slice globals hf hs

theorem wire_source : slice m 6 6 = globals.macAddr.toList := by
  have hs : (6,globals.macAddr.toList) ∈ f.stores globals := by
    simp [ScreenFrame.stores, ScreenFrame.headStores]
  simpa using h.slice globals hf hs

theorem wire_signature : slice m 14 4 = htonl packetSignature := by
  have hs : (14,htonl packetSignature) ∈ f.stores globals := by
    simp [ScreenFrame.stores, ScreenFrame.headStores]
  simpa using h.slice globals hf hs

theorem wire_session : slice m 18 4 = htonl f.sessionId := by
  have hs : (18,htonl f.sessionId) ∈ f.stores globals := by
    simp [ScreenFrame.stores, ScreenFrame.addrStores]
  simpa using h.slice globals hf hs

theorem wire_type : slice m 24 2 = htons f.body.pktType := by
  have hs : (24,htons f.body.pktType) ∈ f.stores globals := by
    simp [ScreenFrame.stores, ScreenFrame.headStores]
  simpa using h.slice globals hf hs

/-- A store of the body reads back. -/
theorem wire_body {i : ℕ} {bs : List UInt8} (hs : (i,bs) ∈ f.body.stores f.data) :
    slice m i bs.length = bs := by
  have hs' : (i,bs) ∈ f.stores globals := by
    simp [ScreenFrame.stores, ScreenFrame.headStores, hs]
  exact h.slice globals hf hs'

/-- The client turns away the frames of others. -/
theorem processSocketIo_other (ho : ¬ f.For rs) : run m (processSocketIo rs c) = c := by
  have hne : f.destMacAddr.toList ≠ rs.ifAddr.toList ∨ rs.sessionId ≠ f.sessionId := by
    by_contra hall
    rw [not_or, not_not, not_not] at hall
    exact ho ⟨Vector.toList_inj.mp hall.1,hall.2.symm⟩
  simp only [processSocketIo, run_bind, run_bytes, run_be32, run_be16, wire_dest h hf,
    wire_signature h hf, wire_session h hf, ntohl_htonl]
  obtain hne | hne := hne
  · rw [if_pos hne, run_pure]
  · simp only [ne_eq, not_true_eq_false, hne, not_false_eq_true, if_true, run_pure, ite_self]

/-- The checks of `process_socket_io` let a frame for the client pass. -/
theorem processSocketIo_mine (hmine : f.For rs) : run m (processSocketIo rs c) =
    if f.body.pktType = 6 then
      { c with hosts := (run m (processIncomingVideoText c.hosts)).1 }
    else { c with hosts := run m (processIncomingCgaGraphics c.hosts) } := by
  obtain ⟨hd,hs⟩ := hmine
  simp only [processSocketIo, run_bind, run_bytes, run_be32, run_be16, wire_dest h hf,
    wire_signature h hf, wire_session h hf, wire_type h hf, ntohl_htonl, ntohs_htons, hd, hs,
    ne_eq, not_true_eq_false, if_false]
  have h64 : ¬ (6 : UInt16) = 4 := by decide
  have h84 : ¬ (8 : UInt16) = 4 := by decide
  have h86 : ¬ (8 : UInt16) = 6 := by decide
  cases f.body with
  | vgaText => simp only [ScreenBody.pktType, h64, if_false, if_true, run_bind, run_pure]
  | cgaGraphics => simp only [ScreenBody.pktType, h84, h86, if_false, if_true, run_bind, run_pure]

/-- The common part of the parsers accepts a frame of a known server whose data fit. -/
theorem run_incoming_wire {hosts : HostList} {i : Fin 16} {size offsetAt : ℕ}
    {offset count : UInt16} (hi : hostlistFindByMac globals.macAddr.toList hosts = some i)
    (hoff : (offsetAt,htons offset) ∈ f.body.stores f.data)
    (hcount : (offsetAt+2,htons count) ∈ f.body.stores f.data)
    (hdata : (offsetAt+4,f.data) ∈ f.body.stores f.data)
    (hlen : count.toNat = f.data.length) (hfit : count.toNat+offset.toNat ≤ size) :
    run m (incomingScreen hosts size offsetAt) = some (i,offset,f.data) := by
  have h₁ : slice m offsetAt 2 = htons offset := by simpa using wire_body h hf hoff
  have h₂ : slice m (offsetAt+2) 2 = htons count := by simpa using wire_body h hf hcount
  have h₃ := wire_body h hf hdata
  rw [hlen] at hfit
  simp only [incomingScreen, run_bind, run_bytes, wire_source h hf, hi, run_be16, h₁, h₂,
    ntohs_htons, hlen, if_neg (Nat.not_lt.mpr hfit), h₃, run_pure]

/-- A text frame is stored in the record of the server. -/
theorem processSocketIo_text {i : Fin 16} {textRows textCols cursorRow cursorCol : UInt8}
    {offset count : UInt16} (hmine : f.For rs)
    (hi : hostlistFindByMac globals.macAddr.toList c.hosts = some i)
    (hb : f.body = .vgaText textRows textCols cursorRow cursorCol offset count)
    (hlen : count.toNat = f.data.length) (hfit : count.toNat+offset.toNat ≤ 32768) :
    run m (processSocketIo rs c) = { c with
      hosts := updateHost c.hosts i fun rh => { rh with
        videoTextBuffer := copyInto rh.videoTextBuffer offset.toNat f.data
        textRows := textRows
        textCols := textCols
        status := { rh.status with cursorRow := cursorRow, cursorCol := cursorCol } } } := by
  have hin := @run_incoming_wire globals f m h hf c.hosts i 32768 30 offset count hi
    (by simp [hb, ScreenBody.stores]) (by simp [hb, ScreenBody.stores])
    (by simp [hb, ScreenBody.stores]) hlen hfit
  have hbyte {j : ℕ} {b : UInt8} (hs : (j,[b]) ∈ f.body.stores f.data) : m j = b :=
    eq_of_slice_one (wire_body h hf hs)
  have h26 : m 26 = textRows := hbyte (by simp [hb, ScreenBody.stores])
  have h27 : m 27 = textCols := hbyte (by simp [hb, ScreenBody.stores])
  have h28 : m 28 = cursorRow := hbyte (by simp [hb, ScreenBody.stores])
  have h29 : m 29 = cursorCol := hbyte (by simp [hb, ScreenBody.stores])
  rw [processSocketIo_mine h hf hmine, hb, ScreenBody.pktType, if_pos rfl]
  simp only [processIncomingVideoText, run_bind, hin, run_byte, h26, h27, h28, h29, run_pure]

/-- A graphics frame is stored in the record of the server. -/
theorem processSocketIo_cga {i : Fin 16} {videoMode bpp : UInt8}
    {width height offset count : UInt16} (hmine : f.For rs)
    (hi : hostlistFindByMac globals.macAddr.toList c.hosts = some i)
    (hb : f.body = .cgaGraphics videoMode bpp width height offset count)
    (hlen : count.toNat = f.data.length) (hfit : count.toNat+offset.toNat ≤ 16000) :
    run m (processSocketIo rs c) = { c with
      hosts := updateHost c.hosts i fun rh => { rh with
        cgaGraphicsBuffer := copyInto rh.cgaGraphicsBuffer offset.toNat f.data
        cgaGraphicsMode := videoMode
        cgaGraphicsBpp := bpp
        cgaGraphicsWidth := width
        cgaGraphicsHeight := height
        cgaGraphicsValid := true
        cgaGraphicsGeneration := rh.cgaGraphicsGeneration+1 } } := by
  have hin := @run_incoming_wire globals f m h hf c.hosts i 16000 32 offset count hi
    (by simp [hb, ScreenBody.stores]) (by simp [hb, ScreenBody.stores])
    (by simp [hb, ScreenBody.stores]) hlen hfit
  have h26 : m 26 = videoMode :=
    eq_of_slice_one (wire_body h hf (by simp [hb, ScreenBody.stores] : (26,[videoMode]) ∈ _))
  have h27 : m 27 = bpp :=
    eq_of_slice_one (wire_body h hf (by simp [hb, ScreenBody.stores] : (27,[bpp]) ∈ _))
  have h28 : slice m 28 2 = htons width := by
    simpa using wire_body h hf (by simp [hb, ScreenBody.stores] : (28,htons width) ∈ _)
  have h30 : slice m 30 2 = htons height := by
    simpa using wire_body h hf (by simp [hb, ScreenBody.stores] : (30,htons height) ∈ _)
  have h86 : ¬ (8 : UInt16) = 6 := by decide
  rw [processSocketIo_mine h hf hmine, hb, ScreenBody.pktType, if_neg h86]
  simp only [processIncomingCgaGraphics, run_bind, hin, run_byte, run_be16, h26, h27, h28, h30,
    ntohs_htons, run_pure]

end fields

end RmtDos
