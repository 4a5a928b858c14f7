import RmtDos.Client.Web
import RmtDos.Server.CgaSweep

/-! The way of a graphics screen to the browser. The server sends 16000 bytes of the frame buffer,
but the odd rows lie from 0x2000 on and reach 192 bytes further. -/
namespace RmtDos
open Memory Reading

/-- The byte of segment b800 that holds pixel `(x, y)`. -/
def cgaByte (bpp x y : ℕ) : ℕ := (if y % 2 = 1 then 0x2000 else 0)+80*(y/2)+x*bpp/8

/-- The pixel that the hardware shows, the most significant bits of a byte first. -/
def cgaPixel (mem : FrameBuffer) (bpp x y : ℕ) : ℕ :=
  (mem (UInt16.ofNat (cgaByte bpp x y))).toNat/2^(8-bpp-x*bpp % 8) % 2^bpp

/-- The bytes of the screen that the server does not send. -/
def UnsentBlank (mem : FrameBuffer) : Prop :=
  ∀ j, 16000 ≤ j → j < 16192 → mem (UInt16.ofNat j) = 0

/-- The record of a host that sent a sweep in the mode. -/
structure HasPicture (mem : FrameBuffer) (video : VideoState) (rh : RemoteHost) : Prop where
  mode : rh.cgaGraphicsMode = video.videoMode
  bpp : rh.cgaGraphicsBpp = cgaGraphicsBpp video.videoMode
  width : rh.cgaGraphicsWidth = cgaGraphicsWidth video.videoMode
  height : rh.cgaGraphicsHeight = 200
  valid : rh.cgaGraphicsValid = true
  shown : ∀ j : Fin 16000, rh.cgaGraphicsBuffer j = mem (UInt16.ofNat j)

variable {mem : FrameBuffer} {video : VideoState} {rh : RemoteHost}

/-! The response and what the page reads from it. -/

theorem webSendFrame_active {c : Client} {i : Fin 16} (ha : c.activeHost = some i)
    (hi : c.hosts.slot i = some rh) (hvalid : rh.cgaGraphicsValid = true) :
    webSendFrame c = some (frameHeader rh ++ List.ofFn rh.cgaGraphicsBuffer) := by
  have hg : hasGraphics c.hosts i = true := by
    simp only [hasGraphics, hi, Option.any_some, hvalid]
  simp only [webSendFrame, webFindGraphicsHost, ha, hg, if_true, hi, Option.bind_eq_bind,
    Option.bind_some, Option.pure_def]

theorem jsByte_append (a b : List UInt8) {k : ℕ} (h : k < a.length) :
    jsByte (a ++ b) k = jsByte a k := by
  rw [jsByte, jsByte, List.getElem?_append_left h]

theorem headerU16_value (w : UInt16) :
    (w &&& 0xff).toUInt8.toNat+256*(w >>> 8).toUInt8.toNat = w.toNat := by
  have hw := w.toNat_lt
  have h255 : UInt16.toNat 0xff = 2^8-1 := rfl
  have h8 : UInt16.toNat 8 % 16 = 8 := rfl
  simp only [UInt16.toNat_toUInt8, UInt16.toNat_and, UInt16.toNat_shiftRight, h255, h8,
    Nat.and_two_pow_sub_one_eq_mod, Nat.shiftRight_eq_div_pow]
  omega

theorem tick_response (rh : RemoteHost) {data : List UInt8} (hdata : data.length = 16000) :
    tick (frameHeader rh ++ data) =
      some ⟨rh.cgaGraphicsMode.toNat,rh.cgaGraphicsWidth.toNat,rh.cgaGraphicsHeight.toNat,
        if rh.cgaGraphicsBpp.toNat = 1 then pix1 data else pix2 data⟩ := by
  have hlen : (frameHeader rh).length = 16 := rfl
  have hb {k : ℕ} (hk : k < 16) : jsByte (frameHeader rh ++ data) k = jsByte (frameHeader rh) k :=
    jsByte_append _ _ (by rw [hlen]; exact hk)
  have hw {o : ℕ} (ho : o < 15) : le16 (frameHeader rh ++ data) o =
      jsByte (frameHeader rh) o+256*jsByte (frameHeader rh) (o+1) := by
    rw [le16, hb (by omega), hb (by omega)]
  have h14 : le16 (frameHeader rh ++ data) 14 = 16000 :=
    (hw (by decide)).trans (headerU16_value 16000)
  have h6 : le16 (frameHeader rh ++ data) 6 = rh.cgaGraphicsWidth.toNat :=
    (hw (by decide)).trans (headerU16_value _)
  have h8 : le16 (frameHeader rh ++ data) 8 = rh.cgaGraphicsHeight.toNat :=
    (hw (by decide)).trans (headerU16_value _)
  have htotal : (frameHeader rh ++ data).length = 16016 := by
    rw [List.length_append, hlen, hdata]
  have hok : ¬ ((frameHeader rh ++ data).length < 16 ∨
      jsByte (frameHeader rh) 0 ≠ 67 ∨ jsByte (frameHeader rh) 1 ≠ 71 ∨
      jsByte (frameHeader rh) 2 ≠ 65 ∨ (frameHeader rh ++ data).length < 16+16000) := by
    rw [htotal]
    simp only [not_or]
    exact ⟨by decide,fun h => h rfl,fun h => h rfl,fun h => h rfl,by decide⟩
  have hbody : ((frameHeader rh ++ data).drop 16).take 16000 = data := by
    rw [List.drop_left' hlen, List.take_of_length_le hdata.le]
  unfold tick
  simp only [h14, h6, h8, hb (show 0 < 16 by decide), hb (show 1 < 16 by decide),
    hb (show 2 < 16 by decide), hb (show 4 < 16 by decide), hb (show 5 < 16 by decide),
    if_neg hok, hbody]
  have h4 : jsByte (frameHeader rh) 4 = rh.cgaGraphicsMode.toNat := rfl
  have h5 : jsByte (frameHeader rh) 5 = rh.cgaGraphicsBpp.toNat := rfl
  rw [h4, h5]

/-! Pixels. -/

theorem jsByte_ofFn {n : ℕ} {f : Fin n → UInt8} (h : ∀ j : Fin n, f j = mem (UInt16.ofNat j))
    (k : ℕ) : jsByte (List.ofFn f) k = if k < n then (mem (UInt16.ofNat k)).toNat else 0 := by
  unfold jsByte
  split
  next hk => simp [hk, h]
  next hk => simp [hk]

theorem rowStart_eq (y : ℕ) : rowStart y = (if y % 2 = 1 then 0x2000 else 0)+80*(y/2) := by
  have hodd : (y % 2 ≠ 0) = (y % 2 = 1) := by
    apply propext
    omega
  simp only [rowStart, Nat.and_one_is_mod, Nat.shiftRight_eq_div_pow, pow_one, hodd,
    Nat.mul_comm (y/2)]

theorem pix1_eq (data : List UInt8) (y x : ℕ) :
    pix1 data y x = jsByte data (cgaByte 1 x y)/2^(8-1-x*1 % 8) % 2^1 := by
  have h7 : x &&& 7 = x % 8 := Nat.and_two_pow_sub_one_eq_mod x 3
  simp only [pix1, rowStart_eq, cgaByte, h7, Nat.and_one_is_mod, Nat.shiftRight_eq_div_pow,
    Nat.mul_one, pow_one]

theorem pix2_eq (data : List UInt8) (y x : ℕ) :
    pix2 data y x = jsByte data (cgaByte 2 x y)/2^(8-2-x*2 % 8) % 2^2 := by
  have h3 (n : ℕ) : n &&& 3 = n % 4 := Nat.and_two_pow_sub_one_eq_mod n 2
  have hx : x*2/8 = x/2^2 := by omega
  have hs : 6-x % 4*2 = 8-2-x*2 % 8 := by omega
  simp only [pix2, rowStart_eq, cgaByte, h3, Nat.shiftRight_eq_div_pow, hx, hs]
  rfl

/-- The page shows the pixels that were sent, and 0 for the others. -/
theorem value_eq (h : HasPicture mem video rh) (y x : ℕ) :
    (if rh.cgaGraphicsBpp.toNat = 1 then pix1 (List.ofFn rh.cgaGraphicsBuffer)
        else pix2 (List.ofFn rh.cgaGraphicsBuffer)) y x =
      if cgaByte (cgaGraphicsBpp video.videoMode).toNat x y < 16000 then
        cgaPixel mem (cgaGraphicsBpp video.videoMode).toNat x y
      else 0 := by
  have h1 : UInt8.toNat 1 = 1 := rfl
  have h2 : UInt8.toNat 2 = 2 := rfl
  rw [h.bpp]
  unfold cgaGraphicsBpp
  split
  next =>
    simp only [h1]
    rw [pix1_eq, jsByte_ofFn h.shown, cgaPixel]
    split
    next => rfl
    next => simp
  next =>
    have h21 : ¬ (2 : ℕ) = 1 := by decide
    simp only [h2, h21, if_false]
    rw [pix2_eq, jsByte_ofFn h.shown, cgaPixel]
    split
    next => rfl
    next => simp

theorem cgaByte_lt {bpp x y : ℕ} (hy : y < 200) (hx : x*bpp/8 < 80) : cgaByte bpp x y < 16192 := by
  unfold cgaByte
  split <;> omega

/-- Every byte of an odd row is the byte of a pixel. -/
theorem cgaByte_of_unsent {j xb : ℕ} (hl : 16000 ≤ j) (hxb : xb = (j-0x2000) % 80) {bpp x : ℕ}
    (hx : x*bpp/8 = xb) : cgaByte bpp x (2*((j-0x2000)/80)+1) = j := by
  unfold cgaByte
  rw [if_pos (by omega), hx]
  omega

/-- The pixels of a byte are all 0 only if the byte is. -/
theorem unsent_blank_of_pixels {bpp w : ℕ} (hw : bpp = 1 ∧ w = 640 ∨ bpp = 2 ∧ w = 320)
    (h : ∀ y < 200, ∀ x < w, 16000 ≤ cgaByte bpp x y → cgaPixel mem bpp x y = 0) :
    UnsentBlank mem := by
  intro j hl hu
  obtain ⟨xb,hxb⟩ : ∃ xb, xb = (j-0x2000) % 80 := ⟨_,rfl⟩
  have hlt : xb < 80 := by omega
  have hbyte := (mem (UInt16.ofNat j)).toNat_lt
  have hpix (p : ℕ) (hp : p*bpp < 8) (hd : bpp = 1 ∨ bpp = 2) :
      (mem (UInt16.ofNat j)).toNat/2^(8-bpp-p*bpp) % 2^bpp = 0 := by
    have hx : (xb*(8/bpp)+p)*bpp/8 = xb ∧ (xb*(8/bpp)+p)*bpp % 8 = p*bpp := by
      obtain rfl | rfl := hd <;> omega
    have hpos := cgaByte_of_unsent hl hxb hx.1
    have hzero := h (2*((j-0x2000)/80)+1) (by omega) (xb*(8/bpp)+p)
      (by obtain ⟨rfl,rfl⟩ | ⟨rfl,rfl⟩ := hw <;> omega) (by rw [hpos]; exact hl)
    rwa [cgaPixel, hpos, hx.2] at hzero
  apply UInt8.toNat_inj.mp
  have hz : UInt8.toNat 0 = 0 := rfl
  rw [hz]
  obtain ⟨rfl,-⟩ | ⟨rfl,-⟩ := hw
  · have h0 := hpix 0 (by decide) (.inl rfl)
    have h1 := hpix 1 (by decide) (.inl rfl)
    have h2 := hpix 2 (by decide) (.inl rfl)
    have h3 := hpix 3 (by decide) (.inl rfl)
    have h4 := hpix 4 (by decide) (.inl rfl)
    have h5 := hpix 5 (by decide) (.inl rfl)
    have h6 := hpix 6 (by decide) (.inl rfl)
    have h7 := hpix 7 (by decide) (.inl rfl)
    omega
  · have h0 := hpix 0 (by decide) (.inr rfl)
    have h1 := hpix 1 (by decide) (.inr rfl)
    have h2 := hpix 2 (by decide) (.inr rfl)
    have h3 := hpix 3 (by decide) (.inr rfl)
    omega

theorem cga_format (videoMode : UInt8) :
    (cgaGraphicsBpp videoMode).toNat = 1 ∧ (cgaGraphicsWidth videoMode).toNat = 640 ∨
      (cgaGraphicsBpp videoMode).toNat = 2 ∧ (cgaGraphicsWidth videoMode).toNat = 320 := by
  unfold cgaGraphicsBpp cgaGraphicsWidth
  split
  · exact .inl ⟨rfl,rfl⟩
  · exact .inr ⟨rfl,rfl⟩

/-- What the page shows of a picture is the screen exactly if the unsent bytes are blank. -/
theorem shown_iff_blank (h : HasPicture mem video rh) :
    (∀ y < 200, ∀ x < (cgaGraphicsWidth video.videoMode).toNat,
      (if rh.cgaGraphicsBpp.toNat = 1 then pix1 (List.ofFn rh.cgaGraphicsBuffer)
          else pix2 (List.ofFn rh.cgaGraphicsBuffer)) y x =
        cgaPixel mem (cgaGraphicsBpp video.videoMode).toNat x y) ↔ UnsentBlank mem := by
  have hformat := cga_format video.videoMode
  constructor
  · intro hall
    refine unsent_blank_of_pixels hformat fun y hy x hx hout => ?_
    have := hall y hy x hx
    rw [value_eq h, if_neg (Nat.not_lt.mpr hout)] at this
    exact this.symm
  · intro hblank y hy x hx
    rw [value_eq h]
    split
    next => rfl
    next hout =>
      have hcol : x*(cgaGraphicsBpp video.videoMode).toNat/8 < 80 := by
        obtain ⟨hb,hw⟩ | ⟨hb,hw⟩ := hformat <;> rw [hb] <;> omega
      rw [cgaPixel, hblank _ (Nat.le_of_not_lt hout) (cgaByte_lt hy hcol)]
      have hz : UInt8.toNat 0 = 0 := rfl
      rw [hz, Nat.zero_div, Nat.zero_mod]

/-! The sweep. -/

variable {globals : PktdrvGlobals} {m : SessionMgr} {calls : List (SessionTable × UInt32)}
  {rs : RawSocket} {c : Client} {i : Fin 16} {mss : List (List Mem)}

/-- A graphics sweep with one client: the mode, the cursor at the start of a sweep, a changed
screen, enough updates with sessions in use, and a client that is one of them, controls the
server and receives every frame. -/
structure CgaView (globals : PktdrvGlobals) (mem : FrameBuffer) (video : VideoState)
    (m : SessionMgr) (calls : List (SessionTable × UInt32)) (rs : RawSocket) (c : Client)
    (i : Fin 16) (mss : List (List Mem)) : Prop where
  mode : isCgaGraphicsMode video.videoMode
  cursor : m.cgaNextOffset = 0 ∨ m.cgaNextOffset.toNat = 16000
  changed : cgaChksum mem ≠ m.cgaGraphicsChksum
  live : ∀ call ∈ calls, (pruneSessions call.2 call.1).any Session.inUse
  enough : 11 ≤ calls.length
  known : hostlistFindByMac globals.macAddr.toList c.hosts = some i
  active : c.activeHost = some i
  viewing : ∀ call ∈ calls, Viewing rs (pruneSessions call.2 call.1)
  received : List.Forall₂ (CallReceived globals) (screenUpdates mem video calls m) mss

/-- The client stores graphics frames in `cga_graphics_buffer`. -/
theorem stores_cga (rs : RawSocket) (globals : PktdrvGlobals) :
    Stores rs globals (cgaBody video) RemoteHost.cgaGraphicsBuffer
      (fun rh => rh.cgaGraphicsMode = video.videoMode ∧
        rh.cgaGraphicsBpp = cgaGraphicsBpp video.videoMode ∧
        rh.cgaGraphicsWidth = cgaGraphicsWidth video.videoMode ∧ rh.cgaGraphicsHeight = 200 ∧
        rh.cgaGraphicsValid = true) := by
  intro c f m i offset count hw hf hmine hi hb hcount hfit
  exact ⟨_,processSocketIo_cga hw hf hmine hi hb hcount hfit,
    fun rh => ⟨rfl,⟨rfl,rfl,rfl,rfl,rfl⟩,rfl⟩⟩

/-- After the sweep the client has the picture, and it is the one it serves. -/
theorem CgaView.picture (h : CgaView globals mem video m calls rs c i mss) :
    ∃ rh, HasPicture mem video rh ∧ webSendFrame (receiveAll rs c mss.flatten) =
      some (frameHeader rh ++ List.ofFn rh.cgaGraphicsBuffer) := by
  have hstart : CgaSweeping mem 0 m := by
    refine ⟨?_,by decide,fun _ => h.changed,fun h0 => absurd h0 (Nat.lt_irrefl 0)⟩
    exact h.cursor.imp (fun h0 => by rw [h0]; rfl) fun h16 => ⟨rfl,h16⟩
  obtain ⟨ranges,hsent,htiles,hlen⟩ := (cgaSweep_rule h.mode).tiles_all h.live hstart h.enough
  have hfit : ∀ r ∈ ranges, r.1+r.2 ≤ 16000 := fun r hr => (htiles.within r hr).2
  have hshows := Shows.sweep (stores_cga rs globals) hsent h.viewing hfit h.received
    (shows_nothing h.known)
  obtain ⟨rh,hrh,hq,hshown⟩ := hshows.shown
  have hne : ranges ≠ [] := by
    rintro rfl
    exact absurd hlen (by decide)
  obtain ⟨hmode,hbpp,hwidth,hheight,hvalid⟩ := hq (.inr hne)
  refine ⟨rh,⟨hmode,hbpp,hwidth,hheight,hvalid,fun j => hshown j (.inr ?_)⟩,
    webSendFrame_active (hshows.active.trans h.active) hrh hvalid⟩
  exact htiles.covers (Nat.zero_le _) j.isLt

/-- After a sweep the page shows the screen exactly if the bytes behind the first 16000 are
blank. -/
theorem cgaPicture_shown_iff (h : CgaView globals mem video m calls rs c i mss) :
    ∃ response picture, webSendFrame (receiveAll rs c mss.flatten) = some response ∧
      tick response = some picture ∧ picture.mode = video.videoMode.toNat ∧
      picture.w = (cgaGraphicsWidth video.videoMode).toNat ∧ picture.h = 200 ∧
      ((∀ y < 200, ∀ x < (cgaGraphicsWidth video.videoMode).toNat,
        picture.value y x = cgaPixel mem (cgaGraphicsBpp video.videoMode).toNat x y) ↔
        UnsentBlank mem) := by
  obtain ⟨rh,hpic,hsend⟩ := h.picture
  refine ⟨_,_,hsend,tick_response rh (List.length_ofFn ..),?_,?_,?_,shown_iff_blank hpic⟩
  · rw [hpic.mode]
  · rw [hpic.width]
  · rw [hpic.height]
    rfl

/-! One client, and a screen with a mark in the lower right corner. -/

def graphicsScreen : VideoState := ⟨4,0,25,40,0,0⟩

/-- The server, with a checksum that is not the one of the screen. -/
def screenChanged (mem : FrameBuffer) : SessionMgr :=
  { SessionMgr.init with cgaGraphicsChksum := cgaChksum mem+1 }

def viewerCalls : List (SessionTable × UInt32) := List.replicate 11 (oneViewer,0)

def viewerBuffers (mem : FrameBuffer) : List (List Mem) :=
  received oneServer (screenUpdates mem graphicsScreen viewerCalls (screenChanged mem))

theorem cgaView_oneViewer (mem : FrameBuffer) :
    CgaView oneServer mem graphicsScreen (screenChanged mem) viewerCalls viewerSocket viewerClient 0
      (viewerBuffers mem) where
  mode := by decide
  cursor := .inl rfl
  changed := by
    intro h
    simp [screenChanged] at h
  live := fun call hc => by
    rw [List.eq_of_mem_replicate hc]
    exact oneViewer_live
  enough := by decide
  known := viewerClient_known
  active := rfl
  viewing := fun call hc => by
    rw [List.eq_of_mem_replicate hc]
    exact oneViewer_viewing
  received := received_calls ..

theorem cgaPicture_shown_iff_blank : ∃ response picture,
    webSendFrame (receiveAll viewerSocket viewerClient (viewerBuffers fun _ => 0).flatten) =
      some response ∧ tick response = some picture ∧ picture.mode = graphicsScreen.videoMode.toNat ∧
      picture.w = (cgaGraphicsWidth graphicsScreen.videoMode).toNat ∧ picture.h = 200 ∧
      ((∀ y < 200, ∀ x < (cgaGraphicsWidth graphicsScreen.videoMode).toNat,
        picture.value y x =
          cgaPixel (fun _ => 0) (cgaGraphicsBpp graphicsScreen.videoMode).toNat x y) ↔
        UnsentBlank fun _ => 0) :=
  cgaPicture_shown_iff (cgaView_oneViewer fun _ => 0)

def markedCorner : FrameBuffer := fun j => if j = 16000 then 0xff else 0

/-- The byte that holds pixels 192 to 195 of row 195 is not sent, and the page shows them dark. -/
theorem markedCorner_dark :
    CgaView oneServer markedCorner graphicsScreen (screenChanged markedCorner) viewerCalls
      viewerSocket viewerClient 0 (viewerBuffers markedCorner) ∧
    ∃ response picture,
      webSendFrame (receiveAll viewerSocket viewerClient (viewerBuffers markedCorner).flatten) =
        some response ∧ tick response = some picture ∧ picture.value 195 192 = 0 ∧
      cgaPixel markedCorner 2 192 195 = 3 := by
  have h := cgaView_oneViewer markedCorner
  obtain ⟨rh,hpic,hsend⟩ := h.picture
  refine ⟨h,_,_,hsend,tick_response rh (List.length_ofFn ..),?_,by decide⟩
  exact (value_eq hpic 195 192).trans (if_neg (by decide))

end RmtDos
