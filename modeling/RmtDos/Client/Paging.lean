import RmtDos.Client.DirPage
import RmtDos.Client.RemoteDir
import RmtDos.Server.Receive
import RmtDos.Server.SearchPattern

/-! A directory listing over a link that loses nothing: the server handles every frame of the
client and does its idle step before the client goes on. -/
namespace RmtDos
open Memory Reading Resumable Prog Dos

/-- The server, the frames on their way to the client, and all frames sent so far. -/
structure Link where
  file : FileTransferState
  dos : Machine
  toClient : List (List UInt8)
  traffic : List (List UInt8)

section link
variable (resolve : List UInt8 → Path) (listing : Volume → List UInt8 → List (Vector UInt8 43))
  (globals : PktdrvGlobals)

/-- The frame stands at the start of a receive buffer of the server, and the idle step sends its
answers. -/
def Exchanged (s : Link) (frame : List UInt8) (s' : Link) : Prop :=
  ∃ buffer video now sessions received sent sendBuffer, Arrived frame buffer ∧
    let p := run buffer (protocolProcess globals video now sessions s.file received)
    let frames := (runSends (p.sends ++ sent.flatMap (sendReply globals)) sendBuffer).1
    TsrStep (machine resolve listing) globals.macAddr (p.file,s.dos) (.idle sent)
        (s'.file,s'.dos) ∧
      s'.toClient = s.toClient ++ frames ∧ s'.traffic = s.traffic ++ frame :: frames

/-- The socket of the client. -/
def linkCall (s : Link) : SocketCall → SocketReply → Link → Prop
  | .send frame, r, s' => r = .sent true ∧ Exchanged resolve listing globals s frame s'
  | .recv, r, s' =>
    match s.toClient with
    | [] => r = .timeout ∧ s' = s
    | bs::rest => ∃ buf, Arrived bs buf ∧ r = .received bs.length buf ∧
      s' = { s with toClient := rest }

end link

variable {resolve : List UInt8 → Path} {listing : Volume → List UInt8 → List (Vector UInt8 43)}
  {globals : PktdrvGlobals} {sock : RawSocket} {ethertype : UInt16} {destMacAddr : MacAddr}
  {m : Mem} {g : FileTransferState} {s s' : Link}

/-! The requests as the server sees them. -/

/-- A buffer that starts with a request of the client. -/
structure RequestAt (m : Mem) (sock : RawSocket) (type : PktType) (payload : List UInt8) :
    Prop where
  src : slice m 6 6 = sock.ifAddr.toList
  signature : slice m 14 4 = htonl packetSignature
  session : slice m 18 4 = htonl sock.sessionId
  payloadLen : slice m 22 2 = htons (UInt16.ofNat payload.length)
  type : slice m 24 2 = htons type.code.toUInt16
  payload : slice m 26 payload.length = payload

theorem requestAt_arrived {type : PktType} {payload : List UInt8}
    (h : Arrived (packetFrame sock ethertype destMacAddr type payload) m) :
    RequestAt m sock type payload := by
  have hapart : Apart (packetStores sock ethertype destMacAddr type payload) := by
    simp [Apart, packetStores]
  have hfield {i n : ℕ} {bs : List UInt8}
      (hs : (i,bs) ∈ packetStores sock ethertype destMacAddr type payload) (hn : bs.length = n)
      (hi : i+n ≤ 26+payload.length) : slice m i n = bs := by
    subst hn
    exact Arrived.store h hapart hs hi
  simp only [packetStores] at hfield
  constructor
  case payload => exact hfield (by simp) rfl le_rfl
  all_goals exact hfield (by simp) (by simp) (by omega)

theorem arrayAt_eq {i n : ℕ} {v : Vector UInt8 n} (h : slice m i n = v.toList) :
    arrayAt m i n = v := by
  apply Vector.ext
  intro j hj
  have hget := congrArg (fun bs => bs[j]?) h
  simpa [arrayAt, hj] using hget

/-- The record after the request. -/
def handled (sock : RawSocket) (type : PktType) (payload : List UInt8) (m : Mem)
    (g : FileTransferState) : FileTransferState :=
  fileTransferHandlePacket
    ⟨sock.ifAddr,sock.sessionId,UInt16.ofNat payload.length,payloadAt m type⟩ g

/-- The handler gets the request. -/
theorem RequestAt.handled {type : PktType} {payload : List UInt8}
    (h : RequestAt m sock type payload) (video : VideoState) (now : UInt32)
    (sessions : SessionTable) (received : ℕ) :
    run m (protocolProcess globals video now sessions g received) =
      ⟨sessions,handled sock type payload m g,[],[]⟩ := by
  rw [protocolProcess_file h.signature h.type, packetAt, arrayAt_eq h.src, h.session, h.payloadLen,
    ntohl_htonl, ntohs_htons, RmtDos.handled]

/-! The record of the server while it lists a directory. -/

/-- A listing of the path has begun, and no request is pending. -/
structure ListingFor (sock : RawSocket) (path : Bytes.CString) (g : FileTransferState) : Prop where
  idle : g.pendingOp = .none
  active : g.active = true
  mode : g.mode = .dir
  request : g.dirRequestId = makeRequestId sock
  path : dirPathStr g = path.bytes.take 127

/-- The search pattern of a path, which always fits. -/
def dirPattern (path : Bytes.CString) : List UInt8 :=
  (buildDirPattern 133 (path.bytes.take 127)).getD []

theorem buildDirPattern_dirPattern (path : Bytes.CString) :
    buildDirPattern 133 (path.bytes.take 127) = some (dirPattern path) := by
  rw [dirPattern, buildDirPattern_short (List.length_take_le ..), Option.getD_some]

theorem cstr_terminate_snprintf (n : ℕ) (s : Bytes.CString) :
    Bytes.cstr (Bytes.terminate (Bytes.snprintf n s)).toList = s.bytes.take n := by
  have hcut : Bytes.snprintf n s = Bytes.snprintf n ⟨s.bytes.take n,fun h =>
      s.noNul (List.mem_of_mem_take h)⟩ := by
    simp only [Bytes.snprintf, List.take_take, Nat.min_self]
  have hlen : (s.bytes.take n).length ≤ n := List.length_take_le ..
  rw [hcut, Bytes.terminate_snprintf _ _ hlen, Bytes.cstr_snprintf _ _ hlen]

/-- What the server does with the first request. -/
theorem handle_begin (path : Bytes.CString) (hidle : g.pendingOp = .none)
    (h : RequestAt m sock .dirListBegin (dirListBeginBytes (makeRequestId sock) path)) :
    ListingFor sock path
      (handled sock .dirListBegin (dirListBeginBytes (makeRequestId sock) path) m g) := by
  have hlen : (dirListBeginBytes (makeRequestId sock) path).length = 4+128 := by
    simp [dirListBeginBytes]
  have hpay := h.payload
  rw [hlen, dirListBeginBytes] at hpay
  obtain ⟨hid,hpath⟩ := slice_eq_append hpay (by simp)
  have harr : arrayAt m 30 128 = Bytes.snprintf 127 path := arrayAt_eq hpath
  have hlong : 132 ≤ (UInt16.ofNat (4+128)).toNat := by decide
  rw [handled, hlen, payloadAt, hid, harr, ntohl_htonl, fileTransferHandlePacket,
    if_neg (by simp [hidle]), if_neg (fun hn => hn hlong)]
  exact ⟨hidle,rfl,rfl,rfl,cstr_terminate_snprintf 127 path⟩

/-- A request for a page is taken, and asks for the page. -/
theorem handle_dataReq {path : Bytes.CString} {index : ℕ} (hg : ListingFor sock path g)
    (hindex : index+16 < 65536) (h : RequestAt m sock .dirListDataReq
      (dirListDataReqBytes (makeRequestId sock) (UInt16.ofNat index) 16)) :
    ∃ g', handled sock .dirListDataReq
        (dirListDataReqBytes (makeRequestId sock) (UInt16.ofNat index) 16) m g = g' ∧
      g'.pendingOp = .dirListDataReq ∧
      PageAsked g' (dirPattern path) index ∧ ListingFor sock path g'.taken ∧
      g'.clientMac = sock.ifAddr ∧ g'.sessionId = sock.sessionId ∧
      g'.dirRequestId = makeRequestId sock ∧ g'.dirStartIndex = UInt16.ofNat index := by
  have hlen :
      (dirListDataReqBytes (makeRequestId sock) (UInt16.ofNat index) 16).length = 4+2+2 := by
    simp [dirListDataReqBytes]
  have hpay := h.payload
  rw [hlen, dirListDataReqBytes] at hpay
  obtain ⟨hpay,hmax⟩ := slice_eq_append hpay (by simp)
  obtain ⟨hid,hstart⟩ := slice_eq_append hpay (by simp)
  have hlong : 8 ≤ (UInt16.ofNat (4+2+2)).toNat := by decide
  have hadmitted : ¬ (!g.active ∨ g.mode ≠ .dir ∨ makeRequestId sock ≠ g.dirRequestId) := by
    simp [hg.active, hg.mode, hg.request]
  refine ⟨_,rfl,?_⟩
  rw [handled, hlen, payloadAt, hid, hstart, hmax, ntohl_htonl, ntohs_htons, ntohs_htons,
    fileTransferHandlePacket, if_neg (by simp [hg.idle]), if_neg (fun hn => hn hlong)]
  simp only [if_neg hadmitted]
  refine ⟨trivial,⟨rfl,?_,?_,hindex⟩,⟨rfl,hg.active,hg.mode,hg.request,hg.path⟩,rfl,rfl,hg.request,
    trivial⟩
  · rw [UInt16.toNat_ofNat']
    omega
  · exact hg.path ▸ buildDirPattern_dirPattern path

/-- The last request leaves nothing pending. -/
theorem handle_end {payload : List UInt8} (hidle : g.pendingOp = .none) :
    (handled sock .dirListEnd payload m g).pendingOp = .none := by
  rw [handled, payloadAt, fileTransferHandlePacket, if_neg (by simp [hidle])]
  split
  · exact hidle
  simp only
  split
  · exact hidle
  · exact hidle

/-! The link. -/

/-- All frames that were sent between two states have at most the length of a frame. -/
def Sends (s s' : Link) : Prop :=
  ∃ frames, s'.traffic = s.traffic ++ frames ∧ ∀ f ∈ frames, f.length ≤ ethFrameLen.toNat

theorem Sends.refl (s : Link) : Sends s s := ⟨[],by simp⟩

theorem Sends.trans {s₁ : Link} (h₁ : Sends s s₁) (h₂ : Sends s₁ s') : Sends s s' := by
  obtain ⟨f₁,ht₁,hf₁⟩ := h₁
  obtain ⟨f₂,ht₂,hf₂⟩ := h₂
  refine ⟨f₁ ++ f₂,by rw [ht₂, ht₁, List.append_assoc],fun f hf => ?_⟩
  exact (List.mem_append.mp hf).elim (hf₁ f) (hf₂ f)

theorem length_packetFrame (type : PktType) (payload : List UInt8) :
    (packetFrame sock ethertype destMacAddr type payload).length = 26+payload.length :=
  length_slice ..

/-- What becomes of a request. -/
theorem exchanged_request {type : PktType} {payload : List UInt8} :
    Exchanged resolve listing globals s (packetFrame sock ethertype destMacAddr type payload) s' ↔
      ∃ m sent sendBuffer, Arrived (packetFrame sock ethertype destMacAddr type payload) m ∧
        TsrStep (machine resolve listing) globals.macAddr
            (handled sock type payload m s.file,s.dos) (.idle sent) (s'.file,s'.dos) ∧
          s'.toClient = s.toClient ++ (runSends (sent.flatMap (sendReply globals)) sendBuffer).1 ∧
          s'.traffic = s.traffic ++ packetFrame sock ethertype destMacAddr type payload ::
            (runSends (sent.flatMap (sendReply globals)) sendBuffer).1 := by
  constructor
  · rintro ⟨m,video,now,sessions,received,sent,sendBuffer,harr,hstep⟩
    rw [(requestAt_arrived harr).handled] at hstep
    exact ⟨m,sent,sendBuffer,harr,hstep⟩
  · rintro ⟨m,sent,sendBuffer,harr,hstep⟩
    refine ⟨m,⟨0,0,0,0,0,0⟩,0,sessionMgrInit,0,sent,sendBuffer,harr,?_⟩
    rw [(requestAt_arrived harr).handled]
    exact hstep

/-- A request that leaves no operation pending is not answered. -/
theorem exchanged_quiet {P : FileTransferState → Prop} {type : PktType} {payload : List UInt8}
    (hlen : payload.length ≤ 1488)
    (h : ∀ m, RequestAt m sock type payload →
      (handled sock type payload m s.file).pendingOp = .none ∧
        P (handled sock type payload m s.file)) :
    (∃ s', Exchanged resolve listing globals s
        (packetFrame sock ethertype destMacAddr type payload) s') ∧
      ∀ s', Exchanged resolve listing globals s
          (packetFrame sock ethertype destMacAddr type payload) s' →
        P s'.file ∧ s'.dos = s.dos ∧ s'.toClient = s.toClient ∧ Sends s s' := by
  constructor
  · have harr := arrived_getD (packetFrame sock ethertype destMacAddr type payload)
    have hidle := (h _ (requestAt_arrived harr)).1
    refine ⟨⟨_,s.dos,s.toClient ++ [],_⟩,exchanged_request.mpr ⟨_,[],fun _ => 0,harr,
      (tsrIdle_none hidle).mpr ⟨rfl,rfl⟩,rfl,rfl⟩⟩
  · intro s' hs
    obtain ⟨m,sent,sendBuffer,harr,hidle,hclient,htraffic⟩ := exchanged_request.mp hs
    obtain ⟨hnone,hp⟩ := h m (requestAt_arrived harr)
    obtain ⟨rfl,heq⟩ := (tsrIdle_none hnone).mp hidle
    obtain ⟨hfile,hdos⟩ := Prod.mk.inj heq
    refine ⟨hfile ▸ hp,hdos,?_,_,htraffic,?_⟩
    · rw [hclient]
      exact List.append_nil _
    · intro f hf
      obtain rfl := List.mem_singleton.mp hf
      rw [length_packetFrame]
      exact Nat.add_le_add_left hlen 26

/-- The DTAs of the page at `index`. -/
def pageDtas (index : ℕ) (l : List (Vector UInt8 43)) : List (Vector UInt8 43) :=
  (l.drop index).take 16

theorem length_pageDtas_le (index : ℕ) (l : List (Vector UInt8 43)) :
    (pageDtas index l).length ≤ 16 := List.length_take_le ..

/-- A frame that is the page at `index` in every buffer that it arrives in. -/
structure PageFrame (globals : PktdrvGlobals) (sock : RawSocket) (index : ℕ)
    (l : List (Vector UInt8 43)) (bs : List UInt8) : Prop where
  long : 36 ≤ bs.length
  short : bs.length ≤ ethFrameLen.toNat
  page : ∀ buf, Arrived bs buf → PageAt buf sock.ifAddr globals.macAddr sock.sessionId
    (makeRequestId sock) (UInt16.ofNat index) (pageDtas index l)

theorem pageFrame_pageReply {index : ℕ} {l : List (Vector UInt8 43)}
    (hmac : g.clientMac = sock.ifAddr) (hsession : g.sessionId = sock.sessionId)
    (hrequest : g.dirRequestId = makeRequestId sock)
    (hstart : g.dirStartIndex = UInt16.ofNat index) (sendBuffer : Mem) :
    PageFrame globals sock index l (pktdrvFrame
      (stores sendBuffer ((pageReply globals.macAddr g (pageEntries index 16 l)).stores globals))
      (pageReply globals.macAddr g (pageEntries index 16 l)).length) := by
  have hle := length_pageDtas_le index l
  have hlen := length_pageReply globals g (pageDtas index l) hle
  have heth : ethFrameLen.toNat = 1514 := rfl
  constructor
  · rw [pktdrvFrame, length_slice, pageEntries]
    exact le_trans (show 36 ≤ 60 by decide) (le_max_right ..)
  · rw [pktdrvFrame, length_slice, pageEntries, ← pageDtas, hlen, minEthFrameSize, heth]
    omega
  · intro buf harr
    rw [← hmac, ← hsession, ← hrequest, ← hstart]
    exact pageAt_arrived globals g _ hle harr

/-- A request for a page is answered with the page. -/
theorem exchanged_page {path : Bytes.CString} {index : ℕ} (hs : ListingFor sock path s.file)
    (hindex : index+16 < 65536) :
    (∃ s', Exchanged resolve listing globals s
        (packetFrame sock ethertype destMacAddr .dirListDataReq
          (dirListDataReqBytes (makeRequestId sock) (UInt16.ofNat index) 16)) s') ∧
      ∀ s', Exchanged resolve listing globals s
          (packetFrame sock ethertype destMacAddr .dirListDataReq
            (dirListDataReqBytes (makeRequestId sock) (UInt16.ofNat index) 16)) s' →
        ListingFor sock path s'.file ∧ s'.dos.volume = s.dos.volume ∧ Sends s s' ∧
        ∃ bs, s'.toClient = s.toClient ++ [bs] ∧
          PageFrame globals sock index (listing s.dos.volume (dirPattern path)) bs := by
  have hanswer : ∀ m, RequestAt m sock .dirListDataReq
      (dirListDataReqBytes (makeRequestId sock) (UInt16.ofNat index) 16) →
      ∃ r file dos, TsrStep (machine resolve listing) globals.macAddr
          (handled sock .dirListDataReq
            (dirListDataReqBytes (makeRequestId sock) (UInt16.ofNat index) 16) m s.file,s.dos)
          (.idle [r]) (file,dos) ∧
        ListingFor sock path file ∧ dos.volume = s.dos.volume ∧
        ∀ sendBuffer, PageFrame globals sock index (listing s.dos.volume (dirPattern path))
          (pktdrvFrame (stores sendBuffer (r.stores globals)) r.length) := by
    intro m hm
    obtain ⟨g,hg,hpending,hasked,hlisting,hmac,hsession,hrequest,hstart⟩ :=
      handle_dataReq hs hindex hm
    rw [hg]
    obtain ⟨file,dos,hidle,hkeep,hvolume⟩ := @idle_page resolve listing globals.macAddr _ s.dos _ _
      hpending hasked
    refine ⟨_,file,dos,hidle,?_,hvolume,pageFrame_pageReply hmac hsession hrequest hstart⟩
    rw [eq_of_sansDir hkeep]
    exact ⟨hlisting.idle,hlisting.active,hlisting.mode,hlisting.request,hlisting.path⟩
  constructor
  · have harr := arrived_getD (packetFrame sock ethertype destMacAddr .dirListDataReq
      (dirListDataReqBytes (makeRequestId sock) (UInt16.ofNat index) 16))
    obtain ⟨r,file,dos,hidle,-⟩ := hanswer _ (requestAt_arrived harr)
    exact ⟨⟨file,dos,_,_⟩,exchanged_request.mpr ⟨_,[r],fun _ => 0,harr,hidle,rfl,rfl⟩⟩
  · intro s' h
    obtain ⟨m,sent,sendBuffer,harr,hidle,hclient,htraffic⟩ := exchanged_request.mp h
    obtain ⟨r,file,dos,hidle',hlisting,hvolume,hframe⟩ := hanswer _ (requestAt_arrived harr)
    obtain ⟨rfl,heq⟩ := tsrIdle_unique
      (fun d c r r' d₁ d₂ h h' => Prod.mk.inj (h.symm.trans h')) hidle hidle'
    obtain ⟨hfile,hdos⟩ := Prod.mk.inj heq
    have hone : (runSends ([r].flatMap (sendReply globals)) sendBuffer).1 =
        [pktdrvFrame (stores sendBuffer (r.stores globals)) r.length] := by
      rw [List.flatMap_singleton, sendReply, runSends_one]
    rw [hone] at hclient htraffic
    refine ⟨hfile ▸ hlisting,hdos ▸ hvolume,⟨_,htraffic,?_⟩,_,hclient,hframe sendBuffer⟩
    simp only [List.mem_cons, List.not_mem_nil, or_false, forall_eq_or_imp, forall_eq]
    refine ⟨?_,(hframe sendBuffer).short⟩
    rw [length_packetFrame]
    simp [dirListDataReqBytes, ethFrameLen]

/-! The client. -/

/-- A request that the server handles is sent. -/
theorem ensures_sendPacket {P : Link → Prop} {type : PktType} {payload : List UInt8}
    (h : (∃ s', Exchanged resolve listing globals s
        (packetFrame sock ethertype destMacAddr type payload) s') ∧
      ∀ s', Exchanged resolve listing globals s
        (packetFrame sock ethertype destMacAddr type payload) s' → P s') :
    Ensures (linkCall resolve listing globals) (sendPacket sock ethertype destMacAddr type payload)
      () s fun _ ok _ s' => ok = true ∧ P s' := by
  obtain ⟨⟨s₁,hs₁⟩,hp⟩ := h
  apply ensures_call
  · exact ⟨_,s₁,rfl,hs₁⟩
  · rintro r s' ⟨rfl,hs'⟩
    exact ensures_done ⟨rfl,hp s' hs'⟩

theorem linkCall_recv {r : SocketReply} {bs : List UInt8} {rest : List (List UInt8)}
    (h : s.toClient = bs::rest) :
    linkCall resolve listing globals s .recv r s' ↔
      ∃ buf, Arrived bs buf ∧ r = .received bs.length buf ∧ s' = { s with toClient := rest } := by
  simp only [linkCall, h]

/-- The page that has arrived is taken. -/
theorem ensures_awaitDirPage {fuel index maxEntries : ℕ} {l : List (Vector UInt8 43)}
    {bs : List UInt8} (hfuel : 0 < fuel) (hclient : s.toClient = [bs])
    (hbs : PageFrame globals sock index l bs) (hmax : 16 ≤ maxEntries) :
    Ensures (linkCall resolve listing globals)
      (awaitDirPage sock globals.macAddr (makeRequestId sock) (UInt16.ofNat index) maxEntries fuel)
      () s fun _ r _ s' =>
        r = some ((pageDtas index l).map remoteDirEntry) ∧ s' = { s with toClient := [] } := by
  obtain ⟨fuel,rfl⟩ := Nat.exists_eq_succ_of_ne_zero hfuel.ne'
  have hle := length_pageDtas_le index l
  apply ensures_call
  · exact ⟨_,_,(linkCall_recv hclient).mpr ⟨_,arrived_getD bs,rfl,rfl⟩⟩
  · intro r s' h
    obtain ⟨buf,harr,rfl,rfl⟩ := (linkCall_recv hclient).mp h
    have hrun := run_recvDirPage_pageAt (pageDtas index l) hle (hle.trans hmax) hbs.long
      (hbs.page buf harr)
    simp only [done_bind, hrun]
    exact ensures_done ⟨rfl,rfl⟩

/-- A listing of the path is under way, and all answers have been read. -/
structure Fetching (sock : RawSocket) (path : Bytes.CString) (v : Volume) (s : Link) : Prop where
  listing : ListingFor sock path s.file
  volume : s.dos.volume = v
  read : s.toClient = []

theorem ensures_fetchDirPage {fuel index maxEntries attempts : ℕ} {path : Bytes.CString}
    {v : Volume} (hs : Fetching sock path v s) (hfuel : 0 < fuel) (hindex : index+16 < 65536)
    (hmax : 16 ≤ maxEntries) :
    Ensures (linkCall resolve listing globals)
      (fetchDirPage sock ethertype globals.macAddr fuel (UInt16.ofNat index) maxEntries
        (attempts+1)) () s fun _ r _ s' =>
        r = some ((pageDtas index (listing v (dirPattern path))).map remoteDirEntry) ∧
          Fetching sock path v s' ∧ Sends s s' := by
  obtain ⟨hl,rfl,hread⟩ := hs
  apply Ensures.bind (ensures_sendPacket (exchanged_page hl hindex))
  rintro _ _ _ s₁ ⟨rfl,hl₁,hv₁,hsent,bs,hclient,hbs⟩
  rw [hread] at hclient
  apply Ensures.bind (ensures_awaitDirPage hfuel hclient hbs hmax)
  rintro _ _ _ s₂ ⟨rfl,rfl⟩
  exact ensures_done ⟨rfl,⟨hl₁,hv₁,rfl⟩,hsent⟩

/-- With `k` full pages read, the loop reads the rest. -/
theorem ensures_fetchDirPages {fuel pages k : ℕ} {path : Bytes.CString} {v : Volume}
    {l : List (Vector UInt8 43)} (hl : listing v (dirPattern path) = l)
    (hs : Fetching sock path v s) (hfuel : 0 < fuel) (hpages : 16 < pages+k) (hk : k ≤ 16)
    (hfull : 16*k ≤ l.length) :
    Ensures (linkCall resolve listing globals)
      (fetchDirPages sock ethertype globals.macAddr fuel remoteDirMaxEntries pages
        ((l.take (16*k)).map remoteDirEntry)) () s fun _ r _ s' =>
        r = some ((l.take 256).map remoteDirEntry) ∧ Fetching sock path v s' ∧ Sends s s' := by
  induction pages generalizing k s with
  | zero => omega
  | succ pages ih =>
    have hcount : ((l.take (16*k)).map remoteDirEntry).length = 16*k := by
      rw [List.length_map, List.length_take, Nat.min_eq_left hfull]
    rw [fetchDirPages, hcount]
    by_cases hmore : 16*k < remoteDirMaxEntries
    · rw [if_pos hmore]
      rw [remoteDirMaxEntries] at hmore
      have hmax : 16 ≤ remoteDirMaxEntries-16*k := by
        rw [remoteDirMaxEntries]
        omega
      apply Ensures.bind (ensures_fetchDirPage hs hfuel (by omega) hmax)
      rintro _ _ _ s₁ ⟨rfl,hs₁,hsent⟩
      have happend : l.take (16*k) ++ pageDtas (16*k) l = l.take (16*(k+1)) := by
        rw [Nat.mul_succ, List.take_add, pageDtas]
      simp only [hl, List.length_map, ← List.map_append, happend]
      by_cases hshort : (pageDtas (16*k) l).length < remoteDirPageEntries
      · rw [if_pos hshort]
        -- a short page is the last one
        rw [pageDtas, List.length_take, List.length_drop, remoteDirPageEntries] at hshort
        have hall : l.take (16*(k+1)) = l.take 256 := by
          rw [List.take_of_length_le (by omega), List.take_of_length_le (by omega)]
        rw [hall]
        exact ensures_done ⟨rfl,hs₁,hsent⟩
      · rw [if_neg hshort]
        rw [pageDtas, List.length_take, List.length_drop, remoteDirPageEntries] at hshort
        refine (ih hs₁ (by omega) (by omega) (by omega)).imp ?_
        rintro _ _ _ s₂ ⟨rfl,hs₂,hsent₂⟩
        exact ⟨rfl,hs₂,hsent.trans hsent₂⟩
    · rw [if_neg hmore]
      rw [remoteDirMaxEntries] at hmore
      have hend : 16*k = 256 := by omega
      rw [hend]
      exact ensures_done ⟨rfl,hs,Sends.refl s⟩

end RmtDos
