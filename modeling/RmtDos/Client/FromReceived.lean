import RmtDos.Client.Responses

/-! What the client's parsers do with a frame that is shorter than it says. Each reads on in its
buffer, so its result depends on the received bytes only if the data it accepts lie within
them. -/
namespace RmtDos
open Memory Reading

/-- `BUF_SIZE`, the length of every receive buffer. -/
def bufSize : ℕ := 1514

/-- The parser has one result on all buffers that begin with the received bytes of `m`, and
reads none of them past its end. -/
def FromReceived {α : Type} (p : Reading FrameField α) (received : ℕ) (m : Mem) : Prop :=
  ∀ m', AgreeBelow received m m' → run m' p = run m p ∧ ∀ x ∈ trace m' p, x.2 < bufSize

/-- `ntohs` of the two bytes at a position of the buffer. -/
abbrev at16 (m : Mem) (i : ℕ) : UInt16 := ntohs (slice m i 2)

/-- The checks of the screen parsers: a known host, and data that fit into its buffer. -/
def ScreenAccepted (hosts : HostList) (size offsetAt : ℕ) (m : Mem) : Prop :=
  hostlistFindByMac (slice m 6 6) hosts ≠ none ∧
    (at16 m (offsetAt+2)).toNat+(at16 m offsetAt).toNat ≤ size

/-- The frame holds the data it says if the checks let it pass; where its headers are cut, no
way to complete them passes the checks. -/
def ScreenWhole (hosts : HostList) (size offsetAt received : ℕ) (m : Mem) : Prop :=
  if offsetAt+4 ≤ received then
    ScreenAccepted hosts size offsetAt m → offsetAt+4+(at16 m (offsetAt+2)).toNat ≤ received
  else ∀ m', AgreeBelow received m m' → ¬ ScreenAccepted hosts size offsetAt m'

variable {hosts : HostList} {size offsetAt received : ℕ} {m m' : Mem}

theorem copyInto_apply {n : ℕ} (buf : Fin n → UInt8) {offset k : ℕ} {data : List UInt8} {i : Fin n}
    (hk : k < data.length) (hi : i.val = offset+k) : copyInto buf offset data i = data[k] := by
  have hle : offset ≤ i.val := by omega
  have hsub : i.val-offset = k := by omega
  simp [copyInto, hle, hsub, hk]

theorem copyInto_nil {n : ℕ} (buf : Fin n → UInt8) (offset : ℕ) : copyInto buf offset [] = buf := by
  funext i
  simp [copyInto]

theorem ScreenAccepted.congr (h : AgreeBelow received m m') (ho : 12 ≤ offsetAt)
    (hr : offsetAt+4 ≤ received) :
    ScreenAccepted hosts size offsetAt m' ↔ ScreenAccepted hosts size offsetAt m := by
  unfold ScreenAccepted at16
  have hmac : slice m 6 6 = slice m' 6 6 := h.slice (by omega)
  have hoff : slice m offsetAt 2 = slice m' offsetAt 2 := h.slice (by omega)
  have hcount : slice m (offsetAt+2) 2 = slice m' (offsetAt+2) 2 := h.slice (by omega)
  rw [hmac, hoff, hcount]

/-- A frame is whole if the data end within it however it is completed. -/
theorem screenWhole_iff (ho : 12 ≤ offsetAt) :
    ScreenWhole hosts size offsetAt received m ↔ ∀ m', AgreeBelow received m m' →
      ScreenAccepted hosts size offsetAt m' →
        offsetAt+4+(at16 m' (offsetAt+2)).toNat ≤ received := by
  unfold ScreenWhole
  split
  next hr =>
    constructor
    · intro hw m' hm ha
      have hcount : slice m (offsetAt+2) 2 = slice m' (offsetAt+2) 2 := hm.slice (by omega)
      rw [at16, ← hcount]
      exact hw ((ScreenAccepted.congr hm ho hr).mp ha)
    · exact fun hw => hw m (.refl _ m)
  next hr =>
    constructor
    · exact fun hw m' hm ha => absurd ha (hw m' hm)
    · intro hw m' hm ha
      have := hw m' hm ha
      omega

theorem run_incoming_rejected (h : ¬ ScreenAccepted hosts size offsetAt m) :
    run m (incomingScreen hosts size offsetAt) = none := by
  simp only [incomingScreen, run_bind, run_bytes]
  cases hf : hostlistFindByMac (slice m 6 6) hosts with
  | none => rfl
  | some i =>
    have hlt : size < (at16 m (offsetAt+2)).toNat+(at16 m offsetAt).toNat := by
      by_contra hle
      exact h ⟨by simp [hf],by omega⟩
    simp only [run_bind, run_be16, if_pos hlt, run_pure]

theorem run_incoming_accepted (h : ScreenAccepted hosts size offsetAt m) :
    ∃ i, hostlistFindByMac (slice m 6 6) hosts = some i ∧
      run m (incomingScreen hosts size offsetAt) = some (i,at16 m offsetAt,
        slice m (offsetAt+4) (at16 m (offsetAt+2)).toNat) := by
  obtain ⟨hf,hle⟩ := h
  obtain ⟨i,hi⟩ := Option.ne_none_iff_exists'.mp hf
  refine ⟨i,hi,?_⟩
  simp only [incomingScreen, run_bind, run_bytes, hi, run_be16, if_neg (Nat.not_lt.mpr hle),
    run_pure]

theorem trace_incoming {x : FrameField × ℕ} (ho : 12 ≤ offsetAt)
    (hx : x ∈ trace m (incomingScreen hosts size offsetAt)) :
    x.2 < offsetAt+4 ∨ (ScreenAccepted hosts size offsetAt m ∧
      x.2 < offsetAt+4+(at16 m (offsetAt+2)).toNat) := by
  simp only [incomingScreen, trace_bind, List.mem_append, mem_trace_bytes, run_bytes] at hx
  obtain ⟨-,-,hlt⟩ | hx := hx
  · exact .inl (by omega)
  cases hf : hostlistFindByMac (slice m 6 6) hosts with
  | none => simp [hf] at hx
  | some i =>
    simp only [hf, trace_bind, trace_be16, run_be16, trace_ite, List.mem_append, List.mem_cons,
      List.not_mem_nil, or_false] at hx
    obtain (rfl | rfl) | (rfl | rfl) | hx := hx
    iterate 4 exact .inl (by simp)
    split at hx
    next => simp at hx
    next hle =>
      simp only [trace_pure, List.append_nil, mem_trace_bytes] at hx
      exact .inr ⟨⟨by simp [hf],Nat.le_of_not_lt hle⟩,hx.2.2⟩

/-- A whole frame is parsed from its received bytes, if the parser reads only headers after the
common part. -/
theorem fromReceived_of_whole {α : Type}
    {k : Option (Fin 16 × UInt16 × List UInt8) → Reading FrameField α} {a : α}
    (hnone : k none = pure a) (hsome : ∀ m r, ∀ x ∈ trace m (k (some r)), x.2 < offsetAt+4)
    (ho : 12 ≤ offsetAt) (hob : offsetAt+4 ≤ bufSize) (hr : received ≤ bufSize)
    (hw : ScreenWhole hosts size offsetAt received m) :
    FromReceived (incomingScreen hosts size offsetAt >>= k) received m := by
  rw [screenWhole_iff ho] at hw
  have hrej (m' : Mem) (ha : ¬ ScreenAccepted hosts size offsetAt m') :
      run m' (incomingScreen hosts size offsetAt >>= k) = a ∧
        ∀ x ∈ trace m' (incomingScreen hosts size offsetAt >>= k), x.2 < offsetAt+4 := by
    simp only [run_bind, trace_bind, run_incoming_rejected ha, hnone, run_pure, trace_pure,
      List.append_nil, true_and]
    exact fun x hx => (trace_incoming ho hx).resolve_right fun h => ha h.1
  have hacc (m' : Mem) (hm : AgreeBelow received m m') (ha : ScreenAccepted hosts size offsetAt m') :
      ∀ x ∈ trace m' (incomingScreen hosts size offsetAt >>= k), x.2 < received := by
    have hlen := hw m' hm ha
    obtain ⟨i,-,hrun⟩ := run_incoming_accepted ha
    intro x hx
    rw [trace_bind, List.mem_append, hrun] at hx
    obtain hx | hx := hx
    · obtain hlt | ⟨-,hlt⟩ := trace_incoming ho hx <;> omega
    · have := hsome m' _ x hx
      omega
  intro m' hm
  constructor
  · refine run_agree _ a (fun m'' hm' => ?_) hm
    by_cases ha : ScreenAccepted hosts size offsetAt m''
    · exact .inr (hacc m'' hm' ha)
    · exact .inl (hrej m'' ha).1
  · intro x hx
    by_cases ha : ScreenAccepted hosts size offsetAt m'
    · exact (hacc m' hm ha x hx).trans_le hr
    · exact ((hrej m' ha).2 x hx).trans_le hob

theorem succ_ne (b : UInt8) : b+1 ≠ b := by
  intro h
  have := congrArg UInt8.toNat h
  rw [UInt8.toNat_add] at this
  have hb := b.toNat_lt
  have h1 : UInt8.toNat 1 = 1 := rfl
  omega

/-- Data that reach behind the received bytes can be replaced by others. -/
theorem exists_differing (ho : 12 ≤ offsetAt) (ha : ScreenAccepted hosts size offsetAt m)
    (hr : received < offsetAt+4+(at16 m (offsetAt+2)).toNat) (buf : Fin size → UInt8) :
    ∃ m', AgreeBelow received m m' ∧ slice m' 6 6 = slice m 6 6 ∧
      (ScreenAccepted hosts size offsetAt m' →
        copyInto buf (at16 m' offsetAt).toNat
            (slice m' (offsetAt+4) (at16 m' (offsetAt+2)).toNat) ≠
          copyInto buf (at16 m offsetAt).toNat
            (slice m (offsetAt+4) (at16 m (offsetAt+2)).toNat)) := by
  obtain hc | hc := Nat.eq_zero_or_pos (at16 m (offsetAt+2)).toNat
  · -- no data: the count, which was not received, becomes 1
    let b : UInt8 := if h : (at16 m offsetAt).toNat < size then buf ⟨_,h⟩+1 else 0
    let m' := Function.update (Function.update m (offsetAt+3) 1) (offsetAt+4) b
    have hm' : AgreeBelow (offsetAt+3) m m' :=
      (agreeBelow_update m 1 le_rfl).trans (agreeBelow_update _ b (by omega))
    have hoff : at16 m' offsetAt = at16 m offsetAt := by
      rw [at16, at16, hm'.slice (by omega)]
    have hcount : (at16 m' (offsetAt+2)).toNat = 1 := by
      rw [toNat_ntohs_slice] at hc ⊢
      have h2 : m' (offsetAt+2) = m (offsetAt+2) := (hm' _ (by omega)).symm
      have h3 : m' (offsetAt+2+1) = 1 := by simp [m', add_assoc]
      have h1 : UInt8.toNat 1 = 1 := rfl
      rw [h2, h3, h1]
      omega
    refine ⟨m',fun i hi => hm' i (by omega),(hm'.slice (by omega)).symm,fun ha' => ?_⟩
    have hlt : (at16 m offsetAt).toNat < size := by
      have := ha'.2
      rw [hoff] at this
      omega
    rw [hoff, hcount, hc, slice_zero, copyInto_nil]
    intro heq
    have hidx := congrFun heq ⟨_,hlt⟩
    rw [copyInto_apply buf (by simp : 0 < _) (by simp), getElem_slice] at hidx
    have hb : m' (offsetAt+4+0) = buf ⟨_,hlt⟩+1 := by simp [m', b, hlt]
    exact succ_ne _ (hb.symm.trans hidx)
  · -- the last byte of the data was not received
    let last := offsetAt+4+((at16 m (offsetAt+2)).toNat-1)
    let m' := Function.update m last (m last+1)
    have hm' : AgreeBelow (offsetAt+4) m m' := agreeBelow_update _ _ (by omega)
    have hoff : at16 m' offsetAt = at16 m offsetAt := by
      rw [at16, at16, hm'.slice (by omega)]
    have hcount : at16 m' (offsetAt+2) = at16 m (offsetAt+2) := by
      rw [at16, at16, hm'.slice (by omega)]
    refine ⟨m',agreeBelow_update _ _ (by omega),(hm'.slice (by omega)).symm,fun _ => ?_⟩
    rw [hoff, hcount]
    have hle := ha.2
    have hlt : (at16 m offsetAt).toNat+((at16 m (offsetAt+2)).toNat-1) < size := by omega
    have hk : (at16 m (offsetAt+2)).toNat-1 < (at16 m (offsetAt+2)).toNat := by omega
    intro heq
    have hidx := congrFun heq ⟨_,hlt⟩
    rw [copyInto_apply buf (by simpa using hk) rfl, copyInto_apply buf (by simpa using hk) rfl,
      getElem_slice, getElem_slice] at hidx
    have hb : m' last = m last+1 := by simp [m']
    exact succ_ne _ (hb.symm.trans hidx)

/-- A parser whose results show the buffer of the host reads whole frames only. -/
theorem whole_of_fromReceived {α : Type}
    {k : Option (Fin 16 × UInt16 × List UInt8) → Reading FrameField α} (ho : 12 ≤ offsetAt)
    (hrej : ∀ (i : Fin 16) rh, hosts.slot i = some rh → ∀ m m' offset data,
      run m (k (some (i,offset,data))) ≠ run m' (k none))
    (hvis : ∀ (i : Fin 16) rh, hosts.slot i = some rh → ∃ buf : Fin size → UInt8,
      ∀ m m' offset offset' data data',
        run m (k (some (i,offset,data))) = run m' (k (some (i,offset',data'))) →
          copyInto buf offset.toNat data = copyInto buf offset'.toNat data')
    (h : FromReceived (incomingScreen hosts size offsetAt >>= k) received m) :
    ScreenWhole hosts size offsetAt received m := by
  rw [screenWhole_iff ho]
  intro m₁ hm₁ ha₁
  by_contra hlt
  obtain ⟨i,hi,hrun₁⟩ := run_incoming_accepted ha₁
  obtain ⟨rh,hrh⟩ := hostlistFindByMac_some hi
  obtain ⟨buf,hbuf⟩ := hvis i rh hrh
  obtain ⟨m₂,hm₂,hmac,hne⟩ := exists_differing ho ha₁ (Nat.lt_of_not_le hlt) buf
  have hsame := (h m₂ (hm₁.trans hm₂)).1.trans (h m₁ hm₁).1.symm
  rw [run_bind, run_bind, hrun₁] at hsame
  by_cases ha₂ : ScreenAccepted hosts size offsetAt m₂
  · obtain ⟨j,hj,hrun₂⟩ := run_incoming_accepted ha₂
    rw [hmac, hi] at hj
    obtain rfl := Option.some.inj hj
    rw [hrun₂] at hsame
    exact hne ha₂ (hbuf _ _ _ _ _ _ hsame)
  · rw [run_incoming_rejected ha₂] at hsame
    exact hrej i rh hrh _ _ _ _ hsame.symm

theorem videoText_fromReceived_iff (hr : received ≤ bufSize) :
    FromReceived (processIncomingVideoText hosts) received m ↔
      ScreenWhole hosts 32768 30 received m := by
  refine ⟨whole_of_fromReceived (by decide) ?_ ?_,
    fromReceived_of_whole rfl ?_ (by decide) (by decide) hr⟩
  · intro i rh _ m m' offset data h
    simpa using congrArg Prod.snd h
  · intro i rh hrh
    refine ⟨rh.videoTextBuffer,fun m m' offset offset' data data' h => ?_⟩
    have hhost := congrArg (fun r => r.1.slot i) h
    simp only [run_bind, run_pure, slot_updateHost_self hrh, Option.some.injEq] at hhost
    exact congrArg RemoteHost.videoTextBuffer hhost
  · intro m r x hx
    simp only [trace_bind, trace_byte, trace_pure, List.append_nil, List.cons_append,
      List.nil_append, List.mem_cons, List.not_mem_nil, or_false] at hx
    obtain rfl | rfl | rfl | rfl := hx <;> simp

theorem cgaGraphics_fromReceived_iff (hr : received ≤ bufSize) :
    FromReceived (processIncomingCgaGraphics hosts) received m ↔
      ScreenWhole hosts 16000 32 received m := by
  refine ⟨whole_of_fromReceived (by decide) ?_ ?_,
    fromReceived_of_whole rfl ?_ (by decide) (by decide) hr⟩
  · intro i rh hrh m m' offset data h
    have hhost := congrArg (fun hosts => hosts.slot i) h
    simp only [run_bind, run_pure, slot_updateHost_self hrh, hrh, Option.some.injEq] at hhost
    have hgen := congrArg RemoteHost.cgaGraphicsGeneration hhost
    simp at hgen
  · intro i rh hrh
    refine ⟨rh.cgaGraphicsBuffer,fun m m' offset offset' data data' h => ?_⟩
    have hhost := congrArg (fun hosts => hosts.slot i) h
    simp only [run_bind, run_pure, slot_updateHost_self hrh, Option.some.injEq] at hhost
    exact congrArg RemoteHost.cgaGraphicsBuffer hhost
  · intro m r x hx
    simp only [trace_bind, trace_byte, trace_be16, trace_pure, List.append_nil, List.cons_append,
      List.nil_append, List.mem_cons, List.not_mem_nil, or_false] at hx
    obtain rfl | rfl | rfl | rfl | rfl | rfl := hx <;> simp

/-! The receive loops of the file client. -/

abbrev at32 (m : Mem) (i : ℕ) : UInt32 := ntohl (slice m i 4)

variable {sock : RawSocket} {destMacAddr : MacAddr}

theorem trace_fromServer {pktType : UInt16} {x : FrameField × ℕ}
    (hx : x ∈ trace m (fromServer sock destMacAddr pktType)) : x.2 < 26 := by
  simp only [fromServer, trace_bind, trace_be32, trace_be16, trace_pure, List.mem_append,
    mem_trace_bytes, List.mem_cons, List.not_mem_nil, or_false] at hx
  obtain ⟨-,-,h⟩ | ⟨-,-,h⟩ | h | h | h := hx
  · omega
  · omega
  · obtain rfl | rfl | rfl | rfl := h <;> simp
  · obtain rfl | rfl | rfl | rfl := h <;> simp
  · obtain rfl | rfl := h <;> simp

/-- The checks of `recv_file_get_data` on the headers. -/
structure FileDataAccepted (sock : RawSocket) (destMacAddr : MacAddr) (transferId offset : UInt32)
    (m : Mem) : Prop where
  mine : run m (fromServer sock destMacAddr 15) = true
  payloadLen : 12 ≤ at16 m 22
  transferId : at32 m 26 = transferId
  offset : at32 m 30 = offset
  status : at16 m 36 = 0
  chunk : (at16 m 34).toNat ≤ 512
  declared : 12+(at16 m 34).toNat ≤ (at16 m 22).toNat

/-- The frame holds the data it says if the checks let it pass. -/
def FileDataWhole (sock : RawSocket) (destMacAddr : MacAddr) (transferId offset : UInt32)
    (received : ℕ) (m : Mem) : Prop :=
  38 ≤ received → FileDataAccepted sock destMacAddr transferId offset m →
    38+(at16 m 34).toNat ≤ received

variable {transferId offset : UInt32}

theorem fileGetData_short (h : received < 38) :
    run m (recvFileGetData sock destMacAddr transferId offset received) = .ignored ∧
      trace m (recvFileGetData sock destMacAddr transferId offset received) = [] := by
  simp only [recvFileGetData, if_pos h, run_pure, trace_pure, and_self]

theorem fileGetData_accepted (h : 38 ≤ received)
    (ha : FileDataAccepted sock destMacAddr transferId offset m) :
    run m (recvFileGetData sock destMacAddr transferId offset received) =
      .ok (slice m 38 (at16 m 34).toNat) := by
  have hpay : ¬ at16 m 22 < 12 := UInt16.not_lt.mpr ha.payloadLen
  have hcount := Nat.not_lt.mpr ha.chunk
  have hlen := Nat.not_lt.mpr ha.declared
  simp only [recvFileGetData, if_neg (Nat.not_lt.mpr h), run_bind, run_be16, run_be32, ha.mine,
    hpay, ha.transferId, ha.offset, ha.status, hcount, hlen, run_bytes, run_pure,
    Bool.true_eq_false, ne_eq, not_true_eq_false, or_self, if_false]

/-- The reads of `recv_file_get_data`: the headers, and the data of an accepted frame. -/
theorem trace_fileGetData {x : FrameField × ℕ}
    (hx : x ∈ trace m (recvFileGetData sock destMacAddr transferId offset received)) :
    x.2 < 38 ∨ (FileDataAccepted sock destMacAddr transferId offset m ∧
      x.2 < 38+(at16 m 34).toNat) := by
  unfold recvFileGetData at hx
  split at hx
  next => simp at hx
  simp only [trace_bind, trace_be16, trace_be32, run_be16, run_be32, List.mem_append,
    List.mem_cons, List.not_mem_nil, or_false] at hx
  obtain h | h | h | h | h | hx := hx
  · exact .inl (by obtain rfl | rfl := h <;> simp)
  · exact .inl (by obtain rfl | rfl := h <;> simp)
  · exact .inl ((trace_fromServer h).trans (by decide))
  · exact .inl (by obtain rfl | rfl | rfl | rfl := h <;> simp)
  · exact .inl (by obtain rfl | rfl | rfl | rfl := h <;> simp)
  split at hx
  next => simp at hx
  next hhead =>
  simp only [trace_bind, trace_be16, run_be16, List.mem_append, List.mem_cons, List.not_mem_nil,
    or_false] at hx
  obtain h | hx := hx
  · exact .inl (by obtain rfl | rfl := h <;> simp)
  split at hx
  next => simp at hx
  next hbody =>
  simp only [trace_bind, trace_pure, List.append_nil, mem_trace_bytes] at hx
  simp only [not_or, ne_eq, not_not, Bool.not_eq_false] at hhead hbody
  obtain ⟨hmine,hpay,htid,hoff⟩ := hhead
  obtain ⟨hstatus,hchunk,hdecl⟩ := hbody
  exact .inr ⟨⟨hmine,UInt16.not_lt.mp hpay,htid,hoff,hstatus,Nat.le_of_not_lt hchunk,
    Nat.le_of_not_lt hdecl⟩,hx.2.2⟩

theorem FileDataAccepted.congr (h : AgreeBelow 38 m m')
    (ha : FileDataAccepted sock destMacAddr transferId offset m) :
    FileDataAccepted sock destMacAddr transferId offset m' where
  mine := by
    rw [← ha.mine]
    refine (run_congr _ fun x hx => ?_).1.symm
    exact h x.2 ((trace_fromServer hx).trans (by decide))
  payloadLen := by
    rw [at16, ← h.slice (by decide)]
    exact ha.payloadLen
  transferId := by
    rw [at32, ← h.slice (by decide)]
    exact ha.transferId
  offset := by
    rw [at32, ← h.slice (by decide)]
    exact ha.offset
  status := by
    rw [at16, ← h.slice (by decide)]
    exact ha.status
  chunk := by
    rw [at16, ← h.slice (by decide)]
    exact ha.chunk
  declared := by
    rw [at16, at16, ← h.slice (by decide), ← h.slice (by decide)]
    exact ha.declared

theorem fileGetData_fromReceived_iff (hr : received ≤ bufSize) :
    FromReceived (recvFileGetData sock destMacAddr transferId offset received) received m ↔
      FileDataWhole sock destMacAddr transferId offset received m := by
  constructor
  · intro h hlong ha
    by_contra hlt
    -- the last byte of the data was not received
    have hpos : 0 < (at16 m 34).toNat := by omega
    obtain ⟨last,hlast⟩ : ∃ last, last = 38+((at16 m 34).toNat-1) := ⟨_,rfl⟩
    let m' := Function.update m last (m last+1)
    have hm : AgreeBelow 38 m m' := agreeBelow_update _ _ (by omega)
    have hsame := (h m' (agreeBelow_update _ _ (by omega))).1
    have hcount : at16 m' 34 = at16 m 34 := by
      rw [at16, at16, hm.slice (by decide)]
    rw [fileGetData_accepted hlong ha, fileGetData_accepted hlong (ha.congr hm), hcount,
      Received.ok.injEq] at hsame
    have hdata := slice_eq_iff.mp hsame last (by omega) (by omega)
    have hb : m' last = m last+1 := by simp [m']
    exact succ_ne _ (hb.symm.trans hdata)
  · intro hw m' hm
    have hin : ∀ x ∈ trace m (recvFileGetData sock destMacAddr transferId offset received),
        x.2 < received := by
      intro x hx
      by_cases hlong : 38 ≤ received
      · obtain h | ⟨ha,h⟩ := trace_fileGetData hx
        · omega
        · have := hw hlong ha
          omega
      · rw [(fileGetData_short (by omega)).2] at hx
        simp at hx
    obtain ⟨hrun,htrace⟩ := run_congr _ fun x hx => hm x.2 (hin x hx)
    exact ⟨hrun.symm,fun x hx => (hin x (htrace ▸ hx)).trans_le hr⟩

/-- The checks of `recv_dir_page` on the headers. -/
structure DirPageAccepted (sock : RawSocket) (destMacAddr : MacAddr) (requestId : UInt32)
    (startIndex : UInt16) (maxEntries : ℕ) (m : Mem) : Prop where
  mine : run m (fromServer sock destMacAddr 19) = true
  payloadLen : 10 ≤ at16 m 22
  requestId : at32 m 26 = requestId
  startIndex : at16 m 30 = startIndex
  status : at16 m 34 = 0
  page : (at16 m 32).toNat ≤ remoteDirPageEntries
  room : (at16 m 32).toNat ≤ maxEntries
  declared : 10+(at16 m 32).toNat*74 ≤ (at16 m 22).toNat

/-- Every name of the page ends within the frame if the checks let it pass. -/
def DirPageWhole (sock : RawSocket) (destMacAddr : MacAddr) (requestId : UInt32)
    (startIndex : UInt16) (maxEntries received : ℕ) (m : Mem) : Prop :=
  36 ≤ received → DirPageAccepted sock destMacAddr requestId startIndex maxEntries m →
    ∀ j < (at16 m 32).toNat, ∃ i, 46+74*j ≤ i ∧ i < received ∧ m i = 0

variable {requestId : UInt32} {startIndex : UInt16} {maxEntries mapped : ℕ}

theorem run_cstring_succ (i n : ℕ) : run m (cstring i (n+1)) =
    if m i = 0 then some [] else (run m (cstring (i+1) n)).map (m i :: ·) := by
  rw [cstring, run_bind]
  change run m (if m i = 0 then _ else _) = _
  split
  next => rfl
  next => rw [run_bind, run_pure, run_byte]

theorem trace_cstring_succ (i n : ℕ) : trace m (cstring i (n+1)) =
    (.data,i) :: if m i = 0 then [] else trace m (cstring (i+1) n) := by
  rw [cstring, trace_bind]
  change (FrameField.data,i) :: trace m (if m i = 0 then _ else _) = _
  split
  next => rfl
  next => rw [trace_bind, trace_pure, List.append_nil]

theorem trace_cstring {i n : ℕ} {x : FrameField × ℕ} (hx : x ∈ trace m (cstring i n)) :
    i ≤ x.2 ∧ ∀ j, i ≤ j → j < x.2 → m j ≠ 0 := by
  induction n generalizing i with
  | zero => simp [cstring] at hx
  | succ n ih =>
    rw [trace_cstring_succ, List.mem_cons] at hx
    obtain rfl | hx := hx
    · exact ⟨le_rfl,fun j hl hu => absurd hu (Nat.not_lt.mpr hl)⟩
    split at hx
    next => simp at hx
    next hb =>
      obtain ⟨hle,hall⟩ := ih hx
      refine ⟨by omega,fun j hl hu => ?_⟩
      obtain rfl | hlt := Nat.eq_or_lt_of_le hl
      · exact hb
      · exact hall j hlt hu

/-- A string is read on while no byte is zero. -/
theorem mem_trace_cstring {i n q : ℕ} (hl : i ≤ q) (hu : q < i+n)
    (h : ∀ j, i ≤ j → j < q → m j ≠ 0) : (FrameField.data,q) ∈ trace m (cstring i n) := by
  induction n generalizing i with
  | zero => omega
  | succ n ih =>
    rw [trace_cstring_succ, List.mem_cons]
    obtain rfl | hlt := Nat.eq_or_lt_of_le hl
    · exact .inl rfl
    · rw [if_neg (h i le_rfl hlt)]
      exact .inr (ih (by omega) (by omega) fun j hl' hu' => h j (by omega) hu')

theorem run_cstring_isSome {i n q : ℕ} (hl : i ≤ q) (hu : q < i+n) (hq : m q = 0) :
    ∃ s, run m (cstring i n) = some s := by
  induction n generalizing i with
  | zero => omega
  | succ n ih =>
    rw [run_cstring_succ]
    split
    next => exact ⟨[],rfl⟩
    next hb =>
      have hne : i ≠ q := by
        rintro rfl
        exact hb hq
      obtain ⟨s,hs⟩ := @ih (i+1) (by omega) (by omega)
      exact ⟨m i :: s,by rw [hs]; rfl⟩

/-- The names of `n` entries from position `i` on end before position `received`. -/
def NamesEnd (m : Mem) (received i n : ℕ) : Prop :=
  ∀ j < n, ∃ q, i+10+74*j ≤ q ∧ q < received ∧ m q = 0

theorem NamesEnd.tail {i n : ℕ} (h : NamesEnd m received i (n+1)) :
    NamesEnd m received (i+74) n := by
  intro j hj
  obtain ⟨q,hl,hu,hq⟩ := h (j+1) (by omega)
  exact ⟨q,by omega,hu,hq⟩

theorem trace_readDirEntry {i q : ℕ} {x : FrameField × ℕ} (hl : i+10 ≤ q) (hq : m q = 0)
    (hx : x ∈ trace m (readDirEntry mapped i)) : x.2 ≤ q := by
  rw [readDirEntry, trace_bind, List.mem_append] at hx
  obtain hx | hx := hx
  · obtain ⟨-,hall⟩ := trace_cstring hx
    by_contra hlt
    exact hall q hl (Nat.lt_of_not_le hlt) hq
  cases hs : run m (cstring (i+10) (mapped-(i+10))) with
  | none => simp [hs] at hx
  | some name =>
    simp only [hs, trace_bind, trace_byte, trace_be32, trace_be16, trace_pure, List.append_nil,
      List.cons_append, List.nil_append, List.mem_cons, List.not_mem_nil, or_false] at hx
    obtain rfl | rfl | rfl | rfl | rfl | rfl | rfl | rfl | rfl := hx <;> dsimp only <;> omega

/-- Entries whose names end are read up to the ends of the names. -/
theorem trace_readDirEntries {i n : ℕ} {x : FrameField × ℕ} (h : NamesEnd m received i n)
    (hx : x ∈ trace m (readDirEntries mapped i n)) : x.2 < received := by
  induction n generalizing i with
  | zero => simp [readDirEntries] at hx
  | succ n ih =>
    obtain ⟨q,hl,hu,hq⟩ := h 0 (Nat.succ_pos n)
    rw [readDirEntries, trace_bind, List.mem_append] at hx
    obtain hx | hx := hx
    · exact (trace_readDirEntry (by omega) hq hx).trans_lt hu
    · cases he : run m (readDirEntry mapped i) with
      | none => simp [he] at hx
      | some e =>
        simp only [he, trace_bind, trace_pure, List.append_nil] at hx
        exact ih h.tail hx

/-- A name that does not end is read on to any later position of the mapped memory. -/
theorem runaway_readDirEntries {i n p : ℕ} (hrest : ∀ q, received ≤ q → m q ≠ 0)
    (h : ¬ NamesEnd m received i n) (hr : received ≤ p) (hp : i+74*n ≤ p) (hmap : p < mapped) :
    (FrameField.data,p) ∈ trace m (readDirEntries mapped i n) := by
  induction n generalizing i with
  | zero => exact absurd (fun j hj => absurd hj (Nat.not_lt_zero j)) h
  | succ n ih =>
    rw [readDirEntries, trace_bind, List.mem_append]
    by_cases h₀ : ∃ q, i+10 ≤ q ∧ q < received ∧ m q = 0
    · right
      obtain ⟨q,hl,hu,hq⟩ := h₀
      obtain ⟨name,hname⟩ := @run_cstring_isSome m (i+10) (mapped-(i+10)) q hl (by omega) hq
      have he : ∃ e, run m (readDirEntry mapped i) = some e := by
        simp only [readDirEntry, run_bind, hname, run_pure]
        exact ⟨_,rfl⟩
      obtain ⟨e,he⟩ := he
      have htail : ¬ NamesEnd m received (i+74) n := by
        intro ht
        apply h
        intro j hj
        cases j with
        | zero => exact ⟨q,hl,hu,hq⟩
        | succ j =>
          obtain ⟨q',hl',hu',hq'⟩ := ht j (by omega)
          exact ⟨q',by omega,hu',hq'⟩
      simp only [he, trace_bind, trace_pure, List.append_nil]
      exact ih htail (by omega)
    · left
      rw [readDirEntry, trace_bind, List.mem_append]
      left
      refine mem_trace_cstring (by omega) (by omega) fun j hl _ hj => ?_
      by_cases hjr : j < received
      · exact h₀ ⟨j,hl,hjr,hj⟩
      · exact hrest j (Nat.le_of_not_lt hjr) hj

theorem dirPage_short (h : received < 36) :
    trace m (recvDirPage sock destMacAddr requestId startIndex maxEntries mapped received) =
      [] := by
  simp only [recvDirPage, if_pos h, trace_pure]

/-- The reads of `recv_dir_page`: the headers, and the entries of an accepted page. -/
theorem trace_dirPage {x : FrameField × ℕ}
    (hx : x ∈ trace m
      (recvDirPage sock destMacAddr requestId startIndex maxEntries mapped received)) :
    x.2 < 36 ∨ (DirPageAccepted sock destMacAddr requestId startIndex maxEntries m ∧
      x ∈ trace m (readDirEntries mapped 36 (at16 m 32).toNat)) := by
  unfold recvDirPage at hx
  split at hx
  next => simp at hx
  simp only [trace_bind, trace_be16, trace_be32, run_be16, run_be32, List.mem_append,
    List.mem_cons, List.not_mem_nil, or_false] at hx
  obtain h | h | h | h | h | hx := hx
  · exact .inl (by obtain rfl | rfl := h <;> simp)
  · exact .inl (by obtain rfl | rfl := h <;> simp)
  · exact .inl ((trace_fromServer h).trans (by decide))
  · exact .inl (by obtain rfl | rfl | rfl | rfl := h <;> simp)
  · exact .inl (by obtain rfl | rfl := h <;> simp)
  split at hx
  next => simp at hx
  next hhead =>
  simp only [trace_bind, trace_be16, run_be16, List.mem_append, List.mem_cons, List.not_mem_nil,
    or_false] at hx
  obtain h | hx := hx
  · exact .inl (by obtain rfl | rfl := h <;> simp)
  split at hx
  next => simp at hx
  next hbody =>
  have hentries : x ∈ trace m (readDirEntries mapped 36 (at16 m 32).toNat) := by
    rw [trace_bind, List.mem_append] at hx
    obtain hx | hx := hx
    · exact hx
    · split at hx <;> simp at hx
  simp only [not_or, ne_eq, not_not, Bool.not_eq_false] at hhead hbody
  obtain ⟨hmine,hpay,hid,hstart⟩ := hhead
  obtain ⟨hstatus,hpage,hroom,hdecl⟩ := hbody
  exact .inr ⟨⟨hmine,UInt16.not_lt.mp hpay,hid,hstart,hstatus,Nat.le_of_not_lt hpage,
    Nat.le_of_not_lt hroom,Nat.le_of_not_lt hdecl⟩,hentries⟩

theorem dirPage_reads_entries (h : 36 ≤ received)
    (ha : DirPageAccepted sock destMacAddr requestId startIndex maxEntries m)
    {x : FrameField × ℕ} (hx : x ∈ trace m (readDirEntries mapped 36 (at16 m 32).toNat)) :
    x ∈ trace m
      (recvDirPage sock destMacAddr requestId startIndex maxEntries mapped received) := by
  have hpay : ¬ at16 m 22 < 10 := UInt16.not_lt.mpr ha.payloadLen
  have hpage := Nat.not_lt.mpr ha.page
  have hroom := Nat.not_lt.mpr ha.room
  have hlen := Nat.not_lt.mpr ha.declared
  simp only [recvDirPage, if_neg (Nat.not_lt.mpr h), trace_bind, run_be16, run_be32, ha.mine,
    hpay, ha.requestId, ha.startIndex, ha.status, hpage, hroom, hlen,
    Bool.true_eq_false, ne_eq, not_true_eq_false, or_self, if_false, List.mem_append]
  simp only [hx, true_or, or_true]

theorem DirPageAccepted.congr (h : AgreeBelow 36 m m')
    (ha : DirPageAccepted sock destMacAddr requestId startIndex maxEntries m) :
    DirPageAccepted sock destMacAddr requestId startIndex maxEntries m' := by
  have hlen : at16 m' 22 = at16 m 22 := by rw [at16, at16, h.slice (by decide)]
  have hid : at32 m' 26 = at32 m 26 := by rw [at32, at32, h.slice (by decide)]
  have hstart : at16 m' 30 = at16 m 30 := by rw [at16, at16, h.slice (by decide)]
  have hcount : at16 m' 32 = at16 m 32 := by rw [at16, at16, h.slice (by decide)]
  have hstatus : at16 m' 34 = at16 m 34 := by rw [at16, at16, h.slice (by decide)]
  have hmine : run m' (fromServer sock destMacAddr 19) = run m (fromServer sock destMacAddr 19) :=
    (run_congr _ fun x hx => h x.2 ((trace_fromServer hx).trans (by decide))).1.symm
  constructor
  · rw [hmine, ha.mine]
  · rw [hlen]
    exact ha.payloadLen
  · rw [hid, ha.requestId]
  · rw [hstart, ha.startIndex]
  · rw [hstatus, ha.status]
  · rw [hcount]
    exact ha.page
  · rw [hcount]
    exact ha.room
  · rw [hcount, hlen]
    exact ha.declared

theorem dirPage_fromReceived_iff (hr : received ≤ bufSize) (hmap : bufSize < mapped) :
    FromReceived (recvDirPage sock destMacAddr requestId startIndex maxEntries mapped received)
        received m ↔
      DirPageWhole sock destMacAddr requestId startIndex maxEntries received m := by
  constructor
  · intro h hlong ha
    change NamesEnd m received 36 (at16 m 32).toNat
    by_contra hends
    -- behind the received bytes the buffer and the memory after it hold no zero
    let m' : Mem := fun q => if q < received then m q else 1
    have hm : AgreeBelow received m m' := fun q hq => (if_pos hq).symm
    have hm36 : AgreeBelow 36 m m' := fun q hq => hm q (by omega)
    have hcount : at16 m' 32 = at16 m 32 := by rw [at16, at16, hm36.slice (by decide)]
    have hrest (q : ℕ) (hq : received ≤ q) : m' q ≠ 0 := by
      have hone : m' q = 1 := if_neg (Nat.not_lt.mpr hq)
      rw [hone]
      decide
    have hends' : ¬ NamesEnd m' received 36 (at16 m 32).toNat := by
      intro h'
      apply hends
      intro j hj
      obtain ⟨q,hl,hu,hq⟩ := h' j hj
      exact ⟨q,hl,hu,(hm q hu).trans hq⟩
    have hpage := ha.page
    have hread := @runaway_readDirEntries received m' mapped 36 _ bufSize hrest hends' hr
      (by simp only [remoteDirPageEntries, bufSize] at *; omega) hmap
    rw [← hcount] at hread
    exact absurd ((h m' hm).2 _ (dirPage_reads_entries hlong (ha.congr hm36) hread)) (by simp)
  · intro hw m' hm
    have hin : ∀ x ∈ trace m
        (recvDirPage sock destMacAddr requestId startIndex maxEntries mapped received),
        x.2 < received := by
      intro x hx
      by_cases hlong : 36 ≤ received
      · obtain h | ⟨ha,h⟩ := trace_dirPage hx
        · omega
        · exact trace_readDirEntries (hw hlong ha) h
      · rw [dirPage_short (by omega)] at hx
        simp at hx
    obtain ⟨hrun,htrace⟩ := run_congr _ fun x hx => hm x.2 (hin x hx)
    exact ⟨hrun.symm,fun x hx => (hin x (htrace ▸ hx)).trans_le hr⟩

/-- Each parser works on the received bytes alone, and within its buffer, exactly if the frame
holds what its headers say or is turned away. -/
theorem parsers_fromReceived_iff (hosts : HostList) (sock : RawSocket) (destMacAddr : MacAddr)
    (transferId offset requestId : UInt32) (startIndex : UInt16) (maxEntries mapped received : ℕ)
    (m : Mem) (hr : received ≤ bufSize) (hmap : bufSize < mapped) :
    (FromReceived (processIncomingVideoText hosts) received m ↔
      ScreenWhole hosts 32768 30 received m) ∧
    (FromReceived (processIncomingCgaGraphics hosts) received m ↔
      ScreenWhole hosts 16000 32 received m) ∧
    (FromReceived (recvFileGetData sock destMacAddr transferId offset received) received m ↔
      FileDataWhole sock destMacAddr transferId offset received m) ∧
    (FromReceived (recvDirPage sock destMacAddr requestId startIndex maxEntries mapped received)
        received m ↔
      DirPageWhole sock destMacAddr requestId startIndex maxEntries received m) :=
  ⟨videoText_fromReceived_iff hr,cgaGraphics_fromReceived_iff hr,fileGetData_fromReceived_iff hr,
    dirPage_fromReceived_iff hr hmap⟩

/-! A text frame that says one byte of data and ends before it, over a zeroed buffer and over
one with an old byte there. -/

def nullAddr : MacAddr := Vector.replicate 6 0

def knownHost : HostList := hostsWith (hostCreate nullAddr)

def cutText : Mem := fun i => if i = 33 then 1 else 0
def cutTextStale : Mem := Function.update cutText 34 1

theorem parsers_fromReceived_cutText :
    (FromReceived (processIncomingVideoText knownHost) 34 cutText ↔
      ScreenWhole knownHost 32768 30 34 cutText) ∧
    (FromReceived (processIncomingCgaGraphics knownHost) 34 cutText ↔
      ScreenWhole knownHost 16000 32 34 cutText) ∧
    (FromReceived (recvFileGetData ⟨nullAddr,0⟩ nullAddr 0 0 34) 34 cutText ↔
      FileDataWhole ⟨nullAddr,0⟩ nullAddr 0 0 34 cutText) ∧
    (FromReceived (recvDirPage ⟨nullAddr,0⟩ nullAddr 0 0 16 4096 34) 34 cutText ↔
      DirPageWhole ⟨nullAddr,0⟩ nullAddr 0 0 16 34 cutText) :=
  parsers_fromReceived_iff _ _ _ _ _ _ _ _ _ _ _ (by decide) (by decide)

/-- The client stores a byte that it did not receive. -/
theorem cutText_differs :
    AgreeBelow 34 cutText cutTextStale ∧
      run cutText (processIncomingVideoText knownHost) ≠
        run cutTextStale (processIncomingVideoText knownHost) := by
  refine ⟨agreeBelow_update _ _ le_rfl,fun h => ?_⟩
  have hbyte := congrArg (fun r => r.1[0].map fun rh => rh.videoTextBuffer 0) h
  revert hbyte
  decide

end RmtDos
