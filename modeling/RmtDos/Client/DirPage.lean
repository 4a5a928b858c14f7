import Mathlib.Data.Nat.Bitwise
import RmtDos.Client.FromReceived
import RmtDos.Server.Listing
import RmtDos.Server.SendBuffer

/-! A directory page on its way from the DTA of the server to the client's array. -/
namespace RmtDos
open Memory Reading

/-- A number that the machine stores with its low byte first. -/
def ofLE (bs : List UInt8) : ℕ := ofBE bs.reverse

/-- The entry that a client should get for a DTA. -/
def remoteDirEntry (dta : Vector UInt8 43) : RemoteDirEntry where
  name := Bytes.cstr (dta.toList.drop 30)
  attributes := dta[21]
  size := UInt32.ofNat (ofLE ((dta.toList.drop 26).take 4))
  dosDate := UInt16.ofNat (ofLE ((dta.toList.drop 24).take 2))
  dosTime := UInt16.ofNat (ofLE ((dta.toList.drop 22).take 2))
  isDir := dta[21].toNat.testBit 4

variable {m : Mem} {e : DirListEntry} {i mapped : ℕ}

/-! Numbers of the DTA. -/

theorem or_shift (a b n : ℕ) (h : a < 2^n) : a ||| b <<< n = a+2^n*b := by
  rw [Nat.or_comm, ← Nat.shiftLeft_add_eq_or_of_lt h, Nat.shiftLeft_eq]
  ring

theorem le16_bytes (a b : UInt8) : a.toUInt16 ||| b.toUInt16 <<< 8 = UInt16.ofNat (ofLE [a,b]) := by
  have ha := a.toNat_lt
  have hb := b.toNat_lt
  have h8 : UInt16.toNat 8 % 16 = 8 := rfl
  apply UInt16.toNat_inj.mp
  simp only [UInt16.toNat_or, UInt8.toNat_toUInt16, UInt16.toNat_shiftLeft, h8,
    UInt16.toNat_ofNat', ofLE, List.reverse_cons, List.reverse_nil, List.nil_append,
    List.cons_append, ofBE, List.length_cons, List.length_nil]
  have hs : b.toNat <<< 8 % 2^16 = b.toNat <<< 8 := by
    rw [Nat.shiftLeft_eq]
    omega
  rw [hs, or_shift _ _ _ ha]
  omega

theorem le32_bytes (a b c d : UInt8) :
    a.toUInt32 ||| b.toUInt32 <<< 8 ||| c.toUInt32 <<< 16 ||| d.toUInt32 <<< 24 =
      UInt32.ofNat (ofLE [a,b,c,d]) := by
  have ha := a.toNat_lt
  have hb := b.toNat_lt
  have hc := c.toNat_lt
  have hd := d.toNat_lt
  have h8 : UInt32.toNat 8 % 32 = 8 := rfl
  have h16 : UInt32.toNat 16 % 32 = 16 := rfl
  have h24 : UInt32.toNat 24 % 32 = 24 := rfl
  have hs (x n : ℕ) (hx : x < 256) (hn : n ≤ 24) : x <<< n % 2^32 = x <<< n := by
    rw [Nat.shiftLeft_eq]
    have hp : x*2^n ≤ 255*2^24 :=
      Nat.mul_le_mul (by omega) (Nat.pow_le_pow_right (by decide) hn)
    omega
  apply UInt32.toNat_inj.mp
  simp only [UInt32.toNat_or, UInt8.toNat_toUInt32, UInt32.toNat_shiftLeft, h8, h16, h24,
    UInt32.toNat_ofNat', ofLE, List.reverse_cons, List.reverse_nil, List.nil_append,
    List.cons_append, ofBE, List.length_cons, List.length_nil]
  rw [hs _ _ hb (by decide), hs _ _ hc (by decide), hs _ _ hd (by decide), or_shift _ _ _ ha,
    or_shift _ _ 16 (by omega), or_shift _ _ 24 (by omega)]
  omega

theorem take_drop_getD {l : List UInt8} {k n : ℕ} (h : k+n ≤ l.length) :
    (l.drop k).take n = (List.range' k n).map fun j => l.getD j 0 := by
  apply List.ext_getElem
  · simp
    omega
  · intro j h₁ h₂
    have hj : j < n := by simpa using h₂
    have hkj : k+j < l.length := by omega
    simp [hkj]

theorem dtaGetU16_eq (dta : Vector UInt8 43) {k : ℕ} (hk : k+2 ≤ 43) :
    dtaGetU16 dta k = UInt16.ofNat (ofLE ((dta.toList.drop k).take 2)) := by
  rw [take_drop_getD (by rwa [Vector.length_toList]), dtaGetU16, le16_bytes]
  rfl

theorem dtaGetU32_eq (dta : Vector UInt8 43) {k : ℕ} (hk : k+4 ≤ 43) :
    dtaGetU32 dta k = UInt32.ofNat (ofLE ((dta.toList.drop k).take 4)) := by
  rw [take_drop_getD (by rwa [Vector.length_toList]), dtaGetU32, le32_bytes]
  rfl

/-! Entries in a frame. -/

/-- A terminated string reads back. -/
theorem run_cstring {s : List UInt8} {n : ℕ} (hs : (0 : UInt8) ∉ s) (hn : s.length < n)
    (h : slice m i (s.length+1) = s ++ [0]) : run m (cstring i n) = some s := by
  induction s generalizing i n with
  | nil =>
    obtain ⟨n,rfl⟩ := Nat.exists_eq_succ_of_ne_zero (show n ≠ 0 by omega)
    have h0 : m i = 0 := by simpa [slice_succ] using h
    rw [run_cstring_succ, if_pos h0]
  | cons b s ih =>
    obtain ⟨n,rfl⟩ := Nat.exists_eq_succ_of_ne_zero (show n ≠ 0 by omega)
    rw [List.length_cons, slice_succ, List.cons_append] at h
    obtain ⟨hb,hrest⟩ := List.cons.inj h
    have hne : ¬ m i = 0 := by
      rw [hb]
      rintro rfl
      exact hs List.mem_cons_self
    rw [run_cstring_succ, if_neg hne, ih (fun hm => hs (List.mem_cons_of_mem _ hm))
      (Nat.lt_of_succ_lt_succ hn) hrest, hb]
    rfl

/-- An entry in a buffer is read as it was written. -/
theorem run_readDirEntry {s : Bytes.CString} (hs : s.bytes.length ≤ 63)
    (he : e.name = Bytes.snprintf 63 s) (h : slice m i 74 = e.bytes) (hi : i+74 ≤ mapped) :
    run m (readDirEntry mapped i) = some ⟨s.bytes,e.attributes,e.size,e.dosDate,e.dosTime,
      e.attributes &&& dosAttrDirectory ≠ 0⟩ := by
  have hname : e.name.toList = s.bytes ++ [0] ++ List.replicate (63-s.bytes.length) 0 := by
    rw [he, Bytes.snprintf_toList 63 s hs, List.append_assoc]
    rfl
  rw [DirListEntry.bytes] at h
  obtain ⟨h,hn⟩ := @slice_eq_append m i 10 64 _ _ h (by simp)
  obtain ⟨h,htime⟩ := @slice_eq_append m i 8 2 _ _ h (by simp)
  obtain ⟨h,hdate⟩ := @slice_eq_append m i 6 2 _ _ h (by simp)
  obtain ⟨h,hsize⟩ := @slice_eq_append m i 2 4 _ _ h (by simp)
  have hattr : m i = e.attributes := by
    rw [slice_succ] at h
    exact (List.cons.inj h).1
  have hsplit : 64 = s.bytes.length+1+(63-s.bytes.length) := by omega
  rw [hname, hsplit] at hn
  have hstr := run_cstring s.noNul (show s.bytes.length < mapped-(i+10) by omega)
    (slice_eq_append hn (by simp)).1
  simp only [readDirEntry, run_bind, hstr, run_byte, run_be32, run_be16, hattr, hsize, hdate, htime,
    ntohl_htonl, ntohs_htons, run_pure, List.take_of_length_le hs]

/-- The name in a DTA. -/
def dtaName (dta : Vector UInt8 43) : Bytes.CString :=
  ⟨Bytes.cstr (dta.toList.drop 30),Bytes.zero_notMem_cstr _⟩

theorem length_dtaName (dta : Vector UInt8 43) : (dtaName dta).bytes.length ≤ 13 := by
  have hle : (dtaName dta).bytes.length ≤ (dta.toList.drop 30).length :=
    (List.takeWhile_sublist _).length_le
  simpa using hle

theorem attribute_directory (a : UInt8) :
    decide (a &&& dosAttrDirectory ≠ 0) = a.toNat.testBit 4 := by
  have h16 : UInt8.toNat dosAttrDirectory = 2^4 := rfl
  have h0 : UInt8.toNat 0 = 0 := rfl
  have hzero : a &&& dosAttrDirectory = 0 ↔ a.toNat.testBit 4 = false := by
    rw [← UInt8.toNat_inj, UInt8.toNat_and, h16, h0, Nat.and_two_pow]
    cases a.toNat.testBit 4 <;> decide
  simp [hzero]

theorem dtaEntry_name (dta : Vector UInt8 43) :
    (dtaEntry dta).name = Bytes.snprintf 63 (dtaName dta) := by
  simp only [dtaEntry, Bytes.snprintf, dtaName]

theorem dtaEntry_attributes (dta : Vector UInt8 43) : (dtaEntry dta).attributes = dta[21] := by
  simp [dtaEntry]

/-- The entry of a DTA reaches the client as it is. -/
theorem run_readDirEntry_dta {dta : Vector UInt8 43} (h : slice m i 74 = (dtaEntry dta).bytes)
    (hi : i+74 ≤ mapped) : run m (readDirEntry mapped i) = some (remoteDirEntry dta) := by
  have hle := length_dtaName dta
  have hsize := dtaGetU32_eq dta (show 26+4 ≤ 43 by decide)
  have hdate := dtaGetU16_eq dta (show 24+2 ≤ 43 by decide)
  have htime := dtaGetU16_eq dta (show 22+2 ≤ 43 by decide)
  rw [run_readDirEntry (by omega) (dtaEntry_name dta) h hi, dtaEntry_attributes,
    attribute_directory, remoteDirEntry, ← hsize, ← hdate, ← htime]
  simp only [dtaEntry, dtaName]

theorem run_readDirEntries {l : List (Vector UInt8 43)}
    (h : slice m i (74*l.length) = (l.map dtaEntry).flatMap DirListEntry.bytes)
    (hi : i+74*l.length ≤ mapped) :
    run m (readDirEntries mapped i l.length) = some (l.map remoteDirEntry) := by
  induction l generalizing i with
  | nil => rfl
  | cons dta l ih =>
    rw [List.map_cons, List.flatMap_cons, List.length_cons, Nat.mul_succ, Nat.add_comm] at h
    obtain ⟨hhead,htail⟩ := slice_eq_append h (by simp [DirListEntry.bytes])
    rw [List.length_cons, Nat.mul_succ] at hi
    have hfirst := @run_readDirEntry_dta m i mapped dta hhead (by omega)
    have hrest := ih htail (by omega)
    simp only [List.length_cons, readDirEntries, run_bind, hfirst, hrest, run_pure,
      Option.map_some, List.map_cons]

variable (globals : PktdrvGlobals) (g : FileTransferState) (l : List (Vector UInt8 43))

theorem length_pageReply (hl : l.length ≤ 16) :
    (pageReply globals.macAddr g (l.map dtaEntry)).length = 36+74*l.length := by
  have h10 : UInt16.toNat 10 = 10 := rfl
  have h74 : UInt16.toNat 74 = 74 := rfl
  simp only [Reply.length, pageReply, List.length_map, UInt16.toNat_add, UInt16.toNat_mul,
    UInt16.toNat_ofNat', h10, h74]
  omega

theorem apart_pageReply : Apart ((pageReply globals.macAddr g (l.map dtaEntry)).stores globals) := by
  simp [Apart, pageReply, Reply.stores, ReplyBody.stores]

/-- A buffer that starts with a page of the listing. -/
structure PageAt (m : Mem) (dest src : MacAddr) (sessionId requestId : UInt32)
    (startIndex : UInt16) (l : List (Vector UInt8 43)) : Prop where
  dest : slice m 0 6 = dest.toList
  src : slice m 6 6 = src.toList
  signature : slice m 14 4 = htonl packetSignature
  session : slice m 18 4 = htonl sessionId
  payloadLen : slice m 22 2 = htons (10+UInt16.ofNat l.length*74)
  type : slice m 24 2 = htons 19
  request : slice m 26 4 = htonl requestId
  start : slice m 30 2 = htons startIndex
  count : slice m 32 2 = htons (UInt16.ofNat l.length)
  status : slice m 34 2 = htons 0
  entries : slice m 36 (74*l.length) = (l.map dtaEntry).flatMap DirListEntry.bytes

theorem pageAt_arrived (hl : l.length ≤ 16) {sendBuffer : Mem}
    (harr : Arrived (pktdrvFrame (stores sendBuffer
        ((pageReply globals.macAddr g (l.map dtaEntry)).stores globals))
      (pageReply globals.macAddr g (l.map dtaEntry)).length) m) :
    PageAt m g.clientMac globals.macAddr g.sessionId g.dirRequestId g.dirStartIndex l := by
  have hlen := length_pageReply globals g l hl
  have hfield {i n : ℕ} {bs : List UInt8}
      (hs : (i,bs) ∈ (pageReply globals.macAddr g (l.map dtaEntry)).stores globals)
      (hn : bs.length = n) (hi : i+n ≤ 36+74*l.length) : slice m i n = bs := by
    subst hn
    exact Arrived.store harr (apart_pageReply globals g l) hs (by omega)
  simp only [Reply.stores, pageReply, ReplyBody.stores, ReplyBody.pktType, FileAckStatus.code,
    List.length_map, List.cons_append, List.nil_append] at hfield
  constructor
  case entries => exact hfield (by simp) (by rw [length_entryBytes, List.length_map]) le_rfl
  all_goals exact hfield (by simp) (by simp) (by omega)

/-- The client accepts the page that it has asked for. -/
theorem run_recvDirPage_pageAt {sock : RawSocket} {destMacAddr : MacAddr} {requestId : UInt32}
    {startIndex : UInt16} {maxEntries received : ℕ} (hl : l.length ≤ 16)
    (hmax : l.length ≤ maxEntries) (hreceived : 36 ≤ received)
    (h : PageAt m sock.ifAddr destMacAddr sock.sessionId requestId startIndex l) :
    run m (recvDirPage sock destMacAddr requestId startIndex maxEntries 1514 received) =
      .ok (l.map remoteDirEntry) := by
  have hcount : (UInt16.ofNat l.length).toNat = l.length := by
    rw [UInt16.toNat_ofNat']
    omega
  have hlen : (10+UInt16.ofNat l.length*74).toNat = 10+l.length*74 := by
    have h10 : UInt16.toNat 10 = 10 := rfl
    have h74 : UInt16.toNat 74 = 74 := rfl
    rw [UInt16.toNat_add, UInt16.toNat_mul, hcount, h10, h74]
    omega
  have hlong : ¬ (10+UInt16.ofNat l.length*74) < 10 := by
    rw [UInt16.lt_iff_toNat_lt, hlen]
    exact Nat.not_lt.mpr (Nat.le_add_right ..)
  have hread := @run_readDirEntries m 36 1514 l h.entries (by omega)
  have hfrom : run m (fromServer sock destMacAddr 19) = true := by
    simp only [fromServer, run_bind, run_bytes, run_be32, run_be16, h.dest, h.src, h.signature,
      h.session, h.type, ntohl_htonl, ntohs_htons, run_pure, and_self, decide_true]
  have hok : ¬ (False ∨ remoteDirPageEntries < l.length ∨ maxEntries < l.length ∨
      10+l.length*74 < 10+l.length*74) := by
    simp only [remoteDirPageEntries, false_or, lt_irrefl, or_false]
    omega
  simp only [recvDirPage, if_neg (Nat.not_lt.mpr hreceived), run_bind, run_be32, run_be16, hfrom,
    h.payloadLen, h.count, h.request, h.start, ntohl_htonl, ntohs_htons, hcount, hlen, ne_eq,
    not_true_eq_false, hlong, or_self, if_false, reduceCtorEq, h.status, if_neg hok, hread,
    run_pure]

end RmtDos
