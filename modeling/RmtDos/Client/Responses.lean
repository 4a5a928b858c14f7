import RmtDos.Client.HostList

/-! What the file client makes of one received frame: the bodies of its receive loops, from
`recv` to the next iteration or the return. `received` is the length of the frame, and the
buffer may hold anything behind it. -/
namespace RmtDos
open Memory Reading

/-- The rest of a receive loop's body: another frame is awaited, or the loop ends with a
failure or a result. A string that runs on to the end of the mapped memory traps. -/
inductive Received (α : Type)
  | ignored
  | failed
  | ok (a : α)
  | trapped
  deriving DecidableEq

/-- The header checks that the receive loops share. -/
def fromServer (sock : RawSocket) (destMacAddr : MacAddr) (pktType : UInt16) :
    Reading FrameField Bool := do
  let etherShost ← bytes .header 6 6
  let etherDhost ← bytes .header 0 6
  let signature ← be32 .header 14
  let sessionId ← be32 .header 18
  let type ← be16 .header 24
  pure (etherShost = destMacAddr.toList ∧ etherDhost = sock.ifAddr.toList ∧
    signature = packetSignature ∧ sessionId = sock.sessionId ∧ type = pktType)

/-- The body of `recv_file_ack`: the acknowledged offset. -/
def recvFileAck (sock : RawSocket) (destMacAddr : MacAddr) (transferId : UInt32)
    (command : UInt16) (received : ℕ) : Reading FrameField (Received UInt32) := do
  if received < 38 then pure .ignored
  else do
    let mine ← fromServer sock destMacAddr 12
    let payloadLen ← be16 .header 22
    let ackTransferId ← be32 .header 26
    let ackCommand ← be16 .header 30
    if mine = false ∨ payloadLen < 12 ∨ ackTransferId ≠ transferId ∨ ackCommand ≠ command then
      pure .ignored
    else do
      let status ← be16 .header 32
      if status ≠ 0 then pure .failed
      else do
        let offset ← be32 .header 34
        pure (.ok offset)

/-- The body of `recv_file_get_data`: the data, whose length is the count. -/
def recvFileGetData (sock : RawSocket) (destMacAddr : MacAddr) (transferId offset : UInt32)
    (received : ℕ) : Reading FrameField (Received (List UInt8)) := do
  if received < 38 then pure .ignored
  else do
    let payloadLen ← be16 .header 22
    let respCount ← be16 .header 34
    let mine ← fromServer sock destMacAddr 15
    let respTransferId ← be32 .header 26
    let respOffset ← be32 .header 30
    if mine = false ∨ payloadLen < 12 ∨ respTransferId ≠ transferId ∨ respOffset ≠ offset then
      pure .ignored
    else do
      let status ← be16 .header 36
      if status ≠ 0 ∨ 512 < respCount.toNat ∨ payloadLen.toNat < 12+respCount.toNat then
        pure .failed
      else do
        let data ← bytes .data 38 respCount.toNat
        pure (.ok data)

/-- `struct RemoteDirEntry`. -/
structure RemoteDirEntry where
  name : List UInt8
  attributes : UInt8
  size : UInt32
  dosDate : UInt16
  dosTime : UInt16
  isDir : Bool
  deriving DecidableEq

def dosAttrDirectory : UInt8 := 0x10
/-- `DIR_LIST_PAGE_ENTRIES` of the client. -/
def remoteDirPageEntries : ℕ := 16

/-- The string at `i`, or none where it does not end within `n` bytes. -/
def cstring (i : ℕ) : ℕ → Reading FrameField (Option (List UInt8))
  | 0 => pure none
  | n+1 => do
    let b ← byte .data i
    if b = 0 then pure (some [])
    else do
      let s ← cstring (i+1) n
      pure (s.map (b :: ·))

/-- One entry of a page, at position `i`. `snprintf` cuts the name to 63 bytes, but reads it to
its end. -/
def readDirEntry (mapped i : ℕ) : Reading FrameField (Option RemoteDirEntry) := do
  match ← cstring (i+10) (mapped-(i+10)) with
  | none => pure none
  | some name => do
    let attributes ← byte .data i
    let size ← be32 .data (i+2)
    let dosDate ← be16 .data (i+6)
    let dosTime ← be16 .data (i+8)
    pure (some ⟨name.take 63,attributes,size,dosDate,dosTime,attributes &&& dosAttrDirectory ≠ 0⟩)

/-- The loop of `recv_dir_page` over the entries from position `i` on. -/
def readDirEntries (mapped i : ℕ) : ℕ → Reading FrameField (Option (List RemoteDirEntry))
  | 0 => pure (some [])
  | n+1 => do
    match ← readDirEntry mapped i with
    | none => pure none
    | some e => do
      let es ← readDirEntries mapped (i+74) n
      pure (es.map (e :: ·))

/-- The body of `recv_dir_page`: the entries of the page, whose number is the count. `mapped`
bytes can be read from the start of the buffer on. -/
def recvDirPage (sock : RawSocket) (destMacAddr : MacAddr) (requestId : UInt32)
    (startIndex : UInt16) (maxEntries mapped received : ℕ) :
    Reading FrameField (Received (List RemoteDirEntry)) := do
  if received < 36 then pure .ignored
  else do
    let payloadLen ← be16 .header 22
    let wireCount ← be16 .header 32
    let mine ← fromServer sock destMacAddr 19
    let pageRequestId ← be32 .header 26
    let pageStartIndex ← be16 .header 30
    if mine = false ∨ payloadLen < 10 ∨ pageRequestId ≠ requestId ∨
        pageStartIndex ≠ startIndex then
      pure .ignored
    else do
      let status ← be16 .header 34
      if status ≠ 0 ∨ remoteDirPageEntries < wireCount.toNat ∨ maxEntries < wireCount.toNat ∨
          payloadLen.toNat < 10+wireCount.toNat*74 then
        pure .failed
      else
        match ← readDirEntries mapped 36 wireCount.toNat with
        | none => pure .trapped
        | some entries => pure (.ok entries)

end RmtDos
