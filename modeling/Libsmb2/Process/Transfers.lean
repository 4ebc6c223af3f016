import Libsmb2.Process.Requests
import Libsmb2.Process.RequestBounds

/-!
# READ and WRITE requests that come back

What a server makes of the two commands of a passthrough context with multi-credit support.  The
decoder of a READ takes the offset of the channel info if its length is not zero, before it has read
the length; a READ with channel info is refused.  The extent of a WRITE is returned as an `int`.

* `read_comes_back_iff`, `write_comes_back_iff` — when each of them comes back;
* `transfers_come_back_iff` — the two together.
-/

set_option autoImplicit false

namespace Libsmb2

open Util

theorem clampLength_multiCredit {S : Settings} (h : S.supportsMultiCredit = true) (length : UInt32) :
    clampLength S length = length := by
  simp [clampLength, h]

/-- The octets of the channel info. -/
def channelInfo (len : Nat) (info : Option Memory) : Bytes := (info.map (·.read len)).getD []

/-! ## READ -/

/-- `struct smb2_read_request`, without the buffers. -/
structure ReadRequest where
  flags : Nat
  length : Nat
  offset : Nat
  fileId : Bytes
  minimumCount : Nat
  channel : Nat
  remainingBytes : Nat
  readChannelInfoOffset : Nat
  readChannelInfoLength : Nat
  deriving DecidableEq, Repr

/-- `IOVREQ_OFFSET_READ`. -/
def ReadRequest.iovreqOffset (req : ReadRequest) : Nat :=
  if req.readChannelInfoOffset ≠ 0 then req.readChannelInfoOffset - (HEADER_SIZE + 48) else 0

/-- The fields of a fixed part; any size up to that of a request is taken. -/
def readRequestFields (iov : Bytes) : Option ReadRequest :=
  if READ_REQUEST_SIZE < fromLe (slice iov 0 2) then none
  else
    -- the block is zero, and the length of the channel info is looked at before it is read
    let cleared := 0
    some {
      flags := fromLe (slice iov 3 1)
      length := fromLe (slice iov 4 4)
      offset := fromLe (slice iov 8 8)
      fileId := slice iov 16 16
      minimumCount := fromLe (slice iov 32 4)
      channel := fromLe (slice iov 36 4)
      remainingBytes := fromLe (slice iov 40 4)
      readChannelInfoOffset := if cleared ≠ 0 then fromLe (slice iov 44 2) else 0
      readChannelInfoLength := fromLe (slice iov 46 2) }

/-- `smb2_process_read_request_fixed`; `none` is -1. -/
def processReadRequestFixed (maxReadSize : UInt32) (iov : Bytes) : Option (Int × ReadRequest) :=
  match readRequestFields iov with
  | none => none
  | some req =>
    if maxReadSize.toNat < req.length then none
    else if req.readChannelInfoLength = 0 then some (0, req)
    else if req.readChannelInfoOffset < HEADER_SIZE + 48 then none
    else some ((req.iovreqOffset + req.readChannelInfoLength : Nat), req)

/-- `smb2_process_read_request_variable`: the channel info. -/
def processReadRequestVariable (_ : ReadRequest) (iov : Bytes) : Except Overrun (Option Bytes) :=
  .ok (some iov)

/-- What a server makes of the octets behind the header. -/
def decodeReadRequest (maxReadSize : UInt32) (body : Bytes) :
    Except Overrun (Option (ReadRequest × Option Bytes)) :=
  decodeBody 48 (processReadRequestFixed maxReadSize) processReadRequestVariable body

/-- The fields have their widths, there is channel info if it has a length and a buffer to read
into, and the server reads as much at once. -/
structure ReadArgs.Fits (req : ReadArgs) (maxReadSize : UInt32) : Prop where
  flags : req.flags < 256 ^ 1
  length : req.length ≤ maxReadSize
  offset : req.offset < 256 ^ 8
  buf : req.length = 0 ∨ req.buf = true
  minimumCount : req.minimumCount < 256 ^ 4
  channel : req.channel < 256 ^ 4
  remainingBytes : req.remainingBytes < 256 ^ 4
  readChannelInfoLength : req.readChannelInfoLength < 256 ^ 2
  readChannelInfo : req.readChannelInfoLength = 0 ∨ ∃ m, req.readChannelInfo = some m

/-- The request is the one that was sent. -/
structure ReadArgs.Returned (req : ReadArgs) (r : ReadRequest × Option Bytes) : Prop where
  flags : r.1.flags = req.flags
  length : r.1.length = req.length.toNat
  offset : r.1.offset = req.offset
  fileId : r.1.fileId = req.fileId.1
  minimumCount : r.1.minimumCount = req.minimumCount
  channel : r.1.channel = req.channel
  remainingBytes : r.1.remainingBytes = req.remainingBytes
  readChannelInfoLength : r.1.readChannelInfoLength = req.readChannelInfoLength
  readChannelInfo : r.2.getD [] = channelInfo req.readChannelInfoLength req.readChannelInfo

/-- In passthrough mode and with multi-credit support the request is sent, and decoded as it was. -/
def ReadArgs.ComesBack (req : ReadArgs) (maxReadSize : UInt32) : Prop :=
  ∀ S version, S.supportsMultiCredit = true →
    ∃ body r, (Cmd.read req).body S version true = some body ∧
      decodeReadRequest maxReadSize body = .ok (some r) ∧ req.Returned r

section
variable {S : Settings} {version : Version} {req : ReadArgs} {maxReadSize : UInt32} {iov : Bytes}

/-- The offset of the channel info is never taken. -/
theorem readRequestFields_info {r : ReadRequest} (h : readRequestFields iov = some r) :
    r.readChannelInfoOffset = 0 ∧ r.readChannelInfoLength = fromLe (slice iov 46 2) := by
  unfold readRequestFields at h
  split at h
  · cases h
  · rw [← Option.some.inj h]
    simp

theorem processReadRequestFixed_refuses (h : fromLe (slice iov 46 2) ≠ 0) :
    processReadRequestFixed maxReadSize iov = none := by
  unfold processReadRequestFixed
  split
  · rfl
  · rename_i r hfields
    obtain ⟨hoffset, hlength⟩ := readRequestFields_info hfields
    split
    · rfl
    · rw [hlength, if_neg h, hoffset]
      rfl

/-- The fixed part of a READ without channel info. -/
def readHead (req : ReadArgs) : Bytes :=
  zeros (READ_REQUEST_SIZE - 1)
    |> setUint16 0 READ_REQUEST_SIZE
    |> setUint8 3 req.flags
    |> setUint32 4 req.length.toNat
    |> setUint64 8 req.offset
    |> (patch · 16 req.fileId.1)
    |> setUint32 32 req.minimumCount
    |> setUint32 36 req.channel
    |> setUint32 40 req.remainingBytes
    |> setUint16 46 req.readChannelInfoLength

theorem length_readHead (req : ReadArgs) : (readHead req).length = 48 := by
  have hid := req.fileId.2
  simp [readHead, length_patch, hid, READ_REQUEST_SIZE]

/-- What is found in the fixed part of a READ without channel info. -/
def ReadArgs.received (req : ReadArgs) : ReadRequest where
  flags := req.flags
  length := req.length.toNat
  offset := req.offset
  fileId := req.fileId.1
  minimumCount := req.minimumCount
  channel := req.channel
  remainingBytes := req.remainingBytes
  readChannelInfoOffset := 0
  readChannelInfoLength := req.readChannelInfoLength

theorem readRequestFields_head (hf : req.Fits maxReadSize) :
    readRequestFields (readHead req) = some req.received := by
  have hid := req.fileId.2
  have hlength : req.length.toNat < 256 ^ 4 := req.length.toNat_lt
  unfold readRequestFields readHead READ_REQUEST_SIZE
  simp (disch := simp [length_setUint, length_patch, hid]) only [setUint8, setUint16, setUint32,
    setUint64, slice_setUint_before, slice_setUint_same, slice_patch_before, slice_patch_fileId,
    fromLe_le]
  rw [if_neg (by simp), Nat.mod_eq_of_lt hf.flags, Nat.mod_eq_of_lt hlength,
    Nat.mod_eq_of_lt hf.offset, Nat.mod_eq_of_lt hf.minimumCount, Nat.mod_eq_of_lt hf.channel,
    Nat.mod_eq_of_lt hf.remainingBytes, Nat.mod_eq_of_lt hf.readChannelInfoLength]
  rfl

/-- A READ without channel info has an octet of its own behind the fixed part. -/
theorem encodeReadRequest_plain (hS : S.supportsMultiCredit = true)
    (hinfo : req.readChannelInfoLength = 0) :
    encodeReadRequest S true req [zeros HEADER_SIZE] =
      some (zeros HEADER_SIZE :: [readHead req, [0]]) := by
  unfold encodeReadRequest addChannelInfo
  simp only [clampLength_multiCredit hS, if_true, hinfo, ne_eq, not_true_eq_false, false_and,
    if_false]
  unfold readHead
  rw [hinfo]
  cases req.readChannelInfo <;> rfl

theorem encodeReadRequest_info (hS : S.supportsMultiCredit = true)
    (hinfo : req.readChannelInfoLength ≠ 0) {m : Memory} (hm : req.readChannelInfo = some m) :
    encodeReadRequest S true req [zeros HEADER_SIZE] =
      some (zeros HEADER_SIZE :: [setUint16 44 (48 + HEADER_SIZE) (readHead req),
        padBuffer (m.read req.readChannelInfoLength) (padTo64 req.readChannelInfoLength)]) := by
  unfold encodeReadRequest addChannelInfo
  simp only [clampLength_multiCredit hS, if_true, hm, Option.isSome_some, ne_eq, hinfo,
    not_false_eq_true, and_self, if_false]
  rfl

/-- A READ with channel info is refused. -/
theorem read_channel_info_refused (hf : req.Fits maxReadSize)
    (hinfo : req.readChannelInfoLength ≠ 0) : ¬ req.ComesBack maxReadSize := by
  intro h
  obtain ⟨m, hm⟩ := hf.readChannelInfo.resolve_left hinfo
  let S : Settings := { supportsMultiCredit := true }
  obtain ⟨body, r, hbody, hdecode, -⟩ := h S .any rfl
  have henc : (Cmd.read req).encode S .any true [zeros HEADER_SIZE] = _ :=
    encodeReadRequest_info rfl hinfo hm
  obtain ⟨k, hsent⟩ := Cmd.body_of_encode (by simp [MAX_VECTORS]) (fun _ => rfl) henc
  rw [hsent] at hbody
  obtain rfl := Option.some.inj hbody
  obtain ⟨n, hfixed, -⟩ := decodeBody_eq_some hdecode
  have hlen : (setUint16 44 (48 + HEADER_SIZE) (readHead req)).length = 48 := by
    simp [length_readHead]
  rw [List.flatten_cons, List.append_assoc, List.take_left' hlen,
    processReadRequestFixed_refuses] at hfixed
  · cases hfixed
  · have hid := req.fileId.2
    unfold readHead READ_REQUEST_SIZE
    simp (disch := simp [length_setUint, length_patch, hid]) only [setUint8, setUint16, setUint32,
      setUint64, slice_setUint_after, slice_setUint_same, fromLe_le]
    rwa [Nat.mod_eq_of_lt hf.readChannelInfoLength]

/-- **When a READ comes back**: if it has no channel info. -/
theorem read_comes_back_iff (hf : req.Fits maxReadSize) :
    req.ComesBack maxReadSize ↔ req.readChannelInfoLength = 0 := by
  constructor
  · intro h
    by_contra hinfo
    exact read_channel_info_refused hf hinfo h
  · intro hinfo S version hS
    have henc : (Cmd.read req).encode S version true [zeros HEADER_SIZE] = _ :=
      encodeReadRequest_plain hS hinfo
    obtain ⟨k, hbody⟩ := Cmd.body_of_encode (by simp [MAX_VECTORS]) (fun _ => rfl) henc
    rw [List.flatten_cons, List.append_assoc] at hbody
    have hlength : ¬ maxReadSize.toNat < req.received.length :=
      Nat.not_lt.mpr (UInt32.le_iff_toNat_le.mp hf.length)
    have hfixed : processReadRequestFixed maxReadSize (readHead req) = some (0, req.received) := by
      unfold processReadRequestFixed
      rw [readRequestFields_head hf]
      simp only
      rw [if_neg hlength, if_pos (show req.received.readChannelInfoLength = 0 from hinfo)]
    have hnone : channelInfo req.readChannelInfoLength req.readChannelInfo = [] := by
      rw [hinfo]
      cases req.readChannelInfo <;> rfl
    exact ⟨_, _, hbody, decodeBody_of_zero (length_readHead req) hfixed, rfl, rfl, rfl, rfl, rfl,
      rfl, rfl, rfl, hnone.symm⟩

end

/-! ## WRITE -/

/-- What a server makes of the octets behind the header. -/
def decodeWriteRequest (body : Bytes) :
    Except Overrun (Option (WriteRequest × Option WriteBuffers)) :=
  decodeBody 48 processWriteRequestFixed
    (fun req iov => (processWriteRequestVariable req iov).map some) body

/-- The fields have their widths, and there is channel info if it has a length. -/
structure WriteArgs.Fits (req : WriteArgs) : Prop where
  offset : req.offset < 256 ^ 8
  channel : req.channel < 256 ^ 4
  remainingBytes : req.remainingBytes < 256 ^ 4
  writeChannelInfoLength : req.writeChannelInfoLength < 256 ^ 2
  writeChannelInfo : req.writeChannelInfoLength = 0 ∨ ∃ m, req.writeChannelInfo = some m
  flags : req.flags < 256 ^ 4

/-- The channel info of a WRITE. -/
def WriteArgs.info (req : WriteArgs) : Bytes :=
  channelInfo req.writeChannelInfoLength req.writeChannelInfo

/-- The data of a WRITE. -/
def WriteArgs.data (req : WriteArgs) : Bytes := req.buf.read req.length.toNat

/-- The request is the one that was sent. -/
structure WriteArgs.Returned (req : WriteArgs) (r : WriteRequest × Option WriteBuffers) : Prop where
  length : r.1.length = req.length.toNat
  offset : r.1.offset = req.offset
  fileId : r.1.fileId = req.fileId.1
  channel : r.1.channel = req.channel
  remainingBytes : r.1.remainingBytes = req.remainingBytes
  writeChannelInfoLength : r.1.writeChannelInfoLength = req.writeChannelInfoLength
  flags : r.1.flags = req.flags
  writeChannelInfo : (r.2.map WriteBuffers.writeChannelInfo).getD [] = req.info
  data : (r.2.map WriteBuffers.buf).getD [] = req.data

/-- In passthrough mode and with multi-credit support the request is sent, and decoded as it was. -/
def WriteArgs.ComesBack (req : WriteArgs) : Prop :=
  ∀ S version, S.supportsMultiCredit = true →
    ∃ body r, (Cmd.write req).body S version true = some body ∧
      decodeWriteRequest body = .ok (some r) ∧ req.Returned r

/-- There is no data, or channel info and data are shorter than 2^31 octets. -/
def WriteArgs.Short (req : WriteArgs) : Prop :=
  req.length = 0 ∨ padTo64 req.writeChannelInfoLength + req.length.toNat < 2 ^ 31

section
variable {S : Settings} {version : Version} {req : WriteArgs}

/-- The fixed part of a WRITE without channel info. -/
def writeHead (req : WriteArgs) : Bytes :=
  zeros (WRITE_REQUEST_SIZE - 1)
    |> setUint16 0 WRITE_REQUEST_SIZE
    |> setUint16 2 (HEADER_SIZE + 48)
    |> setUint32 4 req.length.toNat
    |> setUint64 8 req.offset
    |> (patch · 16 req.fileId.1)
    |> setUint32 32 req.channel
    |> setUint32 36 req.remainingBytes
    |> setUint16 42 req.writeChannelInfoLength
    |> setUint32 44 req.flags

/-- The fixed part of a WRITE. -/
def writeFixed (req : WriteArgs) : Bytes :=
  if req.writeChannelInfoLength ≠ 0 then setUint16 40 (48 + HEADER_SIZE) (writeHead req)
  else writeHead req

theorem length_writeFixed (req : WriteArgs) : (writeFixed req).length = 48 := by
  have hid := req.fileId.2
  unfold writeFixed
  split <;> simp [writeHead, length_patch, hid, WRITE_REQUEST_SIZE]

/-- What is found in the fixed part. -/
def WriteArgs.received (req : WriteArgs) : WriteRequest where
  dataOffset := HEADER_SIZE + 48
  length := req.length.toNat
  offset := req.offset
  fileId := req.fileId.1
  channel := req.channel
  remainingBytes := req.remainingBytes
  writeChannelInfoOffset := if req.writeChannelInfoLength ≠ 0 then HEADER_SIZE + 48 else 0
  writeChannelInfoLength := req.writeChannelInfoLength
  flags := req.flags

theorem writeRequestFields_fixed (hf : req.Fits) :
    writeRequestFields (writeFixed req) = some req.received := by
  have hid := req.fileId.2
  have hlength : req.length.toNat < 256 ^ 4 := req.length.toNat_lt
  have hnone : fromLe (slice (zeros (49 - 1)) 40 2) = 0 := by simp [zeros, slice, fromLe]
  unfold writeRequestFields writeFixed WriteArgs.received
  split
  · unfold writeHead WRITE_REQUEST_SIZE
    simp (disch := simp [length_setUint, length_patch, hid]) only [setUint16, setUint32, setUint64,
      slice_setUint_before, slice_setUint_same, slice_setUint_after, slice_patch_before,
      slice_patch_fileId, fromLe_le]
    rw [if_neg (by simp), Nat.mod_eq_of_lt hlength, Nat.mod_eq_of_lt hf.offset,
      Nat.mod_eq_of_lt hf.channel, Nat.mod_eq_of_lt hf.remainingBytes,
      Nat.mod_eq_of_lt hf.writeChannelInfoLength, Nat.mod_eq_of_lt hf.flags]
    rfl
  · unfold writeHead WRITE_REQUEST_SIZE
    simp (disch := simp [length_setUint, length_patch, hid]) only [setUint16, setUint32, setUint64,
      slice_setUint_before, slice_setUint_same, slice_setUint_after, slice_patch_before,
      slice_patch_after, slice_patch_fileId, fromLe_le, hnone]
    rw [if_neg (by simp), Nat.mod_eq_of_lt hlength, Nat.mod_eq_of_lt hf.offset,
      Nat.mod_eq_of_lt hf.channel, Nat.mod_eq_of_lt hf.remainingBytes,
      Nat.mod_eq_of_lt hf.writeChannelInfoLength, Nat.mod_eq_of_lt hf.flags]
    rfl

/-- The channel info begins right behind the fixed part. -/
theorem WriteArgs.received_iovreqOffset (req : WriteArgs) : req.received.iovreqOffset = 0 := by
  unfold WriteRequest.iovreqOffset WriteArgs.received
  split <;> simp_all

theorem processWriteRequestFixed_fixed (hf : req.Fits) : processWriteRequestFixed (writeFixed req) =
    some (toInt32 req.received.extent, req.received) := by
  have hclear : ¬ req.received.Overlaps := by
    rintro ⟨hinfo, hoffset⟩
    have hplace : req.received.writeChannelInfoOffset = HEADER_SIZE + 48 := if_pos hinfo
    omega
  unfold processWriteRequestFixed
  rw [writeRequestFields_fixed hf]
  exact if_neg hclear

/-- The channel info with its padding. -/
def WriteArgs.paddedInfo (req : WriteArgs) : Bytes :=
  padBuffer req.info (padTo64 req.writeChannelInfoLength)

theorem WriteArgs.length_info (hf : req.Fits) : req.info.length = req.writeChannelInfoLength := by
  unfold WriteArgs.info channelInfo
  rcases hf.writeChannelInfo with hinfo | ⟨m, hm⟩
  · rw [hinfo]
    cases req.writeChannelInfo <;> rfl
  · rw [hm]
    exact Memory.length_read m _

theorem WriteArgs.length_paddedInfo (hf : req.Fits) :
    req.paddedInfo.length = padTo64 req.writeChannelInfoLength := by
  have hle := le_padTo64 hf.writeChannelInfoLength
  unfold WriteArgs.paddedInfo padBuffer
  rw [List.length_append, length_zeros, WriteArgs.length_info hf]
  omega

theorem WriteArgs.length_data (req : WriteArgs) : req.data.length = req.length.toNat :=
  Memory.length_read _ _

theorem encodeWriteRequest_eq (hf : req.Fits) (hS : S.supportsMultiCredit = true) :
    ∃ vs : List Bytes, vs.length ≤ 2 ∧
      encodeWriteRequest S true req [zeros HEADER_SIZE] = some (zeros HEADER_SIZE :: vs) ∧
      vs.flatten = writeFixed req ++ req.paddedInfo := by
  unfold encodeWriteRequest addChannelInfo
  simp only [clampLength_multiCredit hS]
  by_cases hinfo : req.writeChannelInfoLength = 0
  · refine ⟨[writeFixed req], by simp, ?_, ?_⟩
    · unfold writeFixed writeHead
      simp only [hinfo, ne_eq, not_true_eq_false, false_and, if_false, if_true]
      cases req.writeChannelInfo <;> rfl
    · have hempty : req.paddedInfo = [] := by
        rw [← List.length_eq_zero_iff, WriteArgs.length_paddedInfo hf, hinfo]
        rfl
      rw [hempty, List.flatten_singleton, List.append_nil]
  · obtain ⟨m, hm⟩ := hf.writeChannelInfo.resolve_left hinfo
    refine ⟨[writeFixed req, req.paddedInfo], by simp, ?_, ?_⟩
    · unfold writeFixed WriteArgs.paddedInfo WriteArgs.info channelInfo
      simp only [hm, Option.isSome_some, ne_eq, hinfo, not_false_eq_true, and_self, if_true,
        if_false]
      rfl
    · rw [List.flatten_cons, List.flatten_singleton]

/-- What is sent: nothing is between the channel info and the data. -/
theorem write_body (hf : req.Fits) (hS : S.supportsMultiCredit = true) :
    (Cmd.write req).body S version true =
      some (writeFixed req ++ (req.paddedInfo ++ req.data)) := by
  obtain ⟨vs, hvs, henc, hflat⟩ := encodeWriteRequest_eq hf hS
  have hmax : MAX_VECTORS = 256 := rfl
  have hcmd : (Cmd.write req).encode S version true [zeros HEADER_SIZE] = _ := henc
  obtain ⟨pad, k, hzeros, hk, hmod, hone, hmarshal⟩ := Cmd.marshal_of_encode (by omega) hcmd
  have hlen : vs.flatten.length = 48 + padTo64 req.writeChannelInfoLength := by
    rw [hflat, List.length_append, length_writeFixed, WriteArgs.length_paddedInfo hf]
  -- the octets in front of the data are a multiple of eight
  have hk0 : k = 0 := by
    unfold padTo64 at hlen
    omega
  have hroom : (zeros HEADER_SIZE :: (vs ++ pad)).length < MAX_VECTORS := by
    simp only [List.length_cons, List.length_append]
    omega
  have hfinish : (Cmd.write req).finish S (zeros HEADER_SIZE :: (vs ++ pad)) =
      some (zeros HEADER_SIZE :: (vs ++ pad) ++ [req.data]) := by
    unfold Cmd.finish addVector
    simp only [clampLength_multiCredit hS]
    rw [if_neg (by omega)]
    rfl
  unfold Cmd.body
  rw [hmarshal, hfinish, Option.map_some, List.cons_append, List.drop_succ_cons, List.drop_zero,
    List.flatten_append, List.flatten_append, hzeros, hk0, hflat, List.flatten_singleton]
  simp [zeros]

/-- The data begins behind the padded channel info. -/
theorem WriteArgs.received_dataStart (req : WriteArgs) :
    req.received.dataStart = padTo64 req.writeChannelInfoLength := by
  unfold WriteRequest.dataStart
  rw [req.received_iovreqOffset, Nat.zero_add]
  rfl

/-- With data, what is asked for are the padded channel info and the data. -/
theorem WriteArgs.received_extent (h : req.length ≠ 0) :
    req.received.extent = padTo64 req.writeChannelInfoLength + req.length.toNat := by
  have hlength : req.received.length ≠ 0 := fun hzero => h (UInt32.toNat_inj.mp hzero)
  unfold WriteRequest.extent
  rw [if_pos hlength, req.received_dataStart]
  rfl

/-- Without data it is the channel info. -/
theorem WriteArgs.received_extent_zero (h : req.length = 0) :
    req.received.extent = req.writeChannelInfoLength := by
  have hlength : req.received.length = 0 := by
    unfold WriteArgs.received
    rw [h]
    rfl
  unfold WriteRequest.extent
  rw [if_neg (not_not_intro hlength), req.received_iovreqOffset, Nat.zero_add]
  rfl

/-- Where the channel info and the data are found in a variable part that has them. -/
theorem processWriteRequestVariable_sent (hf : req.Fits) {iov : Bytes}
    (hinfo : slice iov 0 req.writeChannelInfoLength = req.info)
    (hdata : slice iov (padTo64 req.writeChannelInfoLength) req.length.toNat = req.data) :
    processWriteRequestVariable req.received iov = .ok ⟨req.info, req.data⟩ := by
  have hreadInfo : (Window.whole iov).read req.received.iovreqOffset
      req.received.writeChannelInfoLength = .ok req.info := by
    rw [req.received_iovreqOffset]
    exact Window.read_of_slice hinfo (WriteArgs.length_info hf)
  have hreadData : (Window.whole iov).read req.received.dataStart req.received.length =
      .ok req.data := by
    rw [req.received_dataStart]
    exact Window.read_of_slice hdata req.length_data
  unfold processWriteRequestVariable
  rw [hreadInfo, ok_bind, hreadData]
  rfl

/-- Channel info and data that fit an `int` are decoded as they were sent. -/
theorem decodeWriteRequest_sent (hf : req.Fits) (hshort : req.Short) :
    ∃ buffers, decodeWriteRequest (writeFixed req ++ (req.paddedInfo ++ req.data)) =
        .ok (some (req.received, buffers)) ∧
      (buffers.map WriteBuffers.writeChannelInfo).getD [] = req.info ∧
      (buffers.map WriteBuffers.buf).getD [] = req.data := by
  have hinfoLen := WriteArgs.length_info hf
  have hpaddedLen := WriteArgs.length_paddedInfo hf
  have hdataLen := req.length_data
  have hle := le_padTo64 hf.writeChannelInfoLength
  have hfixed := processWriteRequestFixed_fixed hf
  have hinfo : ∀ n, req.writeChannelInfoLength ≤ n →
      slice ((req.paddedInfo ++ req.data).take n) 0 req.writeChannelInfoLength = req.info := by
    intro n hn
    unfold WriteArgs.paddedInfo padBuffer slice
    rw [List.drop_zero, List.take_take, Nat.min_eq_left hn, List.append_assoc,
      List.take_left' hinfoLen]
  by_cases hzero : req.length = 0
  · have hnone : req.data = [] := by
      rw [← List.length_eq_zero_iff, hdataLen, hzero]
      rfl
    have hsmall : req.writeChannelInfoLength < 2 ^ 16 := hf.writeChannelInfoLength
    rw [WriteArgs.received_extent_zero hzero, toInt32_of_lt (by omega)] at hfixed
    by_cases hempty : req.writeChannelInfoLength = 0
    · have hno : req.info = [] := by rw [← List.length_eq_zero_iff, hinfoLen, hempty]
      rw [hempty] at hfixed
      exact ⟨none, decodeBody_of_zero (length_writeFixed req) hfixed, hno.symm, hnone.symm⟩
    · have hlong : req.writeChannelInfoLength ≤ (req.paddedInfo ++ req.data).length := by
        rw [List.length_append, hpaddedLen]
        omega
      have hdata : slice ((req.paddedInfo ++ req.data).take req.writeChannelInfoLength)
          (padTo64 req.writeChannelInfoLength) req.length.toNat = req.data := by
        rw [hnone, hzero]
        simp [slice]
      have hdecode : decodeWriteRequest (writeFixed req ++ (req.paddedInfo ++ req.data)) = _ :=
        decodeBody_of_pos (length_writeFixed req) hfixed (by omega) hlong
      rw [processWriteRequestVariable_sent hf (hinfo _ (Nat.le_refl _)) hdata] at hdecode
      exact ⟨_, hdecode, rfl, rfl⟩
  · have hpos : req.length.toNat ≠ 0 := fun h => hzero (UInt32.toNat_inj.mp h)
    have hint := hshort.resolve_left hzero
    rw [WriteArgs.received_extent hzero, toInt32_of_lt hint] at hfixed
    have hall : padTo64 req.writeChannelInfoLength + req.length.toNat =
        (req.paddedInfo ++ req.data).length := by
      rw [List.length_append, hpaddedLen, hdataLen]
    have hdata : slice ((req.paddedInfo ++ req.data).take
        (padTo64 req.writeChannelInfoLength + req.length.toNat))
        (padTo64 req.writeChannelInfoLength) req.length.toNat = req.data := by
      rw [hall, List.take_length, slice_append_right (by omega), hpaddedLen, Nat.sub_self,
        slice_zero (by omega)]
    have hdecode : decodeWriteRequest (writeFixed req ++ (req.paddedInfo ++ req.data)) = _ :=
      decodeBody_of_pos (length_writeFixed req) hfixed (by omega) (by omega)
    rw [processWriteRequestVariable_sent hf (hinfo _ (by omega)) hdata] at hdecode
    exact ⟨_, hdecode, rfl, rfl⟩

/-- A WRITE that fits an `int` is sent and decoded. -/
theorem write_comes_back (hf : req.Fits) (hshort : req.Short) : req.ComesBack := by
  intro S version hS
  obtain ⟨buffers, hdecode, hinfo, hdata⟩ := decodeWriteRequest_sent hf hshort
  exact ⟨_, _, write_body hf hS, hdecode, rfl, rfl, rfl, rfl, rfl, rfl, rfl, hinfo, hdata⟩

/-- Data that is too long is not there, or is looked for where there is nothing any more. -/
theorem write_lost (hf : req.Fits) (hlong : ¬ req.Short) : ¬ req.ComesBack := by
  intro h
  unfold WriteArgs.Short at hlong
  push Not at hlong
  obtain ⟨hzero, hint⟩ := hlong
  have hpos : req.length.toNat ≠ 0 := fun h => hzero (UInt32.toNat_inj.mp h)
  have hlength := req.length.toNat_lt
  have hpad : padTo64 req.writeChannelInfoLength < 2 ^ 31 := by
    have hsmall : req.writeChannelInfoLength < 2 ^ 16 := hf.writeChannelInfoLength
    unfold padTo64
    omega
  let S : Settings := { supportsMultiCredit := true }
  obtain ⟨body, r, hbody, hdecode, hr⟩ := h S .any rfl
  rw [write_body hf rfl] at hbody
  obtain rfl := Option.some.inj hbody
  obtain ⟨n, hfixed, hrest⟩ := decodeBody_eq_some hdecode
  rw [List.take_left' (length_writeFixed req), processWriteRequestFixed_fixed hf,
    WriteArgs.received_extent hzero] at hfixed
  obtain ⟨hn, hreq⟩ := Prod.mk.inj (Option.some.inj hfixed)
  rcases hrest with ⟨-, hnone⟩ | ⟨hasks, buffers, hvar, -⟩
  · -- nothing is asked for, and no data is found
    have hdata := congrArg List.length hr.data
    rw [hnone, req.length_data] at hdata
    exact hpos hdata.symm
  · -- the sum has wrapped, and the data would begin behind what is read
    rw [← hn] at hasks
    obtain ⟨hval, hsmall⟩ := toInt32_pos hasks
    rw [← hreq] at hvar
    refine processWriteRequestVariable_overruns hpos ?_ (Inside.of_map ⟨_, hvar⟩)
    rw [req.received_dataStart, length_slice, ← hn, hval]
    show _ < padTo64 req.writeChannelInfoLength + req.length.toNat
    omega

/-- **When a WRITE comes back**: if it has no data, or fits an `int`. -/
theorem write_comes_back_iff (hf : req.Fits) : req.ComesBack ↔ req.Short :=
  ⟨fun h => by_contra fun hlong => write_lost hf hlong h, write_comes_back hf⟩

end

/-! ## Both -/

/-- **When the two transfers come back.**  A READ with channel info is refused, and a WRITE has to
fit an `int`. -/
theorem transfers_come_back_iff {rd : ReadArgs} {wr : WriteArgs} {maxReadSize : UInt32}
    (hrd : rd.Fits maxReadSize) (hwr : wr.Fits) :
    (rd.ComesBack maxReadSize ↔ rd.readChannelInfoLength = 0) ∧ (wr.ComesBack ↔ wr.Short) :=
  ⟨read_comes_back_iff hrd, write_comes_back_iff hwr⟩

/-- A READ of 4096 octets with channel info of 16. -/
def directRead : ReadArgs where
  length := 4096
  fileId := noId
  channel := 1
  readChannelInfoLength := 16
  readChannelInfo := some fun i => UInt8.ofNat i

theorem directRead_fits : directRead.Fits 65536 where
  flags := by simp [directRead]
  length := by simp [directRead]
  offset := by simp [directRead]
  buf := .inr rfl
  minimumCount := by simp [directRead]
  channel := by simp [directRead]
  remainingBytes := by simp [directRead]
  readChannelInfoLength := by simp [directRead]
  readChannelInfo := .inr ⟨_, rfl⟩

theorem direct_read_refused : directRead.Fits 65536 ∧ ¬ directRead.ComesBack 65536 :=
  ⟨directRead_fits, read_channel_info_refused directRead_fits (by simp [directRead])⟩

/-- A WRITE of three octets with channel info of 16. -/
def directWrite : WriteArgs where
  length := 3
  buf := fun i => UInt8.ofNat i
  fileId := noId
  channel := 1
  writeChannelInfoLength := 16
  writeChannelInfo := some fun i => UInt8.ofNat i

theorem directWrite_fits : directWrite.Fits where
  offset := by simp [directWrite]
  channel := by simp [directWrite]
  remainingBytes := by simp [directWrite]
  writeChannelInfoLength := by simp [directWrite]
  writeChannelInfo := .inr ⟨_, rfl⟩
  flags := by simp [directWrite]

/-- The READ without the channel info. -/
def plainRead : ReadArgs := { directRead with readChannelInfoLength := 0 }

theorem plainRead_fits : plainRead.Fits 65536 :=
  { directRead_fits with
    readChannelInfoLength := by simp [plainRead]
    readChannelInfo := .inl rfl }

theorem plain_read_and_direct_write_come_back :
    plainRead.ComesBack 65536 ∧ directWrite.ComesBack :=
  (transfers_come_back_iff plainRead_fits directWrite_fits).imp (fun h => h.mpr rfl)
    fun h => h.mpr (.inr (by decide))

end Libsmb2
