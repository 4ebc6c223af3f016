import Libsmb2.Process.Ioctl
import Libsmb2.Process.ReplyBounds

/-!
# The buffers of three requests

What a server makes of a WRITE, an IOCTL and a QUERY_INFO request.  The sum of the offset and the
lengths, which says how much is to be read, wraps at 2^32 in all three; the offset of the data of a
WRITE is not looked at, and neither is whether the input of an IOCTL that the library answers on its
own has all the fields that are copied out of it.

* `write_confined_iff`, `ioctl_read_inside_iff`, `query_info_request_read_inside_iff` — when each
  of them stays in the variable part;
* `request_buffers_lie_inside_iff` — the three together.
-/

set_option autoImplicit false

namespace Libsmb2

open Util

/-! ## WRITE -/

/-- `struct smb2_write_request`, without the buffers. -/
structure WriteRequest where
  dataOffset : Nat
  length : Nat
  offset : Nat
  fileId : Bytes
  channel : Nat
  remainingBytes : Nat
  writeChannelInfoOffset : Nat
  writeChannelInfoLength : Nat
  flags : Nat
  deriving DecidableEq, Repr

/-- The fields of a fixed part; any size up to that of a request is taken. -/
def writeRequestFields (iov : Bytes) : Option WriteRequest :=
  if WRITE_REQUEST_SIZE < fromLe (slice iov 0 2) then none
  else some {
    dataOffset := fromLe (slice iov 2 2)
    length := fromLe (slice iov 4 4)
    offset := fromLe (slice iov 8 8)
    fileId := slice iov 16 16
    channel := fromLe (slice iov 32 4)
    remainingBytes := fromLe (slice iov 36 4)
    writeChannelInfoOffset := fromLe (slice iov 40 2)
    writeChannelInfoLength := fromLe (slice iov 42 2)
    flags := fromLe (slice iov 44 4) }

namespace WriteRequest

/-- `IOVREQ_OFFSET_WRITE`, of a request whose channel info does not overlap it. -/
def iovreqOffset (req : WriteRequest) : Nat :=
  if req.writeChannelInfoLength ≠ 0 then req.writeChannelInfoOffset - (HEADER_SIZE + 48) else 0

/-- Where `buf` begins in the variable part. -/
def dataStart (req : WriteRequest) : Nat := req.iovreqOffset + padTo64 req.writeChannelInfoLength

/-- How much is to be read, before the sum wraps. -/
def extent (req : WriteRequest) : Nat :=
  if req.length ≠ 0 then req.dataStart + req.length
  else req.iovreqOffset + req.writeChannelInfoLength

/-- The channel info overlaps the fixed part. -/
def Overlaps (req : WriteRequest) : Prop :=
  req.writeChannelInfoLength ≠ 0 ∧ req.writeChannelInfoOffset < HEADER_SIZE + 48

instance (req : WriteRequest) : Decidable req.Overlaps := inferInstanceAs (Decidable (_ ∧ _))

end WriteRequest

/-- `smb2_process_write_request_fixed`; `none` is -1. -/
def processWriteRequestFixed (iov : Bytes) : Option (Int × WriteRequest) :=
  match writeRequestFields iov with
  | none => none
  | some req => if req.Overlaps then none else some (toInt32 req.extent, req)

/-- What is exposed of the variable part of a WRITE. -/
structure WriteBuffers where
  writeChannelInfo : Bytes
  buf : Bytes
  deriving DecidableEq, Repr

/-- `smb2_process_write_request_variable`: what a caller finds where it is told that the channel info
and the data are. -/
def processWriteRequestVariable (req : WriteRequest) (iov : Bytes) : Except Overrun WriteBuffers := do
  let writeChannelInfo ← (Window.whole iov).read req.iovreqOffset req.writeChannelInfoLength
  let buf ← (Window.whole iov).read req.dataStart req.length
  .ok ⟨writeChannelInfo, buf⟩

/-- The data is taken from the place that `data_offset` gives. -/
def WriteRequest.InPlace (req : WriteRequest) : Prop :=
  req.length ≠ 0 → req.dataOffset = HEADER_SIZE + 48 + req.dataStart

/-- What is exposed of a WRITE lies in its variable part, the data where `data_offset` says that it
is. -/
def WriteConfined (iov : Bytes) : Prop :=
  ReadInside processWriteRequestFixed processWriteRequestVariable iov ∧
    ∀ n req, processWriteRequestFixed iov = some (n, req) → 0 < n → req.InPlace

/-- The request is refused, or asks for nothing; or its end does not wrap, and its data follows the
channel info. -/
def WriteRequest.Fits (req : WriteRequest) : Prop :=
  req.Overlaps ∨ (Asks req.extent → req.extent < 4294967296 ∧ req.InPlace)

section
variable {req : WriteRequest} {iov buf : Bytes}

theorem writeRequestFields_lt (h : writeRequestFields iov = some req) :
    req.writeChannelInfoOffset < 2 ^ 16 ∧ req.writeChannelInfoLength < 2 ^ 16 ∧
      req.length < 2 ^ 32 := by
  unfold writeRequestFields at h
  split at h
  · cases h
  · cases h
    exact ⟨fromLe_slice_lt iov 40 2, fromLe_slice_lt iov 42 2, fromLe_slice_lt iov 4 4⟩

theorem le_padTo64 {len : Nat} (h : len < 2 ^ 16) : len ≤ padTo64 len := by
  unfold padTo64
  omega

/-- The channel info and the data lie before the extent. -/
theorem processWriteRequestVariable_inside (hinfo : req.writeChannelInfoLength < 2 ^ 16)
    (hbuf : buf.length = req.extent) : Inside (processWriteRequestVariable req buf) := by
  have hpad := le_padTo64 hinfo
  have hstart : req.dataStart = req.iovreqOffset + padTo64 req.writeChannelInfoLength := rfl
  unfold WriteRequest.extent at hbuf
  unfold processWriteRequestVariable
  by_cases hlen : req.length = 0
  · rw [if_neg (by omega)] at hbuf
    refine (Window.inside_read_of_le (by rw [Window.whole_octets]; omega)).bind fun info _ => ?_
    rw [hlen]
    exact Window.inside_read_zero.bind fun data _ => .ok _
  · rw [if_pos hlen] at hbuf
    refine (Window.inside_read_of_le (by rw [Window.whole_octets]; omega)).bind fun info _ => ?_
    exact (Window.inside_read_of_le (by rw [Window.whole_octets]; omega)).bind fun data _ => .ok _

/-- Data that ends behind the variable part is not read inside it. -/
theorem processWriteRequestVariable_overruns (hlen : req.length ≠ 0)
    (hbuf : buf.length < req.dataStart + req.length) :
    ¬ Inside (processWriteRequestVariable req buf) := by
  intro h
  obtain ⟨info, -, hdata⟩ := inside_bind_iff.mp h
  obtain ⟨data, hread, -⟩ := inside_bind_iff.mp hdata
  rw [Window.read_of_lt hlen hbuf] at hread
  cases hread

theorem write_confined_iff (iov : Bytes) :
    WriteConfined iov ↔ ∀ req ∈ writeRequestFields iov, req.Fits := by
  unfold WriteConfined
  cases hfields : writeRequestFields iov with
  | none =>
    have hnone : processWriteRequestFixed iov = none := by
      unfold processWriteRequestFixed
      rw [hfields]
    refine iff_of_true ⟨.of_none hnone, ?_⟩ (by simp)
    intro n req hfixed
    rw [hnone] at hfixed
    cases hfixed
  | some req =>
    obtain ⟨hinfoOff, hinfo, hlength⟩ := writeRequestFields_lt hfields
    have hfixed : processWriteRequestFixed iov =
        if req.Overlaps then none else some (toInt32 req.extent, req) := by
      unfold processWriteRequestFixed
      rw [hfields]
    simp only [Option.mem_def, Option.some.injEq, forall_eq']
    unfold WriteRequest.Fits
    by_cases hover : req.Overlaps
    · rw [if_pos hover] at hfixed
      refine iff_of_true ⟨.of_none hfixed, ?_⟩ (.inl hover)
      intro n req' hsome
      rw [hfixed] at hsome
      cases hsome
    rw [if_neg hover] at hfixed
    rw [readInside_iff hfixed, or_iff_right hover]
    constructor
    · rintro ⟨hinside, hplace⟩ hasks
      refine ⟨?_, hplace _ req hfixed (toInt32_asks.mpr hasks)⟩
      by_contra hwraps
      have hne : req.length ≠ 0 := by
        intro hzero
        have hsum : req.extent = req.iovreqOffset + req.writeChannelInfoLength :=
          if_neg (not_not_intro hzero)
        have hstart : req.iovreqOffset ≤ req.writeChannelInfoOffset := by
          unfold WriteRequest.iovreqOffset
          split <;> omega
        omega
      have hsum : req.extent = req.dataStart + req.length := if_pos hne
      refine processWriteRequestVariable_overruns hne ?_
        (hinside hasks (zeros (req.extent % 4294967296)) (length_zeros _))
      rw [length_zeros]
      omega
    · intro hgood
      refine ⟨fun hasks buf hbuf => ?_, fun n req' hsome hpos => ?_⟩
      · rw [Nat.mod_eq_of_lt (hgood hasks).1] at hbuf
        exact processWriteRequestVariable_inside hinfo hbuf
      · rw [hfixed] at hsome
        obtain ⟨hn, hreq⟩ := Prod.mk.inj (Option.some.inj hsome)
        subst hn hreq
        exact (hgood (toInt32_asks.mp hpos)).2

end

/-! ## IOCTL -/

/-- `struct smb2_ioctl_request`, without the input. -/
structure IoctlRequest where
  ctlCode : Nat
  fileId : Bytes
  inputOffset : Nat
  inputCount : Nat
  maxInputResponse : Nat
  outputOffset : Nat
  outputCount : Nat
  maxOutputResponse : Nat
  flags : Nat
  deriving DecidableEq, Repr

/-- The fields of a fixed part of the right size. -/
def ioctlRequestFields (iov : Bytes) : Option IoctlRequest :=
  if fromLe (slice iov 0 2) ≠ IOCTL_REQUEST_SIZE ∨ iov.length ≠ 56 then none
  else some {
    ctlCode := fromLe (slice iov 4 4)
    fileId := slice iov 8 16
    inputOffset := fromLe (slice iov 24 4)
    inputCount := fromLe (slice iov 28 4)
    maxInputResponse := fromLe (slice iov 32 4)
    outputOffset := fromLe (slice iov 36 4)
    outputCount := fromLe (slice iov 40 4)
    maxOutputResponse := fromLe (slice iov 44 4)
    flags := fromLe (slice iov 48 4) }

namespace IoctlRequest

/-- `IOVREQ_OFFSET_IOCTL`, a `uint32_t`. -/
def iovreqOffset (req : IoctlRequest) : Nat := sub32 req.inputOffset (HEADER_SIZE + 56)

/-- How much is to be read, before the sum wraps. -/
def extent (req : IoctlRequest) : Nat := req.iovreqOffset + req.inputCount

end IoctlRequest

/-- `smb2_process_ioctl_request_fixed`; `none` is -1. -/
def processIoctlRequestFixed (iov : Bytes) : Option (Int × IoctlRequest) :=
  match ioctlRequestFields iov with
  | none => none
  | some req =>
    if req.inputCount = 0 then some (0, req)
    else if req.inputOffset < HEADER_SIZE + 56 then none
    else some (toInt32 req.extent, req)

/-- `struct smb2_ioctl_validate_negotiate_info`. -/
structure ValidateNegotiateInfo where
  capabilities : Nat
  guid : Bytes
  securityMode : Nat
  dialect : Nat
  deriving DecidableEq, Repr

/-- What `input` points at. -/
inductive IoctlInput
  | validateNegotiateInfo (info : ValidateNegotiateInfo)
  | raw (bs : Bytes)
  deriving DecidableEq, Repr

/-- The fields are copied into a block of zeros, where one that is not there stays zero. -/
def readValidateNegotiateInfo (vec : Window) : Except Overrun ValidateNegotiateInfo := do
  let capabilities ← vec.get 4 0 0
  let guid ← vec.read 4 16
  let securityMode ← vec.get 2 20 0
  let dialect ← vec.get 2 22 0
  .ok ⟨capabilities, guid, securityMode, dialect⟩

/-- `smb2_process_ioctl_request_variable`: the input, if there is one that is handled, and
`input_count`; `none` is `-EINVAL`. -/
def processIoctlRequestVariable (passthrough : Bool) (req : IoctlRequest) (iov : Bytes) :
    Except Overrun (Option (Option IoctlInput × Nat)) :=
  let vec := (Window.whole iov).skip req.iovreqOffset
  if vec.len < req.inputCount then .ok none
  else if req.ctlCode = FSCTL_VALIDATE_NEGOTIATE_INFO then do
    let info ← readValidateNegotiateInfo vec
    .ok (some (some (.validateNegotiateInfo info), 24))
  else if passthrough then do
    -- `input_count` is a `uint32_t`
    let bs ← vec.read 0 (vec.len % 2 ^ 32)
    .ok (some (some (.raw bs), vec.len % 2 ^ 32))
  else .ok (some (none, req.inputCount))

/-- The request is refused, or asks for nothing, or its input is not looked at; or the end of the
input does not wrap, and what is copied out of it is there. -/
def IoctlRequest.Fits (passthrough : Bool) (req : IoctlRequest) : Prop :=
  req.inputCount = 0 ∨ req.inputOffset < HEADER_SIZE + 56 ∨
    (Asks req.extent →
      (req.ctlCode = FSCTL_VALIDATE_NEGOTIATE_INFO → req.extent < 4294967296 ∧
        20 ≤ req.inputCount) ∧
      (req.ctlCode ≠ FSCTL_VALIDATE_NEGOTIATE_INFO → passthrough = true →
        req.extent < 4294967296))

section
variable {passthrough : Bool} {req : IoctlRequest} {iov buf : Bytes} {vec : Window}

theorem ioctlRequestFields_lt (h : ioctlRequestFields iov = some req) :
    req.inputOffset < 2 ^ 32 ∧ req.inputCount < 2 ^ 32 := by
  unfold ioctlRequestFields at h
  split at h
  · cases h
  · cases h
    exact ⟨fromLe_slice_lt iov 24 4, fromLe_slice_lt iov 28 4⟩

/-- Nothing but the GUID is copied without a look at the length. -/
theorem readValidateNegotiateInfo_inside_iff (hv : vec.Sound) (hall : vec.octets.length ≤ vec.len) :
    Inside (readValidateNegotiateInfo vec) ↔ 20 ≤ vec.len := by
  unfold Window.Sound at hv
  unfold readValidateNegotiateInfo
  constructor
  · intro h
    obtain ⟨capabilities, -, hguid⟩ := inside_bind_iff.mp h
    obtain ⟨guid, hread, -⟩ := inside_bind_iff.mp hguid
    have hlong := (Window.inside_read_iff (by decide)).mp ⟨guid, hread⟩
    omega
  · intro h
    refine (Window.Sound.get hv 4 0 0).bind fun capabilities _ => ?_
    refine (Window.inside_read_of_le (by omega)).bind fun guid _ => ?_
    refine (Window.Sound.get hv 2 20 0).bind fun securityMode _ => ?_
    exact (Window.Sound.get hv 2 22 0).bind fun dialect _ => .ok _

/-- The input is behind the vector, and what is left of it has been counted down past zero. -/
theorem readValidateNegotiateInfo_overruns (hempty : vec.octets = []) (hlen : 4 ≤ vec.len) :
    ¬ Inside (readValidateNegotiateInfo vec) := by
  unfold readValidateNegotiateInfo
  refine not_inside_bind ?_
  rw [Window.get_of_lt (by omega) (by decide) (by rw [hempty]; decide) 0]
  exact not_inside_error _

/-- The extent does not wrap: the input is what is left of the vector. -/
theorem processIoctlRequestVariable_of_lt (hcount : req.inputCount < 2 ^ 32)
    (hbuf : buf.length = req.extent) :
    Inside (processIoctlRequestVariable passthrough req buf) ↔
      (req.ctlCode = FSCTL_VALIDATE_NEGOTIATE_INFO → 20 ≤ req.inputCount) := by
  have hsum : req.extent = req.iovreqOffset + req.inputCount := rfl
  have hv : ((Window.whole buf).skip req.iovreqOffset).Sound :=
    (Window.sound_whole buf).skip (by rw [Window.whole_len]; omega)
  have hlen : ((Window.whole buf).skip req.iovreqOffset).len = req.inputCount := by
    rw [Window.skip_len, Window.whole_len, sub64_of_le (by omega)]
    omega
  have hoctets : ((Window.whole buf).skip req.iovreqOffset).octets.length = req.inputCount := by
    rw [Window.skip_octets, Window.whole_octets, List.length_drop]
    omega
  unfold processIoctlRequestVariable
  generalize (Window.whole buf).skip req.iovreqOffset = vec at hv hlen hoctets
  simp only
  rw [if_neg (by omega)]
  split
  · rename_i hcode
    simp only [hcode, forall_true_left]
    rw [← hlen, ← readValidateNegotiateInfo_inside_iff hv (by omega), inside_bind_iff]
    constructor
    · rintro ⟨info, hinfo, -⟩
      exact ⟨info, hinfo⟩
    · rintro ⟨info, hinfo⟩
      exact ⟨info, hinfo, .ok _⟩
  · rename_i hcode
    refine iff_of_true ?_ fun h => absurd h hcode
    split
    · rw [hlen, Nat.mod_eq_of_lt hcount]
      exact (Window.inside_read_of_le (by omega)).bind fun bs _ => .ok _
    · exact .ok _

/-- The extent wraps: the input begins behind the vector. -/
theorem processIoctlRequestVariable_of_wraps (hoff : req.iovreqOffset < 2 ^ 32)
    (hcount : req.inputCount < 2 ^ 32) (hwraps : 4294967296 ≤ req.extent)
    (hbuf : buf.length = req.extent % 4294967296) :
    Inside (processIoctlRequestVariable passthrough req buf) ↔
      req.ctlCode ≠ FSCTL_VALIDATE_NEGOTIATE_INFO ∧ passthrough = false := by
  have hsum : req.extent = req.iovreqOffset + req.inputCount := rfl
  have hlen : ((Window.whole buf).skip req.iovreqOffset).len =
      buf.length + 2 ^ 64 - req.iovreqOffset := by
    rw [Window.skip_len, Window.whole_len, sub64_of_lt (by omega)]
  have hempty : ((Window.whole buf).skip req.iovreqOffset).octets = [] := by
    rw [Window.skip_octets, Window.whole_octets, List.drop_of_length_le (by omega)]
  unfold processIoctlRequestVariable
  generalize (Window.whole buf).skip req.iovreqOffset = vec at hlen hempty
  simp only
  rw [if_neg (by omega)]
  split
  · rename_i hcode
    refine iff_of_false ?_ fun h => h.1 hcode
    exact not_inside_bind (readValidateNegotiateInfo_overruns hempty (by omega))
  · rename_i hcode
    split
    · rename_i hpass
      refine iff_of_false ?_ fun h => ?_
      · refine not_inside_bind ?_
        rw [Window.read_of_lt (by omega) (by rw [hempty, List.length_nil]; omega)]
        exact not_inside_error _
      · rw [h.2] at hpass
        cases hpass
    · rename_i hpass
      exact iff_of_true (.ok _) ⟨hcode, Bool.eq_false_iff.mpr hpass⟩

theorem ioctl_read_inside_iff (passthrough : Bool) (iov : Bytes) :
    ReadInside processIoctlRequestFixed (processIoctlRequestVariable passthrough) iov ↔
      ∀ req ∈ ioctlRequestFields iov, req.Fits passthrough := by
  cases hfields : ioctlRequestFields iov with
  | none =>
    refine iff_of_true (.of_none ?_) (by simp)
    unfold processIoctlRequestFixed
    rw [hfields]
  | some req =>
    obtain ⟨hoffset, hcount⟩ := ioctlRequestFields_lt hfields
    have hstart : req.iovreqOffset < 2 ^ 32 := sub32_lt hoffset
    have hfixed : processIoctlRequestFixed iov = if req.inputCount = 0 then some (0, req)
        else if req.inputOffset < HEADER_SIZE + 56 then none
        else some (toInt32 req.extent, req) := by
      unfold processIoctlRequestFixed
      rw [hfields]
    simp only [Option.mem_def, Option.some.injEq, forall_eq']
    unfold IoctlRequest.Fits
    by_cases hzero : req.inputCount = 0
    · rw [if_pos hzero] at hfixed
      exact iff_of_true (.of_nonpos hfixed le_rfl) (.inl hzero)
    rw [if_neg hzero] at hfixed
    by_cases hoff : req.inputOffset < HEADER_SIZE + 56
    · rw [if_pos hoff] at hfixed
      exact iff_of_true (.of_none hfixed) (.inr (.inl hoff))
    rw [if_neg hoff] at hfixed
    rw [readInside_iff hfixed, or_iff_right hzero, or_iff_right hoff]
    refine imp_congr_right fun hasks => ?_
    by_cases hsmall : req.extent < 4294967296
    · rw [Nat.mod_eq_of_lt hsmall]
      constructor
      · intro hall
        have hinside := hall (zeros req.extent) (length_zeros _)
        have htwenty := (processIoctlRequestVariable_of_lt hcount (length_zeros _)).mp hinside
        exact ⟨fun hcode => ⟨hsmall, htwenty hcode⟩, fun _ _ => hsmall⟩
      · rintro ⟨hvalidate, -⟩ buf hbuf
        exact (processIoctlRequestVariable_of_lt hcount hbuf).mpr fun hcode => (hvalidate hcode).2
    · constructor
      · intro hall
        have hinside := hall (zeros (req.extent % 4294967296)) (length_zeros _)
        obtain ⟨hcode, hpass⟩ := (processIoctlRequestVariable_of_wraps hstart hcount (by omega)
          (length_zeros _)).mp hinside
        refine ⟨fun h => absurd h hcode, fun _ h => ?_⟩
        rw [hpass] at h
        cases h
      · rintro ⟨hvalidate, hraw⟩ buf hbuf
        refine (processIoctlRequestVariable_of_wraps hstart hcount (by omega) hbuf).mpr ?_
        have hcode : req.ctlCode ≠ FSCTL_VALIDATE_NEGOTIATE_INFO :=
          fun h => hsmall (hvalidate h).1
        exact ⟨hcode, Bool.eq_false_iff.mpr fun h => hsmall (hraw hcode h)⟩

end

/-! ## QUERY_INFO -/

/-- `struct smb2_query_info_request`, without the input. -/
structure QueryInfoRequest where
  infoType : Nat
  fileInfoClass : Nat
  outputBufferLength : Nat
  inputBufferOffset : Nat
  inputBufferLength : Nat
  additionalInformation : Nat
  flags : Nat
  fileId : Bytes
  deriving DecidableEq, Repr

/-- The fields of a fixed part of the right size. -/
def queryInfoRequestFields (iov : Bytes) : Option QueryInfoRequest :=
  if fromLe (slice iov 0 2) ≠ QUERY_INFO_REQUEST_SIZE ∨ iov.length ≠ 40 then none
  else some {
    infoType := fromLe (slice iov 2 1)
    fileInfoClass := fromLe (slice iov 3 1)
    outputBufferLength := fromLe (slice iov 4 4)
    inputBufferOffset := fromLe (slice iov 8 2)
    inputBufferLength := fromLe (slice iov 12 4)
    additionalInformation := fromLe (slice iov 16 4)
    flags := fromLe (slice iov 20 4)
    fileId := slice iov 24 16 }

namespace QueryInfoRequest

/-- `IOVREQ_OFFSET_QUERY`, of a request whose input does not overlap it. -/
def iovreqOffset (req : QueryInfoRequest) : Nat := req.inputBufferOffset - (HEADER_SIZE + 40)

/-- How much is to be read, before the sum wraps. -/
def extent (req : QueryInfoRequest) : Nat := req.iovreqOffset + req.inputBufferLength

/-- There is no input, or it overlaps the fixed part, or nothing is asked for, or its end does not
wrap. -/
def Fits (req : QueryInfoRequest) : Prop :=
  req.inputBufferLength = 0 ∨ req.inputBufferOffset < HEADER_SIZE + 40 ∨
    (Asks req.extent → req.extent < 4294967296)

end QueryInfoRequest

/-- `smb2_process_query_info_request_fixed`; `none` is -1. -/
def processQueryInfoRequestFixed (iov : Bytes) : Option (Int × QueryInfoRequest) :=
  match queryInfoRequestFields iov with
  | none => none
  | some req =>
    if req.inputBufferLength = 0 then some (0, req)
    else if req.inputBufferOffset < HEADER_SIZE + 40 then none
    else some (toInt32 req.extent, req)

/-- `smb2_process_query_info_request_variable`: what a caller finds where it is told that the input
is. -/
def processQueryInfoRequestVariable (req : QueryInfoRequest) (iov : Bytes) : Except Overrun Bytes :=
  (Window.whole iov).read req.iovreqOffset req.inputBufferLength

theorem query_info_request_read_inside_iff (iov : Bytes) :
    ReadInside processQueryInfoRequestFixed processQueryInfoRequestVariable iov ↔
      ∀ req ∈ queryInfoRequestFields iov, req.Fits := by
  cases hfields : queryInfoRequestFields iov with
  | none =>
    refine iff_of_true (.of_none ?_) (by simp)
    unfold processQueryInfoRequestFixed
    rw [hfields]
  | some req =>
    have hfixed : processQueryInfoRequestFixed iov =
        if req.inputBufferLength = 0 then some (0, req)
        else if req.inputBufferOffset < HEADER_SIZE + 40 then none
        else some (toInt32 req.extent, req) := by
      unfold processQueryInfoRequestFixed
      rw [hfields]
    simp only [Option.mem_def, Option.some.injEq, forall_eq']
    refine readInside_extent_iff hfixed fun hlen _ buf => ?_
    exact Window.inside_read_iff hlen

/-- **The buffers of the three requests lie in what is read for them exactly if their ends do not
wrap, the data of a WRITE is where it is taken from, and the input of a VALIDATE_NEGOTIATE_INFO has
the GUID.** -/
theorem request_buffers_lie_inside_iff (passthrough : Bool) (iov : Bytes) :
    (WriteConfined iov ↔ ∀ req ∈ writeRequestFields iov, req.Fits) ∧
      (ReadInside processIoctlRequestFixed (processIoctlRequestVariable passthrough) iov ↔
        ∀ req ∈ ioctlRequestFields iov, req.Fits passthrough) ∧
      (ReadInside processQueryInfoRequestFixed processQueryInfoRequestVariable iov ↔
        ∀ req ∈ queryInfoRequestFields iov, req.Fits) := by
  refine ⟨?_, ?_, ?_⟩
  · exact write_confined_iff iov
  · exact ioctl_read_inside_iff passthrough iov
  · exact query_info_request_read_inside_iff iov

/-- An input that begins eight octets behind the fixed part and ends four octets behind it. -/
def wrappingQueryInfoRequest : Bytes :=
  le 2 41 ++ zeros 6 ++ le 2 112 ++ zeros 2 ++ le 4 4294967292 ++ zeros 24

/-- Four octets are read, and the input begins behind them. -/
theorem input_begins_behind_the_request :
    ¬ ReadInside processQueryInfoRequestFixed processQueryInfoRequestVariable
      wrappingQueryInfoRequest := by
  apply not_readInside_of_error 4 (zeros 4) .read
  · decide +kernel
  · decide +kernel
  · decide
  · decide

end Libsmb2
