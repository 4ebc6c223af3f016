import Libsmb2.Process.Create.Returns
import Libsmb2.Process.RequestBounds
import Libsmb2.Process.Requests

/-!
# Requests with a name, a path or an input that come back

What a server makes of a QUERY_DIRECTORY, a TREE_CONNECT and an IOCTL.  In all three the pointer is
written by the decoder of the variable part alone, which is not called if the length is zero; the
end of the name of a QUERY_DIRECTORY is compared with the length of the frame in 16 bits, and that
of the input of an IOCTL is returned as an `int`.

* `Pointer` — a pointer of a payload, which may still be what the allocation left;
* `query_directory_comes_back_iff`, `tree_connect_comes_back_iff`, `ioctl_comes_back_iff` — when
  each of them comes back;
* `named_requests_come_back_iff` — the three together.
-/

set_option autoImplicit false

namespace Libsmb2

open Util

/-- A pointer in a block that has been allocated. -/
inductive Pointer (α : Type)
  /-- What the allocation has left. -/
  | unset
  | null
  | to (a : α)
  deriving DecidableEq, Repr

/-! ## QUERY_DIRECTORY -/

/-- `struct smb2_query_directory_request`, without the name. -/
structure QueryDirectoryRequest where
  fileInformationClass : Nat
  flags : Nat
  fileIndex : Nat
  fileId : Bytes
  fileNameOffset : Nat
  fileNameLength : Nat
  outputBufferLength : Nat
  deriving DecidableEq, Repr

/-- The fields of a fixed part of the right size. -/
def queryDirectoryRequestFields (iov : Bytes) : Option QueryDirectoryRequest :=
  if fromLe (slice iov 0 2) ≠ QUERY_DIRECTORY_REQUEST_SIZE ∨ iov.length ≠ 32 then none
  else some {
    fileInformationClass := fromLe (slice iov 2 1)
    flags := fromLe (slice iov 3 1)
    fileIndex := fromLe (slice iov 4 4)
    fileId := slice iov 8 16
    fileNameOffset := fromLe (slice iov 24 2)
    fileNameLength := fromLe (slice iov 26 2)
    outputBufferLength := fromLe (slice iov 28 4) }

/-- `IOVREQ_OFFSET_DIRECTORY`, of a request whose name does not overlap it. -/
def QueryDirectoryRequest.iovreqOffset (req : QueryDirectoryRequest) : Nat :=
  req.fileNameOffset - (HEADER_SIZE + 32)

/-- `smb2_process_query_directory_request_fixed`, in a frame of `spl` octets; `none` is -1. -/
def processQueryDirectoryRequestFixed (spl : Nat) (iov : Bytes) :
    Option (Int × QueryDirectoryRequest) :=
  match queryDirectoryRequestFields iov with
  | none => none
  | some req =>
    if req.fileNameLength ≠ 0 ∧ spl % 2 ^ 16 < req.fileNameOffset + req.fileNameLength then none
    else if req.fileNameLength = 0 then some (0, req)
    else if req.fileNameOffset < HEADER_SIZE + 32 then none
    else some ((req.iovreqOffset + req.fileNameLength : Nat), req)

/-- `smb2_process_query_directory_request_variable`: the name. -/
def processQueryDirectoryRequestVariable (req : QueryDirectoryRequest) (iov : Bytes) :
    Except Overrun (Option (Pointer CString)) :=
  if 0 < req.fileNameLength then
    (utf16At (.whole iov) req.iovreqOffset req.fileNameLength).map fun name => some (.to name)
  else .ok (some .unset)

/-- What a server makes of the octets behind the header. -/
def decodeQueryDirectoryRequest (spl : Nat) (body : Bytes) :
    Except Overrun (Option (QueryDirectoryRequest × Option (Pointer CString))) :=
  decodeBody 32 (processQueryDirectoryRequestFixed spl) processQueryDirectoryRequestVariable body

namespace QueryDirectoryArgs

/-- The fields have their widths, and the name is valid and has fewer than 65536 octets. -/
structure Fits (req : QueryDirectoryArgs) : Prop where
  fileInformationClass : req.fileInformationClass < 256 ^ 1
  flags : req.flags < 256 ^ 1
  fileIndex : req.fileIndex < 256 ^ 4
  valid : Name.ofString req.name ≠ .invalid
  name : ∀ us, Name.ofString req.name = .units us → 2 * us.length < 2 ^ 16

/-- The name, which is absent if it is empty. -/
def sentName (req : QueryDirectoryArgs) : Pointer CString :=
  match req.name with
  | none => .null
  | some s => if s.octets = [] then .null else .to s

/-- The request is the one that was sent. -/
structure Returned (req : QueryDirectoryArgs)
    (r : QueryDirectoryRequest × Option (Pointer CString)) : Prop where
  fileInformationClass : r.1.fileInformationClass = req.fileInformationClass
  flags : r.1.flags = req.flags
  fileIndex : r.1.fileIndex = req.fileIndex
  fileId : r.1.fileId = req.fileId.1
  outputBufferLength : r.1.outputBufferLength = req.outputBufferLength.toNat
  name : r.2.getD .unset = req.sentName

/-- In a frame of `spl` octets the request is sent, and decoded as it was. -/
def ComesBack (req : QueryDirectoryArgs) (spl : Nat) : Prop :=
  ∀ S version passthrough, ∃ body r,
    (Cmd.queryDirectory req).body S version passthrough = some body ∧
      decodeQueryDirectoryRequest spl body = .ok (some r) ∧ req.Returned r

/-- There is a name, and it does not end behind the length of the frame in 16 bits. -/
def Named (req : QueryDirectoryArgs) (spl : Nat) : Prop :=
  ∃ us, Name.ofString req.name = .units us ∧ HEADER_SIZE + 32 + 2 * us.length ≤ spl % 2 ^ 16

end QueryDirectoryArgs

section
variable {S : Settings} {version : Version} {passthrough : Bool} {req : QueryDirectoryArgs}
  {spl length : Nat} {us : List Nat}

/-- The fixed part of a QUERY_DIRECTORY without a name. -/
def queryDirectoryHead (req : QueryDirectoryArgs) : Bytes :=
  zeros (QUERY_DIRECTORY_REQUEST_SIZE - 1)
    |> setUint16 0 QUERY_DIRECTORY_REQUEST_SIZE
    |> setUint8 2 req.fileInformationClass
    |> setUint8 3 req.flags
    |> setUint32 4 req.fileIndex
    |> (patch · 8 req.fileId.1)
    |> setUint16 24 (HEADER_SIZE + 32)
    |> setUint32 28 req.outputBufferLength.toNat

/-- The fixed part of a QUERY_DIRECTORY with a name of this length. -/
def queryDirectoryFixed (req : QueryDirectoryArgs) (length : Nat) : Bytes :=
  setUint16 26 length (queryDirectoryHead req)

theorem length_queryDirectoryHead (req : QueryDirectoryArgs) :
    (queryDirectoryHead req).length = 32 := by
  have hid := req.fileId.2
  simp [queryDirectoryHead, length_patch, hid, QUERY_DIRECTORY_REQUEST_SIZE]

theorem length_queryDirectoryFixed (req : QueryDirectoryArgs) (length : Nat) :
    (queryDirectoryFixed req length).length = 32 := by
  rw [queryDirectoryFixed, length_setUint16, length_queryDirectoryHead]

/-- What is found in the fixed part. -/
def QueryDirectoryArgs.received (req : QueryDirectoryArgs) (length : Nat) :
    QueryDirectoryRequest where
  fileInformationClass := req.fileInformationClass
  flags := req.flags
  fileIndex := req.fileIndex
  fileId := req.fileId.1
  fileNameOffset := HEADER_SIZE + 32
  fileNameLength := length
  outputBufferLength := req.outputBufferLength.toNat

theorem queryDirectoryRequestFields_fixed (hf : req.Fits) (hlength : length < 256 ^ 2) :
    queryDirectoryRequestFields (queryDirectoryFixed req length) = some (req.received length) := by
  have hid := req.fileId.2
  have hout : req.outputBufferLength.toNat < 256 ^ 4 := req.outputBufferLength.toNat_lt
  unfold queryDirectoryRequestFields
  rw [length_queryDirectoryFixed]
  unfold queryDirectoryFixed queryDirectoryHead QUERY_DIRECTORY_REQUEST_SIZE
  simp (disch := simp [length_setUint, length_patch, hid]) only [setUint8, setUint16, setUint32,
    slice_setUint_before, slice_setUint_same, slice_setUint_after, slice_patch_before,
    slice_patch_fileId, fromLe_le]
  rw [if_neg (by simp), Nat.mod_eq_of_lt hf.fileInformationClass, Nat.mod_eq_of_lt hf.flags,
    Nat.mod_eq_of_lt hf.fileIndex, Nat.mod_eq_of_lt hlength, Nat.mod_eq_of_lt hout]
  rfl

/-- Without a name there are zeros where its length goes. -/
theorem queryDirectoryFixed_zero (req : QueryDirectoryArgs) :
    queryDirectoryFixed req 0 = queryDirectoryHead req := by
  have hid := req.fileId.2
  have hzero : slice (queryDirectoryHead req) 26 2 = le 2 0 := by
    unfold queryDirectoryHead QUERY_DIRECTORY_REQUEST_SIZE
    simp (disch := simp [length_setUint, length_patch, hid]) only [setUint8, setUint16, setUint32,
      slice_setUint_before, slice_setUint_after, slice_patch_after]
    simp [zeros, slice, le]
  rw [queryDirectoryFixed, setUint16, setUint_slice hzero]

theorem encodeQueryDirectoryRequest_absent (hname : Name.ofString req.name = .absent) :
    (Cmd.queryDirectory req).encode S version passthrough [zeros HEADER_SIZE] =
      some (zeros HEADER_SIZE :: [queryDirectoryFixed req 0]) := by
  rw [queryDirectoryFixed_zero]
  unfold Cmd.encode encodeQueryDirectoryRequest
  simp only [hname]
  rfl

theorem encodeQueryDirectoryRequest_units (hname : Name.ofString req.name = .units us) :
    (Cmd.queryDirectory req).encode S version passthrough [zeros HEADER_SIZE] =
      some (zeros HEADER_SIZE :: [queryDirectoryFixed req (2 * us.length), utf16Octets us]) := by
  unfold Cmd.encode encodeQueryDirectoryRequest
  simp only [hname]
  rfl

/-- A request without a name leaves the pointer to it unset. -/
theorem query_directory_name_unset (hf : req.Fits) (hname : Name.ofString req.name = .absent) :
    ¬ req.ComesBack spl := by
  intro h
  obtain ⟨body, r, hbody, hdecode, hr⟩ := h {} .any false
  obtain ⟨k, hsent⟩ := Cmd.body_of_encode (by simp [MAX_VECTORS]) (fun _ => rfl)
    (encodeQueryDirectoryRequest_absent hname)
  rw [hsent, List.flatten_singleton] at hbody
  obtain rfl := Option.some.inj hbody
  have hfixed : processQueryDirectoryRequestFixed spl (queryDirectoryFixed req 0) =
      some (0, req.received 0) := by
    unfold processQueryDirectoryRequestFixed
    rw [queryDirectoryRequestFields_fixed hf (by simp)]
    rfl
  unfold decodeQueryDirectoryRequest at hdecode
  rw [decodeBody_of_zero (length_queryDirectoryFixed req 0) hfixed] at hdecode
  obtain rfl := Option.some.inj (Except.ok.inj hdecode)
  have hunset : Pointer.unset = req.sentName := hr.name
  unfold QueryDirectoryArgs.sentName at hunset
  split at hunset
  · cases hunset
  · split at hunset <;> cases hunset

theorem processQueryDirectoryRequestFixed_fixed (hf : req.Fits) (hpos : 0 < length)
    (hlength : length < 256 ^ 2) :
    processQueryDirectoryRequestFixed spl (queryDirectoryFixed req length) =
      if spl % 2 ^ 16 < HEADER_SIZE + 32 + length then none
      else some ((length : Int), req.received length) := by
  have hoffset : (req.received length).iovreqOffset = 0 := Nat.sub_self _
  have hlen : (req.received length).fileNameLength = length := rfl
  have hplace : (req.received length).fileNameOffset = HEADER_SIZE + 32 := rfl
  unfold processQueryDirectoryRequestFixed
  rw [queryDirectoryRequestFields_fixed hf hlength]
  simp only [hlen, hplace, hoffset, Nat.zero_add, Nat.lt_irrefl, if_false]
  split
  · rename_i hrefused
    rw [if_pos hrefused.2]
  · rename_i htaken
    rw [if_neg (by omega), if_neg (by omega)]

/-- The name of a request is read as it was sent. -/
theorem processQueryDirectoryRequestVariable_sent {s : CString} (hback : Transcodes s.octets us)
    (hpos : 0 < us.length) :
    processQueryDirectoryRequestVariable (req.received (2 * us.length)) (utf16Octets us) =
      .ok (some (.to s)) := by
  have hoffset : (req.received (2 * us.length)).iovreqOffset = 0 := Nat.sub_self _
  have hlen : (req.received (2 * us.length)).fileNameLength = 2 * us.length := rfl
  have htext : CString.ofBytes (utf16ToUtf8 (utf16Units (utf16Octets us))) = s := by
    rw [utf16Units_utf16Octets hback.lt, utf16ToUtf8_utf8ToUtf16 (utf8ToUtf16_eq_some.mpr hback)]
    exact CString.ext_octets s.ofBytes_octets
  unfold processQueryDirectoryRequestVariable utf16At
  rw [hlen, hoffset, if_pos (by omega), Nat.mul_div_cancel_left _ (by decide), Nat.mul_comm,
    Window.read_of_le (by simp), Window.whole_octets, slice_zero (by simp)]
  simp only [Except.map, htext]

/-- **When a QUERY_DIRECTORY comes back.** -/
theorem query_directory_comes_back_iff (hf : req.Fits) : req.ComesBack spl ↔ req.Named spl := by
  cases hname : Name.ofString req.name with
  | invalid => exact absurd hname hf.valid
  | absent =>
    refine iff_of_false (query_directory_name_unset hf hname) ?_
    rintro ⟨us, hus, -⟩
    rw [hname] at hus
    cases hus
  | units us =>
    obtain ⟨s, hs, hback, hpos⟩ := Name.ofString_units hname
    have hshort : 2 * us.length < 256 ^ 2 := hf.name us hname
    have hsent : req.sentName = .to s := by
      have hne : s.octets ≠ [] := by
        intro hempty
        rw [hs, Name.ofString, if_pos hempty] at hname
        cases hname
      unfold QueryDirectoryArgs.sentName
      rw [hs]
      exact if_neg hne
    have hfixed : processQueryDirectoryRequestFixed spl (queryDirectoryFixed req (2 * us.length)) =
        _ := processQueryDirectoryRequestFixed_fixed hf (by omega) hshort
    have hbody : ∀ S version passthrough, ∃ k, (Cmd.queryDirectory req).body S version passthrough =
        some (queryDirectoryFixed req (2 * us.length) ++ (utf16Octets us ++ zeros k)) := by
      intro S version passthrough
      obtain ⟨k, hbody⟩ := Cmd.body_of_encode (by simp [MAX_VECTORS]) (fun _ => rfl)
        (encodeQueryDirectoryRequest_units hname)
      rw [List.flatten_cons, List.flatten_singleton, List.append_assoc] at hbody
      exact ⟨k, hbody⟩
    constructor
    · intro h
      refine ⟨us, hname, ?_⟩
      by_contra hlong
      obtain ⟨body, r, hsome, hdecode, -⟩ := h {} .any false
      obtain ⟨k, hk⟩ := hbody {} .any false
      rw [hk] at hsome
      obtain rfl := Option.some.inj hsome
      obtain ⟨n, hn, -⟩ := decodeBody_eq_some hdecode
      rw [List.take_left' (length_queryDirectoryFixed req _), hfixed, if_pos (by omega)] at hn
      cases hn
    · rintro ⟨us', hus, hfits⟩ S version passthrough
      rw [hname] at hus
      obtain rfl : us = us' := by injection hus
      obtain ⟨k, hk⟩ := hbody S version passthrough
      rw [if_neg (by omega)] at hfixed
      have hdecode : decodeQueryDirectoryRequest spl (queryDirectoryFixed req (2 * us.length) ++
          (utf16Octets us ++ zeros k)) = _ :=
        decodeBody_of_pos (length_queryDirectoryFixed req _) hfixed (by omega) (by simp)
      rw [List.take_left' (length_utf16Octets us),
        processQueryDirectoryRequestVariable_sent hback hpos] at hdecode
      exact ⟨_, _, hk, hdecode, rfl, rfl, rfl, rfl, rfl, hsent.symm⟩

end

/-! ## TREE_CONNECT -/

/-- `struct smb2_tree_connect_request`, without the path. -/
structure TreeConnectRequest where
  flags : Nat
  pathOffset : Nat
  pathLength : Nat
  deriving DecidableEq, Repr

/-- `smb2_process_tree_connect_request_fixed`; `none` is -1. -/
def processTreeConnectRequestFixed (iov : Bytes) : Option (Int × TreeConnectRequest) :=
  if fromLe (slice iov 0 2) ≠ TREE_CONNECT_REQUEST_SIZE ∨ iov.length ≠ 8 then none
  else
    let pathLength := fromLe (slice iov 6 2)
    some ((pathLength : Int), ⟨fromLe (slice iov 2 2), fromLe (slice iov 4 2), pathLength⟩)

/-- `smb2_process_tree_connect_request_variable`: the path. -/
def processTreeConnectRequestVariable (_ : TreeConnectRequest) (iov : Bytes) :
    Except Overrun (Option (Pointer Bytes)) :=
  .ok (some (.to iov))

/-- What a server makes of the octets behind the header. -/
def decodeTreeConnectRequest (body : Bytes) :
    Except Overrun (Option (TreeConnectRequest × Option (Pointer Bytes))) :=
  decodeBody 8 processTreeConnectRequestFixed processTreeConnectRequestVariable body

namespace TreeConnectArgs

/-- The fields have their widths. -/
structure Fits (req : TreeConnectArgs) : Prop where
  flags : req.flags < 256 ^ 2
  path : req.path.length < 256 ^ 2

/-- The request is the one that was sent. -/
structure Returned (req : TreeConnectArgs) (r : TreeConnectRequest × Option (Pointer Bytes)) :
    Prop where
  flags : r.1.flags = req.flags
  pathLength : r.1.pathLength = req.path.length
  path : r.2.getD .unset = .to req.path

/-- The request is sent, and decoded as it was. -/
def ComesBack (req : TreeConnectArgs) : Prop :=
  ∀ S version passthrough, ∃ body r,
    (Cmd.treeConnect req).body S version passthrough = some body ∧
      decodeTreeConnectRequest body = .ok (some r) ∧ req.Returned r

end TreeConnectArgs

section
variable {req : TreeConnectArgs}

/-- The fixed part of a TREE_CONNECT. -/
def treeConnectFixed (req : TreeConnectArgs) : Bytes :=
  zeros (TREE_CONNECT_REQUEST_SIZE - 1)
    |> setUint16 0 TREE_CONNECT_REQUEST_SIZE
    |> setUint16 2 req.flags
    |> setUint16 4 (HEADER_SIZE + 8)
    |> setUint16 6 req.path.length

theorem length_treeConnectFixed (req : TreeConnectArgs) : (treeConnectFixed req).length = 8 := by
  simp [treeConnectFixed, TREE_CONNECT_REQUEST_SIZE]

theorem processTreeConnectRequestFixed_fixed (hf : req.Fits) :
    processTreeConnectRequestFixed (treeConnectFixed req) =
      some ((req.path.length : Int), ⟨req.flags, HEADER_SIZE + 8, req.path.length⟩) := by
  unfold processTreeConnectRequestFixed
  rw [length_treeConnectFixed]
  unfold treeConnectFixed TREE_CONNECT_REQUEST_SIZE
  simp (disch := simp [length_setUint]) only [setUint16, slice_setUint_before, slice_setUint_same,
    fromLe_le]
  rw [if_neg (by simp), Nat.mod_eq_of_lt hf.flags, Nat.mod_eq_of_lt hf.path]
  rfl

/-- **When a TREE_CONNECT comes back.** -/
theorem tree_connect_comes_back_iff (hf : req.Fits) : req.ComesBack ↔ req.path ≠ [] := by
  have hfixed := processTreeConnectRequestFixed_fixed hf
  have hbody : ∀ S version passthrough, ∃ k, (Cmd.treeConnect req).body S version passthrough =
      some (treeConnectFixed req ++ (req.path ++ zeros k)) := by
    intro S version passthrough
    have henc : (Cmd.treeConnect req).encode S version passthrough [zeros HEADER_SIZE] =
        some (zeros HEADER_SIZE :: [treeConnectFixed req, req.path]) := rfl
    obtain ⟨k, hbody⟩ := Cmd.body_of_encode (by simp [MAX_VECTORS]) (fun _ => rfl) henc
    rw [List.flatten_cons, List.flatten_singleton, List.append_assoc] at hbody
    exact ⟨k, hbody⟩
  constructor
  · intro h hempty
    obtain ⟨body, r, hsome, hdecode, hr⟩ := h {} .any false
    obtain ⟨k, hk⟩ := hbody {} .any false
    rw [hk] at hsome
    obtain rfl := Option.some.inj hsome
    unfold decodeTreeConnectRequest at hdecode
    rw [hempty] at hfixed
    rw [decodeBody_of_zero (length_treeConnectFixed req) hfixed] at hdecode
    obtain rfl := Option.some.inj (Except.ok.inj hdecode)
    cases hr.path
  · intro hne S version passthrough
    obtain ⟨k, hk⟩ := hbody S version passthrough
    have hdecode : decodeTreeConnectRequest (treeConnectFixed req ++ (req.path ++ zeros k)) = _ :=
      decodeBody_of_pos (length_treeConnectFixed req) hfixed (List.length_pos_iff.mpr hne)
        (by simp)
    rw [List.take_left] at hdecode
    exact ⟨_, _, hk, hdecode, rfl, rfl, rfl⟩

end

/-! ## IOCTL -/

/-- What a server in passthrough mode makes of the octets behind the header. -/
def decodeIoctlRequest (body : Bytes) :
    Except Overrun (Option (IoctlRequest × Option (Option IoctlInput × Nat))) :=
  decodeBody 56 processIoctlRequestFixed (processIoctlRequestVariable true) body

/-- `input`, which is null if the library does not handle it. -/
def inputPointer : Option (Option IoctlInput × Nat) → Pointer IoctlInput
  | none => .unset
  | some (none, _) => .null
  | some (some input, _) => .to input

/-- `input_count`, which is set once more together with the input. -/
def inputCount (r : IoctlRequest × Option (Option IoctlInput × Nat)) : Nat :=
  (r.2.map Prod.snd).getD r.1.inputCount

namespace IoctlArgs

/-- The fields have their widths, and the library does not answer the request on its own. -/
structure Fits (req : IoctlArgs) : Prop where
  ctlCode : req.ctlCode < 256 ^ 4
  flags : req.flags < 256 ^ 4
  input : req.input.length < 256 ^ 4
  plain : req.ctlCode ≠ FSCTL_VALIDATE_NEGOTIATE_INFO

/-- The request is the one that was sent. -/
structure Returned (req : IoctlArgs) (r : IoctlRequest × Option (Option IoctlInput × Nat)) :
    Prop where
  ctlCode : r.1.ctlCode = req.ctlCode
  fileId : r.1.fileId = req.fileId.1
  flags : r.1.flags = req.flags
  inputCount : inputCount r = req.input.length
  input : inputPointer r.2 = .to (.raw req.input)

/-- In passthrough mode the request is sent, and decoded as it was. -/
def ComesBack (req : IoctlArgs) : Prop :=
  ∀ S version, ∃ body r, (Cmd.ioctl req).body S version true = some body ∧
    decodeIoctlRequest body = .ok (some r) ∧ req.Returned r

end IoctlArgs

section
variable {req : IoctlArgs}

/-- The fixed part of an IOCTL. -/
def ioctlFixed (req : IoctlArgs) : Bytes :=
  zeros (IOCTL_REQUEST_SIZE - 1)
    |> setUint16 0 IOCTL_REQUEST_SIZE
    |> setUint32 4 req.ctlCode
    |> (patch · 8 req.fileId.1)
    |> setUint32 24 (HEADER_SIZE + 56)
    |> setUint32 28 req.input.length
    |> setUint32 32 0
    |> setUint32 44 IOCTL_MAX_OUTPUT
    |> setUint32 48 req.flags

theorem length_ioctlFixed (req : IoctlArgs) : (ioctlFixed req).length = 56 := by
  have hid := req.fileId.2
  simp [ioctlFixed, length_patch, hid, IOCTL_REQUEST_SIZE]

/-- What is found in the fixed part. -/
def IoctlArgs.received (req : IoctlArgs) : IoctlRequest where
  ctlCode := req.ctlCode
  fileId := req.fileId.1
  inputOffset := HEADER_SIZE + 56
  inputCount := req.input.length
  maxInputResponse := 0
  outputOffset := 0
  outputCount := 0
  maxOutputResponse := IOCTL_MAX_OUTPUT
  flags := req.flags

theorem ioctlRequestFields_fixed (hf : req.Fits) :
    ioctlRequestFields (ioctlFixed req) = some req.received := by
  have hid := req.fileId.2
  have hoffset : fromLe (slice (zeros (57 - 1)) 36 4) = 0 := by simp [zeros, slice, fromLe]
  have hcount : fromLe (slice (zeros (57 - 1)) 40 4) = 0 := by simp [zeros, slice, fromLe]
  unfold ioctlRequestFields
  rw [length_ioctlFixed]
  unfold ioctlFixed IOCTL_REQUEST_SIZE
  simp (disch := simp [length_setUint, length_patch, hid]) only [setUint16, setUint32,
    slice_setUint_before, slice_setUint_same, slice_setUint_after, slice_patch_before,
    slice_patch_after, slice_patch_fileId, fromLe_le, hoffset, hcount]
  rw [if_neg (by simp), Nat.mod_eq_of_lt hf.ctlCode, Nat.mod_eq_of_lt hf.input,
    Nat.mod_eq_of_lt hf.flags]
  rfl

/-- The input begins right behind the fixed part. -/
theorem IoctlArgs.received_iovreqOffset (req : IoctlArgs) : req.received.iovreqOffset = 0 :=
  sub32_of_le (Nat.le_refl _)

theorem processIoctlRequestFixed_fixed (hf : req.Fits) :
    processIoctlRequestFixed (ioctlFixed req) = some (toInt32 req.input.length, req.received) := by
  have hextent : req.received.extent = req.input.length := by
    unfold IoctlRequest.extent
    rw [req.received_iovreqOffset, Nat.zero_add]
    rfl
  have hcount : req.received.inputCount = req.input.length := rfl
  have hoffset : ¬ req.received.inputOffset < HEADER_SIZE + 56 := Nat.lt_irrefl _
  unfold processIoctlRequestFixed
  rw [ioctlRequestFields_fixed hf]
  simp only [hcount, if_neg hoffset, hextent]
  split
  · rename_i hempty
    rw [hempty]
    rfl
  · rfl

/-- The input of a request is read as it was sent. -/
theorem processIoctlRequestVariable_sent (hf : req.Fits) :
    processIoctlRequestVariable true req.received req.input =
      .ok (some (some (.raw req.input), req.input.length)) := by
  have hskip : (Window.whole req.input).skip req.received.iovreqOffset = .whole req.input := by
    rw [req.received_iovreqOffset]
    rfl
  have hcount : req.received.inputCount = req.input.length := rfl
  have hcode : req.received.ctlCode ≠ FSCTL_VALIDATE_NEGOTIATE_INFO := hf.plain
  have hwidth : req.input.length < 2 ^ 32 := hf.input
  have hread : (Window.whole req.input).read 0 req.input.length = .ok req.input :=
    Window.read_of_slice (slice_zero (Nat.le_refl _)) rfl
  unfold processIoctlRequestVariable
  simp only [hskip, hcount, Window.whole_len, Nat.lt_irrefl, if_false, if_neg hcode, if_true,
    Nat.mod_eq_of_lt hwidth]
  rw [hread]
  rfl

theorem ioctl_body (S : Settings) (version : Version) (passthrough : Bool) (req : IoctlArgs) :
    ∃ k, (Cmd.ioctl req).body S version passthrough =
      some (ioctlFixed req ++ (req.input ++ zeros k)) := by
  by_cases hempty : req.input = []
  · have henc : (Cmd.ioctl req).encode S version passthrough [zeros HEADER_SIZE] =
        some (zeros HEADER_SIZE :: [ioctlFixed req]) := by
      unfold Cmd.encode encodeIoctlRequest
      simp only [if_pos hempty]
      rfl
    obtain ⟨k, hbody⟩ := Cmd.body_of_encode (by simp [MAX_VECTORS]) (fun _ => rfl) henc
    rw [List.flatten_singleton] at hbody
    rw [hempty]
    exact ⟨k, hbody⟩
  · have henc : (Cmd.ioctl req).encode S version passthrough [zeros HEADER_SIZE] =
        some (zeros HEADER_SIZE :: [ioctlFixed req, req.input]) := by
      unfold Cmd.encode encodeIoctlRequest
      simp only [if_neg hempty]
      rfl
    obtain ⟨k, hbody⟩ := Cmd.body_of_encode (by simp [MAX_VECTORS]) (fun _ => rfl) henc
    rw [List.flatten_cons, List.flatten_singleton, List.append_assoc] at hbody
    exact ⟨k, hbody⟩

/-- **When an IOCTL comes back.** -/
theorem ioctl_comes_back_iff (hf : req.Fits) :
    req.ComesBack ↔ req.input ≠ [] ∧ req.input.length < 2 ^ 31 := by
  have hfixed := processIoctlRequestFixed_fixed hf
  constructor
  · intro h
    obtain ⟨body, r, hsome, hdecode, hr⟩ := h {} .any
    obtain ⟨k, hk⟩ := ioctl_body {} .any true req
    rw [hk] at hsome
    obtain rfl := Option.some.inj hsome
    obtain ⟨n, hn, hrest⟩ := decodeBody_eq_some hdecode
    rw [List.take_left' (length_ioctlFixed req), hfixed] at hn
    obtain ⟨hn, -⟩ := Prod.mk.inj (Option.some.inj hn)
    rcases hrest with ⟨-, hnone⟩ | ⟨hasks, -⟩
    · -- nothing has been asked for, and the pointer is what it was
      have hinput := hr.input
      rw [hnone] at hinput
      cases hinput
    · refine ⟨?_, (toInt32_nonneg hf.input (by omega)).1⟩
      intro hempty
      rw [← hn, hempty] at hasks
      exact absurd hasks (by simp [toInt32])
  · rintro ⟨hne, hsmall⟩ S version
    obtain ⟨k, hk⟩ := ioctl_body S version true req
    rw [toInt32_of_lt hsmall] at hfixed
    have hdecode : decodeIoctlRequest (ioctlFixed req ++ (req.input ++ zeros k)) = _ :=
      decodeBody_of_pos (length_ioctlFixed req) hfixed (List.length_pos_iff.mpr hne) (by simp)
    rw [List.take_left, processIoctlRequestVariable_sent hf] at hdecode
    exact ⟨_, _, hk, hdecode, rfl, rfl, rfl, rfl, rfl⟩

end

/-! ## All three -/

/-- **When requests with a name, a path or an input come back.**  None does without one, for then
the pointer to it is not written. -/
theorem named_requests_come_back_iff {qd : QueryDirectoryArgs} {tc : TreeConnectArgs}
    {io : IoctlArgs} (spl : Nat) (hqd : qd.Fits) (htc : tc.Fits) (hio : io.Fits) :
    (qd.ComesBack spl ↔ qd.Named spl) ∧ (tc.ComesBack ↔ tc.path ≠ []) ∧
      (io.ComesBack ↔ io.input ≠ [] ∧ io.input.length < 2 ^ 31) :=
  ⟨query_directory_comes_back_iff hqd, tree_connect_comes_back_iff htc, ioctl_comes_back_iff hio⟩

/-- A QUERY_DIRECTORY that goes on with a search. -/
def nextEntries : QueryDirectoryArgs where
  fileInformationClass := 0x25
  fileId := noId
  outputBufferLength := 0xffff

theorem nextEntries_fits : nextEntries.Fits where
  fileInformationClass := by simp [nextEntries]
  flags := by simp [nextEntries]
  fileIndex := by simp [nextEntries]
  valid := nofun
  name := nofun

theorem next_entries_name_unset : nextEntries.Fits ∧ ¬ nextEntries.ComesBack 96 :=
  ⟨nextEntries_fits, query_directory_name_unset nextEntries_fits rfl⟩

/-- A TREE_CONNECT with a path of two octets. -/
def connectTo : TreeConnectArgs := { path := [0x5c, 0] }

/-- An FSCTL_PIPE_WAIT with two octets of input. -/
def pipeWait : IoctlArgs where
  ctlCode := 0x00110018
  fileId := noId
  input := [1, 2]

/-- A QUERY_DIRECTORY for all names. -/
def allEntries : QueryDirectoryArgs := { nextEntries with name := some (.ofBytes [0x2a]) }

theorem allEntries_units : Name.ofString allEntries.name = .units [0x2a] := rfl

theorem allEntries_fits : allEntries.Fits :=
  { nextEntries_fits with
    valid := by rw [allEntries_units]; nofun
    name := fun us hus => by
      rw [allEntries_units] at hus
      cases hus
      decide }

theorem named_requests_come_back :
    allEntries.ComesBack 98 ∧ connectTo.ComesBack ∧ pipeWait.ComesBack := by
  have hconnectTo : connectTo.Fits := ⟨by simp [connectTo], by simp [connectTo]⟩
  have hpipeWait : pipeWait.Fits := ⟨by simp [pipeWait], by simp [pipeWait], by simp [pipeWait],
    by simp [pipeWait, FSCTL_VALIDATE_NEGOTIATE_INFO]⟩
  obtain ⟨hquery, hconnect, hioctl⟩ :=
    named_requests_come_back_iff 98 allEntries_fits hconnectTo hpipeWait
  exact ⟨hquery.mpr ⟨_, allEntries_units, by decide⟩, hconnect.mpr (by simp [connectTo]),
    hioctl.mpr (by simp [pipeWait])⟩

end Libsmb2
