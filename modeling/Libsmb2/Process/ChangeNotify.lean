import Libsmb2.Process.Requests

/-!
# Change notifications that come back

What each side makes of a CHANGE_NOTIFY of the other.  The decoder of the request never writes the
length of the output into the structure that it has allocated, and the encoder of the reply gives
an offset of the output that comes from the size of the request.

* `change_notify_reply_decoded` — the output of a reply is decoded as it was sent;
* `change_notify_comes_back_iff` — when a request and a reply come back.
-/

set_option autoImplicit false

namespace Libsmb2

open Util

/-! ## Requests -/

/-- `struct smb2_change_notify_request`. -/
structure ChangeNotifyRequest where
  flags : Nat
  outputBufferLength : Nat
  fileId : Bytes
  completionFilter : Nat
  deriving DecidableEq, Repr

/-- `smb2_process_change_notify_request_fixed`; `none` is -1.  `fresh` is what the allocation leaves
in the length of the output. -/
def processChangeNotifyRequestFixed (fresh : UInt32) (iov : Bytes) :
    Option (Int × ChangeNotifyRequest) :=
  if fromLe (slice iov 0 2) ≠ 32 ∨ iov.length ≠ 32 then none
  else some (0, {
    flags := fromLe (slice iov 2 2)
    outputBufferLength := fresh.toNat
    fileId := slice iov 8 16
    completionFilter := fromLe (slice iov 24 4) })

/-- What a server makes of the octets behind the header; there is no variable part. -/
def decodeChangeNotifyRequest (fresh : UInt32) (body : Bytes) :
    Except Overrun (Option (ChangeNotifyRequest × Option Unit)) :=
  decodeBody 32 (processChangeNotifyRequestFixed fresh) (fun _ _ => .ok none) body

/-- The request is the one that was sent. -/
structure ChangeNotifyArgs.Returned (req : ChangeNotifyArgs) (r : ChangeNotifyRequest) : Prop where
  flags : r.flags = req.flags
  outputBufferLength : r.outputBufferLength = req.outputBufferLength.toNat
  fileId : r.fileId = req.fileId.1
  completionFilter : r.completionFilter = req.completionFilter

/-- The request is sent, and decoded as it was, whatever the allocation leaves. -/
def ChangeNotifyArgs.ComesBack (req : ChangeNotifyArgs) : Prop :=
  ∀ S version passthrough fresh, ∃ body r,
    (Cmd.changeNotify req).body S version passthrough = some body ∧
      decodeChangeNotifyRequest fresh body = .ok (some r) ∧ req.Returned r.1

section
variable {req : ChangeNotifyArgs} {fresh : UInt32} {body : Bytes}
  {r : ChangeNotifyRequest × Option Unit}

/-- The length of the output is what the allocation has left. -/
theorem decodeChangeNotifyRequest_fresh (h : decodeChangeNotifyRequest fresh body = .ok (some r)) :
    r.1.outputBufferLength = fresh.toNat := by
  obtain ⟨n, hfixed, -⟩ := decodeBody_eq_some h
  unfold processChangeNotifyRequestFixed at hfixed
  split at hfixed
  · cases hfixed
  · have hr := (Prod.mk.inj (Option.some.inj hfixed)).2
    rw [← hr]

theorem change_notify_request_lost (req : ChangeNotifyArgs) : ¬ req.ComesBack := by
  intro h
  obtain ⟨body, r, -, hdecode, hr⟩ := h {} .any false (req.outputBufferLength + 1)
  have hfresh := decodeChangeNotifyRequest_fresh hdecode
  rw [hr.outputBufferLength, UInt32.toNat_inj] at hfresh
  exact absurd hfresh (by simp)

end

/-! ## Replies -/

/-- `struct smb2_change_notify_reply`, without the output. -/
structure ChangeNotifyReply where
  outputBufferOffset : Nat
  outputBufferLength : Nat
  deriving DecidableEq, Repr

def CHANGE_NOTIFY_REQUEST_SIZE : Nat := 32
def CHANGE_NOTIFY_REPLY_SIZE : Nat := 9

/-- The fixed part of a reply with an output of this length. -/
def changeNotifyReplyHead (length : Nat) : Bytes :=
  zeros (CHANGE_NOTIFY_REPLY_SIZE - 1)
    |> setUint16 0 CHANGE_NOTIFY_REPLY_SIZE
    |> setUint16 2 (HEADER_SIZE + CHANGE_NOTIFY_REQUEST_SIZE)
    |> setUint32 4 length

/-- `smb2_encode_change_notify_reply`, of a reply with this output; `none` is -1. -/
def encodeChangeNotifyReply (passthrough : Bool) (output : Bytes) (out : List Bytes) :
    Except Overrun (Option (List Bytes)) :=
  match addVector (changeNotifyReplyHead output.length) out with
  | none => .ok none
  | some out =>
    if output.length = 0 then .ok (some out)
    -- the padded length is an `int`, and there is no block of a negative one
    else if 2 ^ 31 ≤ padTo32 output.length then .ok none
    else if MAX_VECTORS ≤ out.length then .ok none
    else if passthrough = false then .ok none
    else if padTo32 output.length < output.length then .error .write
    else .ok (addVector output out)

/-- `smb2_cmd_change_notify_reply_async`: the octets behind the header. -/
def cmdChangeNotifyReply (passthrough : Bool) (output : Bytes) :
    Except Overrun (Option Bytes) :=
  (encodeChangeNotifyReply passthrough output [zeros HEADER_SIZE]).map replyBody

/-- `smb2_process_change_notify_fixed`; `none` is -1. -/
def processChangeNotifyFixed (iov : Bytes) : Option (Int × ChangeNotifyReply) :=
  if fromLe (slice iov 0 2) ≠ CHANGE_NOTIFY_REPLY_SIZE ∨ iov.length ≠ 8 then none
  else
    let outputBufferLength := fromLe (slice iov 4 4)
    some (toInt32 outputBufferLength, ⟨fromLe (slice iov 2 2), outputBufferLength⟩)

/-- `smb2_process_change_notify_variable`: the output, wherever the offset points to. -/
def processChangeNotifyVariable (_ : ChangeNotifyReply) (iov : Bytes) :
    Except Overrun (Option Bytes) :=
  .ok (some iov)

/-- What a client makes of the octets behind the header. -/
def decodeChangeNotifyReply (body : Bytes) :
    Except Overrun (Option (ChangeNotifyReply × Option Bytes)) :=
  decodeBody 8 processChangeNotifyFixed processChangeNotifyVariable body

/-- The reply is sent with its output at the offset that it gives, and decoded as it was. -/
def ChangeNotifyReplyComesBack (output : Bytes) : Prop :=
  ∃ body r, cmdChangeNotifyReply true output = .ok (some body) ∧
    decodeChangeNotifyReply body = .ok (some r) ∧
    slice (zeros HEADER_SIZE ++ body) r.1.outputBufferOffset output.length = output ∧
    r.1.outputBufferLength = output.length ∧ r.2.getD [] = output

section
variable {passthrough : Bool} {output body : Bytes} {length : Nat}

@[simp] theorem length_changeNotifyReplyHead (length : Nat) :
    (changeNotifyReplyHead length).length = 8 := by
  simp [changeNotifyReplyHead, CHANGE_NOTIFY_REPLY_SIZE]

/-- The output goes out right behind the fixed part. -/
theorem cmdChangeNotifyReply_eq_some (h : cmdChangeNotifyReply passthrough output = .ok (some body)) :
    ∃ k, k < 8 ∧ body = changeNotifyReplyHead output.length ++ (output ++ zeros k) := by
  have hadd : addVector (changeNotifyReplyHead output.length) [zeros HEADER_SIZE] =
      some [zeros HEADER_SIZE, changeNotifyReplyHead output.length] := rfl
  unfold cmdChangeNotifyReply encodeChangeNotifyReply at h
  rw [hadd] at h
  simp only at h
  split at h
  · rename_i hempty
    obtain ⟨k, hk, hbody⟩ :=
      replyBody_of_lt [changeNotifyReplyHead output.length] (by simp [MAX_VECTORS])
    obtain rfl := List.length_eq_zero_iff.mp hempty
    rw [Except.map, hbody] at h
    cases h
    exact ⟨k, hk, by simp⟩
  split at h
  · cases h
  split at h
  · cases h
  split at h
  · cases h
  split at h
  · cases h
  · obtain ⟨k, hk, hbody⟩ :=
      replyBody_of_lt [changeNotifyReplyHead output.length, output] (by simp [MAX_VECTORS])
    have hsent : addVector output [zeros HEADER_SIZE, changeNotifyReplyHead output.length] =
        some (zeros HEADER_SIZE :: [changeNotifyReplyHead output.length, output]) := rfl
    rw [Except.map, hsent, hbody] at h
    cases h
    exact ⟨k, hk, by simp⟩

/-- What is found in the fixed part. -/
theorem processChangeNotifyFixed_head (hlength : length < 256 ^ 4) :
    processChangeNotifyFixed (changeNotifyReplyHead length) =
      some (toInt32 length, ⟨HEADER_SIZE + CHANGE_NOTIFY_REQUEST_SIZE, length⟩) := by
  unfold processChangeNotifyFixed
  rw [length_changeNotifyReplyHead]
  unfold changeNotifyReplyHead CHANGE_NOTIFY_REPLY_SIZE
  simp (disch := simp [length_setUint]) only [setUint16, setUint32, slice_setUint_before,
    slice_setUint_same, fromLe_le]
  rw [if_neg (by simp), Nat.mod_eq_of_lt hlength]
  rfl

/-- The offset comes from the size of a request. -/
theorem processChangeNotifyFixed_offset {n : Int} {rep : ChangeNotifyReply}
    (h : processChangeNotifyFixed (changeNotifyReplyHead length) = some (n, rep)) :
    rep.outputBufferOffset = HEADER_SIZE + CHANGE_NOTIFY_REQUEST_SIZE := by
  have hoffset : fromLe (slice (changeNotifyReplyHead length) 2 2) =
      HEADER_SIZE + CHANGE_NOTIFY_REQUEST_SIZE := by
    unfold changeNotifyReplyHead CHANGE_NOTIFY_REPLY_SIZE
    simp (disch := simp [length_setUint]) only [setUint16, setUint32, slice_setUint_before,
      slice_setUint_same, fromLe_le]
    rfl
  unfold processChangeNotifyFixed at h
  split at h
  · cases h
  · have hrep := (Prod.mk.inj (Option.some.inj h)).2
    rw [← hrep]
    exact hoffset

/-- **The output of a reply is decoded as it was sent**, from the place where it is. -/
theorem change_notify_reply_decoded (output rest : Bytes) (hlength : output.length < 2 ^ 31) :
    ∃ r, decodeChangeNotifyReply
        (changeNotifyReplyHead output.length ++ (output ++ rest)) = .ok (some r) ∧
      r.1.outputBufferLength = output.length ∧ r.2.getD [] = output := by
  have hwidth : output.length < 256 ^ 4 := by omega
  have hfixed := processChangeNotifyFixed_head hwidth
  rw [toInt32_of_lt hlength] at hfixed
  by_cases hempty : output.length = 0
  · rw [hempty] at hfixed ⊢
    exact ⟨_, decodeBody_of_zero (length_changeNotifyReplyHead 0) hfixed, rfl,
      (List.length_eq_zero_iff.mp hempty).symm⟩
  · refine ⟨_, decodeBody_of_pos (length_changeNotifyReplyHead _) hfixed (by omega)
      (by rw [List.length_append]; omega), rfl, ?_⟩
    exact List.take_left

/-- An output that there is is not where the offset says. -/
theorem change_notify_output_misplaced (hoctets : output ≠ []) :
    ¬ ChangeNotifyReplyComesBack output := by
  rintro ⟨body, r, hbody, hdecode, hplace, -⟩
  have hpos : 0 < output.length := List.length_pos_iff.mpr hoctets
  obtain ⟨k, hk, rfl⟩ := cmdChangeNotifyReply_eq_some hbody
  obtain ⟨n, hfixed, -⟩ := decodeBody_eq_some hdecode
  rw [List.take_left' (length_changeNotifyReplyHead _)] at hfixed
  have hoffset := processChangeNotifyFixed_offset hfixed
  have hlen := congrArg List.length hplace
  -- at the offset there is less left than the output is long
  rw [length_slice, hoffset] at hlen
  simp only [List.length_append, length_zeros, length_changeNotifyReplyHead, HEADER_SIZE,
    CHANGE_NOTIFY_REQUEST_SIZE] at hlen
  omega

/-- **When change notifications come back**: a request never, and a reply if it has no output. -/
theorem change_notify_comes_back_iff (req : ChangeNotifyArgs) (output : Bytes) :
    ¬ req.ComesBack ∧ (ChangeNotifyReplyComesBack output ↔ output = []) := by
  refine ⟨change_notify_request_lost req, ?_, ?_⟩
  · intro h
    by_contra hoctets
    exact change_notify_output_misplaced hoctets h
  · rintro rfl
    obtain ⟨r, hdecode, hlength, houtput⟩ :=
      change_notify_reply_decoded [] (zeros 0) (by simp)
    refine ⟨_, r, rfl, hdecode, ?_, hlength, houtput⟩
    simp [slice]

end

/-- A request that asks for 65535 octets. -/
def watchRequest : ChangeNotifyArgs where
  outputBufferLength := 0xffff
  fileId := noId
  completionFilter := 1

theorem change_notify_lost : ¬ watchRequest.ComesBack ∧ ¬ ChangeNotifyReplyComesBack (zeros 12) :=
  ⟨change_notify_request_lost watchRequest, change_notify_output_misplaced (by simp [zeros])⟩

end Libsmb2
