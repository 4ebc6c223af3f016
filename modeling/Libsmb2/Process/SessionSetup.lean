import Libsmb2.Process.Requests
import Libsmb2.Process.ReplyBounds

/-!
# Session setups that come back

What each side makes of a SESSION_SETUP of the other.  The decoder of the request looks for the
previous session behind the place where the encoder puts it; eight octets are not there any more,
and the field stays what the allocation has left in it.

* `session_setup_comes_back` — a request never comes back, a reply always does.
-/

set_option autoImplicit false

namespace Libsmb2

open Util
open PathOps (getUint)

/-! ## Requests -/

/-- `struct smb2_session_setup_request` of a server, without the security buffer. -/
structure SessionSetupPayload where
  flags : Nat
  securityMode : Nat
  capabilities : Nat
  channel : Nat
  previousSessionId : Nat
  securityBufferLength : Nat
  deriving DecidableEq, Repr

/-- `smb2_process_session_setup_request_fixed`; `none` is -1.  `fresh` is what the allocation leaves
in the previous session. -/
def processSessionSetupRequestFixed (fresh : UInt64) (iov : Bytes) :
    Option (Int × SessionSetupPayload) :=
  if fromLe (slice iov 0 2) ≠ SESSION_SETUP_REQUEST_SIZE ∨ iov.length ≠ 24 then none
  else
    let securityBufferLength := fromLe (slice iov 14 2)
    some ((securityBufferLength : Int), {
      flags := fromLe (slice iov 2 1)
      securityMode := fromLe (slice iov 3 1)
      capabilities := fromLe (slice iov 4 4)
      channel := fromLe (slice iov 8 4)
      previousSessionId := (getUint 8 iov 18).getD fresh.toNat
      securityBufferLength := securityBufferLength })

/-- `smb2_process_session_setup_request_variable`: the security buffer. -/
def processSessionSetupRequestVariable (_ : SessionSetupPayload) (iov : Bytes) :
    Except Overrun (Option Bytes) :=
  .ok (some iov)

/-- What a server makes of the octets behind the header. -/
def decodeSessionSetupRequest (fresh : UInt64) (body : Bytes) :
    Except Overrun (Option (SessionSetupPayload × Option Bytes)) :=
  decodeBody 24 (processSessionSetupRequestFixed fresh) processSessionSetupRequestVariable body

/-- The request is the one that was sent. -/
structure SessionSetupArgs.Returned (req : SessionSetupArgs)
    (r : SessionSetupPayload × Option Bytes) : Prop where
  flags : r.1.flags = req.flags
  securityMode : r.1.securityMode = req.securityMode
  capabilities : r.1.capabilities = req.capabilities
  channel : r.1.channel = req.channel
  previousSessionId : r.1.previousSessionId = req.previousSessionId
  securityBufferLength : r.1.securityBufferLength = req.securityBuffer.length
  securityBuffer : r.2.getD [] = req.securityBuffer

/-- The request is sent, and decoded as it was, whatever the allocation leaves. -/
def SessionSetupArgs.ComesBack (req : SessionSetupArgs) : Prop :=
  ∀ S version passthrough fresh, ∃ body r,
    (Cmd.sessionSetup req).body S version passthrough = some body ∧
      decodeSessionSetupRequest fresh body = .ok (some r) ∧ req.Returned r

section
variable {req : SessionSetupArgs} {fresh : UInt64} {body : Bytes}
  {r : SessionSetupPayload × Option Bytes}

/-- The previous session is what the allocation has left. -/
theorem decodeSessionSetupRequest_fresh (h : decodeSessionSetupRequest fresh body = .ok (some r)) :
    r.1.previousSessionId = fresh.toNat := by
  obtain ⟨n, hfixed, -⟩ := decodeBody_eq_some h
  unfold processSessionSetupRequestFixed at hfixed
  split at hfixed
  · cases hfixed
  · rename_i hsize
    push Not at hsize
    have hshort : getUint 8 (body.take 24) 18 = none := if_pos (by rw [hsize.2]; omega)
    have hr := (Prod.mk.inj (Option.some.inj hfixed)).2
    rw [← hr, hshort]
    rfl

theorem session_setup_request_lost (req : SessionSetupArgs) : ¬ req.ComesBack := by
  intro h
  by_cases hzero : req.previousSessionId = 0
  · obtain ⟨body, r, -, hdecode, hr⟩ := h {} .any false 1
    have hfresh := decodeSessionSetupRequest_fresh hdecode
    rw [hr.previousSessionId, hzero] at hfresh
    cases hfresh
  · obtain ⟨body, r, -, hdecode, hr⟩ := h {} .any false 0
    have hfresh := decodeSessionSetupRequest_fresh hdecode
    rw [hr.previousSessionId] at hfresh
    exact hzero hfresh

end

/-! ## Replies -/

/-- `struct smb2_session_setup_reply`; the offset of the buffer is computed. -/
structure SessionSetupReplyArgs where
  sessionFlags : Nat := 0
  securityBuffer : Bytes := []

/-- `smb2_encode_session_setup_reply`. -/
def encodeSessionSetupReply (rep : SessionSetupReplyArgs) (out : List Bytes) :
    Option (List Bytes) := do
  let len := padTo32 (SESSION_SETUP_REPLY_SIZE - 1)
  let out ← addVector (zeros len
    |> setUint16 0 SESSION_SETUP_REPLY_SIZE
    |> setUint16 2 rep.sessionFlags
    |> setUint16 4 (len + HEADER_SIZE)
    |> setUint16 6 rep.securityBuffer.length) out
  if rep.securityBuffer.length ≠ 0 then
    let len := padTo32 rep.securityBuffer.length
    addVector (rep.securityBuffer ++ zeros (len - rep.securityBuffer.length)) out
  else some out

/-- `smb2_cmd_session_setup_reply_async`: the octets behind the header. -/
def cmdSessionSetupReply (rep : SessionSetupReplyArgs) : Option Bytes :=
  replyBody (encodeSessionSetupReply rep [zeros HEADER_SIZE])

/-- What a client makes of the octets behind the header, in a frame of `spl` octets. -/
def decodeSessionSetupReply (spl : Nat) (body : Bytes) :
    Except Overrun (Option (SessionSetupFixed × Option Bytes)) :=
  decodeBody 8 (processSessionSetupFixed spl)
    (fun rep iov => (processSessionSetupVariable rep iov).map some) body

/-- The fields have their widths. -/
structure SessionSetupReplyArgs.Fits (rep : SessionSetupReplyArgs) : Prop where
  sessionFlags : rep.sessionFlags < 256 ^ 2
  securityBuffer : rep.securityBuffer.length < 256 ^ 2

/-- The reply is sent, and decoded as it was in every frame that it fits. -/
def SessionSetupReplyArgs.ComesBack (rep : SessionSetupReplyArgs) : Prop :=
  ∃ body, cmdSessionSetupReply rep = some body ∧
    ∀ spl, HEADER_SIZE + body.length ≤ spl → spl < 65536 →
      ∃ r, decodeSessionSetupReply spl body = .ok (some r) ∧
        r.1.sessionFlags = rep.sessionFlags ∧
        r.1.securityBufferLength = rep.securityBuffer.length ∧ r.2.getD [] = rep.securityBuffer

section
variable {rep : SessionSetupReplyArgs} {spl : Nat}

/-- The fixed part of a reply. -/
def sessionSetupReplyHead (rep : SessionSetupReplyArgs) : Bytes :=
  zeros 8
    |> setUint16 0 SESSION_SETUP_REPLY_SIZE
    |> setUint16 2 rep.sessionFlags
    |> setUint16 4 (HEADER_SIZE + 8)
    |> setUint16 6 rep.securityBuffer.length

theorem length_sessionSetupReplyHead (rep : SessionSetupReplyArgs) :
    (sessionSetupReplyHead rep).length = 8 := by
  simp [sessionSetupReplyHead]

/-- What is found in the fixed part. -/
theorem sessionSetupFields_head (hf : rep.Fits) : sessionSetupFields (sessionSetupReplyHead rep) =
    some ⟨rep.sessionFlags, HEADER_SIZE + 8, rep.securityBuffer.length⟩ := by
  unfold sessionSetupFields
  rw [length_sessionSetupReplyHead]
  unfold sessionSetupReplyHead SESSION_SETUP_REPLY_SIZE
  simp (disch := simp [length_setUint]) only [setUint16, slice_setUint_before, slice_setUint_same,
    fromLe_le]
  rw [if_neg (by simp), Nat.mod_eq_of_lt hf.sessionFlags, Nat.mod_eq_of_lt hf.securityBuffer]
  rfl

theorem encodeSessionSetupReply_eq (rep : SessionSetupReplyArgs) :
    ∃ rest : Bytes, ∃ vs : List Bytes, vs.length < MAX_VECTORS - 1 ∧
      encodeSessionSetupReply rep [zeros HEADER_SIZE] = some (zeros HEADER_SIZE :: vs) ∧
      vs.flatten = sessionSetupReplyHead rep ++ (rep.securityBuffer ++ rest) := by
  by_cases hempty : rep.securityBuffer.length = 0
  · refine ⟨[], [sessionSetupReplyHead rep], by simp [MAX_VECTORS], ?_, ?_⟩
    · unfold encodeSessionSetupReply
      simp only [if_neg (not_not_intro hempty)]
      rfl
    · simp [List.length_eq_zero_iff.mp hempty]
  · let pad := zeros (padTo32 rep.securityBuffer.length - rep.securityBuffer.length)
    refine ⟨pad, [sessionSetupReplyHead rep, rep.securityBuffer ++ pad], by simp [MAX_VECTORS],
      ?_, ?_⟩
    · unfold encodeSessionSetupReply
      simp only [if_pos hempty]
      rfl
    · rw [List.flatten_cons, List.flatten_singleton]

/-- The reply comes back in every frame of less than 65536 octets. -/
theorem session_setup_reply_comes_back (hf : rep.Fits) : rep.ComesBack := by
  obtain ⟨rest, vs, hvs, henc, hflat⟩ := encodeSessionSetupReply_eq rep
  obtain ⟨k, -, hbody⟩ := replyBody_of_lt vs hvs
  rw [← henc, hflat, List.append_assoc, List.append_assoc] at hbody
  refine ⟨_, hbody, fun spl hspl hsmall => ?_⟩
  simp only [List.length_append, length_sessionSetupReplyHead] at hspl
  have hfields := sessionSetupFields_head hf
  by_cases hempty : rep.securityBuffer.length = 0
  · have hfixed : processSessionSetupFixed spl (sessionSetupReplyHead rep) =
        some (0, ⟨rep.sessionFlags, HEADER_SIZE + 8, 0⟩) := by
      unfold processSessionSetupFixed
      rw [hfields, hempty]
      rfl
    exact ⟨_, decodeBody_of_zero (length_sessionSetupReplyHead rep) hfixed, rfl, hempty.symm,
      (List.length_eq_zero_iff.mp hempty).symm⟩
  · have hfixed : processSessionSetupFixed spl (sessionSetupReplyHead rep) =
        some ((rep.securityBuffer.length : Int),
          ⟨rep.sessionFlags, HEADER_SIZE + 8, rep.securityBuffer.length⟩) := by
      unfold processSessionSetupFixed
      rw [hfields]
      simp only
      rw [if_neg (by omega), if_neg hempty, if_neg (by omega)]
      simp [SessionSetupFixed.iovOffset]
    have hvar : processSessionSetupVariable
        ⟨rep.sessionFlags, HEADER_SIZE + 8, rep.securityBuffer.length⟩
        ((rep.securityBuffer ++ (rest ++ zeros k)).take rep.securityBuffer.length) =
          .ok rep.securityBuffer := by
      rw [List.take_left]
      unfold processSessionSetupVariable SessionSetupFixed.iovOffset
      rw [Window.read_of_le (by simp), Window.whole_octets]
      simp [slice]
    have hlong : rep.securityBuffer.length ≤ (rep.securityBuffer ++ (rest ++ zeros k)).length := by
      rw [List.length_append]
      omega
    have hdecode : decodeSessionSetupReply spl
        (sessionSetupReplyHead rep ++ (rep.securityBuffer ++ (rest ++ zeros k))) = _ :=
      decodeBody_of_pos (length_sessionSetupReplyHead rep) hfixed (by omega) hlong
    rw [hvar] at hdecode
    exact ⟨_, hdecode, rfl, rfl, rfl⟩

/-- **Which session setups come back**: no request, and every reply. -/
theorem session_setup_comes_back (req : SessionSetupArgs) (hf : rep.Fits) :
    ¬ req.ComesBack ∧ rep.ComesBack :=
  ⟨session_setup_request_lost req, session_setup_reply_comes_back hf⟩

end

/-- A request with a token of four octets. -/
def signIn : SessionSetupArgs where
  securityMode := 1
  previousSessionId := 5
  securityBuffer := [1, 2, 3, 4]

theorem sign_in_lost : ¬ signIn.ComesBack := session_setup_request_lost signIn

/-- A reply with a token of four octets. -/
def signedIn : SessionSetupReplyArgs where
  sessionFlags := 1
  securityBuffer := [5, 6, 7, 8]

theorem signed_in_comes_back : ¬ signIn.ComesBack ∧ signedIn.ComesBack :=
  session_setup_comes_back signIn ⟨by simp [signedIn], by simp [signedIn]⟩

end Libsmb2
