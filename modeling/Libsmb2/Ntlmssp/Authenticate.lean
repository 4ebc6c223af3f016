import Libsmb2.Ntlmssp.Bounded
import Libsmb2.Unicode.Passes

/-!
# Which AUTHENTICATE messages are read inside

`ntlmssp_authenticate_blob` and `ntlmssp_get_utf16_field` follow the fields of a message that
whoever connects has sent.  `AuthenticateFits` says of its octets when they stay inside it.

* `ntlmsspGetUtf16Field_cases` — a name field is not there, is text, or is read behind the end;
* `authenticate_bounded_iff` — nothing behind the message is read and no field that does not fit is
  let through, exactly for the messages that fit or are rejected for their start.
-/

set_option autoImplicit false

namespace Libsmb2.Ntlm

open Util

/-! ## Text that ends at a NUL -/

theorem utf8Octets_ne_zero {cp : Nat} {us : List Nat} (h : codeUnits cp = some us) (hcp : cp ≠ 0) :
    ∀ c ∈ utf8Octets cp, c ≠ 0 := by
  intro c hc
  by_cases hascii : cp < 0x80
  · rw [utf8Octets, if_pos hascii, List.mem_singleton] at hc
    rw [hc]
    intro hzero
    have hnat := toNat_octet (show cp < 256 by omega)
    rw [hzero] at hnat
    exact hcp hnat.symm
  · have hhigh := utf8Octets_high h (by omega) c hc
    intro hzero
    rw [hzero] at hhigh
    exact absurd hhigh (by decide)

/-- The octets before the first NUL are the characters before it. -/
theorem takeWhile_utf8Encode (cs : List Char) :
    (utf8Encode cs).takeWhile (· != 0) = utf8Encode (cs.takeWhile fun c => c.toNat != 0) := by
  induction cs with
  | nil => rfl
  | cons c cs ih =>
    rw [utf8Encode_cons]
    by_cases hc : c.toNat = 0
    · have hoct : utf8Octets c.toNat = [0] := by
        rw [hc]
        rfl
      rw [hoct, List.takeWhile_cons_of_neg (by simp [hc])]
      rfl
    · have hne := utf8Octets_ne_zero (codeUnits_char c) hc
      rw [List.takeWhile_append_of_pos (by simpa using hne), ih,
        List.takeWhile_cons_of_pos (by simp [hc]), utf8Encode_cons]

theorem utf16Units_lt (bs : Bytes) : ∀ u ∈ utf16Units bs, u < 65536 := by
  fun_induction utf16Units bs with
  | case1 a b bs ih =>
    intro u hu
    rcases List.mem_cons.mp hu with rfl | hu
    · have hlt : fromLe [a, b] < 256 ^ 2 := fromLe_lt [a, b]
      exact hlt
    · exact ih u hu
  | case2 => simp

/-- The name is text, whatever its octets. -/
theorem utf8Name_eq (name : Bytes) : (utf8Name name).octets =
    utf8Encode ((utf16Decode (utf16Units name)).takeWhile fun c => c.toNat != 0) := by
  show (utf16ToUtf8 (utf16Units name)).takeWhile (· != 0) = _
  rw [utf16ToUtf8_eq (utf16Units_lt name), takeWhile_utf8Encode]

theorem utf8Name_transcodes (name : Bytes) : ∃ us, Transcodes (utf8Name name).octets us :=
  ⟨_, transcodes_iff.mpr ⟨_, utf8Name_eq name, rfl⟩⟩

/-- The first character is the NUL exactly when the first unit is. -/
theorem utf16Decode_head {u : Nat} (us : List Nat) (hu : u < 65536) :
    ∃ c cs, utf16Decode (u :: us) = c :: cs ∧ (c.toNat = 0 ↔ u = 0) := by
  rcases utf16Decode_cons u us with ⟨v, vs, rfl, hlead, htrail, hdec⟩ | ⟨_, hdec⟩
  · refine ⟨_, _, hdec, ?_⟩
    unfold isLead at hlead
    unfold isTrail at htrail
    rw [toNat_charOfNat (by omega)]
    omega
  · refine ⟨_, _, hdec, ?_⟩
    split
    · rename_i hill
      have hfffd : ('\uFFFD' : Char).toNat = 0xfffd := by decide
      unfold isLead isTrail at hill
      omega
    · rename_i hplane
      unfold isLead isTrail at hplane
      rw [toNat_charOfNat (by omega)]

/-- A name without units, or with a NUL for the first, is empty. -/
theorem utf8Name_empty_iff (name : Bytes) :
    (utf8Name name).octets = [] ↔ name.length < 2 ∨ fromLe (name.take 2) = 0 := by
  rw [utf8Name_eq]
  match name with
  | [] => simp [utf16Units, utf16Decode, utf8Encode]
  | [a] => simp [utf16Units, utf16Decode, utf8Encode]
  | a :: b :: bs =>
    have hlt : fromLe [a, b] < 256 ^ 2 := fromLe_lt [a, b]
    obtain ⟨c, cs, hdec, hzero⟩ := utf16Decode_head (utf16Units bs) hlt
    have hunits : utf16Units (a :: b :: bs) = fromLe [a, b] :: utf16Units bs := rfl
    have htake : (a :: b :: bs).take 2 = [a, b] := rfl
    rw [hunits, hdec, htake, ← hzero]
    by_cases hc : c.toNat = 0
    · rw [List.takeWhile_cons_of_neg (by simp [hc])]
      simp [utf8Encode, hc]
    · have hpos := utf8Octets_ne_nil c.toNat
      rw [List.takeWhile_cons_of_pos (by simp [hc]), utf8Encode_cons]
      constructor
      · intro hnil
        rw [(List.append_eq_nil_iff.mp hnil).1] at hpos
        exact absurd hpos (Nat.lt_irrefl 0)
      · rintro (hshort | hnot)
        · simp at hshort
        · exact absurd hnot hc

/-! ## The fields -/

/-- The length that the field at `offset` gives. -/
def fieldLen (input : Bytes) (offset : Nat) : Nat := fromLe (slice input (offset + 2) 2)

/-- Where the field at `offset` says that its octets are. -/
def fieldOff (input : Bytes) (offset : Nat) : Nat := fromLe (slice input (offset + 4) 4)

/-- The field is empty or not there, or its octets are in the message. -/
def FieldFits (input : Bytes) (offset : Nat) : Prop :=
  fieldLen input offset = 0 ∨ fieldOff input offset = 0 ∨
    fieldOff input offset + fieldLen input offset ≤ input.length

/-- What `ntlmssp_get_utf16_field` makes of a field that is in the message. -/
def fieldName (input : Bytes) (offset : Nat) : Option CString :=
  if fieldLen input offset = 0 ∨ fieldOff input offset = 0 then none
  else some (utf8Name (slice input (fieldOff input offset) (2 * (fieldLen input offset / 2))))

theorem ntlmsspGetUtf16Field_absent {input : Bytes} {offset : Nat}
    (h : input.length < offset + 8) : ntlmsspGetUtf16Field input offset = .ok none := if_pos h

theorem ntlmsspGetUtf16Field_present {input : Bytes} {offset : Nat}
    (h : offset + 8 ≤ input.length) : ntlmsspGetUtf16Field input offset =
      if fieldLen input offset ≠ 0 ∧ fieldOff input offset ≠ 0 then
        fetch input (fieldOff input offset) (2 * (fieldLen input offset / 2)) >>= fun name =>
          .ok (some (utf8Name name))
      else .ok none := by
  unfold ntlmsspGetUtf16Field
  rw [if_neg (by omega), fetch_ok (by omega), ok_bind, fetch_ok (by omega), ok_bind,
    shiftRight_field (by omega)]
  rfl

/-- A name field that fits is its text, or nothing. -/
theorem ntlmsspGetUtf16Field_fits {input : Bytes} {offset : Nat} (h : offset + 8 ≤ input.length)
    (hfits : FieldFits input offset) :
    ntlmsspGetUtf16Field input offset = .ok (fieldName input offset) := by
  rw [ntlmsspGetUtf16Field_present h]
  unfold fieldName
  by_cases hnone : fieldLen input offset = 0 ∨ fieldOff input offset = 0
  · rw [if_neg (by omega), if_pos hnone]
  · have hin : fieldOff input offset + fieldLen input offset ≤ input.length := by
      unfold FieldFits at hfits
      omega
    rw [if_pos (by omega), fetch_ok (by omega), ok_bind, if_neg hnone]

/-- A name field never makes the message be rejected. -/
theorem ntlmsspGetUtf16Field_cases (input : Bytes) (offset : Nat) :
    (∃ name, ntlmsspGetUtf16Field input offset = .ok name) ∨
      ntlmsspGetUtf16Field input offset = .error .overread := by
  by_cases h : offset + 8 ≤ input.length
  case neg => exact .inl ⟨none, ntlmsspGetUtf16Field_absent (by omega)⟩
  rw [ntlmsspGetUtf16Field_present h]
  split
  · by_cases hin : fieldOff input offset + 2 * (fieldLen input offset / 2) ≤ input.length
    · exact .inl ⟨_, by rw [fetch_ok hin]; rfl⟩
    · exact .inr (by rw [fetch_overread hin]; rfl)
  · exact .inl ⟨none, rfl⟩

theorem fieldName_transcodes (input : Bytes) (offset : Nat) :
    ∀ s ∈ fieldName input offset, ∃ us, Transcodes s.octets us := by
  intro s hs
  unfold fieldName at hs
  split at hs
  · cases hs
  · cases hs
    exact utf8Name_transcodes _

/-! ## The message -/

/-- The message starts as one that is not an AUTHENTICATE message. -/
def OtherMessage (input : Bytes) : Prop :=
  input.length < 8 ∨ input.take 8 ≠ signature ∨
    12 ≤ input.length ∧ fromLe (slice input 8 4) ≠ AUTHENTICATION_MESSAGE

/-- The fixed part, the three names and the response are in the message. -/
structure MessageFits (input : Bytes) : Prop where
  header : 64 ≤ input.length
  domain : FieldFits input 28
  user : FieldFits input 36
  workstation : FieldFits input 44
  response : FieldFits input 20

/-- The user field names nobody. -/
def NoUser (input : Bytes) : Prop :=
  fieldLen input 36 < 2 ∨ fieldOff input 36 = 0 ∨ fromLe (slice input (fieldOff input 36) 2) = 0

/-- `challenge_len`, an unsigned difference. -/
def challengeLen (input : Bytes) : Nat :=
  (fieldLen input 20 + 4294967296 - 16) % 4294967296

/-- The message is rejected for its start; or all of it fits, and so does what `challenge_len`
counts behind the proof, if there are a user and a response. -/
def AuthenticateFits (input : Bytes) : Prop :=
  OtherMessage input ∨ MessageFits input ∧ (NoUser input ∨ fieldLen input 20 = 0 ∨
    fieldOff input 20 = 0 ∨ fieldOff input 20 + 16 + challengeLen input ≤ input.length)

/-- The end of `ntlmssp_authenticate_blob`, from the handler on. -/
def authorizeAndCheck (P : Primitives) (server : Server) (auth : AuthData) (input : Bytes) :
    Except Stop AuthData :=
  match server.authorizeUser auth.user auth.domain auth.workstation with
  | none => .error .failed
  | some password =>
    if password.isNone ∧ ¬server.allowAnonymous then .error .failed
    else if auth.user.all (fun u => u.octets.isEmpty) ∨ password.all (fun p => p.octets.isEmpty) then
      if server.allowAnonymous then .ok auth else .error .failed
    else checkProof P auth password input

variable {P : Primitives} {server : Server} {auth : AuthData} {input : Bytes}

theorem authorizeAndCheck_some {password : Option CString}
    (h : server.authorizeUser auth.user auth.domain auth.workstation = some password) :
    authorizeAndCheck P server auth input =
      if password.isNone ∧ ¬server.allowAnonymous then .error .failed
      else if auth.user.all (fun u => u.octets.isEmpty) ∨
          password.all (fun p => p.octets.isEmpty) then
        if server.allowAnonymous then .ok auth else .error .failed
      else checkProof P auth password input := by
  unfold authorizeAndCheck
  rw [h]

/-- The check leaves the message only where the proof is checked. -/
theorem authorizeAndCheck_overread
    (hrun : authorizeAndCheck P server auth input = .error .overread) :
    ∃ password, server.authorizeUser auth.user auth.domain auth.workstation = some password ∧
      ¬auth.user.all (fun u => u.octets.isEmpty) = true ∧
      checkProof P auth password input = .error .overread := by
  cases hpassword : server.authorizeUser auth.user auth.domain auth.workstation with
  | none =>
    unfold authorizeAndCheck at hrun
    rw [hpassword] at hrun
    cases hrun
  | some password =>
    rw [authorizeAndCheck_some hpassword] at hrun
    split at hrun
    · cases hrun
    by_cases hnobody : auth.user.all (fun u => u.octets.isEmpty) = true ∨
        password.all (fun p => p.octets.isEmpty) = true
    · rw [if_pos hnobody] at hrun
      split at hrun <;> cases hrun
    · rw [if_neg hnobody] at hrun
      exact ⟨password, rfl, fun h => hnobody (.inl h), hrun⟩

theorem ntlmsspAuthenticateBlob_other (h : OtherMessage input) :
    ntlmsspAuthenticateBlob P server auth input = .error .failed := by
  unfold ntlmsspAuthenticateBlob
  by_cases hstart : input.length < 8 ∨ input.take 8 ≠ signature
  · rw [if_pos hstart]
  · obtain hshort | hsignature | ⟨hlen, hcmd⟩ := h
    · exact absurd (.inl hshort) hstart
    · exact absurd (.inr hsignature) hstart
    · rw [if_neg hstart, fetch_ok (by omega), ok_bind, if_pos hcmd]

/-- The command is read behind the end. -/
theorem ntlmsspAuthenticateBlob_short (h : ¬OtherMessage input) (hlen : input.length < 12) :
    ntlmsspAuthenticateBlob P server auth input = .error .overread := by
  have hstart : ¬(input.length < 8 ∨ input.take 8 ≠ signature) := fun hnot =>
    h (hnot.elim .inl fun hsignature => .inr (.inl hsignature))
  unfold ntlmsspAuthenticateBlob
  rw [if_neg hstart, fetch_overread (by omega)]
  rfl

/-- An AUTHENTICATE message, once its start is read. -/
theorem ntlmsspAuthenticateBlob_fields (h : ¬OtherMessage input) (hlen : 12 ≤ input.length) :
    ntlmsspAuthenticateBlob P server auth input =
      (ntlmsspGetUtf16Field input 28 >>= fun domain =>
        ntlmsspGetUtf16Field input 36 >>= fun user =>
        ntlmsspGetUtf16Field input 44 >>= fun workstation =>
        fetch input 60 4 >>= fun _ =>
        authorizeAndCheck P server
          { auth with domain := domain, user := user, workstation := workstation } input) := by
  have hstart : ¬(input.length < 8 ∨ input.take 8 ≠ signature) := fun hnot =>
    h (hnot.elim .inl fun hsignature => .inr (.inl hsignature))
  have hcmd : ¬fromLe (slice input 8 4) ≠ AUTHENTICATION_MESSAGE :=
    fun hne => h (.inr (.inr ⟨hlen, hne⟩))
  unfold ntlmsspAuthenticateBlob
  rw [if_neg hstart, fetch_ok (by omega), ok_bind, if_neg hcmd]
  rfl

/-- What the fields of a message that fits are taken for. -/
def withFields (auth : AuthData) (input : Bytes) : AuthData :=
  { auth with
    domain := fieldName input 28
    user := fieldName input 36
    workstation := fieldName input 44 }

theorem ntlmsspAuthenticateBlob_fits (h : ¬OtherMessage input) (hfits : MessageFits input) :
    ntlmsspAuthenticateBlob P server auth input =
      authorizeAndCheck P server (withFields auth input) input := by
  have hheader := hfits.header
  rw [ntlmsspAuthenticateBlob_fields h (by omega),
    ntlmsspGetUtf16Field_fits (by omega) hfits.domain, ok_bind,
    ntlmsspGetUtf16Field_fits (by omega) hfits.user, ok_bind,
    ntlmsspGetUtf16Field_fits (by omega) hfits.workstation, ok_bind, fetch_ok (by omega), ok_bind]
  rfl

/-- A server that lets everybody in, without a password. -/
def openServer : Server where
  authorizeUser _ _ _ := some none
  allowAnonymous := true

/-- Such a server rejects no AUTHENTICATE message. -/
theorem openServer_accepts (h : ¬OtherMessage input) :
    ntlmsspAuthenticateBlob P openServer auth input ≠ .error .failed := by
  by_cases hlen : 12 ≤ input.length
  case neg =>
    rw [ntlmsspAuthenticateBlob_short h (by omega)]
    intro hnot
    cases hnot
  rw [ntlmsspAuthenticateBlob_fields h hlen]
  rcases ntlmsspGetUtf16Field_cases input 28 with ⟨domain, hrun⟩ | hrun <;> rw [hrun]
  case inr => rintro ⟨⟩
  rcases ntlmsspGetUtf16Field_cases input 36 with ⟨user, hrun'⟩ | hrun' <;> rw [ok_bind, hrun']
  case inr => rintro ⟨⟩
  rcases ntlmsspGetUtf16Field_cases input 44 with ⟨workstation, hrun''⟩ | hrun'' <;>
    rw [ok_bind, hrun'']
  case inr => rintro ⟨⟩
  by_cases hflags : 60 + 4 ≤ input.length
  · rw [ok_bind, fetch_ok hflags, ok_bind, authorizeAndCheck]
    simp [openServer]
  · rw [ok_bind, fetch_overread hflags]
    rintro ⟨⟩

/-! ## The response -/

/-- `checkProof`, once the response's field is read. -/
theorem checkProof_field {password : Option CString} (h : 28 ≤ input.length) :
    checkProof P auth password input =
      if fieldLen input 20 = 0 ∨ fieldOff input 20 = 0 then .error .failed
      else if input.length < fieldOff input 20 then .error .failed
      else if challengeLen input ≤ 36 then .error .failed
      else
        fetch input (fieldOff input 20 + 32) 8 >>= fun clientChallenge =>
        NTOWFv2 P auth.user password auth.domain >>= fun responseKeyNT =>
        fetch input (fieldOff input 20 + 16) (challengeLen input) >>= fun temp =>
        fetch input (fieldOff input 20) 16 >>= fun response =>
        if P.hmacMd5 (auth.serverChallenge ++ temp) responseKeyNT ≠ response then .error .failed
        else .ok { auth with
          buf := []
          clientChallenge := clientChallenge
          exportedSessionKey := P.hmacMd5
            (P.hmacMd5 (auth.serverChallenge ++ temp) responseKeyNT) responseKeyNT } := by
  unfold checkProof
  rw [fetch_ok (by omega), ok_bind, fetch_ok (by omega), ok_bind, shiftRight_field (by omega)]
  rfl

/-- The check stays inside a message whose response is all there. -/
theorem checkProof_inside {password : Option CString} (hheader : 28 ≤ input.length)
    (hresponse : fieldLen input 20 = 0 ∨ fieldOff input 20 = 0 ∨
      fieldOff input 20 + 16 + challengeLen input ≤ input.length)
    (hrun : checkProof P auth password input = .error .overread) :
    NTOWFv2 P auth.user password auth.domain = .error .overread := by
  rw [checkProof_field hheader] at hrun
  split at hrun
  · cases hrun
  · rename_i hthere
    split at hrun
    · cases hrun
    split at hrun
    · cases hrun
    rename_i hlong
    have hin := hresponse.resolve_left (fun h => hthere (.inl h))
      |>.resolve_left (fun h => hthere (.inr h))
    rw [fetch_ok (by omega), ok_bind] at hrun
    cases hkey : NTOWFv2 P auth.user password auth.domain with
    | error stop =>
      rw [hkey] at hrun
      cases hrun
      rfl
    | ok key =>
      rw [hkey, ok_bind, fetch_ok hin, ok_bind, fetch_ok (by omega), ok_bind] at hrun
      split at hrun <;> cases hrun

/-- It leaves a message whose response is not. -/
theorem checkProof_leaves {password : Option CString} {key : Bytes} (hheader : 28 ≤ input.length)
    (hfits : FieldFits input 20) (hlen : fieldLen input 20 ≠ 0) (hoff : fieldOff input 20 ≠ 0)
    (hout : input.length < fieldOff input 20 + 16 + challengeLen input)
    (hkey : NTOWFv2 P auth.user password auth.domain = .ok key) :
    checkProof P auth password input = .error .overread := by
  have hin : fieldOff input 20 + fieldLen input 20 ≤ input.length :=
    (hfits.resolve_left hlen).resolve_left hoff
  have hlong : 36 < challengeLen input := by
    have hlt : fieldLen input 20 < 65536 := fromLe_slice_lt input 22 2
    unfold challengeLen at hout ⊢
    omega
  rw [checkProof_field hheader, if_neg (by omega), if_neg (by omega), if_neg (by omega)]
  by_cases hchallenge : fieldOff input 20 + 32 + 8 ≤ input.length
  · rw [fetch_ok hchallenge, ok_bind, hkey, ok_bind, fetch_overread (by omega)]
    rfl
  · rw [fetch_overread hchallenge]
    rfl

/-- A password of one letter. -/
def letterPassword : CString := CString.ofBytes [0x70]

/-- A server where everybody has it. -/
def letterServer : Server where
  authorizeUser _ _ _ := some (some letterPassword)
  allowAnonymous := false

theorem NTOWFv2_letter {user domain : Option CString} (hsome : user.isSome)
    (huser : ∀ s ∈ user, ∃ us, Transcodes s.octets us)
    (hdomain : ∀ s ∈ domain, ∃ us, Transcodes s.octets us) :
    ∃ key, NTOWFv2 P user (some letterPassword) domain = .ok key := by
  obtain ⟨u, rfl⟩ := Option.isSome_iff_exists.mp hsome
  obtain ⟨us, hus⟩ := huser u rfl
  obtain ⟨vs, hvs, _⟩ := hus.upper
  have hrest : ∃ ws, Transcodes ((domain.map CString.octets).getD []) ws := by
    cases domain with
    | none => exact ⟨[], .nil⟩
    | some d => exact hdomain d rfl
  obtain ⟨ws, hws⟩ := hrest
  have hunits : toUtf16 (u.octets.map toupper ++ (domain.map CString.octets).getD []) =
      .ok (vs ++ ws) := by
    unfold toUtf16
    rw [utf8ToUtf16_eq_some.mpr (hvs.append hws)]
  have hhash : NTOWFv1 P letterPassword.octets = .ok (P.md4 (utf16Octets [0x70])) := rfl
  have hplain : isHash letterPassword.octets = false := rfl
  refine ⟨P.hmacMd5 (utf16Octets (vs ++ ws)) (P.md4 (utf16Octets [0x70])), ?_⟩
  unfold NTOWFv2
  simp only [hplain, hhash, hunits, ok_bind]
  rfl

/-! ## The claim -/

/-- The user's password is a hash that is too short, and it is what is read behind its end. -/
def PasswordOverread (P : Primitives) (server : Server) (input : Bytes) : Prop :=
  ∃ domain user workstation password, ntlmsspGetUtf16Field input 28 = .ok domain ∧
    ntlmsspGetUtf16Field input 36 = .ok user ∧
    ntlmsspGetUtf16Field input 44 = .ok workstation ∧
    server.authorizeUser user domain workstation = some password ∧
    NTOWFv2 P user password domain = .error .overread

/-- No read is behind the end of the message, and a message that does not fit is rejected. -/
def AuthenticateBounded (input : Bytes) : Prop :=
  (∀ P server auth, ntlmsspAuthenticateBlob P server auth input = .error .overread →
    PasswordOverread P server input) ∧
  (¬MessageFits input → ∀ P server auth,
    ntlmsspAuthenticateBlob P server auth input = .error .failed)

theorem noUser_iff (hfits : MessageFits input) :
    (fieldName input 36).all (fun u => u.octets.isEmpty) = true ↔ NoUser input := by
  have hheader := hfits.header
  unfold fieldName NoUser
  split
  · rename_i hnone
    simp only [Option.all_none, true_iff]
    omega
  · rename_i hsome
    have hin : fieldOff input 36 + fieldLen input 36 ≤ input.length := by
      have huser := hfits.user
      unfold FieldFits at huser
      omega
    have hslice : (slice input (fieldOff input 36) (2 * (fieldLen input 36 / 2))).length =
        2 * (fieldLen input 36 / 2) := by
      rw [length_slice]
      omega
    rw [Option.all_some, List.isEmpty_iff, utf8Name_empty_iff, hslice]
    by_cases hshort : fieldLen input 36 < 2
    · exact iff_of_true (.inl (by omega)) (.inl hshort)
    · have htake : (slice input (fieldOff input 36) (2 * (fieldLen input 36 / 2))).take 2 =
          slice input (fieldOff input 36) 2 := by
        rw [slice, slice, List.take_take, Nat.min_eq_left (by omega)]
      rw [htake]
      omega

theorem authenticateFits_bounded (h : AuthenticateFits input) : AuthenticateBounded input := by
  rcases h with hother | ⟨hfits, hresponse⟩
  · refine ⟨?_, fun _ P server auth => ntlmsspAuthenticateBlob_other hother⟩
    intro P server auth hrun
    rw [ntlmsspAuthenticateBlob_other hother] at hrun
    cases hrun
  by_cases hother : OtherMessage input
  · refine ⟨?_, fun _ P server auth => ntlmsspAuthenticateBlob_other hother⟩
    intro P server auth hrun
    rw [ntlmsspAuthenticateBlob_other hother] at hrun
    cases hrun
  refine ⟨?_, fun hnot => absurd hfits hnot⟩
  intro P server auth hrun
  have hheader := hfits.header
  rw [ntlmsspAuthenticateBlob_fits hother hfits] at hrun
  obtain ⟨password, hpassword, huser, hcheck⟩ := authorizeAndCheck_overread hrun
  have hnobody : ¬NoUser input := fun hnone => huser ((noUser_iff hfits).mpr hnone)
  exact ⟨fieldName input 28, fieldName input 36, fieldName input 44, password,
    ntlmsspGetUtf16Field_fits (by omega) hfits.domain,
    ntlmsspGetUtf16Field_fits (by omega) hfits.user,
    ntlmsspGetUtf16Field_fits (by omega) hfits.workstation, hpassword,
    checkProof_inside (by omega) (hresponse.resolve_left hnobody) hcheck⟩

/-- **The reads are bounded exactly for the messages that fit.** -/
theorem authenticate_bounded_iff (input : Bytes) :
    AuthenticateBounded input ↔ AuthenticateFits input := by
  refine ⟨?_, authenticateFits_bounded⟩
  rintro ⟨hinside, hrejects⟩
  by_cases hother : OtherMessage input
  · exact .inl hother
  have hfits : MessageFits input := by
    by_contra hnot
    exact openServer_accepts hother (hrejects hnot (filledWith 0) openServer {})
  refine .inr ⟨hfits, ?_⟩
  by_contra hout
  obtain ⟨huser, hout⟩ := not_or.mp hout
  obtain ⟨hlen, hout⟩ := not_or.mp hout
  obtain ⟨hoff, hout⟩ := not_or.mp hout
  have hheader := hfits.header
  have hsome : ¬(fieldName input 36).all (fun u => u.octets.isEmpty) = true :=
    fun hnone => huser ((noUser_iff hfits).mp hnone)
  have hthere : (fieldName input 36).isSome := by
    cases hname : fieldName input 36 with
    | none =>
      rw [hname] at hsome
      exact absurd rfl hsome
    | some u => rfl
  obtain ⟨key, hkey⟩ := @NTOWFv2_letter (filledWith 0) _ _ hthere (fieldName_transcodes input 36)
    (fieldName_transcodes input 28)
  have hrun : ntlmsspAuthenticateBlob (filledWith 0) letterServer {} input = .error .overread := by
    have hgiven : ¬((withFields {} input).user.all (fun u => u.octets.isEmpty) = true ∨
        (some letterPassword).all (fun p => p.octets.isEmpty) = true) := by
      rintro (hnone | hempty)
      · exact hsome hnone
      · exact absurd hempty (by decide)
    rw [ntlmsspAuthenticateBlob_fits hother hfits, authorizeAndCheck_some rfl,
      if_neg (fun hnone => Bool.false_ne_true hnone.1), if_neg hgiven]
    exact checkProof_leaves (by omega) hfits.response hlen hoff (by omega) hkey
  obtain ⟨domain, user, workstation, password, hdomain, huser', hworkstation, hpassword, hbad⟩ :=
    hinside _ _ _ hrun
  rw [ntlmsspGetUtf16Field_fits (by omega) hfits.domain] at hdomain
  rw [ntlmsspGetUtf16Field_fits (by omega) hfits.user] at huser'
  cases hdomain
  cases huser'
  cases hpassword
  rw [hkey] at hbad
  cases hbad

/-- Of twelve octets the field at 60 is read. -/
theorem short_authenticate_is_overread :
    ¬AuthenticateBounded (signature ++ le 4 AUTHENTICATION_MESSAGE) := by
  intro h
  obtain ⟨domain, user, workstation, password, _, _, _, hpassword, hkey⟩ :=
    h.1 (filledWith 0) openServer {} rfl
  cases hpassword
  cases user <;> cases hkey

end Libsmb2.Ntlm
