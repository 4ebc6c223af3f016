import Libsmb2.Ntlmssp.Challenge

/-!
# The two sides of an NTLMv2 exchange

The client answers the challenge, and the server checks the answer against the password that its
handler supplies.
-/

set_option autoImplicit false

namespace Libsmb2.Ntlm

open Util

/-! ## The response -/

/-- What the proof is computed over, after the server's challenge. -/
def responseBlob (t : Nat) (clientChallenge serverName : Bytes) : Bytes :=
  [1, 1, 0, 0, 0, 0, 0, 0] ++ (le 8 t ++ (clientChallenge ++ (zeros 4 ++ (serverName ++ zeros 4))))

theorem length_responseBlob (t : Nat) (clientChallenge serverName : Bytes) :
    (responseBlob t clientChallenge serverName).length =
      24 + clientChallenge.length + serverName.length := by
  simp only [responseBlob, List.length_append, List.length_cons, List.length_nil, length_le,
    length_zeros]
  omega

theorem encodeTemp_eq (t : Nat) (clientChallenge serverChallenge serverName : Bytes) :
    encodeTemp [] t clientChallenge serverChallenge serverName =
      zeros 8 ++ (serverChallenge ++ responseBlob t clientChallenge serverName) := by
  simp only [encodeTemp, responseBlob, List.nil_append, List.append_assoc]

/-- The proof takes the place of the first sixteen octets. -/
theorem patch_encodeTemp {proof sc blob : Bytes} (hproof : proof.length = 16)
    (hsc : sc.length = 8) : patch (zeros 8 ++ (sc ++ blob)) 0 proof = proof ++ blob := by
  have hhead : (zeros 8 ++ sc).length = 0 + proof.length := by
    rw [List.length_append, length_zeros, hsc, hproof]
  rw [← List.append_assoc, patch, List.take_zero, List.nil_append, List.drop_left' hhead]

theorem length_copiedInfo {names : Option (List Nat × List Nat)} (hsame : SameLength names)
    (spn : Option (List Nat)) (wintime : Nat) : (copiedInfo names spn wintime).length =
      (challengeInfo names wintime).length + (spnAttribute spn).length := by
  have hlen := length_challengeInfo hsame wintime
  simp only [copiedInfo, List.length_append, length_le]
  omega

/-- The part of the copied target info that the copy's length field covers. -/
def copiedServerName (names : Option (List Nat × List Nat)) (spn : Option (List Nat))
    (wintime : Nat) : Bytes :=
  (copiedInfo names spn wintime).take (copiedInfoLen names spn wintime)

theorem length_copiedServerName {names : Option (List Nat × List Nat)} (hsame : SameLength names)
    (spn : Option (List Nat)) (wintime : Nat) :
    (copiedServerName names spn wintime).length = copiedInfoLen names spn wintime := by
  have hlen := length_copiedInfo hsame spn wintime
  have hle := Nat.mod_le ((challengeInfo names wintime).length + (spnAttribute spn).length) 65536
  rw [copiedServerName, List.length_take, hlen]
  unfold copiedInfoLen at *
  omega

/-- The response, for the key that the password gives. -/
theorem ntlmResponse_eq {P : Primitives} {auth : AuthData}
    {names : Option (List Nat × List Nat)} {spn : Option (List Nat)} {wintime : Nat}
    {junk key sc : Bytes} (t : Nat) (hsame : SameLength names)
    (hpos : 56 + (hostOctets names).length < 65536) (hbuf : auth.buf = [])
    (hntlmBuf : auth.ntlmBuf = copiedChallenge names spn wintime ++ junk)
    (hntlmLen : auth.ntlmLen = (copiedChallenge names spn wintime).length)
    (hinfo : (challengeInfo names wintime).length < 65536)
    (hspn : (spnAttribute spn).length ≤ 400)
    (hkey : NTOWFv2 P auth.user auth.password auth.domain = .ok key) (hsc : sc.length = 8) :
    ntlmResponse P t auth sc =
      .ok (P.hmacMd5 (sc ++ responseBlob t auth.clientChallenge
            (copiedServerName names spn wintime)) key ++
          responseBlob t auth.clientChallenge (copiedServerName names spn wintime),
        P.hmacMd5 (P.hmacMd5 (sc ++ responseBlob t auth.clientChallenge
          (copiedServerName names spn wintime)) key) key) := by
  have hlen := length_copiedInfo hsame spn wintime
  have hinfo' := length_challengeInfo hsame wintime
  have hntlmLen' : auth.ntlmLen =
      56 + ((hostOctets names).length + (copiedInfo names spn wintime).length) := by
    rw [hntlmLen]
    simp only [copiedChallenge, List.length_append, length_challengeHead]
  have hmod : copiedInfoLen names spn wintime < 65536 := Nat.mod_lt _ (by decide)
  have hle : copiedInfoLen names spn wintime ≤ (copiedInfo names spn wintime).length := by
    rw [hlen]
    exact Nat.mod_le _ _
  have hread : ∀ {off n : Nat}, off + n ≤ 56 → fetch auth.ntlmBuf off n =
      .ok (slice (challengeHead (hostOctets names).length 56 (copiedInfoLen names spn wintime)
        (56 + (hostOctets names).length)) off n) := by
    intro off n h
    rw [← length_challengeHead (hostOctets names).length 56 (copiedInfoLen names spn wintime)
      (56 + (hostOctets names).length)] at h
    rw [hntlmBuf, copiedChallenge, List.append_assoc]
    exact fetch_head h
  have hname : fetch auth.ntlmBuf (56 + (hostOctets names).length)
      (copiedInfoLen names spn wintime) = .ok (copiedServerName names spn wintime) := by
    refine fetch_of_eq (a := challengeHead (hostOctets names).length 56
        (copiedInfoLen names spn wintime) (56 + (hostOctets names).length) ++ hostOctets names)
      (c := (copiedInfo names spn wintime).drop (copiedInfoLen names spn wintime) ++ junk)
      ?_ ?_ (length_copiedServerName hsame spn wintime).symm
    · rw [hntlmBuf, copiedChallenge, copiedServerName, ← List.append_assoc _ _ junk,
        List.take_append_drop]
      simp only [List.append_assoc]
    · rw [List.length_append, length_challengeHead]
  have hfits : ¬(auth.ntlmLen ≤ 56 + (hostOctets names).length ∨ auth.ntlmLen <
      (56 + (hostOctets names).length + copiedInfoLen names spn wintime) % 4294967296) := by
    omega
  have hproof : (P.hmacMd5 (sc ++ responseBlob t auth.clientChallenge
      (copiedServerName names spn wintime)) key).length = 16 := P.length_hmacMd5 _ _
  have hdrop : (zeros 8 ++ (sc ++ responseBlob t auth.clientChallenge
      (copiedServerName names spn wintime))).drop 8 =
      sc ++ responseBlob t auth.clientChallenge (copiedServerName names spn wintime) :=
    List.drop_left' (length_zeros 8)
  unfold ntlmResponse
  rw [hkey, ok_bind, if_neg (by omega), hread (by decide), ok_bind, challengeHead_readLens hmod,
    fromLe_lengths hmod, hread (by decide), ok_bind, challengeHead_readPos,
    fromLe_four (by omega), if_neg hfits, hname, ok_bind, hbuf, encodeTemp_eq]
  simp only [hdrop, patch_encodeTemp hproof hsc, pure_eq_ok]

/-! ## The AUTHENTICATE message -/

/-- A length and an offset of the AUTHENTICATE message. -/
structure Field where
  len : Nat
  pos : Nat

/-- The two halves of a length and the offset. -/
def Field.octets (f : Field) : Bytes := lengths f.len ++ le 4 f.pos

@[simp] theorem Field.length_octets (f : Field) : f.octets.length = 8 := rfl

/-- What comes before the fields. -/
def authStart : Bytes := signature ++ le 4 AUTHENTICATION_MESSAGE ++ le 4 0 ++ le 4 0

@[simp] theorem length_authStart : authStart.length = 20 := rfl

/-- What comes after them: no session key, the flags and a version of zeros. -/
def authEnd : Bytes := le 4 0 ++ le 4 0 ++ le 4 (authFlags false) ++ le 4 0 ++ le 4 0

/-- The fixed part of an AUTHENTICATE message. -/
def authHead (response domain user workstation : Field) : Bytes :=
  authStart ++ (response.octets ++ (domain.octets ++ (user.octets ++ (workstation.octets ++
    authEnd))))

@[simp] theorem length_authHead (response domain user workstation : Field) :
    (authHead response domain user workstation).length = 72 := rfl

/-- What an AUTHENTICATE message carries. -/
structure Payload where
  domain : Bytes
  user : Bytes
  workstation : Bytes
  response : Bytes

namespace Payload

/-- The parts, in the order in which they are sent. -/
def octets (p : Payload) : Bytes := p.domain ++ (p.user ++ (p.workstation ++ p.response))

def domainField (p : Payload) : Field := ⟨p.domain.length, 72⟩

def userField (p : Payload) : Field := ⟨p.user.length, 72 + p.domain.length⟩

def workstationField (p : Payload) : Field :=
  ⟨p.workstation.length, 72 + p.domain.length + p.user.length⟩

def responseField (p : Payload) : Field :=
  ⟨p.response.length, 72 + p.domain.length + p.user.length + p.workstation.length⟩

/-- The fields, then what they point to. -/
def message (p : Payload) : Bytes :=
  authHead p.responseField p.domainField p.userField p.workstationField ++ p.octets

end Payload

/-- An offset is patched into its field. -/
theorem patch_octets {x y : Bytes} {off n p q : Nat} (hoff : off = x.length + 4) :
    patch (x ++ (Field.octets ⟨n, p⟩ ++ y)) off (le 4 q) = x ++ (Field.octets ⟨n, q⟩ ++ y) := by
  subst hoff
  rw [patch_skip (Nat.le_add_right _ _), Nat.add_sub_cancel_left]
  simp (disch := decide) only [Field.octets, List.append_assoc, lengths, patch_skip_le,
    patch_here_le, Nat.sub_self]

theorem authHead_response (n p p' : Nat) (domain user workstation : Field) :
    patch (authHead ⟨n, p⟩ domain user workstation) 24 (le 4 p') =
      authHead ⟨n, p'⟩ domain user workstation :=
  patch_octets rfl

theorem authHead_domain (response : Field) (n p p' : Nat) (user workstation : Field) :
    patch (authHead response ⟨n, p⟩ user workstation) 32 (le 4 p') =
      authHead response ⟨n, p'⟩ user workstation := by
  unfold authHead
  rw [← List.append_assoc _ response.octets, ← List.append_assoc _ response.octets]
  exact patch_octets rfl

theorem authHead_user (response domain : Field) (n p p' : Nat) (workstation : Field) :
    patch (authHead response domain ⟨n, p⟩ workstation) 40 (le 4 p') =
      authHead response domain ⟨n, p'⟩ workstation := by
  unfold authHead
  rw [← List.append_assoc _ response.octets, ← List.append_assoc _ domain.octets,
    ← List.append_assoc _ response.octets, ← List.append_assoc _ domain.octets]
  exact patch_octets rfl

theorem authHead_workstation (response domain user : Field) (n p p' : Nat) :
    patch (authHead response domain user ⟨n, p⟩) 48 (le 4 p') =
      authHead response domain user ⟨n, p'⟩ := by
  unfold authHead
  rw [← List.append_assoc _ response.octets, ← List.append_assoc _ domain.octets,
    ← List.append_assoc _ user.octets, ← List.append_assoc _ response.octets,
    ← List.append_assoc _ domain.octets, ← List.append_assoc _ user.octets]
  exact patch_octets rfl

/-- The offsets that are patched in tell where the payload is. -/
theorem authenticateMessage_eq (domain : Option (List Nat)) (user : List Nat)
    (workstation : Option (List Nat)) (response : Bytes) :
    authenticateMessage [] domain user workstation response =
      Payload.message ⟨nameOctets domain, utf16Octets user, nameOctets workstation, response⟩ := by
  have hstart : [] ++ signature ++ le 4 AUTHENTICATION_MESSAGE ++ le 4 0 ++ le 4 0 ++
      lengths response.length ++ le 4 0 ++ lengths (nameOctets domain).length ++ le 4 0 ++
      lengths (utf16Octets user).length ++ le 4 0 ++ lengths (nameOctets workstation).length ++
      le 4 0 ++ le 4 0 ++ le 4 0 ++ le 4 (authFlags false) ++ le 4 0 ++ le 4 0 =
      authHead ⟨response.length, 0⟩ ⟨(nameOctets domain).length, 0⟩
        ⟨(utf16Octets user).length, 0⟩ ⟨(nameOctets workstation).length, 0⟩ := by
    simp only [authHead, authStart, authEnd, Field.octets, List.append_assoc, List.nil_append]
  unfold authenticateMessage
  simp only [hstart]
  simp (disch := simp) only [patch_append, authHead_domain, authHead_user,
    authHead_workstation, authHead_response, List.append_assoc, List.length_append,
    length_authHead, Nat.add_assoc, Payload.message, Payload.responseField, Payload.domainField,
    Payload.userField, Payload.workstationField, Payload.octets]

/-! ## What the server reads -/

theorem fetch_field {input x y : Bytes} {f : Field} {off : Nat}
    (hinput : input = x ++ (f.octets ++ y)) (hoff : off = x.length) :
    fetch input off 4 = .ok (lengths f.len) ∧ fetch input (off + 4) 4 = .ok (le 4 f.pos) := by
  constructor
  · refine fetch_of_eq (a := x) (c := le 4 f.pos ++ y) ?_ hoff (length_lengths _).symm
    rw [hinput, Field.octets, List.append_assoc]
  · refine fetch_of_eq (a := x ++ lengths f.len) (c := y) ?_ ?_ (length_le 4 _).symm
    · rw [hinput, Field.octets]
      simp only [List.append_assoc]
    · rw [hoff, List.length_append, length_lengths]

namespace Payload

variable (p : Payload)

theorem fetch_responseField : fetch p.message 20 4 = .ok (lengths p.responseField.len) ∧
    fetch p.message 24 4 = .ok (le 4 p.responseField.pos) := by
  refine fetch_field (f := p.responseField) (x := authStart)
    (y := p.domainField.octets ++ (p.userField.octets ++ (p.workstationField.octets ++
      (authEnd ++ p.octets)))) ?_ rfl
  simp only [message, authHead, List.append_assoc]

theorem fetch_domainField : fetch p.message 28 4 = .ok (lengths p.domainField.len) ∧
    fetch p.message 32 4 = .ok (le 4 p.domainField.pos) := by
  refine fetch_field (f := p.domainField) (x := authStart ++ p.responseField.octets)
    (y := p.userField.octets ++ (p.workstationField.octets ++ (authEnd ++ p.octets))) ?_ ?_
  · simp only [message, authHead, List.append_assoc]
  · simp only [List.length_append, length_authStart, Field.length_octets]

theorem fetch_userField : fetch p.message 36 4 = .ok (lengths p.userField.len) ∧
    fetch p.message 40 4 = .ok (le 4 p.userField.pos) := by
  refine fetch_field (f := p.userField)
    (x := authStart ++ p.responseField.octets ++ p.domainField.octets)
    (y := p.workstationField.octets ++ (authEnd ++ p.octets)) ?_ ?_
  · simp only [message, authHead, List.append_assoc]
  · simp only [List.length_append, length_authStart, Field.length_octets]

theorem fetch_workstationField :
    fetch p.message 44 4 = .ok (lengths p.workstationField.len) ∧
      fetch p.message 48 4 = .ok (le 4 p.workstationField.pos) := by
  refine fetch_field (f := p.workstationField)
    (x := authStart ++ p.responseField.octets ++ p.domainField.octets ++ p.userField.octets)
    (y := authEnd ++ p.octets) ?_ ?_
  · simp only [message, authHead, List.append_assoc]
  · simp only [List.length_append, length_authStart, Field.length_octets]

theorem fetch_domain : fetch p.message p.domainField.pos p.domain.length = .ok p.domain :=
  fetch_of_eq (c := p.user ++ (p.workstation ++ p.response)) rfl (length_authHead _ _ _ _).symm rfl

theorem fetch_user : fetch p.message p.userField.pos p.user.length = .ok p.user := by
  refine fetch_of_eq
    (a := authHead p.responseField p.domainField p.userField p.workstationField ++ p.domain)
    (c := p.workstation ++ p.response) ?_ ?_ rfl
  · simp only [message, octets, List.append_assoc]
  · rw [List.length_append, length_authHead, userField]

theorem fetch_workstation :
    fetch p.message p.workstationField.pos p.workstation.length = .ok p.workstation := by
  refine fetch_of_eq
    (a := authHead p.responseField p.domainField p.userField p.workstationField ++
      (p.domain ++ p.user))
    (c := p.response) ?_ ?_ rfl
  · simp only [message, octets, List.append_assoc]
  · simp only [List.length_append, length_authHead, workstationField, Nat.add_assoc]

/-- A part of the response. -/
theorem fetch_response {a b c : Bytes} {off n : Nat} (h : p.response = a ++ (b ++ c))
    (hoff : off = p.responseField.pos + a.length) (hn : n = b.length) :
    fetch p.message off n = .ok b := by
  refine fetch_of_eq
    (a := authHead p.responseField p.domainField p.userField p.workstationField ++
      (p.domain ++ (p.user ++ (p.workstation ++ a))))
    (c := c) ?_ ?_ hn
  · simp only [message, octets, h, List.append_assoc]
  · rw [hoff]
    simp only [List.length_append, length_authHead, responseField, Nat.add_assoc]

theorem length_message : p.message.length =
    p.responseField.pos + p.response.length := by
  simp only [message, octets, List.length_append, length_authHead, responseField, Nat.add_assoc]

end Payload

/-- A name that is empty is not found in the message. -/
def present : Option CString → Option CString
  | none => none
  | some s => if s.octets = [] then none else some s

theorem toUtf16_ok {bs : Bytes} {us : List Nat} : toUtf16 bs = .ok us ↔ Transcodes bs us := by
  rw [← utf8ToUtf16_eq_some]
  unfold toUtf16
  cases utf8ToUtf16 bs with
  | none => exact ⟨fun h => (nomatch h), fun h => (nomatch h)⟩
  | some vs => exact ⟨fun h => by cases h; rfl, fun h => by cases h; rfl⟩

theorem nameUnits_cases {name : Option CString} {us : Option (List Nat)}
    (h : nameUnits name = .ok us) :
    (name = none ∧ us = none) ∨ ∃ s vs, name = some s ∧ us = some vs ∧ Transcodes s.octets vs := by
  cases name with
  | none =>
    cases h
    exact .inl ⟨rfl, rfl⟩
  | some s =>
    simp only [nameUnits] at h
    cases hvs : toUtf16 s.octets with
    | error stop =>
      rw [hvs] at h
      cases h
    | ok vs =>
      rw [hvs] at h
      cases h
      exact .inr ⟨s, vs, rfl, rfl, toUtf16_ok.mp hvs⟩

/-- The text of a field is the string that was sent. -/
theorem ofBytes_utf16Octets {s : CString} {us : List Nat} (h : Transcodes s.octets us) :
    CString.ofBytes (utf16ToUtf8 (utf16Units (utf16Octets us))) = s := by
  rw [utf16Units_utf16Octets h.lt, utf16ToUtf8_utf8ToUtf16 (utf8ToUtf16_eq_some.mpr h)]
  exact CString.ext_octets s.ofBytes_octets

/-- The server finds the name that the client put into the field. -/
theorem ntlmsspGetUtf16Field_eq {input : Bytes} {off pos : Nat} {name : Option CString}
    {us : Option (List Nat)} (hroom : off + 8 ≤ input.length)
    (hlen : fetch input off 4 = .ok (lengths (nameOctets us).length))
    (hpos : fetch input (off + 4) 4 = .ok (le 4 pos))
    (htext : fetch input pos (nameOctets us).length = .ok (nameOctets us)) (hpos₀ : 0 < pos)
    (hpos₁ : pos < 4294967296) (hname : nameUnits name = .ok us)
    (hfits : (nameOctets us).length < 65536) :
    ntlmsspGetUtf16Field input off = .ok (present name) := by
  unfold ntlmsspGetUtf16Field
  rw [if_neg (by omega), hlen, ok_bind, hpos, ok_bind, fromLe_lengths hfits, fromLe_four hpos₁]
  simp only
  rcases nameUnits_cases hname with ⟨rfl, rfl⟩ | ⟨s, vs, rfl, rfl, hvs⟩
  · exact if_neg fun h => h.1 rfl
  · have hoct : nameOctets (some vs) = utf16Octets vs := rfl
    rw [hoct, length_utf16Octets] at htext ⊢
    cases vs with
    | nil =>
      have hnil : s.octets = [] := hvs.octets_nil
      rw [if_neg fun h => h.1 rfl]
      exact congrArg Except.ok (if_pos hnil).symm
    | cons v vs =>
      have hne : s.octets ≠ [] := by
        intro hnil
        have hle := hvs.length.1
        rw [hnil] at hle
        exact Nat.not_succ_le_zero _ hle
      have heven : 2 * (2 * (v :: vs).length / 2) = 2 * (v :: vs).length := by omega
      rw [if_pos ⟨by rw [List.length_cons]; omega, by omega⟩, heven, htext, ok_bind,
        ofBytes_utf16Octets hvs]
      exact congrArg Except.ok (if_neg hne).symm

end Libsmb2.Ntlm
