import Libsmb2.Ntlmssp.Agreement
import Libsmb2.Ntlmssp.Authenticate
import Libsmb2.Ntlmssp.Rewriting

/-!
# An NTLMv2 logon

A client answers the challenge of a server whose handler has the client's password.

* `NTOWFv2_ok` — a password gives a key;
* `answerChallenge_eq` — the message that the client sends, and the key that it exports;
* `checkProof_eq` — the server finds the proof that it computes;
* `logon_agrees` — the whole exchange.
-/

set_option autoImplicit false

namespace Libsmb2.Ntlm

open Util

/-! ## The key of a password -/

/-- Text that can be converted. -/
def Valid (s : CString) : Prop := ∃ us, Transcodes s.octets us

/-- A hash is written in ASCII. -/
def PlainHash (password : CString) : Prop :=
  isHash password.octets = true → ∀ c ∈ password.octets, c.toNat < 128

variable {password user : CString}

theorem ntlmConvertPasswordHash_ok (hv : Valid password)
    (hhash : isHash password.octets = true) (hplain : ∀ c ∈ password.octets, c.toNat < 128) :
    ∃ hash, ntlmConvertPasswordHash (password.octets.drop 5) = .ok hash := by
  obtain ⟨us, hus⟩ := hv
  have hlen : password.octets.length = 37 := by
    simp only [isHash, decide_eq_true_eq] at hhash
    exact hhash.1
  have hsplit : password.octets = password.octets.take 5 ++ password.octets.drop 5 :=
    (List.take_append_drop 5 _).symm
  rw [hsplit] at hus
  obtain ⟨vs, hvs⟩ := hus.of_ascii fun c hc => hplain c (List.mem_of_mem_take hc)
  have hcount : vs.length = 32 := by
    rw [hvs.length.2.mpr fun c hc => hplain c (List.mem_of_mem_drop hc), List.length_drop, hlen]
  refine ⟨hashOctets (vs.take 32), ?_⟩
  unfold ntlmConvertPasswordHash
  rw [toUtf16_ok.mpr hvs, ok_bind, if_neg (by omega)]

/-- **A password gives a key.** -/
theorem NTOWFv2_ok (P : Primitives) {domain : Option CString}
    (hu : Valid user) (hp : Valid password) (hhash : PlainHash password)
    (hd : ∀ d ∈ domain, Valid d) :
    ∃ key, NTOWFv2 P (some user) (some password) domain = .ok key := by
  obtain ⟨us, hus⟩ := hu
  obtain ⟨vs, hvs, _⟩ := hus.upper
  have hrest : ∃ ws, Transcodes ((domain.map CString.octets).getD []) ws := by
    cases domain with
    | none => exact ⟨[], .nil⟩
    | some d => exact hd d rfl
  obtain ⟨ws, hws⟩ := hrest
  have hunits := toUtf16_ok.mpr (hvs.append hws)
  by_cases h : isHash password.octets = true
  · obtain ⟨hash, hconv⟩ := ntlmConvertPasswordHash_ok hp h (hhash h)
    refine ⟨P.hmacMd5 (utf16Octets (vs ++ ws)) hash, ?_⟩
    simp only [NTOWFv2, h, if_true, hconv, hunits, ok_bind]
    rfl
  · obtain ⟨ps, hps⟩ := hp
    refine ⟨P.hmacMd5 (utf16Octets (vs ++ ws)) (P.md4 (utf16Octets ps)), ?_⟩
    simp only [NTOWFv2, h, NTOWFv1, toUtf16_ok.mpr hps, hunits, ok_bind, pure_eq_ok]
    rfl

/-- The server's key is the client's: a domain that is empty counts for none. -/
theorem NTOWFv2_present (P : Primitives) (user password domain : Option CString) :
    NTOWFv2 P user password (present domain) = NTOWFv2 P user password domain := by
  have hoctets : ((present domain).map CString.octets).getD [] =
      (domain.map CString.octets).getD [] := by
    cases domain with
    | none => rfl
    | some d =>
      have hif : present (some d) = if d.octets = [] then none else some d := rfl
      rw [hif]
      split
      · rename_i hnil
        exact hnil.symm
      · rfl
  unfold NTOWFv2
  cases user with
  | none => rfl
  | some u =>
    cases password with
    | none => rfl
    | some p => simp only [hoctets]

/-! ## The client -/

/-- The domain that the client answers with: the target name, unless there is another one. -/
def answeredDomain (client : Client) (auth : AuthData) (names : Option (List Nat × List Nat)) :
    Option CString :=
  let name := (copiedName names).orElse fun _ => auth.targetName
  if auth.domain.isNone ∧ name.isSome then name else client.domain

/-- The response to a challenge, under a key. -/
def response (P : Primitives) (t : Nat) (clientChallenge serverName key : Bytes) : Bytes :=
  P.hmacMd5 ([1, 2, 3, 4, 5, 6, 7, 8] ++ responseBlob t clientChallenge serverName) key ++
    responseBlob t clientChallenge serverName

/-- The key that both sides export. -/
def exportedKey (P : Primitives) (t : Nat) (clientChallenge serverName key : Bytes) : Bytes :=
  P.hmacMd5 (P.hmacMd5 ([1, 2, 3, 4, 5, 6, 7, 8] ++ responseBlob t clientChallenge serverName) key)
    key

/-- What a client knows that logs on as `user` with `password`. -/
structure LogsOn (client : Client) (auth : AuthData) (user password : CString) : Prop where
  user : auth.user = some user
  password : client.password = some password
  challenge : auth.clientChallenge.length = 8

/-- The challenge and its copy can be made. -/
structure ExchangeFits (names : Option (List Nat × List Nat)) (spn : Option (List Nat))
    (wintime : Nat) : Prop where
  same : SameLength names
  response : (challengeInfo names wintime).length + (spnAttribute spn).length + 48 < 65536
  room : (spnAttribute spn).length ≤ 400

variable {names : Option (List Nat × List Nat)}

/-- The target info has the target name in it three times. -/
theorem hostOctets_length_le (hsame : SameLength names)
    (wintime : Nat) :
    3 * (hostOctets names).length ≤ (challengeInfo names wintime).length := by
  cases names with
  | none => exact Nat.zero_le _
  | some n =>
    have hlen : n.2.length = n.1.length := hsame n rfl
    simp only [hostOctets, challengeInfo, Option.map_some, Option.getD_some, length_utf16Octets,
      List.length_append, length_attr, length_le]
    omega

theorem ExchangeFits.pos {spn : Option (List Nat)}
    {wintime : Nat} (h : ExchangeFits names spn wintime) :
    56 + (hostOctets names).length < 65536 := by
  have hthree := hostOctets_length_le h.same wintime
  have hresp := h.response
  omega

/-- **What the client answers to a challenge.** -/
theorem answerChallenge_eq (P : Primitives) {client : Client} {auth : AuthData} (t : Nat)
    {wintime : Nat}
    {uu : List Nat} {du wu : Option (List Nat)} {key : Bytes}
    (hfits : ExchangeFits names (utf8ToUtf16 (targetSpn client.server)) wintime)
    (hlog : LogsOn client auth user password)
    (hkey : NTOWFv2 P (some user) (some password) (answeredDomain client auth names) = .ok key)
    (huser : toUtf16 user.octets = .ok uu)
    (hdomain : nameUnits (answeredDomain client auth names) = .ok du)
    (hworkstation : nameUnits auth.workstation = .ok wu) :
    ∃ auth', answerChallenge P client t auth (challengeMessage names wintime) = .ok auth' ∧
      auth'.buf = Payload.message ⟨nameOctets du, utf16Octets uu, nameOctets wu,
        response P t auth.clientChallenge
          (copiedServerName names (utf8ToUtf16 (targetSpn client.server)) wintime) key⟩ ∧
      auth'.exportedSessionKey = exportedKey P t auth.clientChallenge
        (copiedServerName names (utf8ToUtf16 (targetSpn client.server)) wintime) key := by
  have hresp := hfits.response
  have hinfo : (challengeInfo names wintime).length < 65536 := by omega
  obtain ⟨junk, hdecode⟩ := ntlmDecodeChallengeMessage_eq P client { auth with buf := [] }
    hfits.same hinfo hfits.pos hfits.room
  unfold answerChallenge
  rw [hdecode, ok_bind]
  have hchallenge : fetch (copiedChallenge names (utf8ToUtf16 (targetSpn client.server)) wintime ++
      junk) 24 8 = .ok [1, 2, 3, 4, 5, 6, 7, 8] := by
    rw [copiedChallenge, List.append_assoc, fetch_head (by simp), challengeHead_serverChallenge]
  dsimp only
  rw [hchallenge, ok_bind]
  generalize hclient : (if auth.domain.isNone ∧ ((copiedName names).orElse fun _ =>
      auth.targetName).isSome then { client with domain := (copiedName names).orElse fun _ =>
        auth.targetName } else client) = answering
  have hpassword : answering.password = some password := by
    rw [← hclient, ← hlog.password]
    split <;> rfl
  have hanswered : answering.domain = answeredDomain client auth names := by
    rw [← hclient]
    unfold answeredDomain
    simp only
    split <;> rfl
  unfold encodeNtlmAuth
  simp only [hpassword, hanswered, hlog.user]
  rw [ntlmResponse_eq t hfits.same hfits.pos rfl rfl rfl (by omega) hfits.room hkey rfl, ok_bind]
  have huser' : toUtf16 (((some user).map CString.octets).getD []) = .ok uu := huser
  simp only
  rw [hdomain, ok_bind, huser', ok_bind, hworkstation, ok_bind]
  exact ⟨_, rfl, authenticateMessage_eq du uu wu _, rfl⟩

/-! ## The server -/

theorem length_response (P : Primitives) (t : Nat) (clientChallenge serverName key : Bytes) :
    (response P t clientChallenge serverName key).length =
      40 + clientChallenge.length + serverName.length := by
  rw [response, List.length_append, P.length_hmacMd5, length_responseBlob]
  omega

/-- **The server computes the proof that it finds.** -/
theorem checkProof_eq (P : Primitives) {auth : AuthData} {p : Payload} {t : Nat}
    {clientChallenge serverName key : Bytes}
    (hresponse : p.response = response P t clientChallenge serverName key)
    (hchallenge : auth.serverChallenge = [1, 2, 3, 4, 5, 6, 7, 8])
    (hclient : clientChallenge.length = 8) (hname : 4 < serverName.length)
    (hshort : serverName.length + 48 < 65536) (hpos : p.responseField.pos < 4294967296)
    (hkey : NTOWFv2 P auth.user (some password) auth.domain = .ok key) :
    checkProof P auth (some password) p.message = .ok { auth with
      buf := []
      clientChallenge := clientChallenge
      exportedSessionKey := exportedKey P t clientChallenge serverName key } := by
  have hlen : p.response.length = 48 + serverName.length := by
    rw [hresponse, length_response]
    omega
  have hmessage := p.length_message
  have hfield : p.responseField.pos = 72 + p.domain.length + p.user.length +
    p.workstation.length := rfl
  have hblob := length_responseBlob t clientChallenge serverName
  have hwrap : (p.response.length + 4294967296 - 16) % 4294967296 = p.response.length - 16 := by
    omega
  obtain ⟨hreadLen, hreadPos⟩ := p.fetch_responseField
  have hproof : (P.hmacMd5 ([1, 2, 3, 4, 5, 6, 7, 8] ++ responseBlob t clientChallenge serverName)
      key).length = 16 := P.length_hmacMd5 _ _
  rw [response] at hresponse
  generalize hp : P.hmacMd5 ([1, 2, 3, 4, 5, 6, 7, 8] ++ responseBlob t clientChallenge serverName)
    key = proof at hresponse hproof
  have hreadChallenge : fetch p.message (p.responseField.pos + 32) 8 = .ok clientChallenge := by
    refine Payload.fetch_response p (a := proof ++ ([1, 1, 0, 0, 0, 0, 0, 0] ++ le 8 t))
      (c := zeros 4 ++ (serverName ++ zeros 4)) ?_ ?_ hclient.symm
    · rw [hresponse, responseBlob]
      simp only [List.append_assoc]
    · simp only [List.length_append, hproof, length_le, List.length_cons, List.length_nil]
  have hreadTemp : fetch p.message (p.responseField.pos + 16) (p.response.length - 16) =
      .ok (responseBlob t clientChallenge serverName) := by
    refine Payload.fetch_response p (a := proof) (c := []) ?_ ?_ (by omega)
    · rw [hresponse, List.append_nil]
    · rw [hproof]
  have hreadProof : fetch p.message p.responseField.pos 16 = .ok proof := by
    refine Payload.fetch_response p (a := []) (c := responseBlob t clientChallenge serverName)
      ?_ rfl hproof.symm
    rw [hresponse, List.nil_append]
  have hfieldLen : p.responseField.len = p.response.length := rfl
  unfold checkProof
  rw [hreadLen, ok_bind, hreadPos, ok_bind, hfieldLen, fromLe_lengths (by omega),
    fromLe_four hpos]
  simp only
  rw [if_neg (by omega), if_neg (by omega), hwrap, if_neg (by omega), hreadChallenge, ok_bind, hkey,
    ok_bind, hreadTemp, ok_bind, hreadProof, ok_bind, hchallenge, hp, if_neg (fun h => h rfl)]
  rw [exportedKey, hp]
  rfl

/-- What the fields of the message fit into. -/
structure PayloadFits (p : Payload) : Prop where
  domain : p.domain.length < 65536
  user : p.user.length < 65536
  workstation : p.workstation.length < 65536

/-- **The server accepts the message** of a user whose password its handler knows. -/
theorem ntlmsspAuthenticateBlob_eq (P : Primitives) {server : Server} {auth : AuthData}
    {domain workstation : Option CString} {uu : List Nat}
    {du wu : Option (List Nat)} {resp : Bytes}
    (hfits : PayloadFits ⟨nameOctets du, utf16Octets uu, nameOctets wu, resp⟩)
    (huser : toUtf16 user.octets = .ok uu) (hne : user.octets ≠ [])
    (hdomain : nameUnits domain = .ok du) (hworkstation : nameUnits workstation = .ok wu)
    (hpne : password.octets ≠ [])
    (hhandler : server.authorizeUser (some user) (present domain) (present workstation) =
      some (some password)) :
    ntlmsspAuthenticateBlob P server auth
        (Payload.message ⟨nameOctets du, utf16Octets uu, nameOctets wu, resp⟩) =
      checkProof P { auth with
          domain := present domain
          user := some user
          workstation := present workstation } (some password)
        (Payload.message ⟨nameOctets du, utf16Octets uu, nameOctets wu, resp⟩) := by
  have hname : nameUnits (some user) = .ok (some uu) := by
    rw [nameUnits, huser]
    rfl
  have hpresent : present (some user) = some user := if_neg hne
  generalize hp : (⟨nameOctets du, utf16Octets uu, nameOctets wu, resp⟩ : Payload) = p at hfits ⊢
  have hpd : p.domain = nameOctets du := by rw [← hp]
  have hpu : p.user = nameOctets (some uu) := by rw [← hp]; rfl
  have hpw : p.workstation = nameOctets wu := by rw [← hp]
  have hmessage := p.length_message
  have hresp : p.responseField.pos = 72 + p.domain.length + p.user.length +
    p.workstation.length := rfl
  have huserPos : p.userField.pos = 72 + p.domain.length := rfl
  have hworkstationPos : p.workstationField.pos = 72 + p.domain.length + p.user.length := rfl
  have hfitsDomain := hfits.domain
  have hfitsUser := hfits.user
  have hfitsWorkstation := hfits.workstation
  have hstart : p.message = authStart ++ (p.responseField.octets ++ (p.domainField.octets ++
      (p.userField.octets ++ (p.workstationField.octets ++ (authEnd ++ p.octets))))) := by
    simp only [Payload.message, authHead, List.append_assoc]
  have hsignature : p.message.take 8 = signature := by
    rw [hstart, authStart]
    simp only [List.append_assoc]
    rw [List.take_append_of_le_length (by rw [length_signature]), List.take_of_length_le
      (by rw [length_signature])]
  have hcmd : fetch p.message 8 4 = .ok (le 4 AUTHENTICATION_MESSAGE) := by
    refine fetch_of_eq (a := signature) (c := le 4 0 ++ le 4 0 ++ (p.responseField.octets ++
      (p.domainField.octets ++ (p.userField.octets ++ (p.workstationField.octets ++
        (authEnd ++ p.octets)))))) ?_ rfl rfl
    rw [hstart, authStart]
    simp only [List.append_assoc]
  have hreadDomain : ntlmsspGetUtf16Field p.message 28 = .ok (present domain) :=
    ntlmsspGetUtf16Field_eq (by omega) (hpd ▸ p.fetch_domainField.1) p.fetch_domainField.2
      (hpd ▸ p.fetch_domain) (Nat.succ_pos _) (by decide : 72 < 4294967296) hdomain
      (hpd ▸ hfitsDomain)
  have hreadUser : ntlmsspGetUtf16Field p.message 36 = .ok (present (some user)) :=
    ntlmsspGetUtf16Field_eq (by omega) (hpu ▸ p.fetch_userField.1) p.fetch_userField.2
      (hpu ▸ p.fetch_user) (by omega) (by omega) hname (hpu ▸ hfitsUser)
  have hreadWorkstation : ntlmsspGetUtf16Field p.message 44 = .ok (present workstation) :=
    ntlmsspGetUtf16Field_eq (by omega) (hpw ▸ p.fetch_workstationField.1)
      p.fetch_workstationField.2 (hpw ▸ p.fetch_workstation) (by omega) (by omega) hworkstation
      (hpw ▸ hfitsWorkstation)
  rw [hpresent] at hreadUser
  unfold ntlmsspAuthenticateBlob
  rw [if_neg (by rw [hsignature]; simp; omega), hcmd, ok_bind]
  have huserFull : (some user).all (fun u => u.octets.isEmpty) = false := by
    simpa [List.isEmpty_iff] using hne
  have hpasswordFull : (some password).all (fun p => p.octets.isEmpty) = false := by
    simpa [List.isEmpty_iff] using hpne
  simp only
  rw [fromLe_four (by decide), if_neg (fun h => h rfl), hreadDomain, ok_bind, hreadUser, ok_bind,
    hreadWorkstation, ok_bind, fetch_ok (by omega), ok_bind, hhandler]
  simp only [huserFull, hpasswordFull]
  rfl

/-! ## The exchange -/

/-- A name that is valid, and that fits into its field. -/
def FitsField (name : Option CString) : Prop :=
  ∃ us, nameUnits name = .ok us ∧ (nameOctets us).length < 65536

theorem FitsField.valid {name : Option CString} (h : FitsField name) : ∀ s ∈ name, Valid s := by
  obtain ⟨us, hus, _⟩ := h
  rintro s rfl
  rcases nameUnits_cases hus with ⟨h, _⟩ | ⟨s', vs, h, _, hvs⟩
  · cases h
  · obtain rfl : s = s' := Option.some.inj h
    exact ⟨vs, hvs⟩

theorem challengeInfo_length_ge (names : Option (List Nat × List Nat)) (wintime : Nat) :
    16 ≤ (challengeInfo names wintime).length := by
  simp only [challengeInfo, List.length_append, length_attr, length_le]
  omega

theorem hostNames_same {workstation : Option CString}
    (h : hostNames workstation = .ok names) : SameLength names := by
  cases workstation with
  | none =>
    cases h
    intro n hn
    cases hn
  | some w =>
    unfold hostNames at h
    simp only at h
    cases hhost : toUtf16 w.octets with
    | error stop =>
      rw [hhost] at h
      cases h
    | ok host =>
      cases hupper : toUtf16 (w.octets.map toupper) with
      | error stop =>
        rw [hhost, hupper] at h
        cases h
      | ok upper =>
        rw [hhost, hupper] at h
        cases h
        rintro n ⟨⟩
        obtain ⟨vs, hvs, hlen⟩ := (toUtf16_ok.mp hhost).upper
        obtain rfl : upper = vs := Except.ok.inj (hupper.symm.trans (toUtf16_ok.mpr hvs))
        exact hlen

/-- **A client that knows the password logs on**, and both sides export one key. -/
theorem logon_agrees (P : Primitives) {client : Client} {server : Server} {issuer answerer : AuthData}
    (t : Nat) {names : Option (List Nat × List Nat)} {user password : CString}
    (hbuf : issuer.buf = []) (hnames : hostNames issuer.workstation = .ok names)
    (hchallenge : (challengeInfo names issuer.wintime).length +
      (spnAttribute (utf8ToUtf16 (targetSpn client.server))).length + 48 < 65536)
    (hspn : (spnAttribute (utf8ToUtf16 (targetSpn client.server))).length ≤ 400)
    (hlog : LogsOn client answerer user password)
    (hune : user.octets ≠ []) (huser : FitsField (some user))
    (hpne : password.octets ≠ []) (hpassword : Valid password) (hhash : PlainHash password)
    (hdomain : FitsField (answeredDomain client answerer names))
    (hworkstation : FitsField answerer.workstation)
    (hhandler : server.authorizeUser (some user) (present (answeredDomain client answerer names))
      (present answerer.workstation) = some (some password)) :
    ∃ issuer' answerer' issuer'', encodeNtlmChallenge issuer = .ok issuer' ∧
      answerChallenge P client t answerer issuer'.buf = .ok answerer' ∧
      ntlmsspAuthenticateBlob P server issuer' answerer'.buf = .ok issuer'' ∧
      issuer''.user = some user ∧
      issuer''.exportedSessionKey = answerer'.exportedSessionKey := by
  have hsame := hostNames_same hnames
  have hfits : ExchangeFits names (utf8ToUtf16 (targetSpn client.server)) issuer.wintime :=
    ⟨hsame, hchallenge, hspn⟩
  obtain ⟨key, hkey⟩ := NTOWFv2_ok P (huser.valid user rfl) hpassword hhash hdomain.valid
  obtain ⟨us, hus, husLen⟩ := huser
  obtain ⟨du, hdu, hduLen⟩ := hdomain
  obtain ⟨wu, hwu, hwuLen⟩ := hworkstation
  have hunits : toUtf16 user.octets = .ok (us.getD []) := by
    rcases nameUnits_cases hus with ⟨h, _⟩ | ⟨s', vs, h, rfl, hvs⟩
    · cases h
    · obtain rfl : user = s' := Option.some.inj h
      exact toUtf16_ok.mpr hvs
  have husLen' : (utf16Octets (us.getD [])).length < 65536 := by
    cases us with
    | none => exact Nat.zero_lt_succ _
    | some vs => exact husLen
  obtain ⟨answerer', hanswer, hmessage, hexported⟩ :=
    answerChallenge_eq P t hfits hlog hkey hunits hdu hwu
  have hname := length_copiedServerName hsame (utf8ToUtf16 (targetSpn client.server))
    issuer.wintime
  have hinfo := challengeInfo_length_ge names issuer.wintime
  have hmod : copiedInfoLen names (utf8ToUtf16 (targetSpn client.server)) issuer.wintime =
      (challengeInfo names issuer.wintime).length +
        (spnAttribute (utf8ToUtf16 (targetSpn client.server))).length :=
    Nat.mod_eq_of_lt (by omega)
  let challenged : AuthData := { issuer with
    buf := challengeMessage names issuer.wintime
    serverChallenge := [1, 2, 3, 4, 5, 6, 7, 8]
    targetInfo := challengeInfo names issuer.wintime }
  let resp := response P t answerer.clientChallenge
    (copiedServerName names (utf8ToUtf16 (targetSpn client.server)) issuer.wintime) key
  have hfields : PayloadFits ⟨nameOctets du, utf16Octets (us.getD []), nameOctets wu, resp⟩ :=
    ⟨hduLen, husLen', hwuLen⟩
  have haccept : ntlmsspAuthenticateBlob P server challenged
      (Payload.message ⟨nameOctets du, utf16Octets (us.getD []), nameOctets wu, resp⟩) = _ :=
    ntlmsspAuthenticateBlob_eq P hfields hunits hune hdu hwu hpne hhandler
  rw [checkProof_eq P rfl rfl hlog.challenge (by omega) (by omega) ?_
    ((NTOWFv2_present P _ _ _).trans hkey), ← hmessage] at haccept
  · exact ⟨_, answerer', _, encodeNtlmChallenge_eq hbuf hnames hsame hfits.pos, hanswer, haccept,
      rfl, hexported.symm⟩
  · simp only [Payload.responseField]
    omega

/-- A client of the server "a" with a password of one letter. -/
def letterClient : Client := { sampleClient with password := some letterPassword }

/-- The user "u". -/
def letterUser : CString := CString.ofBytes [0x75]

theorem letter_logs_on :
    ∃ issuer' answerer' issuer'',
      encodeNtlmChallenge { workstation := some (CString.ofBytes [0x68]) } = .ok issuer' ∧
      answerChallenge (filledWith 7) letterClient 5
        { user := some letterUser, clientChallenge := zeros 8 } issuer'.buf = .ok answerer' ∧
      ntlmsspAuthenticateBlob (filledWith 7) letterServer issuer' answerer'.buf = .ok issuer'' ∧
      issuer''.user = some letterUser ∧
      issuer''.exportedSessionKey = answerer'.exportedSessionKey :=
  have hnames : hostNames (some (CString.ofBytes [0x68])) = .ok (some ([0x68], [0x48])) := by
    decide +kernel
  have hlog : LogsOn letterClient { user := some letterUser, clientChallenge := zeros 8 }
      letterUser letterPassword := ⟨rfl, rfl, rfl⟩
  logon_agrees (filledWith 7) 5 rfl hnames (by decide +kernel) (by decide +kernel) hlog
    (by decide +kernel) ⟨some [0x75], by decide +kernel, by decide +kernel⟩
    (by decide +kernel) ⟨[0x70], utf8ToUtf16_eq_some.mp (by decide +kernel)⟩
    (fun h => by cases h) ⟨some [0x48], by decide +kernel, by decide +kernel⟩
    ⟨none, rfl, by decide +kernel⟩ rfl

end Libsmb2.Ntlm
