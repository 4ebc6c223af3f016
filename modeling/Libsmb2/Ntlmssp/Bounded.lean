import Libsmb2.Ntlmssp.Challenge

/-!
# Which challenges are copied inside their buffers

`ntlm_decode_challenge_message` follows two offsets and a list of attributes, and relates none of
them to the length of the message.  `ChallengeFits` says of the octets that arrive when this does
no harm.

* `InfoStays.run`, `transcodeInfo_stays` — the loop over the attributes goes through exactly when
  each attribute that it comes to is in the message, and its copy in the output;
* `ntlmDecodeChallengeMessage_taken`, `ntlmDecodeChallengeMessage_left` — the copy is what is
  written, followed by what `malloc` left;
* `ReadsAlike.encodeNtlmAuth_eq` — what `encode_ntlm_auth` reads of the copy;
* `challenge_bounded_iff` — no read or write is outside, and everything that `encode_ntlm_auth`
  reads has been written, exactly for the challenges that fit.
-/

set_option autoImplicit false

namespace Libsmb2.Ntlm

open Util

/-! ## The loop -/

/-- The attributes from `inoff` on, of which `inlen` octets are left, are in the message, and their
copies in an output of `room` octets, `outoff` of which are used. -/
inductive InfoStays (spn : Option (List Nat)) (buf : Bytes) (room : Nat) : Nat → Nat → Nat → Prop
  | done (inoff outoff : Nat) : InfoStays spn buf room inoff 0 outoff
  | breaks {inoff inlen outoff : Nat} (hmore : inlen ≠ 0) (hin : inoff + 4 ≤ buf.length)
      (hbreak : Breaks buf room inoff inlen outoff) : InfoStays spn buf room inoff inlen outoff
  | ends {inoff inlen outoff : Nat} (hmore : inlen ≠ 0) (hin : inoff + 4 ≤ buf.length)
      (hgoes : ¬Breaks buf room inoff inlen outoff) (hcode : attrCode buf inoff = 0)
      (hroom : outoff + ((spnAttribute spn).length + 4) ≤ room)
      (hnext : InfoStays spn buf room ((inoff + 4) % 4294967296) ((inlen + 131072 - 4) % 65536)
        (outoff + ((spnAttribute spn).length + 4))) :
      InfoStays spn buf room inoff inlen outoff
  | copies {inoff inlen outoff : Nat} (hmore : inlen ≠ 0)
      (hin : inoff + 4 + attrLen buf inoff ≤ buf.length)
      (hgoes : ¬Breaks buf room inoff inlen outoff) (hcode : attrCode buf inoff ≠ 0)
      (hroom : outoff + (4 + attrLen buf inoff) ≤ room)
      (hnext : InfoStays spn buf room ((inoff + 4 + attrLen buf inoff) % 4294967296)
        ((inlen + 131072 - (4 + attrLen buf inoff)) % 65536)
        (outoff + (4 + attrLen buf inoff))) :
      InfoStays spn buf room inoff inlen outoff

/-- What the loop appends does not depend on what the output held. -/
def Appends (spn : Option (List Nat)) (buf w : Bytes) (k inoff inlen infolen fuel : Nat) : Prop :=
  ∃ (new : Bytes) (inoff' inlen' infolen' : Nat), new.length ≤ k ∧
    ∀ rest : Bytes, rest.length = k →
      transcodeInfo spn buf fuel ⟨w ++ rest, inoff, inlen, w.length, infolen⟩ =
        .ok ⟨w ++ new ++ rest.drop new.length, inoff', inlen', w.length + new.length, infolen'⟩

theorem Appends.nothing {spn : Option (List Nat)} {buf w : Bytes}
    {k inoff inlen infolen fuel : Nat}
    (h : ∀ rest : Bytes, rest.length = k →
      transcodeInfo spn buf fuel ⟨w ++ rest, inoff, inlen, w.length, infolen⟩ =
        .ok ⟨w ++ rest, inoff, inlen, w.length, infolen⟩) :
    Appends spn buf w k inoff inlen infolen fuel := by
  refine ⟨[], inoff, inlen, infolen, Nat.zero_le k, ?_⟩
  intro rest hrest
  rw [h rest hrest, List.append_nil]
  rfl

/-- A round that appends `new`, and what the rounds after it append. -/
theorem Appends.cons {spn : Option (List Nat)} {buf w new : Bytes}
    {k inoff inlen infolen inoff' inlen' infolen' fuel fuel' : Nat} (hnew : new.length ≤ k)
    (hround : ∀ rest : Bytes, rest.length = k →
      transcodeInfo spn buf fuel ⟨w ++ rest, inoff, inlen, w.length, infolen⟩ =
        transcodeInfo spn buf fuel' ⟨w ++ new ++ rest.drop new.length, inoff', inlen',
          w.length + new.length, infolen'⟩)
    (h : Appends spn buf (w ++ new) (k - new.length) inoff' inlen' infolen' fuel') :
    Appends spn buf w k inoff inlen infolen fuel := by
  obtain ⟨more, inoff'', inlen'', infolen'', hmore, hrun⟩ := h
  refine ⟨new ++ more, inoff'', inlen'', infolen'', ?_, ?_⟩
  · rw [List.length_append]
    omega
  · intro rest hrest
    have hleft : (rest.drop new.length).length = k - new.length := by
      rw [List.length_drop, hrest]
    have hnext := hrun (rest.drop new.length) hleft
    rw [List.length_append] at hnext
    rw [hround rest hrest, hnext]
    simp only [List.append_assoc, List.length_append, List.drop_drop, Nat.add_assoc]

/-- The loop goes through; a round needs four octets of the output, so that the fuel lasts. -/
theorem InfoStays.run {spn : Option (List Nat)} {buf : Bytes} {room inoff inlen outoff : Nat}
    (h : InfoStays spn buf room inoff inlen outoff) :
    ∀ {w : Bytes} {k fuel infolen : Nat}, outoff = w.length → room = w.length + k →
      k < 4 * fuel → infolen < 65536 → Appends spn buf w k inoff inlen infolen fuel := by
  induction h with
  | done inoff outoff =>
    intro w k fuel infolen _ _ hfuel _
    obtain ⟨fuel, rfl⟩ : ∃ n, fuel = n + 1 := ⟨fuel - 1, by omega⟩
    exact Appends.nothing fun rest _ => transcodeInfo_done rfl
  | breaks hmore hin hbreak =>
    intro w k fuel infolen hout hroom hfuel _
    obtain ⟨fuel, rfl⟩ : ∃ n, fuel = n + 1 := ⟨fuel - 1, by omega⟩
    refine Appends.nothing fun rest hrest => transcodeInfo_breaks hmore hin ?_
    rw [List.length_append, hrest, ← hroom, ← hout]
    exact hbreak
  | ends hmore hin hgoes hcode hfits hnext ih =>
    intro w k fuel infolen hout hroom hfuel hinfolen
    obtain ⟨fuel, rfl⟩ : ∃ n, fuel = n + 1 := ⟨fuel - 1, by omega⟩
    have hlen : (spnAttribute spn ++ le 4 0).length = (spnAttribute spn).length + 4 := by
      rw [List.length_append, length_le]
    have hk : (spnAttribute spn ++ le 4 0).length ≤ k := by omega
    apply Appends.cons hk
    · intro rest hrest
      rw [hlen]
      exact transcodeInfo_ends_fits hmore hin (by rw [hrest, ← hroom, ← hout]; exact hgoes) hcode
        (by omega) hinfolen
    · apply ih
      · rw [List.length_append, hlen, hout]
      · rw [List.length_append, hlen]
        omega
      · omega
      · exact Nat.mod_lt _ (by decide)
  | @copies inoff inlen outoff hmore hin hgoes hcode hfits hnext ih =>
    intro w k fuel infolen hout hroom hfuel hinfolen
    obtain ⟨fuel, rfl⟩ : ∃ n, fuel = n + 1 := ⟨fuel - 1, by omega⟩
    have hval : (slice buf (inoff + 4) (attrLen buf inoff)).length = attrLen buf inoff := by
      rw [length_slice]
      omega
    have hlen : (attr (attrCode buf inoff) (attrLen buf inoff)
        (slice buf (inoff + 4) (attrLen buf inoff))).length = 4 + attrLen buf inoff := by
      rw [length_attr, hval]
    have hk := hlen.trans_le (show 4 + attrLen buf inoff ≤ k by omega)
    apply Appends.cons hk
    · intro rest hrest
      rw [hlen]
      exact transcodeInfo_copies hmore hin (by rw [hrest, ← hroom, ← hout]; exact hgoes) hcode
        (by omega)
    · apply ih
      · rw [List.length_append, hlen, hout]
      · rw [List.length_append, hlen]
        omega
      · omega
      · exact Nat.mod_lt _ (by decide)

/-- The run left a buffer. -/
def Leaves {α : Type} (run : Except Stop α) : Prop :=
  run = .error .overread ∨ run = .error .overwrite

/-- All that the loop comes to is inside, or it leaves a buffer. -/
theorem transcodeInfo_stays {spn : Option (List Nat)} {buf : Bytes} (fuel : Nat) :
    ∀ {w rest : Bytes} {inoff inlen infolen : Nat}, infolen < 65536 →
      InfoStays spn buf (w.length + rest.length) inoff inlen w.length ∨
        Leaves (transcodeInfo spn buf fuel ⟨w ++ rest, inoff, inlen, w.length, infolen⟩) := by
  induction fuel with
  | zero =>
    intro w rest inoff inlen infolen _
    exact .inr (.inr rfl)
  | succ fuel ih =>
    intro w rest inoff inlen infolen hinfolen
    by_cases hmore : inlen = 0
    · rw [hmore]
      exact .inl (.done inoff w.length)
    by_cases hin : inoff + 4 ≤ buf.length
    case neg => exact .inr (.inl (transcodeInfo_lacks hmore (by simp only; omega)))
    by_cases hbreak : Breaks buf (w.length + rest.length) inoff inlen w.length
    · exact .inl (.breaks hmore hin hbreak)
    by_cases hcode : attrCode buf inoff = 0
    · by_cases hroom : (spnAttribute spn).length + 4 ≤ rest.length
      case neg =>
        exact .inr (.inr (transcodeInfo_ends_overwrites hmore hin hbreak hcode (by omega) hinfolen))
      have hlen : (w ++ (spnAttribute spn ++ le 4 0)).length =
          w.length + ((spnAttribute spn).length + 4) := by
        simp only [List.length_append, length_le]
      rw [transcodeInfo_ends_fits hmore hin hbreak hcode hroom hinfolen, ← hlen]
      refine Or.imp_left (fun hnext => ?_) (ih (Nat.mod_lt _ (by decide)))
      rw [hlen, List.length_drop, Nat.add_assoc, Nat.add_sub_cancel' hroom] at hnext
      exact .ends hmore hin hbreak hcode (by omega) hnext
    · by_cases hval : inoff + 4 + attrLen buf inoff ≤ buf.length
      case neg =>
        exact .inr (.inl (transcodeInfo_copies_overreads hmore hin hbreak hcode (by omega)))
      by_cases hroom : 4 + attrLen buf inoff ≤ rest.length
      case neg =>
        exact .inr (.inr (transcodeInfo_copies_overwrites hmore hval hbreak hcode (by omega)))
      have hlen : (w ++ attr (attrCode buf inoff) (attrLen buf inoff)
          (slice buf (inoff + 4) (attrLen buf inoff))).length =
          w.length + (4 + attrLen buf inoff) := by
        rw [List.length_append, length_attr, length_slice]
        omega
      rw [transcodeInfo_copies hmore hval hbreak hcode hroom, ← hlen]
      refine Or.imp_left (fun hnext => ?_) (ih (Nat.mod_lt _ (by decide)))
      rw [hlen, List.length_drop, Nat.add_assoc, Nat.add_sub_cancel' hroom] at hnext
      exact .copies hmore hval hbreak hcode (by omega) hnext

/-! ## The fields of a challenge -/

/-- The length of the target name. -/
def targetNameLen (buf : Bytes) : Nat := fromLe (slice buf 12 2)

/-- Where the target name is. -/
def targetNameOffset (buf : Bytes) : Nat := fromLe (slice buf 16 4)

/-- The length of the target info. -/
def targetInfoLen (buf : Bytes) : Nat := fromLe (slice buf 40 2)

/-- The second length of the target info, which `encode_ntlm_auth` goes by. -/
def targetInfoMaxLen (buf : Bytes) : Nat := fromLe (slice buf 42 2)

/-- Where the target info is. -/
def targetInfoOffset (buf : Bytes) : Nat := fromLe (slice buf 44 4)

/-- There is a target name, and it is copied. -/
def NameTaken (buf : Bytes) : Prop := 0 < targetNameLen buf ∧ targetNameLen buf < buf.length

instance (buf : Bytes) : Decidable (NameTaken buf) := by
  unfold NameTaken
  infer_instance

/-- The octets that the target name takes in the copy. -/
def takenNameLen (buf : Bytes) : Nat := if NameTaken buf then targetNameLen buf else 0

/-- There is a target info, and it is transcoded. -/
def InfoTaken (buf : Bytes) : Prop :=
  0 < targetInfoLen buf ∧ targetInfoLen buf < buf.length ∧
    56 + takenNameLen buf + targetInfoLen buf < buf.length + 400

instance (buf : Bytes) : Decidable (InfoTaken buf) := by
  unfold InfoTaken
  infer_instance

/-- The head of the copy: the offset of the target name is rewritten. -/
def copiedHead (buf : Bytes) : Bytes := patch (buf.take 56) 16 (le 4 56)

/-- The copy of the target name. -/
def takenName (buf : Bytes) : Bytes :=
  if NameTaken buf then slice buf (targetNameOffset buf) (targetNameLen buf) else []

/-- The string that is made of it. -/
def takenString (buf : Bytes) : Option CString :=
  if NameTaken buf then some (CString.ofBytes (utf16ToUtf8 (utf16Units (takenName buf)))) else none

theorem length_copiedHead {buf : Bytes} (h : 56 ≤ buf.length) : (copiedHead buf).length = 56 := by
  have hlen : (buf.take 56).length = 56 := List.length_take_of_le h
  rw [copiedHead, length_patch (by rw [hlen, length_le]; decide), hlen]

theorem length_takenName {buf : Bytes}
    (h : NameTaken buf → targetNameOffset buf + targetNameLen buf ≤ buf.length) :
    (takenName buf).length = takenNameLen buf := by
  unfold takenName takenNameLen
  split
  · rename_i hname
    have hin := h hname
    rw [length_slice]
    omega
  · rfl

/-- `ntlm_decode_challenge_message`, once the head is copied. -/
theorem ntlmDecodeChallengeMessage_head (P : Primitives) (client : Client) (auth : AuthData)
    {buf : Bytes} (h : 56 ≤ buf.length) :
    ntlmDecodeChallengeMessage P client auth buf =
      (copyTargetName buf (copiedHead buf ++ (P.malloc (buf.length + 400)).drop 56)
          (targetNameLen buf) (targetNameOffset buf) >>= fun r =>
        copyTargetInfo (utf8ToUtf16 (targetSpn client.server)) buf r.1 r.2.1
          (targetInfoLen buf) (targetInfoOffset buf) >>= fun q =>
        .ok { auth with
          ntlmBuf := q.1
          ntlmLen := q.2
          targetName := r.2.2.orElse fun _ => auth.targetName
          targetInfo := targetSpn client.server }) := by
  have hmalloc := P.length_malloc (buf.length + 400)
  have htake : slice buf 0 56 = buf.take 56 := rfl
  have hlen : (buf.take 56).length = 56 := List.length_take_of_le h
  have hcopy : store (P.malloc (buf.length + 400)) 0 (buf.take 56) =
      .ok (buf.take 56 ++ (P.malloc (buf.length + 400)).drop 56) := by
    have hstore := @store_end [] (P.malloc (buf.length + 400)) (buf.take 56) 0 rfl (by omega)
    rw [hlen] at hstore
    exact hstore
  have hread : ∀ off n, off + n ≤ 56 → fetch buf off n = .ok (slice buf off n) :=
    fun off n hle => fetch_ok (by omega)
  unfold ntlmDecodeChallengeMessage
  rw [if_neg (by omega), hread 0 56 (by omega), ok_bind, htake, hcopy, ok_bind,
    hread 12 2 (by omega), ok_bind, hread 16 4 (by omega), ok_bind,
    store_head (by rw [hlen, length_le]; decide), ok_bind]
  simp only [hread 40 2 (by omega), hread 44 4 (by omega), ok_bind]
  rfl

/-- A shorter message is read behind its end. -/
theorem ntlmDecodeChallengeMessage_short (P : Primitives) (client : Client) (auth : AuthData)
    {buf : Bytes} (hne : buf ≠ []) (h : buf.length < 56) :
    ntlmDecodeChallengeMessage P client auth buf = .error .overread := by
  have hlen : buf.length ≠ 0 := fun h0 => hne (List.length_eq_zero_iff.mp h0)
  unfold ntlmDecodeChallengeMessage
  rw [if_neg hlen, fetch_overread (by omega)]
  rfl

theorem copyTargetName_taken {buf h rest : Bytes} (hhead : h.length = 56)
    (hroom : rest.length = buf.length + 344)
    (hname : NameTaken buf → targetNameOffset buf + targetNameLen buf ≤ buf.length) :
    copyTargetName buf (h ++ rest) (targetNameLen buf) (targetNameOffset buf) =
      .ok (h ++ takenName buf ++ rest.drop (takenNameLen buf), 56 + takenNameLen buf,
        takenString buf) := by
  have hlen := length_takenName hname
  have hout : (h ++ rest).length = buf.length + 400 := by
    rw [List.length_append]
    omega
  unfold copyTargetName takenString
  by_cases htaken : NameTaken buf
  · have hnameLen : takenNameLen buf = targetNameLen buf := if_pos htaken
    have hoct : slice buf (targetNameOffset buf) (targetNameLen buf) = takenName buf :=
      (if_pos htaken).symm
    have hlt := htaken.2
    rw [if_pos ⟨htaken.1, htaken.2, by omega⟩, fetch_ok (hname htaken), ok_bind, hoct,
      store_end hhead.symm (by omega), ok_bind, if_pos htaken, hlen, hnameLen]
    rfl
  · have hnil : takenName buf = [] := if_neg htaken
    have hzero : takenNameLen buf = 0 := if_neg htaken
    rw [if_neg fun hnot => htaken ⟨hnot.1, hnot.2.1⟩, if_neg htaken, hnil, hzero, List.append_nil]
    rfl

theorem copyTargetName_overreads {buf h rest : Bytes} (hhead : h.length = 56)
    (hroom : rest.length = buf.length + 344) (htaken : NameTaken buf)
    (hname : buf.length < targetNameOffset buf + targetNameLen buf) :
    copyTargetName buf (h ++ rest) (targetNameLen buf) (targetNameOffset buf) =
      .error .overread := by
  have hout : (h ++ rest).length = buf.length + 400 := by
    rw [List.length_append]
    omega
  have hlt := htaken.2
  unfold copyTargetName
  rw [if_pos ⟨htaken.1, htaken.2, by omega⟩, fetch_overread (by omega)]
  rfl

/-- The copy of the target info, up to what the loop does. -/
theorem copyTargetInfo_taken (spn : Option (List Nat)) {buf w rest : Bytes} (hw : 56 ≤ w.length)
    (hlen : w.length = 56 + takenNameLen buf) (hroom : w.length + rest.length = buf.length + 400)
    (htaken : InfoTaken buf) :
    copyTargetInfo spn buf (w ++ rest) w.length (targetInfoLen buf) (targetInfoOffset buf) =
      (transcodeInfo spn buf (buf.length + 400)
          ⟨patch w 44 (le 4 w.length) ++ rest, targetInfoOffset buf, targetInfoLen buf,
            (patch w 44 (le 4 w.length)).length, 0⟩ >>= fun t =>
        store t.out 40 (le 2 t.infolen) >>= fun out =>
        store out 42 (le 2 t.infolen) >>= fun out => .ok (out, t.outoff)) := by
  have hpatch : (patch w 44 (le 4 w.length)).length = w.length :=
    length_patch (by rw [length_le]; omega)
  have hout : (patch w 44 (le 4 w.length) ++ rest).length = buf.length + 400 := by
    rw [List.length_append, hpatch, hroom]
  obtain ⟨hpos, hlt, hfits⟩ := htaken
  unfold copyTargetInfo
  rw [if_pos ⟨hpos, hlt, by rw [List.length_append]; omega⟩,
    store_head (by rw [length_le]; omega), ok_bind, hout, hpatch]
  rfl

theorem copyTargetInfo_left (spn : Option (List Nat)) {buf w rest : Bytes}
    (hlen : w.length = 56 + takenNameLen buf) (hroom : w.length + rest.length = buf.length + 400)
    (hleft : ¬InfoTaken buf) :
    copyTargetInfo spn buf (w ++ rest) w.length (targetInfoLen buf) (targetInfoOffset buf) =
      .ok (w ++ rest, buf.length) := by
  have hnot : ¬(0 < targetInfoLen buf ∧ targetInfoLen buf < buf.length ∧
      w.length + targetInfoLen buf < (w ++ rest).length) := by
    rw [List.length_append, hroom, hlen]
    exact hleft
  unfold copyTargetInfo
  rw [if_neg hnot]

/-! ## The challenges that fit -/

/-- The fields and the attributes of the challenge are inside it; a target info that is not
transcoded, but would be used, is one of the octets that are copied. -/
structure ChallengeFits (server : CString) (buf : Bytes) : Prop where
  header : 56 ≤ buf.length
  name : NameTaken buf → targetNameOffset buf + targetNameLen buf ≤ buf.length
  info : InfoTaken buf → InfoStays (utf8ToUtf16 (targetSpn server)) buf (buf.length + 400)
    (targetInfoOffset buf) (targetInfoLen buf) (56 + takenNameLen buf)
  left : ¬InfoTaken buf → targetInfoOffset buf < buf.length →
    (targetInfoOffset buf + targetInfoMaxLen buf) % 4294967296 ≤ buf.length →
    targetInfoMaxLen buf = 0 ∨
      targetInfoOffset buf + targetInfoMaxLen buf ≤ 56 + takenNameLen buf

/-- The octets of its copy that `encode_ntlm_auth` reads: the flags, the server's challenge, the
field of the target info and, if it accepts the field, the target info. -/
inductive AuthReads (auth : AuthData) : Nat → Prop
  | challenge {i : Nat} (lo : 24 ≤ i) (hi : i < 32) : AuthReads auth i
  | flags {i : Nat} (hlen : 47 ≤ auth.ntlmLen) (lo : 20 ≤ i) (hi : i < 24) : AuthReads auth i
  | field {i : Nat} (hlen : 47 ≤ auth.ntlmLen) (lo : 40 ≤ i) (hi : i < 48) : AuthReads auth i
  | info {i : Nat} (hlen : 47 ≤ auth.ntlmLen)
      (hoff : fromLe (slice auth.ntlmBuf 44 4) < auth.ntlmLen)
      (hend : (fromLe (slice auth.ntlmBuf 44 4) + fromLe (slice auth.ntlmBuf 40 4) >>> 16) %
        4294967296 ≤ auth.ntlmLen)
      (lo : fromLe (slice auth.ntlmBuf 44 4) ≤ i)
      (hi : i < fromLe (slice auth.ntlmBuf 44 4) + fromLe (slice auth.ntlmBuf 40 4) >>> 16) :
      AuthReads auth i

/-- Another copy with the same octets where `encode_ntlm_auth` reads. -/
structure ReadsAlike (auth : AuthData) (copy : Bytes) : Prop where
  length : copy.length = auth.ntlmBuf.length
  octets : ∀ i, AuthReads auth i → copy[i]? = auth.ntlmBuf[i]?

section
variable {auth : AuthData} {copy : Bytes}

theorem ReadsAlike.slice_eq (h : ReadsAlike auth copy) {off n : Nat}
    (hreads : ∀ i, off ≤ i → i < off + n → AuthReads auth i) :
    slice copy off n = slice auth.ntlmBuf off n := by
  apply List.ext_getElem?
  intro i
  unfold slice
  rw [List.getElem?_take, List.getElem?_take, List.getElem?_drop, List.getElem?_drop]
  split
  · exact h.octets _ (hreads _ (by omega) (by omega))
  · rfl

theorem ReadsAlike.fetch_eq (h : ReadsAlike auth copy) {off n : Nat}
    (hreads : ∀ i, off ≤ i → i < off + n → AuthReads auth i) :
    fetch copy off n = fetch auth.ntlmBuf off n := by
  unfold fetch
  rw [h.length, h.slice_eq hreads]

theorem ReadsAlike.ntlmResponse_eq (h : ReadsAlike auth copy) (P : Primitives) (t : Nat)
    (serverChallenge : Bytes) : ntlmResponse P t { auth with ntlmBuf := copy } serverChallenge =
      ntlmResponse P t auth serverChallenge := by
  unfold ntlmResponse
  refine bind_congr fun responseKeyNT => ?_
  dsimp only
  by_cases hshort : auth.ntlmLen < 47
  · rw [if_pos hshort, if_pos hshort]
  rw [if_neg hshort, if_neg hshort,
    h.fetch_eq fun i lo hi => .field (by omega) (by omega) (by omega),
    h.fetch_eq fun i lo hi => .field (by omega) (by omega) (by omega)]
  unfold fetch
  by_cases hin : 44 + 4 ≤ auth.ntlmBuf.length
  case neg =>
    rw [if_neg hin]
    split
    · rfl
    · rfl
  rw [if_pos hin, if_pos (by omega)]
  simp only [ok_bind]
  by_cases hbad : auth.ntlmLen ≤ fromLe (slice auth.ntlmBuf 44 4) ∨ auth.ntlmLen <
      (fromLe (slice auth.ntlmBuf 44 4) + fromLe (slice auth.ntlmBuf 40 4) >>> 16) % 4294967296
  · rw [if_pos hbad, if_pos hbad]
  · obtain ⟨hoff, hend⟩ := not_or.mp hbad
    rw [if_neg hbad, if_neg hbad, h.length,
      h.slice_eq fun i lo hi => .info (by omega) (by omega) (by omega) lo hi]

/-- **`encode_ntlm_auth` reads nothing else of the copy.** -/
theorem ReadsAlike.encodeNtlmAuth_eq (h : ReadsAlike auth copy) (P : Primitives) (client : Client)
    (t : Nat) : fetch copy 24 8 = fetch auth.ntlmBuf 24 8 ∧ ∀ serverChallenge,
      encodeNtlmAuth P client t { auth with ntlmBuf := copy } serverChallenge =
        ({ · with ntlmBuf := copy }) <$> encodeNtlmAuth P client t auth serverChallenge := by
  refine ⟨h.fetch_eq fun i lo hi => .challenge lo (by omega), fun serverChallenge => ?_⟩
  have hclient : ReadsAlike { auth with password := client.password, domain := client.domain }
      copy := by
    refine ⟨h.length, fun i hi => h.octets i ?_⟩
    cases hi with
    | challenge lo hi => exact .challenge lo hi
    | flags hlen lo hi => exact .flags hlen lo hi
    | field hlen lo hi => exact .field hlen lo hi
    | info hlen hoff hend lo hi => exact .info hlen hoff hend lo hi
  have hresponse := hclient.ntlmResponse_eq P t serverChallenge
  unfold encodeNtlmAuth
  dsimp only at hresponse ⊢
  cases hpassword : client.password with
  | none => rfl
  | some password =>
    rw [hpassword] at hresponse
    simp only [hresponse, map_bind]
    rfl

end

/-- The octet of the copy is the same, whatever `malloc` returns. -/
def Written (client : Client) (buf : Bytes) (i : Nat) : Prop :=
  ∃ b, ∀ (P : Primitives) (auth auth' : AuthData),
    ntlmDecodeChallengeMessage P client auth buf = .ok auth' → auth'.ntlmBuf[i]? = some b

theorem shiftRight_field {bs : Bytes} {off : Nat} (h : off + 4 ≤ bs.length) :
    fromLe (slice bs off 4) >>> 16 = fromLe (slice bs (off + 2) 2) := by
  have hlen : (slice bs off 4).length = 4 := by
    rw [length_slice]
    omega
  have hinner : slice bs (off + 2) 2 = slice (slice bs off 4) 2 2 := (slice_slice (by omega)).symm
  rw [hinner]
  match slice bs off 4, hlen with
  | [a, b, c, d], _ =>
    have ha := a.toNat_lt
    have hb := b.toNat_lt
    simp only [slice, List.drop_succ_cons, List.drop_zero, List.take_succ_cons, List.take_zero,
      fromLe, Nat.shiftRight_eq_div_pow]
    omega

/-- The copy: `w` is what is written. -/
def copiedTo (P : Primitives) (client : Client) (auth : AuthData) (buf w : Bytes) : AuthData :=
  { auth with
    ntlmBuf := w ++ (P.malloc (buf.length + 400)).drop w.length
    ntlmLen := if InfoTaken buf then w.length else buf.length
    targetName := (takenString buf).orElse fun _ => auth.targetName
    targetInfo := targetSpn client.server }

/-- The copy of the head and of the target name, before the target info. -/
def copiedStart (buf : Bytes) : Bytes := copiedHead buf ++ takenName buf

theorem length_copiedStart {buf : Bytes} (h : 56 ≤ buf.length)
    (hname : NameTaken buf → targetNameOffset buf + targetNameLen buf ≤ buf.length) :
    (copiedStart buf).length = 56 + takenNameLen buf := by
  rw [copiedStart, List.length_append, length_copiedHead h, length_takenName hname]

theorem takenNameLen_lt {buf : Bytes} (h : 56 ≤ buf.length) : takenNameLen buf < buf.length := by
  unfold takenNameLen
  split
  · rename_i hname
    exact hname.2
  · omega

/-- `ntlm_decode_challenge_message`, once the target name is copied. -/
theorem ntlmDecodeChallengeMessage_start (P : Primitives) (client : Client) (auth : AuthData)
    {buf : Bytes} (h : 56 ≤ buf.length)
    (hname : NameTaken buf → targetNameOffset buf + targetNameLen buf ≤ buf.length) :
    ntlmDecodeChallengeMessage P client auth buf =
      (copyTargetInfo (utf8ToUtf16 (targetSpn client.server)) buf
          (copiedStart buf ++ (P.malloc (buf.length + 400)).drop (copiedStart buf).length)
          (copiedStart buf).length (targetInfoLen buf) (targetInfoOffset buf) >>= fun q =>
        .ok { auth with
          ntlmBuf := q.1
          ntlmLen := q.2
          targetName := (takenString buf).orElse fun _ => auth.targetName
          targetInfo := targetSpn client.server }) := by
  have hmalloc := P.length_malloc (buf.length + 400)
  have hroom : ((P.malloc (buf.length + 400)).drop 56).length = buf.length + 344 := by
    rw [List.length_drop, hmalloc]
    omega
  rw [ntlmDecodeChallengeMessage_head P client auth h,
    copyTargetName_taken (length_copiedHead h) hroom hname, ok_bind, length_copiedStart h hname,
    List.drop_drop]
  rfl

theorem ntlmDecodeChallengeMessage_left (P : Primitives) (client : Client) (auth : AuthData)
    {buf : Bytes} (h : 56 ≤ buf.length)
    (hname : NameTaken buf → targetNameOffset buf + targetNameLen buf ≤ buf.length)
    (hleft : ¬InfoTaken buf) :
    ntlmDecodeChallengeMessage P client auth buf =
      .ok (copiedTo P client auth buf (copiedStart buf)) := by
  have hlen := length_copiedStart h hname
  have hlt := takenNameLen_lt h
  have hmalloc := P.length_malloc (buf.length + 400)
  have hroom : (copiedStart buf).length +
      ((P.malloc (buf.length + 400)).drop (copiedStart buf).length).length = buf.length + 400 := by
    rw [List.length_drop]
    omega
  rw [ntlmDecodeChallengeMessage_start P client auth h hname,
    copyTargetInfo_left _ hlen hroom hleft, ok_bind, copiedTo, if_neg hleft]

/-- The copy before the attributes: its field tells where the target info will be. -/
def infoStart (buf : Bytes) : Bytes := patch (copiedStart buf) 44 (le 4 (56 + takenNameLen buf))

theorem length_infoStart {buf : Bytes} (h : 56 ≤ buf.length)
    (hname : NameTaken buf → targetNameOffset buf + targetNameLen buf ≤ buf.length) :
    (infoStart buf).length = 56 + takenNameLen buf := by
  have hlen := length_copiedStart h hname
  rw [infoStart, length_patch (by rw [length_le]; omega), hlen]

/-- The copy after them: its field tells how long the target info is. -/
def withInfo (buf new : Bytes) (infolen : Nat) : Bytes :=
  patch (patch (infoStart buf ++ new) 40 (le 2 infolen)) 42 (le 2 infolen)

theorem length_withInfo {buf : Bytes} (new : Bytes) (infolen : Nat) (h : 56 ≤ buf.length)
    (hname : NameTaken buf → targetNameOffset buf + targetNameLen buf ≤ buf.length) :
    (withInfo buf new infolen).length = 56 + takenNameLen buf + new.length := by
  have hlen := length_infoStart h hname
  have hfield : (patch (infoStart buf ++ new) 40 (le 2 infolen)).length =
      (infoStart buf ++ new).length := length_patch (by rw [length_le, List.length_append]; omega)
  rw [withInfo, length_patch (by rw [length_le, hfield, List.length_append]; omega), hfield,
    List.length_append, hlen]

/-- What is behind the length in the copy. -/
theorem withInfo_behind {buf new : Bytes} {infolen off n : Nat} (h : 56 ≤ buf.length)
    (hname : NameTaken buf → targetNameOffset buf + targetNameLen buf ≤ buf.length)
    (hoff : 44 ≤ off) :
    slice (withInfo buf new infolen) off n = slice (infoStart buf ++ new) off n := by
  have hlen := length_infoStart h hname
  have hfield : (patch (infoStart buf ++ new) 40 (le 2 infolen)).length =
      (infoStart buf ++ new).length := length_patch (by rw [length_le, List.length_append]; omega)
  rw [withInfo, slice_patch_after (by rw [hfield, List.length_append]; omega)
    (by rw [length_le]; omega), slice_patch_after (by rw [List.length_append]; omega)
    (by rw [length_le]; omega)]

theorem withInfo_offset {buf new : Bytes} {infolen : Nat} (h : 56 ≤ buf.length)
    (hname : NameTaken buf → targetNameOffset buf + targetNameLen buf ≤ buf.length) :
    slice (withInfo buf new infolen) 44 4 = le 4 (56 + takenNameLen buf) := by
  have hstart := length_copiedStart h hname
  have hlen := length_infoStart h hname
  have hsame := @slice_patch_same (copiedStart buf) (le 4 (56 + takenNameLen buf)) 44 (by omega)
  rw [length_le] at hsame
  rw [withInfo_behind h hname (Nat.le_refl 44), slice_append_left (by omega)]
  exact hsame

/-- The copy with a target info, for which the loop appends `new`. -/
theorem ntlmDecodeChallengeMessage_transcoded (P : Primitives) (client : Client) (auth : AuthData)
    {buf new : Bytes} {inoff inlen infolen : Nat} (h : 56 ≤ buf.length)
    (hname : NameTaken buf → targetNameOffset buf + targetNameLen buf ≤ buf.length)
    (htaken : InfoTaken buf)
    (hrun : ∀ rest : Bytes, rest.length = buf.length + 400 - (infoStart buf).length →
      transcodeInfo (utf8ToUtf16 (targetSpn client.server)) buf (buf.length + 400)
          ⟨infoStart buf ++ rest, targetInfoOffset buf, targetInfoLen buf,
            (infoStart buf).length, 0⟩ =
        .ok ⟨infoStart buf ++ new ++ rest.drop new.length, inoff, inlen,
          (infoStart buf).length + new.length, infolen⟩) :
    ntlmDecodeChallengeMessage P client auth buf =
      .ok (copiedTo P client auth buf (withInfo buf new infolen)) := by
  have hlen := length_copiedStart h hname
  have hlt := takenNameLen_lt h
  have hstart := length_infoStart h hname
  have hwith := length_withInfo new infolen h hname
  have hmalloc := P.length_malloc (buf.length + 400)
  have hrest : ((P.malloc (buf.length + 400)).drop (56 + takenNameLen buf)).length =
      buf.length + 400 - (infoStart buf).length := by
    rw [List.length_drop, hmalloc, hstart]
  have hroom : 56 + takenNameLen buf +
      ((P.malloc (buf.length + 400)).drop (56 + takenNameLen buf)).length = buf.length + 400 := by
    omega
  have hfield : (patch (infoStart buf ++ new) 40 (le 2 infolen)).length =
      (infoStart buf ++ new).length := length_patch (by rw [length_le, List.length_append]; omega)
  have hloop := hrun _ hrest
  rw [infoStart, ← hlen] at hloop
  rw [ntlmDecodeChallengeMessage_start P client auth h hname,
    copyTargetInfo_taken _ (by omega) hlen (by rw [hlen]; exact hroom) htaken, hloop, ok_bind]
  rw [hlen, ← infoStart]
  simp only
  rw [store_head (by rw [length_le, List.length_append]; omega), ok_bind,
    store_head (by rw [length_le, hfield, List.length_append]; omega), ok_bind, ok_bind,
    copiedTo, if_pos htaken, hwith, List.drop_drop, ← withInfo, hstart]

/-- The copy with a target info: its field is where the info has been put. -/
theorem ntlmDecodeChallengeMessage_taken (client : Client) {buf : Bytes} (h : 56 ≤ buf.length)
    (hname : NameTaken buf → targetNameOffset buf + targetNameLen buf ≤ buf.length)
    (htaken : InfoTaken buf)
    (hstays : InfoStays (utf8ToUtf16 (targetSpn client.server)) buf (buf.length + 400)
      (targetInfoOffset buf) (targetInfoLen buf) (56 + takenNameLen buf)) :
    ∃ w : Bytes, 56 ≤ w.length ∧ slice w 44 4 = le 4 (56 + takenNameLen buf) ∧
      ∀ P auth, ntlmDecodeChallengeMessage P client auth buf =
        .ok (copiedTo P client auth buf w) := by
  have hlt := takenNameLen_lt h
  have hlen := length_infoStart h hname
  obtain ⟨new, inoff, inlen, infolen, hnew, hrun⟩ := hstays.run hlen.symm
    (show buf.length + 400 = _ + (buf.length + 400 - (infoStart buf).length) by omega)
    (show buf.length + 400 - (infoStart buf).length < 4 * (buf.length + 400) by omega)
    (show 0 < 65536 by decide)
  refine ⟨withInfo buf new infolen, ?_, withInfo_offset h hname, ?_⟩
  · rw [length_withInfo new infolen h hname]
    omega
  · exact fun P auth => ntlmDecodeChallengeMessage_transcoded P client auth h hname htaken hrun

/-- A challenge whose name or whose attributes are not inside makes the copying leave a buffer. -/
theorem ntlmDecodeChallengeMessage_leaves (P : Primitives) (client : Client) (auth : AuthData)
    {buf : Bytes} (h : 56 ≤ buf.length) :
    (NameTaken buf → targetNameOffset buf + targetNameLen buf ≤ buf.length) ∧
        (InfoTaken buf → InfoStays (utf8ToUtf16 (targetSpn client.server)) buf (buf.length + 400)
          (targetInfoOffset buf) (targetInfoLen buf) (56 + takenNameLen buf)) ∨
      Leaves (ntlmDecodeChallengeMessage P client auth buf) := by
  have hmalloc := P.length_malloc (buf.length + 400)
  by_cases hname : NameTaken buf → targetNameOffset buf + targetNameLen buf ≤ buf.length
  case neg =>
    obtain ⟨htaken, hout⟩ := Classical.not_imp.mp hname
    have hroom : ((P.malloc (buf.length + 400)).drop 56).length = buf.length + 344 := by
      rw [List.length_drop, hmalloc]
      omega
    refine .inr (.inl ?_)
    rw [ntlmDecodeChallengeMessage_head P client auth h,
      copyTargetName_overreads (length_copiedHead h) hroom htaken (by omega)]
    rfl
  by_cases htaken : InfoTaken buf
  case neg => exact .inl ⟨hname, fun hnot => absurd hnot htaken⟩
  have hlen := length_copiedStart h hname
  have hlt := takenNameLen_lt h
  obtain ⟨s, hs⟩ : ∃ s, s = patch (copiedStart buf) 44 (le 4 (copiedStart buf).length) := ⟨_, rfl⟩
  have hslen : s.length = 56 + takenNameLen buf := by
    rw [hs, length_patch (by rw [length_le]; omega), hlen]
  have hroom : (copiedStart buf).length +
      ((P.malloc (buf.length + 400)).drop (copiedStart buf).length).length = buf.length + 400 := by
    rw [List.length_drop]
    omega
  rcases @transcodeInfo_stays (utf8ToUtf16 (targetSpn client.server)) buf (buf.length + 400) s
    ((P.malloc (buf.length + 400)).drop (copiedStart buf).length) (targetInfoOffset buf)
    (targetInfoLen buf) 0 (by decide) with hstays | hleaves
  · refine .inl ⟨hname, fun _ => ?_⟩
    rw [hslen, ← hlen, hroom, hlen] at hstays
    exact hstays
  · refine .inr ?_
    rw [ntlmDecodeChallengeMessage_start P client auth h hname,
      copyTargetInfo_taken _ (by omega) hlen hroom htaken, ← hs]
    rcases hleaves with hrun | hrun
    · rw [hrun]
      exact .inl rfl
    · rw [hrun]
      exact .inr rfl

/-- What is written does not depend on `malloc`. -/
theorem written_of_lt {client : Client} {buf w : Bytes} {i : Nat} (hi : i < w.length)
    (hrun : ∀ P auth, ntlmDecodeChallengeMessage P client auth buf =
      .ok (copiedTo P client auth buf w)) : Written client buf i := by
  refine ⟨w[i], ?_⟩
  intro P auth auth' h
  rw [hrun P auth] at h
  cases h
  simp only [copiedTo, List.getElem?_append_left hi, List.getElem?_eq_getElem hi]

theorem length_noHmac (_ _ : Bytes) : (zeros 16).length = 16 := length_zeros 16

/-- Functions of no interest, and a `malloc` that returns octets `b`. -/
def filledWith (b : UInt8) : Primitives where
  md4 _ := zeros 16
  hmacMd5 _ _ := zeros 16
  malloc n := List.replicate n b
  length_md4 _ := length_zeros 16
  length_hmacMd5 := length_noHmac
  length_malloc _ := List.length_replicate

/-- What is not written is what `malloc` returned. -/
theorem lt_of_written {client : Client} {buf w : Bytes} {i : Nat} (h : Written client buf i)
    (hrun : ∀ P auth, ntlmDecodeChallengeMessage P client auth buf =
      .ok (copiedTo P client auth buf w)) : i < w.length := by
  obtain ⟨b, hb⟩ := h
  by_contra hnot
  have hfilled : ∀ c, (List.replicate (buf.length + 400) c)[i]? = some b := by
    intro c
    have hc := hb (filledWith c) {} _ (hrun (filledWith c) {})
    rw [copiedTo, List.getElem?_append_right (by omega), List.getElem?_drop,
      Nat.add_sub_cancel' (by omega)] at hc
    exact hc
  have hsome : ∀ c, c = b := by
    intro c
    have hc := hfilled c
    rw [List.getElem?_replicate] at hc
    split at hc
    · exact Option.some.inj hc
    · cases hc
  have hne : (0 : UInt8) = 1 := (hsome 0).trans (hsome 1).symm
  exact absurd hne (by decide)

/-- Decoding ends inside the message and its copy, and what `encode_ntlm_auth` reads of the copy
has been written. -/
def ChallengeBounded (client : Client) (buf : Bytes) : Prop :=
  (∀ P auth, ¬Leaves (ntlmDecodeChallengeMessage P client auth buf)) ∧
    ∀ P auth auth' i, ntlmDecodeChallengeMessage P client auth buf = .ok auth' →
      AuthReads auth' i → Written client buf i

theorem AuthReads.start {auth : AuthData} {i : Nat} (h : AuthReads auth i) :
    i < 48 ∨ fromLe (slice auth.ntlmBuf 44 4) < auth.ntlmLen ∧
      (fromLe (slice auth.ntlmBuf 44 4) + fromLe (slice auth.ntlmBuf 40 4) >>> 16) %
        4294967296 ≤ auth.ntlmLen ∧ fromLe (slice auth.ntlmBuf 44 4) ≤ i ∧
      i < fromLe (slice auth.ntlmBuf 44 4) + fromLe (slice auth.ntlmBuf 40 4) >>> 16 := by
  cases h with
  | challenge lo hi => exact .inl (by omega)
  | flags _ lo hi => exact .inl (by omega)
  | field _ lo hi => exact .inl hi
  | info _ hoff hend lo hi => exact .inr ⟨hoff, hend, lo, hi⟩

/-- The fields of the copy, when what is written starts with a head. -/
theorem copiedTo_fields (P : Primitives) (client : Client) (auth : AuthData) (buf : Bytes)
    {w : Bytes} (hw : 56 ≤ w.length) :
    fromLe (slice (copiedTo P client auth buf w).ntlmBuf 44 4) = fromLe (slice w 44 4) ∧
      fromLe (slice (copiedTo P client auth buf w).ntlmBuf 40 4) >>> 16 =
        fromLe (slice w 42 2) := by
  unfold copiedTo
  simp only
  rw [slice_append_left (by omega), slice_append_left (by omega), shiftRight_field (by omega)]
  exact ⟨rfl, rfl⟩

/-- The start of the copy has the message's own field for the target info. -/
theorem copiedStart_field {buf : Bytes} {off n : Nat} (h : 56 ≤ buf.length) (hlo : 20 ≤ off)
    (hhi : off + n ≤ 56) : slice (copiedStart buf) off n = slice buf off n := by
  have hlen : (buf.take 56).length = 56 := List.length_take_of_le h
  have hhead := length_copiedHead h
  rw [copiedStart, slice_append_left (by omega), copiedHead,
    slice_patch_after (by omega) (by rw [length_le]; omega)]
  simp only [slice]
  rw [List.drop_take, List.take_take, Nat.min_eq_left (by omega)]

theorem challengeFits_bounded {client : Client} {buf : Bytes}
    (h : ChallengeFits client.server buf) : ChallengeBounded client buf := by
  have hne : ∀ {run : Except Stop AuthData} {auth}, run = .ok auth → ¬Leaves run := by
    rintro run auth rfl (hleaves | hleaves) <;> cases hleaves
  by_cases htaken : InfoTaken buf
  · obtain ⟨w, hw, hfield, hrun⟩ :=
      ntlmDecodeChallengeMessage_taken client h.header h.name htaken (h.info htaken)
    refine ⟨fun P auth => hne (hrun P auth), ?_⟩
    intro P auth auth' i hdecode hreads
    rw [hrun P auth] at hdecode
    cases hdecode
    refine written_of_lt ?_ hrun
    obtain ⟨hoff, hlen⟩ := copiedTo_fields P client auth buf hw
    have hname : takenNameLen buf < 65536 := by
      have hlt : targetNameLen buf < 65536 := fromLe_slice_lt buf 12 2
      unfold takenNameLen
      split <;> omega
    have hmax : fromLe (slice w 42 2) < 65536 := fromLe_slice_lt w 42 2
    rcases hreads.start with hstart | ⟨_, hend, _, hi⟩
    · omega
    · have hntlmLen : (copiedTo P client auth buf w).ntlmLen = w.length := if_pos htaken
      rw [hoff, hlen, hfield, fromLe_four (by omega)] at hend hi
      rw [Nat.mod_eq_of_lt (by omega), hntlmLen] at hend
      omega
  · have hrun := fun P auth =>
      ntlmDecodeChallengeMessage_left P client auth h.header h.name htaken
    have hstart := length_copiedStart h.header h.name
    refine ⟨fun P auth => hne (hrun P auth), ?_⟩
    intro P auth auth' i hdecode hreads
    rw [hrun P auth] at hdecode
    cases hdecode
    refine written_of_lt ?_ hrun
    obtain ⟨hoff, hlen⟩ := copiedTo_fields P client auth buf
      (show 56 ≤ (copiedStart buf).length by omega)
    rcases hreads.start with hlt | ⟨hlo, hend, hi, hi'⟩
    · omega
    · rw [hoff, copiedStart_field h.header (by decide) (by decide)] at hlo hend hi hi'
      rw [hlen, copiedStart_field h.header (by decide) (by decide)] at hend hi'
      rw [copiedTo, if_neg htaken] at hlo hend
      have hleft := h.left htaken hlo hend
      unfold targetInfoOffset targetInfoMaxLen at hleft
      omega

/-- **The copying is bounded exactly for the challenges that fit.** -/
theorem challenge_bounded_iff (client : Client) (buf : Bytes) :
    ChallengeBounded client buf ↔ buf = [] ∨ ChallengeFits client.server buf := by
  constructor
  · rintro ⟨hstays, hwritten⟩
    by_cases hnil : buf = []
    · exact .inl hnil
    have header : 56 ≤ buf.length := by
      by_contra hshort
      exact hstays (filledWith 0) {}
        (.inl (ntlmDecodeChallengeMessage_short _ client {} hnil (by omega)))
    obtain ⟨name, info⟩ := (ntlmDecodeChallengeMessage_leaves (filledWith 0) client {}
      header).resolve_right (hstays (filledWith 0) {})
    refine .inr ⟨header, name, info, ?_⟩
    intro htaken hlo hend
    by_contra hnot
    have hrun := fun P auth => ntlmDecodeChallengeMessage_left P client auth header name htaken
    have hstart := length_copiedStart header name
    obtain ⟨hoff, hlen⟩ := copiedTo_fields (filledWith 0) client {} buf
      (show 56 ≤ (copiedStart buf).length by omega)
    rw [copiedStart_field header (by decide) (by decide)] at hoff hlen
    -- the last octet that is read
    have hlast := hwritten (filledWith 0) {} _ (targetInfoOffset buf + targetInfoMaxLen buf - 1)
      (hrun _ _) (.info (by simp only [copiedTo, if_neg htaken]; omega)
        (by rw [hoff, copiedTo, if_neg htaken]; exact hlo)
        (by rw [hoff, hlen, copiedTo, if_neg htaken]; exact hend)
        (by rw [hoff]; unfold targetInfoOffset targetInfoMaxLen at hnot ⊢; omega)
        (by rw [hoff, hlen]; unfold targetInfoOffset targetInfoMaxLen at hnot ⊢; omega))
    have hlt := lt_of_written hlast hrun
    omega
  · rintro (rfl | hfits)
    · refine ⟨?_, ?_⟩
      · rintro P auth (hleaves | hleaves) <;> cases hleaves
      · intro P auth auth' i hdecode
        cases hdecode
    · exact challengeFits_bounded hfits

/-- Twelve octets are read as if they were 56. -/
theorem short_challenge_is_overread :
    ¬ChallengeBounded ⟨⟨[], List.not_mem_nil⟩, none, none⟩ (signature ++ le 4 CHALLENGE_MESSAGE) :=
  fun h => h.1 (filledWith 0) {} (.inl rfl)

end Libsmb2.Ntlm
