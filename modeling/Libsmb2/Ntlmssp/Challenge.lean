import Libsmb2.Ntlmssp.Attributes

/-!
# The NTLMSSP challenge and its copy

`encode_ntlm_challenge` builds a message by appending and by patching offsets in afterwards, and
`ntlm_decode_challenge_message` copies it attribute by attribute.  Each message is a head of
fixed length, whose fields tell where the payload is, followed by the payload.

* `encodeNtlmChallenge_eq` — the challenge that is sent;
* `ntlmDecodeChallengeMessage_eq` — the copy that the client keeps, with the target name
  inserted before the end of the target info.
-/

set_option autoImplicit false

namespace Libsmb2.Ntlm

open Util

/-! ## The challenge -/

/-- The fixed part of a challenge. -/
def challengeHead (nameLen namePos infoLen infoPos : Nat) : Bytes :=
  signature ++ le 4 CHALLENGE_MESSAGE ++ lengths nameLen ++ le 4 namePos ++ le 4 challengeFlags ++
    [1, 2, 3, 4, 5, 6, 7, 8] ++ le 4 0 ++ le 4 0 ++ le 2 infoLen ++ le 2 infoLen ++
    le 4 infoPos ++ le 4 0x00000106 ++ le 4 0x0F000000

@[simp] theorem length_challengeHead (nameLen namePos infoLen infoPos : Nat) :
    (challengeHead nameLen namePos infoLen infoPos).length = 56 := rfl

theorem challengeHead_start : [] ++ signature ++ le 4 CHALLENGE_MESSAGE ++ le 4 0 ++ le 4 0 ++
    le 4 challengeFlags ++ [1, 2, 3, 4, 5, 6, 7, 8] ++ le 4 0 ++ le 4 0 ++ le 4 0 ++ le 4 0 ++
    le 4 0x00000106 ++ le 4 0x0F000000 = challengeHead 0 0 0 0 := by
  decide +kernel

@[simp] theorem length_signature : signature.length = 8 := rfl

@[simp] theorem length_lengths (n : Nat) : (lengths n).length = 4 := length_le 4 _

theorem challengeHead_name (nameLen n p p' infoLen infoPos : Nat) :
    patch (patch (challengeHead n p infoLen infoPos) 16 (le 4 p')) 12 (lengths nameLen) =
      challengeHead nameLen p' infoLen infoPos := by
  simp (disch := decide) only [challengeHead, lengths, List.append_assoc, patch_skip,
    patch_skip_le, patch_here_le, length_signature, length_le, Nat.reduceSub]

theorem challengeHead_pos (nameLen p p' infoLen infoPos : Nat) :
    patch (challengeHead nameLen p infoLen infoPos) 16 (le 4 p') =
      challengeHead nameLen p' infoLen infoPos := by
  simp (disch := decide) only [challengeHead, lengths, List.append_assoc, patch_skip,
    patch_skip_le, patch_here_le, length_signature, length_le, Nat.reduceSub]

theorem challengeHead_infoPos (nameLen p infoLen infoPos p' : Nat) :
    patch (challengeHead nameLen p infoLen infoPos) 44 (le 4 p') =
      challengeHead nameLen p infoLen p' := by
  simp (disch := decide) only [challengeHead, lengths, List.append_assoc, patch_skip,
    patch_skip_le, patch_here_le, length_signature, length_le, List.length_cons, List.length_nil,
    Nat.reduceSub, Nat.reduceAdd]

theorem challengeHead_infoLen (nameLen p i infoLen infoPos : Nat) :
    patch (patch (challengeHead nameLen p i infoPos) 40 (le 2 infoLen)) 42 (le 2 infoLen) =
      challengeHead nameLen p infoLen infoPos := by
  simp (disch := decide) only [challengeHead, lengths, List.append_assoc, patch_skip,
    patch_skip_le, patch_here_le, length_signature, length_le, List.length_cons, List.length_nil,
    Nat.reduceSub, Nat.reduceAdd]

/-- The low half of the offset alone is patched. -/
theorem challengeHead_infoPos_low {nameLen p infoLen p' : Nat} (h : p' < 65536) :
    patch (challengeHead nameLen p infoLen 0) 44 (le 2 p') = challengeHead nameLen p infoLen p' := by
  have hzero : le 4 0 = le 2 0 ++ le 2 0 := rfl
  unfold challengeHead
  rw [le_four h, le_four (Nat.zero_lt_succ _)]
  simp (disch := decide) only [lengths, List.append_assoc, patch_skip, patch_skip_le,
    patch_here_le, length_signature, length_le, List.length_cons, List.length_nil,
    Nat.reduceSub, Nat.reduceAdd]

theorem challengeHead_nameLen {nameLen p infoLen infoPos : Nat} (h : nameLen < 65536) :
    slice (challengeHead nameLen p infoLen infoPos) 12 2 = le 2 nameLen := by
  unfold challengeHead
  rw [lengths_eq h]
  simp (disch := decide) only [List.append_assoc, slice_append_right, slice_here_le,
    length_signature, length_le, Nat.reduceSub]

theorem challengeHead_namePos (nameLen p infoLen infoPos : Nat) :
    slice (challengeHead nameLen p infoLen infoPos) 16 4 = le 4 p := by
  simp (disch := decide) only [challengeHead, lengths, List.append_assoc, slice_append_right,
    slice_skip_le, slice_here_le, length_signature, length_le, Nat.reduceSub]

theorem challengeHead_serverChallenge (nameLen p infoLen infoPos : Nat) :
    slice (challengeHead nameLen p infoLen infoPos) 24 8 = [1, 2, 3, 4, 5, 6, 7, 8] := by
  simp (disch := decide) only [challengeHead, lengths, List.append_assoc, slice_append_right,
    slice_skip_le, length_signature, length_le, Nat.reduceSub]
  rfl

theorem challengeHead_readLen (nameLen p infoLen infoPos : Nat) :
    slice (challengeHead nameLen p infoLen infoPos) 40 2 = le 2 infoLen := by
  simp (disch := decide) only [challengeHead, lengths, List.append_assoc, slice_append_right,
    slice_skip_le, slice_here_le, length_signature, length_le, List.length_cons, List.length_nil,
    Nat.reduceSub, Nat.reduceAdd]

theorem challengeHead_readLens {nameLen p infoLen infoPos : Nat} (h : infoLen < 65536) :
    slice (challengeHead nameLen p infoLen infoPos) 40 4 = lengths infoLen := by
  have hone : ∀ y : Bytes, le 2 infoLen ++ (le 2 infoLen ++ y) = lengths infoLen ++ y := by
    intro y
    rw [lengths_eq h, List.append_assoc]
  simp (disch := decide) only [challengeHead, List.append_assoc, hone]
  simp (disch := decide) only [lengths, slice_append_right, slice_skip_le, slice_here_le,
    length_signature, length_le, List.length_cons, List.length_nil, Nat.reduceSub, Nat.reduceAdd]

theorem challengeHead_readPos (nameLen p infoLen infoPos : Nat) :
    slice (challengeHead nameLen p infoLen infoPos) 44 4 = le 4 infoPos := by
  simp (disch := decide) only [challengeHead, lengths, List.append_assoc, slice_append_right,
    slice_skip_le, slice_here_le, length_signature, length_le, List.length_cons, List.length_nil,
    Nat.reduceSub, Nat.reduceAdd]

/-- The octets of the target name. -/
def hostOctets (names : Option (List Nat × List Nat)) : Bytes :=
  (names.map fun n => utf16Octets n.2).getD []

/-- Where the challenge says that its target name is. -/
def namePos (names : Option (List Nat × List Nat)) : Nat := if names.isSome then 56 else 0

/-- Upper case changes no length. -/
def SameLength (names : Option (List Nat × List Nat)) : Prop :=
  ∀ n ∈ names, n.2.length = n.1.length

/-- The message that `encode_ntlm_challenge` writes. -/
def challengeMessage (names : Option (List Nat × List Nat)) (wintime : Nat) : Bytes :=
  challengeHead (hostOctets names).length (namePos names) (challengeInfo names wintime).length
      (56 + (hostOctets names).length) ++
    (hostOctets names ++ challengeInfo names wintime)

variable {names : Option (List Nat × List Nat)}

theorem encodeNtlmChallenge_eq {auth : AuthData}
    (hbuf : auth.buf = []) (hnames : hostNames auth.workstation = .ok names)
    (hsame : SameLength names) (hpos : 56 + (hostOctets names).length < 65536) :
    encodeNtlmChallenge auth = .ok { auth with
      buf := challengeMessage names auth.wintime
      serverChallenge := [1, 2, 3, 4, 5, 6, 7, 8]
      targetInfo := challengeInfo names auth.wintime } := by
  -- the offset and the length of the target info, patched in last
  have hinfo : ∀ n p (rest : Bytes), patch (patch (patch (challengeHead n p 0 0 ++ rest) 40
      (le 2 (challengeInfo names auth.wintime).length)) 42
      (le 2 (challengeInfo names auth.wintime).length)) 44 (le 2 (56 + (hostOctets names).length)) =
      challengeHead n p (challengeInfo names auth.wintime).length
        (56 + (hostOctets names).length) ++ rest := by
    intro n p rest
    rw [patch_append (by simp), patch_append (by simp [patch]), challengeHead_infoLen,
      patch_append (by simp), challengeHead_infoPos_low hpos]
  unfold encodeNtlmChallenge challengeMessage
  simp only [hnames, ok_bind, hbuf, challengeHead_start, pure_eq_ok]
  cases names with
  | none =>
    have hnone := hinfo 0 0 (challengeInfo none auth.wintime)
    change patch (patch (patch _ 40 _) 42 _) 44 (le 2 56) = _ at hnone
    simp only [length_challengeHead]
    rw [hnone]
    rfl
  | some n =>
    have hlen : 2 * n.1.length = (hostOctets (some n)).length := by
      simp [hostOctets, hsame n rfl]
    have hname : utf16Octets n.2 = hostOctets (some n) := rfl
    simp only [length_challengeHead, challengeHead_name, List.length_append, List.append_assoc]
    rw [hname, hinfo, hlen]
    rfl

/-! ## The target info -/

/-- The attributes of the challenge. -/
def infoAttributes (names : Option (List Nat × List Nat)) (wintime : Nat) : List (Nat × Bytes) :=
  (match names with
    | none => []
    | some (host, upper) =>
      [(2, utf16Octets upper), (1, utf16Octets upper), (4, []), (3, utf16Octets host)]) ++
    [(7, le 8 wintime)]

theorem challengeInfo_eq (hsame : SameLength names)
    (wintime : Nat) :
    challengeInfo names wintime = attributes (infoAttributes names wintime) ++ le 4 0 := by
  cases names with
  | none => rfl
  | some n =>
    have hlen : n.2.length = n.1.length := hsame n rfl
    simp [challengeInfo, infoAttributes, attributes, hlen]

theorem length_challengeInfo (hsame : SameLength names)
    (wintime : Nat) : (challengeInfo names wintime).length =
      (attributes (infoAttributes names wintime)).length + 4 := by
  rw [challengeInfo_eq hsame, List.length_append, length_le]

theorem length_infoAttributes (names : Option (List Nat × List Nat)) (wintime : Nat) :
    (infoAttributes names wintime).length ≤ 5 := by
  cases names with
  | none => exact Nat.le_of_ble_eq_true rfl
  | some n => exact Nat.le_refl 5

theorem attributes_length_le {as : List (Nat × Bytes)} {a : Nat × Bytes} (h : a ∈ as) :
    4 + a.2.length ≤ (attributes as).length := by
  induction as with
  | nil => cases h
  | cons b as ih =>
    rw [attributes_cons, List.length_append, length_attr]
    rcases List.mem_cons.mp h with rfl | h
    · omega
    · have ih := ih h
      omega

theorem infoAttributes_are {wintime : Nat}
    (hfits : (attributes (infoAttributes names wintime)).length < 65536) :
    ∀ a ∈ infoAttributes names wintime, IsAttribute a := by
  intro a ha
  have hlen := attributes_length_le ha
  have hcode : 0 < a.1 ∧ a.1 < 65536 := by
    cases names with
    | none =>
      rcases List.mem_singleton.mp ha with rfl
      simp only
      omega
    | some n =>
      simp only [infoAttributes, List.cons_append, List.nil_append, List.mem_cons,
        List.not_mem_nil, or_false] at ha
      rcases ha with rfl | rfl | rfl | rfl | rfl <;> simp only <;> omega
  exact ⟨hcode.1, hcode.2, by omega⟩

/-! ## The client's copy of the challenge -/

/-- The length that the copy gives for its target info. -/
def copiedInfoLen (names : Option (List Nat × List Nat)) (spn : Option (List Nat))
    (wintime : Nat) : Nat :=
  ((challengeInfo names wintime).length + (spnAttribute spn).length) % 65536

/-- The target info of the copy. -/
def copiedInfo (names : Option (List Nat × List Nat)) (spn : Option (List Nat)) (wintime : Nat) :
    Bytes :=
  attributes (infoAttributes names wintime) ++ (spnAttribute spn ++ le 4 0)

/-- The copy of the challenge. -/
def copiedChallenge (names : Option (List Nat × List Nat)) (spn : Option (List Nat))
    (wintime : Nat) : Bytes :=
  challengeHead (hostOctets names).length 56 (copiedInfoLen names spn wintime)
    (56 + (hostOctets names).length) ++ (hostOctets names ++ copiedInfo names spn wintime)

/-- The name that the client takes from the challenge. -/
def copiedName (names : Option (List Nat × List Nat)) : Option CString :=
  if hostOctets names = [] then none
  else some (CString.ofBytes (utf16ToUtf8 (utf16Units (hostOctets names))))

theorem copyTargetName_eq {wintime : Nat} {h rest : Bytes}
    (hhead : h.length = 56) (hroom : (hostOctets names).length < rest.length) :
    copyTargetName (challengeMessage names wintime) (h ++ rest) (hostOctets names).length
        (namePos names) =
      .ok (h ++ hostOctets names ++ rest.drop (hostOctets names).length,
        56 + (hostOctets names).length, copiedName names) := by
  unfold copyTargetName copiedName
  by_cases hname : hostOctets names = []
  · rw [if_neg (by rw [hname]; exact fun h => absurd h.1 (Nat.lt_irrefl 0)), if_pos hname, hname]
    simp only [List.append_nil, List.length_nil, List.drop_zero]
  · have hpos : 0 < (hostOctets names).length := List.length_pos_of_ne_nil hname
    have hsome : namePos names = 56 := by
      cases names with
      | none => exact absurd rfl hname
      | some n => rfl
    have hlen : (hostOctets names).length < (challengeMessage names wintime).length := by
      simp only [challengeMessage, List.length_append, length_challengeHead]
      omega
    have hfetch : fetch (challengeMessage names wintime) 56 (hostOctets names).length =
        .ok (hostOctets names) := fetch_of_eq rfl (length_challengeHead _ _ _ _).symm rfl
    rw [if_pos ⟨hpos, hlen, by rw [List.length_append]; omega⟩, if_neg hname, hsome, hfetch,
      ok_bind, store_end hhead.symm (by omega), ok_bind]
    rfl

/-- The rounds up to the end of the target info, which `pre` comes before. -/
theorem transcodeInfo_upto {spn : Option (List Nat)}
    {wintime : Nat} (pre w : Bytes) {rest : Bytes} (fuel : Nat) (hsame : SameLength names)
    (hinfo : (challengeInfo names wintime).length < 65536) (hpre : pre.length < 65536)
    (hroom : (challengeInfo names wintime).length ≤ rest.length) :
    transcodeInfo spn (pre ++ challengeInfo names wintime)
        (fuel + (infoAttributes names wintime).length)
        ⟨w ++ rest, pre.length, (challengeInfo names wintime).length, w.length, 0⟩ =
      transcodeInfo spn (pre ++ attributes (infoAttributes names wintime) ++ le 4 0) fuel
        ⟨w ++ attributes (infoAttributes names wintime) ++
            rest.drop (attributes (infoAttributes names wintime)).length,
          (pre ++ attributes (infoAttributes names wintime)).length, 4,
          (w ++ attributes (infoAttributes names wintime)).length,
          (attributes (infoAttributes names wintime)).length⟩ := by
  have hlen := length_challengeInfo hsame wintime
  have hleft : (challengeInfo names wintime).length -
      (attributes (infoAttributes names wintime)).length = 4 := by omega
  have hsum : (0 + (attributes (infoAttributes names wintime)).length) % 65536 =
      (attributes (infoAttributes names wintime)).length := by omega
  rw [show pre ++ challengeInfo names wintime =
      pre ++ (attributes (infoAttributes names wintime) ++ le 4 0) by rw [challengeInfo_eq hsame],
    transcodeInfo_attributes (infoAttributes_are (by omega)) _ (by omega) hinfo (by omega)
      (by omega) (by decide), hleft, hsum, ← List.length_append, ← List.length_append,
    List.append_assoc pre]

/-- The client's copy of the target info, when the target name fits. -/
theorem transcodeInfo_eq {spn : Option (List Nat)}
    {wintime : Nat} (pre w : Bytes) {rest : Bytes} (fuel : Nat) (hsame : SameLength names)
    (hinfo : (challengeInfo names wintime).length < 65536) (hpre : pre.length < 65536)
    (hspn : (spnAttribute spn).length ≤ 400)
    (hroom : rest.length = (challengeInfo names wintime).length + 400) :
    ∃ inoff junk, transcodeInfo spn (pre ++ challengeInfo names wintime)
        (fuel + 2 + (infoAttributes names wintime).length)
        ⟨w ++ rest, pre.length, (challengeInfo names wintime).length, w.length, 0⟩ =
      .ok ⟨w ++ copiedInfo names spn wintime ++ junk, inoff, 0,
        w.length + (copiedInfo names spn wintime).length, copiedInfoLen names spn wintime⟩ := by
  have hlen := length_challengeInfo hsame wintime
  have hroom' : (spnAttribute spn).length + 4 ≤
      (rest.drop (attributes (infoAttributes names wintime)).length).length := by
    rw [List.length_drop]
    omega
  have hpre' : (pre ++ attributes (infoAttributes names wintime)).length + 4 < 4294967296 := by
    rw [List.length_append]
    omega
  have hinfolen : ((attributes (infoAttributes names wintime)).length +
      ((spnAttribute spn).length + 4)) % 65536 = copiedInfoLen names spn wintime := by
    rw [copiedInfoLen, hlen]
    congr 1
    omega
  refine ⟨(pre ++ attributes (infoAttributes names wintime)).length + 4,
    (rest.drop (attributes (infoAttributes names wintime)).length).drop
      ((spnAttribute spn).length + 4), ?_⟩
  rw [transcodeInfo_upto _ _ _ hsame hinfo hpre (by omega),
    transcodeInfo_end (slice_end _).1 (slice_end _).2 hroom' (by omega) hpre', hinfolen]
  simp only [copiedInfo, List.append_assoc, List.length_append, length_le, Nat.add_assoc]

/-- The copy of the target info, up to what the loop does. -/
theorem copyTargetInfo_loop (spn : Option (List Nat))
    {wintime p : Nat} {rest : Bytes} (hsame : SameLength names)
    (hroom : rest.length = (challengeInfo names wintime).length + 400) :
    ∃ fuel, copyTargetInfo spn (challengeMessage names wintime)
        (challengeHead (hostOctets names).length 56 (challengeInfo names wintime).length p ++
          hostOctets names ++ rest)
        (56 + (hostOctets names).length) (challengeInfo names wintime).length
        (56 + (hostOctets names).length) =
      (transcodeInfo spn (challengeHead (hostOctets names).length (namePos names)
            (challengeInfo names wintime).length (56 + (hostOctets names).length) ++
            hostOctets names ++ challengeInfo names wintime)
          (fuel + 2 + (infoAttributes names wintime).length)
          ⟨challengeHead (hostOctets names).length 56 (challengeInfo names wintime).length
              (56 + (hostOctets names).length) ++ hostOctets names ++ rest,
            56 + (hostOctets names).length, (challengeInfo names wintime).length,
            56 + (hostOctets names).length, 0⟩ >>= fun t =>
        store t.out 40 (le 2 t.infolen) >>= fun out =>
        store out 42 (le 2 t.infolen) >>= fun out => .ok (out, t.outoff)) := by
  have hlen := length_challengeInfo hsame wintime
  have hcount := length_infoAttributes names wintime
  have hsmall : 0 < (challengeInfo names wintime).length ∧
      (challengeInfo names wintime).length < (challengeMessage names wintime).length ∧
      56 + (hostOctets names).length + (challengeInfo names wintime).length <
        (challengeHead (hostOctets names).length 56 (challengeInfo names wintime).length p ++
          hostOctets names ++ rest).length := by
    simp only [challengeMessage, List.length_append, length_challengeHead]
    omega
  have hfuel : (challengeHead (hostOctets names).length 56 (challengeInfo names wintime).length
      (56 + (hostOctets names).length) ++ (hostOctets names ++ rest)).length =
      (454 + (hostOctets names).length + (challengeInfo names wintime).length -
        (infoAttributes names wintime).length) + 2 + (infoAttributes names wintime).length := by
    simp only [List.length_append, length_challengeHead]
    omega
  refine ⟨454 + (hostOctets names).length + (challengeInfo names wintime).length -
    (infoAttributes names wintime).length, ?_⟩
  unfold copyTargetInfo
  rw [if_pos hsmall, List.append_assoc, store_head (by simp), ok_bind, challengeHead_infoPos, hfuel]
  simp only [challengeMessage, List.append_assoc]
  rfl

theorem copyTargetInfo_eq {spn : Option (List Nat)}
    {wintime p : Nat} {rest : Bytes} (hsame : SameLength names)
    (hinfo : (challengeInfo names wintime).length < 65536)
    (hpos : 56 + (hostOctets names).length < 65536) (hspn : (spnAttribute spn).length ≤ 400)
    (hroom : rest.length = (challengeInfo names wintime).length + 400) :
    ∃ junk, copyTargetInfo spn (challengeMessage names wintime)
        (challengeHead (hostOctets names).length 56 (challengeInfo names wintime).length p ++
          hostOctets names ++ rest)
        (56 + (hostOctets names).length) (challengeInfo names wintime).length
        (56 + (hostOctets names).length) =
      .ok (copiedChallenge names spn wintime ++ junk, (copiedChallenge names spn wintime).length) := by
  have hlength : ∀ p p' i, (challengeHead (hostOctets names).length p i p' ++
      hostOctets names).length = 56 + (hostOctets names).length := by
    intro p p' i
    rw [List.length_append, length_challengeHead]
  obtain ⟨fuel, hloop⟩ := copyTargetInfo_loop spn (p := p) hsame hroom
  obtain ⟨inoff, junk, hrun⟩ := transcodeInfo_eq
    (challengeHead (hostOctets names).length (namePos names) (challengeInfo names wintime).length
      (56 + (hostOctets names).length) ++ hostOctets names)
    (challengeHead (hostOctets names).length 56 (challengeInfo names wintime).length
      (56 + (hostOctets names).length) ++ hostOctets names) fuel hsame hinfo
    (by rw [hlength]; exact hpos) hspn hroom
  rw [hlength, hlength] at hrun
  refine ⟨junk, ?_⟩
  rw [hloop, hrun, ok_bind]
  simp only [List.append_assoc]
  rw [store_head (by simp), ok_bind, store_head (by simp [patch]), ok_bind, challengeHead_infoLen]
  simp only [copiedChallenge, List.append_assoc, List.length_append, length_challengeHead,
    Nat.add_assoc]

/-- `ntlm_decode_challenge_message`, up to the target info. -/
theorem ntlmDecodeChallengeMessage_info (P : Primitives) (client : Client) (auth : AuthData)
    {wintime : Nat}
    (hinfo : (challengeInfo names wintime).length < 65536)
    (hpos : 56 + (hostOctets names).length < 65536) :
    ∃ rest : Bytes, rest.length = (challengeInfo names wintime).length + 400 ∧
      ntlmDecodeChallengeMessage P client auth (challengeMessage names wintime) =
        (copyTargetInfo (utf8ToUtf16 (targetSpn client.server)) (challengeMessage names wintime)
            (challengeHead (hostOctets names).length 56 (challengeInfo names wintime).length
                (56 + (hostOctets names).length) ++ hostOctets names ++ rest)
            (56 + (hostOctets names).length) (challengeInfo names wintime).length
            (56 + (hostOctets names).length) >>= fun p =>
          .ok { auth with
            ntlmBuf := p.1
            ntlmLen := p.2
            targetName := (copiedName names).orElse fun _ => auth.targetName
            targetInfo := targetSpn client.server }) := by
  have hname : (hostOctets names).length < 65536 := by omega
  have hnamePos : namePos names < 4294967296 := by
    unfold namePos
    split <;> omega
  have hlen : (challengeMessage names wintime).length =
      56 + ((hostOctets names).length + (challengeInfo names wintime).length) := by
    simp only [challengeMessage, List.length_append, length_challengeHead]
  have hmalloc := P.length_malloc ((challengeMessage names wintime).length + 400)
  have hleft : (hostOctets names).length <
      ((P.malloc ((challengeMessage names wintime).length + 400)).drop 56).length := by
    rw [List.length_drop]
    omega
  refine ⟨((P.malloc ((challengeMessage names wintime).length + 400)).drop 56).drop
    (hostOctets names).length, ?_, ?_⟩
  · simp only [List.length_drop, hmalloc]
    omega
  have hread : ∀ {off n : Nat}, off + n ≤ 56 → fetch (challengeMessage names wintime) off n =
      .ok (slice (challengeHead (hostOctets names).length (namePos names)
        (challengeInfo names wintime).length (56 + (hostOctets names).length)) off n) := by
    intro off n h
    rw [← length_challengeHead (hostOctets names).length (namePos names)
      (challengeInfo names wintime).length (56 + (hostOctets names).length)] at h
    exact fetch_head h
  have hcopy : store (P.malloc ((challengeMessage names wintime).length + 400)) 0
      (challengeHead (hostOctets names).length (namePos names)
        (challengeInfo names wintime).length (56 + (hostOctets names).length)) =
      .ok (challengeHead (hostOctets names).length (namePos names)
        (challengeInfo names wintime).length (56 + (hostOctets names).length) ++
        (P.malloc ((challengeMessage names wintime).length + 400)).drop 56) := by
    have hroom : 56 ≤ (P.malloc ((challengeMessage names wintime).length + 400)).length := by
      omega
    generalize P.malloc ((challengeMessage names wintime).length + 400) = memory at hroom ⊢
    have hstore := @store_end [] memory (challengeHead (hostOctets names).length (namePos names)
      (challengeInfo names wintime).length (56 + (hostOctets names).length)) 0 rfl
      (by rw [length_challengeHead]; exact hroom)
    rwa [length_challengeHead, List.nil_append, List.nil_append] at hstore
  have hhead : fetch (challengeMessage names wintime) 0 56 =
      .ok (challengeHead (hostOctets names).length (namePos names)
        (challengeInfo names wintime).length (56 + (hostOctets names).length)) := by
    rw [hread (Nat.le_refl 56), slice_zero (length_challengeHead _ _ _ _).le]
  unfold ntlmDecodeChallengeMessage
  simp only
  rw [if_neg (by omega), hhead, ok_bind, hcopy, ok_bind, hread (by decide), ok_bind,
    hread (by decide), ok_bind, store_head (by simp), ok_bind, challengeHead_pos,
    challengeHead_nameLen hname, fromLe_two hname, challengeHead_namePos, fromLe_four hnamePos,
    copyTargetName_eq (length_challengeHead _ _ _ _) hleft, ok_bind]
  simp only
  rw [hread (by decide), ok_bind, hread (by decide), ok_bind, challengeHead_readLen,
    fromLe_two hinfo, challengeHead_readPos, fromLe_four (by omega)]
  rfl

/-- **The copy of a challenge has the target name before the end of its target info.** -/
theorem ntlmDecodeChallengeMessage_eq (P : Primitives) (client : Client) (auth : AuthData)
    {wintime : Nat} (hsame : SameLength names)
    (hinfo : (challengeInfo names wintime).length < 65536)
    (hpos : 56 + (hostOctets names).length < 65536)
    (hspn : (spnAttribute (utf8ToUtf16 (targetSpn client.server))).length ≤ 400) :
    ∃ junk, ntlmDecodeChallengeMessage P client auth (challengeMessage names wintime) =
      .ok { auth with
        ntlmBuf := copiedChallenge names (utf8ToUtf16 (targetSpn client.server)) wintime ++ junk
        ntlmLen := (copiedChallenge names (utf8ToUtf16 (targetSpn client.server)) wintime).length
        targetName := (copiedName names).orElse fun _ => auth.targetName
        targetInfo := targetSpn client.server } := by
  obtain ⟨rest, hroom, hcopy⟩ := ntlmDecodeChallengeMessage_info P client auth hinfo hpos
  obtain ⟨junk, hloop⟩ := copyTargetInfo_eq hsame hinfo hpos hspn hroom
  refine ⟨junk, ?_⟩
  rw [hcopy, hloop]
  rfl

end Libsmb2.Ntlm
