import Libsmb2.Ntlmssp.Bounded

/-!
# The target info of a well-formed challenge

* `ntlmDecodeChallengeMessage_rewrites` — the copy of a well-formed challenge has the attributes
  of the challenge in their order, then the name of the server, then the end marker, and its
  target name is the challenge's.
-/

set_option autoImplicit false

namespace Libsmb2.Ntlm

open Util

/-- A challenge with target name `name` and with a target info of the attributes `as`, each of
them behind the signature and inside the message. -/
structure WellFormedChallenge (buf name : Bytes) (as : List (Nat × Bytes)) : Prop where
  header : 56 ≤ buf.length
  name_len : targetNameLen buf = name.length
  name_inside : name ≠ [] →
    targetNameOffset buf ≠ 0 ∧ targetNameOffset buf + name.length ≤ buf.length
  name_at : name ≠ [] → slice buf (targetNameOffset buf) name.length = name
  info_len : targetInfoLen buf = (attributes as).length + 4
  info_inside : targetInfoOffset buf ≠ 0 ∧
    targetInfoOffset buf + targetInfoLen buf ≤ buf.length
  info_at : slice buf (targetInfoOffset buf) (targetInfoLen buf) = attributes as ++ le 4 0
  are : ∀ a ∈ as, IsAttribute a

/-- The attribute for the name of the server. -/
def serverAttribute (us : List Nat) : Bytes := attr 9 (2 * us.length) (utf16Octets us)

/-- The result fits in the copy and in lengths of 16 bits; `alloc_len` is an `int`. -/
structure ResultFits (buf name : Bytes) (as : List (Nat × Bytes)) (us : List Nat) : Prop where
  length_lt : buf.length + 400 < 2147483648
  room : 56 + name.length + ((attributes as).length + (serverAttribute us).length + 4) ≤
    buf.length + 400
  short : (attributes as).length + (serverAttribute us).length + 4 < 65536

/-- What the fields of the copy describe. -/
structure Rewritten (out name : Bytes) (as : List (Nat × Bytes)) (us : List Nat) : Prop where
  info : slice out (targetInfoOffset out) (targetInfoLen out) =
    attributes as ++ serverAttribute us ++ le 4 0
  info_max : targetInfoMaxLen out = targetInfoLen out
  name_len : targetNameLen out = name.length
  name : slice out (targetNameOffset out) (targetNameLen out) = name

section

variable {buf name : Bytes} {as : List (Nat × Bytes)} {us : List Nat}

theorem length_serverAttribute (us : List Nat) :
    (serverAttribute us).length = 4 + 2 * us.length := by
  rw [serverAttribute, length_attr, length_utf16Octets]

theorem spnAttribute_short (h : 2 * us.length < 65536) :
    spnAttribute (some us) = serverAttribute us := by
  rw [spnAttribute, Nat.mod_eq_of_lt h, List.take_of_length_le (by rw [length_utf16Octets]),
    serverAttribute]

theorem WellFormedChallenge.takenName (h : WellFormedChallenge buf name as) :
    takenName buf = name ∧ takenNameLen buf = name.length ∧
      takenString buf = (if name = [] then none else some (utf8Name name)) ∧
      (NameTaken buf → targetNameOffset buf + targetNameLen buf ≤ buf.length) := by
  by_cases hnil : name = []
  · have hnot : ¬NameTaken buf := by
      intro htaken
      have hpos := htaken.1
      rw [h.name_len, hnil] at hpos
      exact Nat.lt_irrefl 0 hpos
    refine ⟨?_, ?_, ?_, fun htaken => absurd htaken hnot⟩
    · rw [Ntlm.takenName, if_neg hnot, hnil]
    · rw [takenNameLen, if_neg hnot, hnil, List.length_nil]
    · rw [takenString, if_neg hnot, if_pos hnil]
  · obtain ⟨hoff, hin⟩ := h.name_inside hnil
    have hpos := List.length_pos_of_ne_nil hnil
    have htaken : NameTaken buf := by
      unfold NameTaken
      rw [h.name_len]
      omega
    have hname : Ntlm.takenName buf = name := by
      rw [Ntlm.takenName, if_pos htaken, h.name_len, h.name_at hnil]
    refine ⟨hname, ?_, ?_, ?_⟩
    · rw [takenNameLen, if_pos htaken, h.name_len]
    · rw [takenString, if_pos htaken, if_neg hnil, hname, utf8Name]
    · intro _
      rw [h.name_len]
      exact hin

/-- The message around its target info. -/
theorem WellFormedChallenge.split (h : WellFormedChallenge buf name as) :
    ∃ pre tail : Bytes, pre.length = targetInfoOffset buf ∧
      buf = pre ++ (attributes as ++ (le 4 0 ++ tail)) := by
  obtain ⟨hoff, hin⟩ := h.info_inside
  refine ⟨buf.take (targetInfoOffset buf), buf.drop (targetInfoOffset buf + targetInfoLen buf),
    List.length_take_of_le (by omega), ?_⟩
  have hinfo := h.info_at
  rw [← List.append_assoc (attributes as), ← hinfo, slice, ← List.drop_drop,
    List.take_append_drop, List.take_append_drop]

theorem four_mul_length_le (as : List (Nat × Bytes)) : 4 * as.length ≤ (attributes as).length := by
  induction as with
  | nil => exact Nat.le_refl 0
  | cons a as ih =>
    rw [attributes_cons, List.length_append, length_attr, List.length_cons]
    omega

/-- The loop over a well-formed target info, whatever the copy held. -/
theorem WellFormedChallenge.transcode (h : WellFormedChallenge buf name as)
    (hfits : ResultFits buf name as us) {w rest : Bytes}
    (hroom : (attributes as).length + (serverAttribute us).length + 4 ≤ rest.length) :
    transcodeInfo (some us) buf (buf.length + 400)
        ⟨w ++ rest, targetInfoOffset buf, targetInfoLen buf, w.length, 0⟩ =
      .ok ⟨w ++ (attributes as ++ serverAttribute us ++ le 4 0) ++
          rest.drop (attributes as ++ serverAttribute us ++ le 4 0).length,
        targetInfoOffset buf + (attributes as).length + 4, 0,
        w.length + (attributes as ++ serverAttribute us ++ le 4 0).length,
        (attributes as).length + (serverAttribute us).length + 4⟩ := by
  obtain ⟨pre, tail, hpre, hbuf⟩ := h.split
  have hlen := h.info_len
  have hin := h.info_inside.2
  have hlt := hfits.length_lt
  have hshort := hfits.short
  have hserver := length_serverAttribute us
  have hspn : spnAttribute (some us) = serverAttribute us := spnAttribute_short (by omega)
  have hcount := four_mul_length_le as
  have hfuel : buf.length + 400 = (buf.length + 400 - as.length - 2) + 2 + as.length := by omega
  have hend : slice buf (pre.length + (attributes as).length) 4 = le 4 0 := by
    rw [hbuf, ← List.append_assoc, slice_append_right (by rw [List.length_append]),
      List.length_append, Nat.sub_self, slice_append_left (by rw [length_le])]
    rfl
  have hrun := @transcodeInfo_attributes (some us) as h.are (le 4 0 ++ tail)
    (buf.length + 400 - as.length - 2 + 2) pre w rest (targetInfoLen buf) 0 (by omega) (by omega)
    (by omega) (by omega) (by decide)
  have hleft : targetInfoLen buf - (attributes as).length = 4 := by omega
  have hmod : (0 + (attributes as).length) % 65536 = (attributes as).length := by omega
  have hsum : ((attributes as).length + ((serverAttribute us).length + 4)) % 65536 =
      (attributes as).length + ((serverAttribute us).length + 4) := by omega
  rw [← hbuf, ← hfuel, hleft, hmod, ← @List.length_append _ w (attributes as), hpre] at hrun
  rw [hpre] at hend
  rw [hrun, transcodeInfo_end (by omega) hend (by rw [hspn, List.length_drop]; omega) (by omega)
    (by omega), hspn, hsum]
  simp only [List.append_assoc, List.length_append, length_le, List.drop_drop, Nat.add_assoc]

theorem WellFormedChallenge.infoTaken (h : WellFormedChallenge buf name as)
    (hfits : ResultFits buf name as us) : InfoTaken buf := by
  have hlen := h.info_len
  have hin := h.info_inside
  have hroom := hfits.room
  have hserver := length_serverAttribute us
  unfold InfoTaken
  rw [h.takenName.2.1]
  omega

/-- The copy of a well-formed challenge. -/
theorem WellFormedChallenge.decode (P : Primitives) (client : Client) (auth : AuthData)
    (h : WellFormedChallenge buf name as) (hfits : ResultFits buf name as us)
    (hserver : utf8ToUtf16 (targetSpn client.server) = some us) :
    ntlmDecodeChallengeMessage P client auth buf = .ok (copiedTo P client auth buf
      (withInfo buf (attributes as ++ serverAttribute us ++ le 4 0)
        ((attributes as).length + (serverAttribute us).length + 4))) := by
  obtain ⟨hname, hnameLen, _, hinside⟩ := h.takenName
  have hstart := length_infoStart h.header hinside
  have hroom := hfits.room
  apply ntlmDecodeChallengeMessage_transcoded P client auth h.header hinside (h.infoTaken hfits)
  intro rest hrest
  rw [hserver]
  exact h.transcode hfits (by omega)

/-- What is before the target info's field in the copy. -/
theorem withInfo_before {new : Bytes} {infolen off n : Nat} (h : 56 ≤ buf.length)
    (hinside : NameTaken buf → targetNameOffset buf + targetNameLen buf ≤ buf.length)
    (hoff : off + n ≤ 40) :
    slice (withInfo buf new infolen) off n = slice (copiedHead buf) off n := by
  have hcopied := length_copiedStart h hinside
  have hstart := length_infoStart h hinside
  have hhead := length_copiedHead h
  have hfield : (patch (infoStart buf ++ new) 40 (le 2 infolen)).length =
      (infoStart buf ++ new).length := length_patch (by rw [length_le, List.length_append]; omega)
  rw [withInfo, slice_patch_before (by omega) (by rw [hfield, List.length_append]; omega),
    slice_patch_before hoff (by rw [List.length_append]; omega), slice_append_left (by omega),
    infoStart, slice_patch_before (by omega) (by omega), copiedStart, slice_append_left (by omega)]

/-- The lengths of the target info in the copy. -/
theorem withInfo_lengths {new : Bytes} {infolen : Nat} (h : 56 ≤ buf.length)
    (hinside : NameTaken buf → targetNameOffset buf + targetNameLen buf ≤ buf.length) :
    slice (withInfo buf new infolen) 40 2 = le 2 infolen ∧
      slice (withInfo buf new infolen) 42 2 = le 2 infolen := by
  have hstart := length_infoStart h hinside
  have hfield : (patch (infoStart buf ++ new) 40 (le 2 infolen)).length =
      (infoStart buf ++ new).length := length_patch (by rw [length_le, List.length_append]; omega)
  have hsame := @slice_patch_same (infoStart buf ++ new) (le 2 infolen) 40
    (by rw [List.length_append]; omega)
  have hsame' := @slice_patch_same (patch (infoStart buf ++ new) 40 (le 2 infolen))
    (le 2 infolen) 42 (by rw [hfield, List.length_append]; omega)
  rw [length_le] at hsame hsame'
  refine ⟨?_, hsame'⟩
  rw [withInfo, slice_patch_before (by omega) (by rw [hfield, List.length_append]; omega), hsame]

/-- The target name and the target info in the copy. -/
theorem withInfo_payload (new : Bytes) (infolen : Nat) (h : 56 ≤ buf.length)
    (hinside : NameTaken buf → targetNameOffset buf + targetNameLen buf ≤ buf.length) :
    slice (withInfo buf new infolen) 56 (takenNameLen buf) = takenName buf ∧
      slice (withInfo buf new infolen) (56 + takenNameLen buf) new.length = new := by
  have hcopied := length_copiedStart h hinside
  have hstart := length_infoStart h hinside
  have hhead := length_copiedHead h
  have hname := length_takenName hinside
  refine ⟨?_, ?_⟩
  · rw [withInfo_behind h hinside (by decide), slice_append_left (by omega), infoStart,
      slice_patch_after (by omega) (by rw [length_le]; decide), copiedStart,
      slice_append_right (by omega), hhead, Nat.sub_self, slice_zero (by omega)]
  · rw [withInfo_behind h hinside (by omega), slice_append_right (by omega), hstart, Nat.sub_self,
      slice_zero (Nat.le_refl _)]

/-- The target name's field in the copy. -/
theorem copiedHead_name (h : 56 ≤ buf.length) :
    slice (copiedHead buf) 12 2 = slice buf 12 2 ∧ slice (copiedHead buf) 16 4 = le 4 56 := by
  have hlen : (buf.take 56).length = 56 := List.length_take_of_le h
  have hsame := @slice_patch_same (buf.take 56) (le 4 56) 16 (by omega)
  rw [length_le] at hsame
  refine ⟨?_, hsame⟩
  rw [copiedHead, slice_patch_before (by decide) (by omega), slice, slice, List.drop_take,
    List.take_take, Nat.min_eq_left (by decide)]

/-- What the fields of that copy describe. -/
theorem WellFormedChallenge.rewritten (h : WellFormedChallenge buf name as)
    (hfits : ResultFits buf name as us) (junk : Bytes) :
    Rewritten (withInfo buf (attributes as ++ serverAttribute us ++ le 4 0)
      ((attributes as).length + (serverAttribute us).length + 4) ++ junk) name as us := by
  obtain ⟨hname, hnameLen, _, hinside⟩ := h.takenName
  have hroom := hfits.room
  have hlt := hfits.length_lt
  have hshort := hfits.short
  obtain ⟨new, hdef⟩ : ∃ new, new = attributes as ++ serverAttribute us ++ le 4 0 := ⟨_, rfl⟩
  have hnew : new.length = (attributes as).length + (serverAttribute us).length + 4 := by
    simp only [hdef, List.length_append, length_le]
  rw [← hdef, ← hnew]
  have hwith := length_withInfo new new.length h.header hinside
  obtain ⟨hlen, hmax⟩ := @withInfo_lengths buf new new.length h.header hinside
  obtain ⟨hnameAt, hinfoAt⟩ := withInfo_payload new new.length h.header hinside
  obtain ⟨hheadLen, hheadOff⟩ := copiedHead_name h.header
  -- the junk is behind all that is read
  have hread : ∀ {off n}, off + n ≤ 56 + takenNameLen buf + new.length →
      slice (withInfo buf new new.length ++ junk) off n =
        slice (withInfo buf new new.length) off n :=
    fun hle => slice_append_left (hle.trans_eq hwith.symm)
  have hinfoLen : targetInfoLen (withInfo buf new new.length ++ junk) = new.length := by
    rw [targetInfoLen, hread (by omega), hlen, fromLe_two (by omega)]
  have hinfoOff : targetInfoOffset (withInfo buf new new.length ++ junk) =
      56 + takenNameLen buf := by
    rw [targetInfoOffset, hread (by omega), withInfo_offset h.header hinside,
      fromLe_four (by omega)]
  have hnameLen' : targetNameLen (withInfo buf new new.length ++ junk) = name.length := by
    rw [targetNameLen, hread (by omega), withInfo_before h.header hinside (by decide), hheadLen]
    exact h.name_len
  have hnameOff : targetNameOffset (withInfo buf new new.length ++ junk) = 56 := by
    rw [targetNameOffset, hread (by omega), withInfo_before h.header hinside (by decide), hheadOff,
      fromLe_four (by decide)]
  constructor
  case info => rw [hinfoOff, hinfoLen, hread (Nat.le_refl _), hinfoAt, hdef]
  case info_max => rw [hinfoLen, targetInfoMaxLen, hread (by omega), hmax, fromLe_two (by omega)]
  case name_len => exact hnameLen'
  case name => rw [hnameOff, hnameLen', ← hnameLen, hread (by omega), hnameAt, hname]

/-- **The copy of a well-formed challenge has the challenge's attributes, the name of the server
and the end marker; an empty target name leaves the one that is known as it is.** -/
theorem ntlmDecodeChallengeMessage_rewrites (P : Primitives) (client : Client) (auth : AuthData)
    (h : WellFormedChallenge buf name as) (hfits : ResultFits buf name as us)
    (hserver : utf8ToUtf16 (targetSpn client.server) = some us) :
    ∃ auth', ntlmDecodeChallengeMessage P client auth buf = .ok auth' ∧
      Rewritten auth'.ntlmBuf name as us ∧
      auth'.targetName = if name = [] then auth.targetName else some (utf8Name name) := by
  refine ⟨_, h.decode P client auth hfits hserver, h.rewritten hfits _, ?_⟩
  have hstring := h.takenName.2.2.1
  simp only [copiedTo, hstring]
  by_cases hnil : name = []
  · rw [if_pos hnil, if_pos hnil]
    rfl
  · rw [if_neg hnil, if_neg hnil]
    rfl

end

/-- A challenge with a target name of one character and with one attribute. -/
def sampleChallenge (nameLen : Nat) : Bytes :=
  signature ++ le 4 CHALLENGE_MESSAGE ++ lengths nameLen ++ le 4 56 ++ zeros 20 ++ lengths 10 ++
    le 4 58 ++ zeros 8 ++ [0x44, 0] ++ attr 2 2 [0x44, 0] ++ le 4 0

/-- The client of a server with the name "a". -/
def sampleClient : Client where
  server := CString.ofBytes [0x61]
  password := none
  domain := none

/-- "cifs/a". -/
def sampleUnits : List Nat := [0x63, 0x69, 0x66, 0x73, 0x2f, 0x61]

theorem sampleChallenge_wellFormed :
    WellFormedChallenge (sampleChallenge 2) [0x44, 0] [(2, [0x44, 0])] where
  header := by decide
  name_len := by decide +kernel
  name_inside _ := by decide +kernel
  name_at _ := by decide +kernel
  info_len := by decide +kernel
  info_inside := by decide +kernel
  info_at := by decide +kernel
  are a ha := by
    rcases List.mem_singleton.mp ha with rfl
    exact ⟨by decide, by decide, by decide⟩

theorem sampleChallenge_rewritten :
    ∃ auth', ntlmDecodeChallengeMessage (filledWith 0) sampleClient {} (sampleChallenge 2) =
        .ok auth' ∧
      Rewritten auth'.ntlmBuf [0x44, 0] [(2, [0x44, 0])] sampleUnits ∧
      auth'.targetName = some (utf8Name [0x44, 0]) :=
  ntlmDecodeChallengeMessage_rewrites (filledWith 0) sampleClient {} sampleChallenge_wellFormed
    ⟨by decide, by decide, by decide⟩ (by decide +kernel)

/-- An empty target name is no target name. -/
theorem empty_name_is_not_taken :
    WellFormedChallenge (sampleChallenge 0) [] [(2, [0x44, 0])] ∧
    ResultFits (sampleChallenge 0) [] [(2, [0x44, 0])] sampleUnits ∧
    ¬∃ auth', ntlmDecodeChallengeMessage (filledWith 0) sampleClient {} (sampleChallenge 0) =
      .ok auth' ∧ auth'.targetName = some (utf8Name []) := by
  have hwell : WellFormedChallenge (sampleChallenge 0) [] [(2, [0x44, 0])] :=
    { header := by decide
      name_len := by decide +kernel
      name_inside := fun hne => absurd rfl hne
      name_at := fun hne => absurd rfl hne
      info_len := by decide +kernel
      info_inside := by decide +kernel
      info_at := by decide +kernel
      are := fun a ha => by
        rcases List.mem_singleton.mp ha with rfl
        exact ⟨by decide, by decide, by decide⟩ }
  refine ⟨hwell, ⟨by decide, by decide, by decide⟩, ?_⟩
  rintro ⟨auth', hdecode, hname⟩
  have hnone : (ntlmDecodeChallengeMessage (filledWith 0) sampleClient {}
      (sampleChallenge 0)).map AuthData.targetName = .ok none := by decide +kernel
  rw [hdecode] at hnone
  cases hname.symm.trans (Except.ok.inj hnone)

end Libsmb2.Ntlm
