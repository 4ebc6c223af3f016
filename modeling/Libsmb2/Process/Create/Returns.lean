import Libsmb2.Process.Create

/-!
# A CREATE request that comes back

What `smb2_encode_create_request` puts together, and what a server makes of it.  The encoder pads
the name to a multiple of eight octets, sends eight octets for a name that is empty, and puts the
contexts behind either; where it says that they are is told from `name_length`, which it does not
set for an empty name.

* `Transcodes.backslashes`, `ofBytes_backslashes` — a name is read with backslashes for its slashes;
* `returns_of_front` — a request comes back if what is read of it begins with its name and ends
  with its contexts;
* `create_request_returns_iff` — when a request comes back as it was sent.
-/

set_option autoImplicit false

namespace Libsmb2

open Util

/-! ## What is sent -/

/-- `smb2_cmd_create_async`: the octets behind the header. -/
def cmdCreateRequest (req : CreateArgs) : Option Bytes :=
  ((encodeCreateRequest req [zeros HEADER_SIZE]).bind padTo64Bit).map fun out =>
    (out.drop 1).flatten

/-- What a server makes of the octets behind the header. -/
def decodeCreateRequest (body : Bytes) :
    Except Overrun (Option (CreateRequest × Option CreateNames)) :=
  decodeBody 56 processCreateRequestFixed processCreateRequestVariable body

namespace CreateArgs

/-- `create_context_offset`, if the name has this length. -/
def contextOffset (req : CreateArgs) (nameLength : Nat) : Nat :=
  if req.createContext.length = 0 then 0
  else if nameLength = 0 then padTo64 (4 + padTo32 (HEADER_SIZE + 56))
  else padTo64 (nameLength + padTo32 (HEADER_SIZE + 56))

/-- What is found in the fixed part. -/
def received (req : CreateArgs) (nameLength sent : Nat) : CreateRequest where
  securityFlags := req.securityFlags
  requestedOplockLevel := req.requestedOplockLevel
  impersonationLevel := req.impersonationLevel
  smbCreateFlags := req.smbCreateFlags
  desiredAccess := req.desiredAccess
  fileAttributes := req.fileAttributes
  shareAccess := req.shareAccess
  createDisposition := req.createDisposition
  createOptions := req.createOptions
  nameOffset := HEADER_SIZE + 56
  nameLength := sent
  createContextOffset := req.contextOffset nameLength
  createContextLength := req.createContext.length

/-- The fields have their widths, and the name fewer than 65536 octets. -/
structure Fits (req : CreateArgs) : Prop where
  securityFlags : req.securityFlags < 256 ^ 1
  requestedOplockLevel : req.requestedOplockLevel < 256 ^ 1
  impersonationLevel : req.impersonationLevel < 256 ^ 4
  smbCreateFlags : req.smbCreateFlags < 256 ^ 8
  desiredAccess : req.desiredAccess < 256 ^ 4
  fileAttributes : req.fileAttributes < 256 ^ 4
  shareAccess : req.shareAccess < 256 ^ 4
  createDisposition : req.createDisposition < 256 ^ 4
  createOptions : req.createOptions < 256 ^ 4
  nameLength : req.nameLength < 256 ^ 2
  createContext : req.createContext.length < 256 ^ 4
  name : ∀ us, Name.ofString req.name = .units us → 2 * us.length < 2 ^ 16

end CreateArgs

section
variable {req : CreateArgs} {nameLength sent : Nat}

theorem contextOffset_lt (req : CreateArgs) (nameLength : Nat) :
    req.contextOffset nameLength < 256 ^ 4 := by
  unfold CreateArgs.contextOffset
  split
  · decide
  · split <;> exact Nat.mod_lt _ (by decide)

theorem length_createFixed (req : CreateArgs) (nameLength : Nat) :
    (createFixed req nameLength).length = 56 := by
  simp [createFixed, CREATE_REQUEST_SIZE]

/-- A request reads back from its fixed part. -/
theorem createFields_sent (hf : req.Fits) (hsent : sent < 256 ^ 2) :
    createFields (setUint16 46 sent (createFixed req nameLength)) =
      some (req.received nameLength sent) := by
  have hctx := contextOffset_lt req nameLength
  have hlen : (setUint16 46 sent (createFixed req nameLength)).length = 56 := by
    rw [length_setUint16, length_createFixed]
  unfold createFields
  rw [hlen]
  unfold createFixed CreateArgs.received
  unfold CreateArgs.contextOffset at hctx ⊢
  simp (disch := simp [length_setUint, CREATE_REQUEST_SIZE]) only [setUint8, setUint16, setUint32,
    setUint64, slice_setUint_before, slice_setUint_same, slice_setUint_after, fromLe_le]
  rw [if_neg (by decide), Nat.mod_eq_of_lt hctx, Nat.mod_eq_of_lt hsent]
  simp only [Nat.mod_eq_of_lt hf.securityFlags, Nat.mod_eq_of_lt hf.requestedOplockLevel,
    Nat.mod_eq_of_lt hf.impersonationLevel, Nat.mod_eq_of_lt hf.smbCreateFlags,
    Nat.mod_eq_of_lt hf.desiredAccess, Nat.mod_eq_of_lt hf.fileAttributes,
    Nat.mod_eq_of_lt hf.shareAccess, Nat.mod_eq_of_lt hf.createDisposition,
    Nat.mod_eq_of_lt hf.createOptions, Nat.mod_eq_of_lt hf.createContext]
  rfl

/-- The fixed part has zeros where an empty name leaves its length out. -/
theorem setUint16_createFixed (req : CreateArgs) (nameLength : Nat) :
    setUint16 46 0 (createFixed req nameLength) = createFixed req nameLength := by
  refine setUint_slice ?_
  unfold createFixed
  simp (disch := simp [length_setUint, CREATE_REQUEST_SIZE]) only [setUint8, setUint16, setUint32,
    setUint64, slice_setUint_before, slice_setUint_after]
  rfl

theorem addCreateContext_accepted {context : Bytes} {out : List Bytes}
    (hroom : out.length < MAX_VECTORS) (haccepted : context = [] ∨ padTo64 context.length < 2 ^ 31) :
    ∃ vs, addCreateContext context out = some (out ++ vs) ∧ vs.length ≤ 1 ∧
      vs.flatten = context ++ zeros (padTo64 context.length - context.length) := by
  unfold addCreateContext
  by_cases hempty : context.length = 0
  · have hnil : context = [] := List.length_eq_zero_iff.mp hempty
    rw [if_pos hempty]
    refine ⟨[], by rw [List.append_nil], by decide, ?_⟩
    rw [hnil]
    rfl
  · rcases haccepted with rfl | hsmall
    · exact absurd rfl hempty
    · rw [if_neg hempty, if_neg (by omega)]
      exact ⟨_, if_neg (by omega), Nat.le_refl 1, List.flatten_singleton⟩

/-- The contexts and the padding, which are a multiple of eight octets with the name. -/
theorem cmdCreateRequest_of_name {fixed name context : Bytes} (hfixed : fixed.length = 56)
    (hname : name.length % 8 = 0) (hcontext : context.length < 256 ^ 4)
    (haccepted : context = [] ∨ padTo64 context.length < 2 ^ 31) :
    ∃ k < 8, (context.length + k) % 8 = 0 ∧
      ((addCreateContext context [zeros HEADER_SIZE, fixed, name]).bind padTo64Bit).map
        (fun out => (out.drop 1).flatten) = some (fixed ++ (name ++ (context ++ zeros k))) := by
  obtain ⟨vs, hadd, hvs, hflat⟩ := addCreateContext_accepted
    (show [zeros HEADER_SIZE, fixed, name].length < MAX_VECTORS from by simp [MAX_VECTORS]) haccepted
  obtain ⟨pad, k, hpad, hzeros, hk, hmod⟩ := padTo64Bit_of_lt
    (show ([zeros HEADER_SIZE, fixed, name] ++ vs).length < MAX_VECTORS from by
      rw [List.length_append]
      exact Nat.lt_of_le_of_lt (Nat.add_le_add_left hvs 3) (by decide))
  have hcount : octetCount ([zeros HEADER_SIZE, fixed, name] ++ vs) = 120 + name.length +
      (context.length + (padTo64 context.length - context.length)) := by
    rw [← octetCount_eq, List.flatten_append, hflat]
    simp only [List.flatten_cons, List.flatten_nil, List.append_nil, List.length_append,
      length_zeros, hfixed, HEADER_SIZE]
    omega
  rw [hcount] at hmod
  refine ⟨padTo64 context.length - context.length + k, ?_, by omega, ?_⟩
  · unfold padTo64 at *
    omega
  · rw [hadd, Option.bind_some, hpad, Option.map_some]
    simp only [List.cons_append, List.nil_append, List.drop_succ_cons, List.drop_zero,
      List.flatten_cons, List.flatten_append, hflat, hzeros, List.append_assoc]
    rw [zeros, zeros, zeros, List.replicate_append_replicate]

/-! ## Names -/

theorem codeUnits_backslash {cp : Nat} {us : List Nat} (h : codeUnits cp = some us) :
    ∃ cp', codeUnits cp' = some (backslashes us) ∧
      utf8Octets cp' = (utf8Octets cp).map fun c => if c = 0x2f then 0x5c else c := by
  by_cases hslash : cp = 0x2f
  · subst hslash
    refine ⟨0x5c, ?_, rfl⟩
    rcases codeUnits_scalar h with ⟨rfl, -⟩ | ⟨hlow, -⟩
    · rfl
    · omega
  · refine ⟨cp, ?_, ?_⟩
    · rw [h]
      congr 1
      refine ((List.map_congr_left fun u hu => ?_).trans (List.map_id _)).symm
      refine if_neg fun hu' => ?_
      rcases codeUnits_scalar h with ⟨rfl, -⟩ | ⟨hlow, hhigh, rfl⟩
      · rw [List.mem_singleton.mp hu] at hu'
        exact hslash hu'
      · simp only [List.mem_cons, List.not_mem_nil, or_false] at hu
        omega
    · refine ((List.map_congr_left fun c hc => ?_).trans (List.map_id _)).symm
      refine if_neg fun hc' => ?_
      subst hc'
      by_cases hcp : cp < 0x80
      · rw [utf8Octets, if_pos hcp, List.mem_singleton] at hc
        have hnat := congrArg UInt8.toNat hc
        rw [toNat_octet (by omega)] at hnat
        exact hslash hnat.symm
      · have hhigh := utf8Octets_high h (by omega) _ hc
        exact absurd hhigh (by decide)

/-- Backslashes for the slashes of a string are backslashes for those of its code units. -/
theorem Transcodes.backslashes {bs : Bytes} {us : List Nat} (h : Transcodes bs us) :
    Transcodes (bs.map fun c => if c = 0x2f then 0x5c else c) (backslashes us) := by
  induction h with
  | nil => exact .nil
  | cons hunits _ ih =>
    obtain ⟨cp', hunits', hoctets⟩ := codeUnits_backslash hunits
    rw [List.map_append, ← hoctets, Libsmb2.backslashes, List.map_append]
    exact .cons hunits' ih

/-- The code units of a name are those of a string that is not empty. -/
theorem Name.ofString_units {name : Option CString} {us : List Nat}
    (h : Name.ofString name = .units us) :
    ∃ s, name = some s ∧ Transcodes s.octets us ∧ 0 < us.length := by
  unfold Name.ofString at h
  cases name with
  | none => cases h
  | some s =>
    simp only at h
    split at h
    · cases h
    rename_i hne
    cases hunits : utf8ToUtf16 s.octets with
    | none =>
      rw [hunits] at h
      cases h
    | some vs =>
      rw [hunits] at h
      cases h
      have ht := utf8ToUtf16_eq_some.mp hunits
      refine ⟨s, rfl, ht, List.length_pos_of_ne_nil fun hnil => hne ?_⟩
      subst hnil
      rw [← utf16ToUtf8_utf8ToUtf16 hunits]
      rfl

theorem Name.ofString_absent {name : Option CString} (h : Name.ofString name = .absent) :
    (name.map backslashed).elim [] CString.octets = [] := by
  unfold Name.ofString at h
  cases name with
  | none => rfl
  | some s =>
    simp only at h
    split at h
    · rename_i hempty
      have hmap : (backslashed s).octets = s.octets.map _ := rfl
      rw [Option.map_some, Option.elim_some, hmap, hempty]
      rfl
    · cases hunits : utf8ToUtf16 s.octets with
      | none =>
        rw [hunits] at h
        cases h
      | some vs =>
        rw [hunits] at h
        cases h

/-- A name that is sent is read with backslashes for its slashes. -/
theorem ofBytes_backslashes {s : CString} {us : List Nat} (h : Transcodes s.octets us) :
    (CString.ofBytes (utf16ToUtf8 (utf16Units (utf16Octets (backslashes us))))).octets =
      (backslashed s).octets := by
  have hback := h.backslashes
  rw [utf16Units_utf16Octets hback.lt, utf16ToUtf8_utf8ToUtf16 (utf8ToUtf16_eq_some.mpr hback)]
  exact (backslashed s).ofBytes_octets

/-! ## What comes back -/

/-- The octets of a name; no name is an empty one. -/
def nameOctets (name : Option CString) : Bytes := name.elim [] CString.octets

/-- The octets of the text of these code units. -/
def textOctets (units : Bytes) : Bytes := (CString.ofBytes (utf16ToUtf8 (utf16Units units))).octets

/-- The length of the vector of a name. -/
def CreateArgs.paddedName (req : CreateArgs) : Nat :=
  match Name.ofString req.name with
  | .units us => padTo64 (2 * us.length)
  | _ => 8

namespace CreateArgs

/-- The request is the one that was sent, with backslashes for the slashes of its name. -/
structure Returned (req : CreateArgs) (r : CreateRequest × Option CreateNames) : Prop where
  securityFlags : r.1.securityFlags = req.securityFlags
  requestedOplockLevel : r.1.requestedOplockLevel = req.requestedOplockLevel
  impersonationLevel : r.1.impersonationLevel = req.impersonationLevel
  smbCreateFlags : r.1.smbCreateFlags = req.smbCreateFlags
  desiredAccess : r.1.desiredAccess = req.desiredAccess
  fileAttributes : r.1.fileAttributes = req.fileAttributes
  shareAccess : r.1.shareAccess = req.shareAccess
  createDisposition : r.1.createDisposition = req.createDisposition
  createOptions : r.1.createOptions = req.createOptions
  name : nameOctets (r.2.bind CreateNames.name) = nameOctets (req.name.map backslashed)
  createContext : (r.2.bind CreateNames.createContext).getD [] = req.createContext

/-- The part of the message that the fixed step asks for ends with the contexts, or with the name
if there are none, and only padding is behind it. -/
def Covered (req : CreateArgs) (body : Bytes) (n : Int) : Prop :=
  ∃ name : Bytes, ∃ gap k, body.drop 56 = name ++ zeros gap ++ req.createContext ++ zeros k ∧
    n = (name ++ zeros gap ++ req.createContext).length ∧ k ≤ 8 ∧
    textOctets name = nameOctets (req.name.map backslashed) ∧ (req.createContext = [] → gap = 0)

/-- The encoder takes the name and the contexts. -/
structure Accepted (req : CreateArgs) : Prop where
  name : Name.ofString req.name ≠ .invalid
  createContext : req.createContext = [] ∨ padTo64 req.createContext.length < 2 ^ 31

/-- There are no contexts; or they end before 2^31 octets, and begin behind eight if there is no
name. -/
def Plain (req : CreateArgs) : Prop :=
  req.createContext = [] ∨ (Name.ofString req.name = .absent → req.nameLength ≤ 8) ∧
    req.paddedName + req.createContext.length < 2 ^ 31

end CreateArgs

/-- The request is sent, and decoded as it was. -/
def CreateArgs.ComesBack (req : CreateArgs) : Prop :=
  ∃ body n r, cmdCreateRequest req = some body ∧
    processCreateRequestFixed (body.take 56) = some (n, r.1) ∧
    decodeCreateRequest body = .ok (some r) ∧ req.Returned r ∧ req.Covered body n

/-- A request that is not refused comes back as it was sent. -/
def CreateReturns (req : CreateArgs) : Prop :=
  req.Fits → cmdCreateRequest req ≠ none → req.ComesBack

/-- The fixed part that is sent, with two lengths of the name: the one that the contexts are placed
behind, and the one that is in its field. -/
def sentFixed (req : CreateArgs) (nameLength sent : Nat) : Bytes :=
  setUint16 46 sent (createFixed req nameLength)

theorem length_sentFixed (req : CreateArgs) (nameLength sent : Nat) :
    (sentFixed req nameLength sent).length = 56 := by
  rw [sentFixed, length_setUint16, length_createFixed]

/-- A request with a name. -/
theorem cmdCreateRequest_units {us : List Nat} (hf : req.Fits) (ha : req.Accepted)
    (hname : Name.ofString req.name = .units us) :
    ∃ k < 8, (req.createContext.length + k) % 8 = 0 ∧
      cmdCreateRequest req = some (sentFixed req (2 * us.length) (2 * us.length) ++
      (padBuffer (utf16Octets (backslashes us)) (padTo64 (2 * us.length)) ++
        (req.createContext ++ zeros k))) := by
  have hshort := hf.name us hname
  have hunits : (backslashes us).length = us.length := List.length_map _
  have hlen : 2 * us.length % 2 ^ 16 = 2 * us.length := Nat.mod_eq_of_lt hshort
  have hvector : (padBuffer (utf16Octets (backslashes us)) (padTo64 (2 * us.length))).length % 8 = 0 := by
    rw [padBuffer, List.length_append, length_zeros, length_utf16Octets, hunits]
    unfold padTo64
    omega
  obtain ⟨k, hk, hmod, hcmd⟩ := cmdCreateRequest_of_name (length_sentFixed req (2 * us.length)
    (2 * us.length)) hvector hf.createContext ha.createContext
  refine ⟨k, hk, hmod, ?_⟩
  unfold cmdCreateRequest encodeCreateRequest
  rw [hname]
  simp only
  rw [hlen]
  exact hcmd

/-- A request without a name. -/
theorem cmdCreateRequest_absent (hf : req.Fits) (ha : req.Accepted)
    (hname : Name.ofString req.name = .absent) :
    ∃ k < 8, (req.createContext.length + k) % 8 = 0 ∧
      cmdCreateRequest req = some (sentFixed req req.nameLength 0 ++
      (zeros 8 ++ (req.createContext ++ zeros k))) := by
  obtain ⟨k, hk, hmod, hcmd⟩ := cmdCreateRequest_of_name (length_sentFixed req req.nameLength 0)
    (show (zeros 8).length % 8 = 0 from rfl) hf.createContext ha.createContext
  refine ⟨k, hk, hmod, ?_⟩
  rw [sentFixed, setUint16_createFixed] at hcmd
  unfold cmdCreateRequest encodeCreateRequest
  rw [hname, sentFixed, setUint16_createFixed]
  exact hcmd

theorem addCreateContext_refused {context : Bytes} {out : List Bytes}
    (h : ¬ (context = [] ∨ padTo64 context.length < 2 ^ 31)) : addCreateContext context out = none := by
  have hne : context.length ≠ 0 := fun hlen => h (.inl (List.length_eq_zero_iff.mp hlen))
  unfold addCreateContext
  rw [if_neg hne, if_pos (Nat.le_of_not_lt fun hlt => h (.inr hlt))]

theorem cmdCreateRequest_refused (h : ¬ req.Accepted) : cmdCreateRequest req = none := by
  unfold cmdCreateRequest encodeCreateRequest
  cases hname : Name.ofString req.name with
  | invalid => rfl
  | absent =>
    have hcontext : ¬ (req.createContext = [] ∨ padTo64 req.createContext.length < 2 ^ 31) :=
      fun hcontext => h ⟨by rw [hname]; exact nofun, hcontext⟩
    simp [addVector, addCreateContext_refused hcontext]
  | units us =>
    have hcontext : ¬ (req.createContext = [] ∨ padTo64 req.createContext.length < 2 ^ 31) :=
      fun hcontext => h ⟨by rw [hname]; exact nofun, hcontext⟩
    simp [addVector, addCreateContext_refused hcontext]

/-! ## When it comes back -/

/-- Where the contexts begin, from the beginning of the variable part. -/
theorem contextOffset_eq (hne : req.createContext ≠ []) (hlen : nameLength < 256 ^ 2) :
    HEADER_SIZE + 56 ≤ req.contextOffset nameLength ∧
      sub32 (req.contextOffset nameLength) (HEADER_SIZE + 56) =
        if nameLength = 0 then 8 else (nameLength + 7) / 8 * 8 := by
  have hctx : req.createContext.length ≠ 0 := fun hlen => hne (List.length_eq_zero_iff.mp hlen)
  have hheader : HEADER_SIZE = 64 := rfl
  unfold CreateArgs.contextOffset
  rw [if_neg hctx]
  split
  · exact ⟨by decide, rfl⟩
  · have hoffset : padTo64 (nameLength + padTo32 (HEADER_SIZE + 56)) =
        (nameLength + 7) / 8 * 8 + 120 := by
      have h32 : padTo32 (HEADER_SIZE + 56) = 120 := rfl
      rw [h32]
      unfold padTo64
      omega
    rw [hoffset]
    exact ⟨by omega, by rw [sub32_of_le (by omega)]; omega⟩

/-- If contexts come back, they end inside what follows the fixed part. -/
theorem decodeCreateRequest_eq_some {rest : Bytes} {r : CreateRequest × Option CreateNames}
    (hf : req.Fits) (hlen : nameLength < 256 ^ 2) (hsent : sent < 256 ^ 2)
    (hne : req.createContext ≠ [])
    (h : decodeCreateRequest (sentFixed req nameLength sent ++ rest) = .ok (some r))
    (hr : req.Returned r) :
    sub32 (req.contextOffset nameLength) (HEADER_SIZE + 56) + req.createContext.length ≤ rest.length ∧
      sub32 (req.contextOffset nameLength) (HEADER_SIZE + 56) + req.createContext.length < 2 ^ 31 := by
  obtain ⟨n, hfixed, hnames⟩ := decodeBody_eq_some h
  rw [List.take_left' (length_sentFixed req nameLength sent)] at hfixed
  obtain ⟨hfields, hn⟩ := processCreateRequestFixed_fields hfixed
  rw [sentFixed, createFields_sent hf hsent, Option.some.injEq] at hfields
  rcases hnames with ⟨-, hnone⟩ | ⟨hpos, names, hrun, -⟩
  · have hctx := hr.createContext
    rw [hnone] at hctx
    exact absurd hctx.symm hne
  · have hwithin := within_of_inside ⟨_, hrun⟩
    rw [← hfields] at hwithin
    have hcount : req.createContext.length ≠ 0 :=
      fun hcount => hne (List.length_eq_zero_iff.mp hcount)
    obtain ⟨hoff, -⟩ := contextOffset_eq hne hlen
    have hheader : HEADER_SIZE = 64 := rfl
    have hend : sub32 (req.contextOffset nameLength) (HEADER_SIZE + 56) + req.createContext.length ≤
        (slice (sentFixed req nameLength sent ++ rest) 56 n.toNat).length :=
      hwithin.createContext hcount (show req.contextOffset nameLength ≠ 0 by omega)
    rw [length_slice, List.length_append, length_sentFixed] at hend
    obtain ⟨hrem, -⟩ := hn hpos
    rw [CreateRequest.remaining_eq] at hrem
    rw [hrem] at hpos hend
    obtain ⟨hval, hsmall⟩ := toInt32_pos hpos
    omega

/-- A message whose variable part is there. -/
theorem decodeCreateRequest_of_pos {rest : Bytes} {n : Nat} (hf : req.Fits)
    (hsent : sent < 256 ^ 2) (ht : (req.received nameLength sent).Taken)
    (hn : (req.received nameLength sent).extent = n) (hpos : 0 < n) (hsmall : n < 2 ^ 31)
    (hrest : n ≤ rest.length) (hwithin : (req.received nameLength sent).Within n) :
    processCreateRequestFixed (sentFixed req nameLength sent) =
        some ((n : Int), req.received nameLength sent) ∧
      decodeCreateRequest (sentFixed req nameLength sent ++ rest) =
        .ok (some (req.received nameLength sent,
          some ((req.received nameLength sent).names (rest.take n)))) := by
  have hrem : (req.received nameLength sent).remaining = n := by
    rw [CreateRequest.remaining_eq, hn, toInt32_of_lt hsmall]
  have hfixed : processCreateRequestFixed (sentFixed req nameLength sent) =
      some ((n : Int), req.received nameLength sent) := by
    rw [← hrem]
    exact processCreateRequestFixed_taken (createFields_sent hf hsent) ht
  have hlength : (rest.take n).length = n := by
    rw [List.length_take, Nat.min_eq_left hrest]
  refine ⟨hfixed, ?_⟩
  unfold decodeCreateRequest
  rw [decodeBody_of_pos (length_sentFixed req nameLength sent) hfixed hpos hrest,
    processCreateRequestVariable_of_within (by rw [hlength]; exact hwithin)]
  rfl

theorem received_taken (hlen : nameLength < 256 ^ 2) (h : 0 < sent ∨ req.createContext ≠ []) :
    (req.received nameLength sent).Taken := by
  refine ⟨fun ⟨hctx, hname⟩ => ?_, fun ⟨_, hname⟩ => Nat.lt_irrefl _ hname, fun ⟨hctx, hoff⟩ => ?_⟩
  · rcases h with hsent | hne
    · exact Nat.ne_of_gt hsent hname
    · exact hne (List.length_eq_zero_iff.mp hctx)
  · have hne : req.createContext ≠ [] := fun hnil => by
      unfold CreateArgs.received at hctx
      rw [hnil] at hctx
      exact Nat.lt_irrefl 0 hctx
    exact Nat.not_lt_of_le (contextOffset_eq hne hlen).1 hoff

/-- How much a server reads: the name, or the padded name and the contexts. -/
theorem received_extent (hlen : nameLength < 256 ^ 2) :
    (req.received nameLength sent).extent = if req.createContext = [] then (sent : Int)
      else (sub32 (req.contextOffset nameLength) (HEADER_SIZE + 56) : Nat) + req.createContext.length := by
  have hextent := (req.received nameLength sent).extent_cases
  have hheader : HEADER_SIZE = 64 := rfl
  have hno : (req.received nameLength sent).nameOffset = HEADER_SIZE + 56 := rfl
  have hnl : (req.received nameLength sent).nameLength = sent := rfl
  have hco : (req.received nameLength sent).createContextOffset = req.contextOffset nameLength := rfl
  have hcl : (req.received nameLength sent).createContextLength = req.createContext.length := rfl
  rw [hno, hnl, hco, hcl] at hextent
  split
  · rename_i hnil
    have hzero : req.contextOffset nameLength = 0 := by
      unfold CreateArgs.contextOffset
      rw [hnil]
      rfl
    have hlength : req.createContext.length = 0 := by
      rw [hnil]
      rfl
    omega
  · rename_i hne
    obtain ⟨hle, hoff⟩ := contextOffset_eq hne hlen
    rw [sub32_of_le hle] at hoff ⊢
    split at hoff <;> omega

theorem textAt_append {name : Bytes} (heven : name.length % 2 = 0) (rest : Bytes) :
    (textAt (name ++ rest) 0 name.length).octets = textOctets name := by
  have hlen : name.length / 2 * 2 = name.length := by omega
  unfold textAt textOctets
  rw [hlen, slice_append_left (by omega), slice_zero (Nat.le_refl _)]

section
variable {name : Bytes} {gap : Nat}

/-- What is found behind a fixed part that says where it is. -/
theorem names_of_front (heven : name.length % 2 = 0) (hlen : nameLength < 256 ^ 2)
    (hgap : req.createContext ≠ [] →
      name.length + gap = sub32 (req.contextOffset nameLength) (HEADER_SIZE + 56)) :
    nameOctets ((req.received nameLength name.length).names
        (name ++ (zeros gap ++ req.createContext))).name = textOctets name ∧
      ((req.received nameLength name.length).names
        (name ++ (zeros gap ++ req.createContext))).createContext.getD [] = req.createContext := by
  constructor
  · by_cases hempty : 0 < name.length
    · have hsome : ((req.received nameLength name.length).names (name ++ (zeros gap ++
          req.createContext))).name = some (textAt (name ++ (zeros gap ++ req.createContext)) 0
            name.length) := if_pos hempty
      rw [hsome]
      exact textAt_append heven _
    · have hnone : ((req.received nameLength name.length).names (name ++ (zeros gap ++
          req.createContext))).name = none := if_neg hempty
      have hnil : name = [] := List.length_eq_zero_iff.mp (by omega)
      rw [hnone, hnil]
      rfl
  · by_cases hne : req.createContext = []
    · have hnone : ((req.received nameLength name.length).names (name ++ (zeros gap ++
          req.createContext))).createContext = none := by
        refine if_neg fun hctx => hctx.1 ?_
        unfold CreateArgs.received
        rw [hne]
        rfl
      rw [hnone, hne]
      rfl
    · obtain ⟨hoff, -⟩ := contextOffset_eq hne hlen
      have hcl : req.createContext.length ≠ 0 := fun hcl => hne (List.length_eq_zero_iff.mp hcl)
      have hsome : ((req.received nameLength name.length).names (name ++ (zeros gap ++
          req.createContext))).createContext = some (slice (name ++ (zeros gap ++ req.createContext))
            (sub32 (req.contextOffset nameLength) (HEADER_SIZE + 56)) req.createContext.length) :=
        if_pos ⟨hcl, fun hzero => by
          have hzero : req.contextOffset nameLength = 0 := hzero
          have hheader : HEADER_SIZE = 64 := rfl
          omega⟩
      have hfront : (name ++ zeros gap).length = name.length + gap := by
        rw [List.length_append, length_zeros]
      rw [hsome, ← hgap hne, ← List.append_assoc, slice_append_right (by omega), hfront, Nat.sub_self,
        slice_zero (Nat.le_refl _)]
      rfl

/-- A request comes back if what is read of it begins with its name and ends with its contexts. -/
theorem returns_of_front {k : Nat} (hf : req.Fits) (hlen : nameLength < 256 ^ 2)
    (hsent : name.length < 256 ^ 2) (heven : name.length % 2 = 0)
    (hcmd : cmdCreateRequest req = some (sentFixed req nameLength name.length ++
      (name ++ (zeros gap ++ req.createContext) ++ zeros k)))
    (hsome : 0 < name.length ∨ req.createContext ≠ [])
    (hgap : req.createContext ≠ [] →
      name.length + gap = sub32 (req.contextOffset nameLength) (HEADER_SIZE + 56))
    (hnone : req.createContext = [] → gap = 0)
    (hsmall : name.length + gap + req.createContext.length < 2 ^ 31) (hk : k ≤ 8)
    (htext : textOctets name = nameOctets (req.name.map backslashed)) : req.ComesBack := by
  have hfront : (name ++ (zeros gap ++ req.createContext)).length =
      name.length + gap + req.createContext.length := by
    rw [List.length_append, List.length_append, length_zeros, Nat.add_assoc]
  have hpos : 0 < name.length + gap + req.createContext.length := by
    rcases hsome with hname | hne
    · omega
    · have := List.length_pos_of_ne_nil hne
      omega
  have hextent : (req.received nameLength name.length).extent =
      (name.length + gap + req.createContext.length : Nat) := by
    rw [received_extent hlen]
    split
    · rename_i hnil
      rw [hnone hnil, hnil]
      rfl
    · rename_i hne
      rw [← hgap hne, ← Nat.cast_add]
  have hwithin : (req.received nameLength name.length).Within
      (name.length + gap + req.createContext.length) := by
    refine ⟨?_, fun hcl _ => ?_⟩
    · show name.length / 2 * 2 ≤ _
      omega
    · have hne : req.createContext ≠ [] := fun hnil => hcl (List.length_eq_zero_iff.mpr hnil)
      show sub32 (req.contextOffset nameLength) (HEADER_SIZE + 56) + req.createContext.length ≤ _
      rw [← hgap hne]
  obtain ⟨hfixed, hdecode⟩ := decodeCreateRequest_of_pos hf hsent (received_taken hlen hsome) hextent
    hpos hsmall (show _ ≤ (name ++ (zeros gap ++ req.createContext) ++ zeros k).length from by
      rw [List.length_append, hfront]; exact Nat.le_add_right _ _) hwithin
  obtain ⟨hname, hctx⟩ := names_of_front heven hlen hgap
  rw [List.take_left' hfront] at hdecode
  refine ⟨_, (name.length + gap + req.createContext.length : Nat), _, hcmd, ?_, hdecode, ?_, ?_⟩
  · rw [List.take_left' (length_sentFixed req nameLength name.length)]
    exact hfixed
  · exact ⟨rfl, rfl, rfl, rfl, rfl, rfl, rfl, rfl, rfl, hname.trans htext, hctx⟩
  · refine ⟨name, gap, k, ?_, ?_, hk, htext, hnone⟩
    · rw [List.drop_left' (length_sentFixed req nameLength name.length)]
      simp only [List.append_assoc]
    · rw [List.append_assoc, hfront]

end

/-- A request with a name comes back. -/
theorem comesBack_units {us : List Nat} (hf : req.Fits) (ha : req.Accepted)
    (hname : Name.ofString req.name = .units us)
    (hplain : req.createContext = [] ∨ padTo64 (2 * us.length) + req.createContext.length < 2 ^ 31) :
    req.ComesBack := by
  obtain ⟨k, hk, hmod, hcmd⟩ := cmdCreateRequest_units hf ha hname
  obtain ⟨s, hs, htrans, hpos⟩ := Name.ofString_units hname
  have hshort := hf.name us hname
  have hoctets : (utf16Octets (backslashes us)).length = 2 * us.length := by
    rw [length_utf16Octets, backslashes, List.length_map]
  have htext : textOctets (utf16Octets (backslashes us)) =
      nameOctets (req.name.map backslashed) := by
    rw [hs]
    exact ofBytes_backslashes htrans
  have hpad : padTo64 (2 * us.length) = (2 * us.length + 7) / 8 * 8 := by
    unfold padTo64
    omega
  have heven : (utf16Octets (backslashes us)).length % 2 = 0 := by
    rw [hoctets]
    omega
  rw [← hoctets] at hshort
  by_cases hnil : req.createContext = []
  · have hk0 : k = 0 := by
      rw [hnil, List.length_nil] at hmod
      omega
    have hsent : cmdCreateRequest req = some (sentFixed req (2 * us.length)
        (utf16Octets (backslashes us)).length ++ (utf16Octets (backslashes us) ++
          (zeros 0 ++ req.createContext) ++ zeros (padTo64 (2 * us.length) - 2 * us.length))) := by
      rw [hcmd, padBuffer, hoctets, hnil, hk0]
      simp [zeros]
    refine returns_of_front hf (by omega) hshort heven hsent (.inl (by omega)) (absurd hnil) ?_ ?_ ?_
      htext
    · exact fun _ => rfl
    · rw [hnil, List.length_nil]
      omega
    · omega
  · have hsmall := hplain.resolve_left hnil
    have hsent : cmdCreateRequest req = some (sentFixed req (2 * us.length)
        (utf16Octets (backslashes us)).length ++ (utf16Octets (backslashes us) ++
          (zeros (padTo64 (2 * us.length) - 2 * us.length) ++ req.createContext) ++ zeros k)) := by
      rw [hcmd, padBuffer, hoctets]
      simp only [List.append_assoc]
    refine returns_of_front hf (by omega) hshort heven hsent (.inl (by omega)) ?_ (fun h => absurd h hnil)
      ?_ (by omega) htext
    · intro hne
      have hoff := (contextOffset_eq hne (show 2 * us.length < 256 ^ 2 by omega)).2
      rw [hoff, if_neg (by omega)]
      omega
    · omega

/-- A request without a name comes back, if nothing keeps its contexts from the first eight
octets behind the fixed part. -/
theorem comesBack_absent (hf : req.Fits) (ha : req.Accepted)
    (hname : Name.ofString req.name = .absent)
    (hplain : req.createContext = [] ∨
      req.nameLength ≤ 8 ∧ 8 + req.createContext.length < 2 ^ 31) : req.ComesBack := by
  obtain ⟨k, hk, hmod, hcmd⟩ := cmdCreateRequest_absent hf ha hname
  have htext : textOctets [] = nameOctets (req.name.map backslashed) :=
    (Name.ofString_absent hname).symm
  by_cases hnil : req.createContext = []
  · have hk0 : k = 0 := by
      rw [hnil, List.length_nil] at hmod
      omega
    have hfixed : processCreateRequestFixed (sentFixed req req.nameLength 0) =
        some (0, req.received req.nameLength 0) := by
      have hcl : (req.received req.nameLength 0).createContextLength = 0 := by
        unfold CreateArgs.received
        rw [hnil]
        rfl
      unfold processCreateRequestFixed sentFixed
      rw [createFields_sent hf (by decide)]
      exact if_pos ⟨hcl, rfl⟩
    refine ⟨_, 0, _, hcmd, ?_, decodeBody_of_zero (length_sentFixed req req.nameLength 0) hfixed,
      ⟨rfl, rfl, rfl, rfl, rfl, rfl, rfl, rfl, rfl, htext, hnil.symm⟩, [], 0, 8, ?_, ?_, Nat.le_refl 8,
      htext, fun _ => rfl⟩
    · rw [List.take_left' (length_sentFixed req req.nameLength 0)]
      exact hfixed
    · rw [List.drop_left' (length_sentFixed req req.nameLength 0), hnil, hk0]
      rfl
    · rw [hnil]
      rfl
  · obtain ⟨hlen, hsmall⟩ := hplain.resolve_left hnil
    have hsent : cmdCreateRequest req = some (sentFixed req req.nameLength ([] : Bytes).length ++
        ([] ++ (zeros 8 ++ req.createContext) ++ zeros k)) := by
      rw [hcmd, List.length_nil, List.nil_append, List.append_assoc]
    refine returns_of_front hf hf.nameLength (by decide) rfl hsent (.inr hnil) ?_
      (fun h => absurd h hnil) ?_ (by omega) htext
    · intro hne
      rw [(contextOffset_eq hne hf.nameLength).2, List.length_nil]
      split <;> omega
    · rw [List.length_nil]
      omega

/-- **A CREATE request comes back exactly if it is plain.** -/
theorem create_request_returns_iff (req : CreateArgs) :
    CreateReturns req ↔ (req.Fits → req.Accepted → req.Plain) := by
  constructor
  · intro hreturns hf ha
    by_cases hnil : req.createContext = []
    · exact .inl hnil
    refine .inr ?_
    cases hname : Name.ofString req.name with
    | invalid => exact absurd hname ha.name
    | absent =>
      obtain ⟨k, hk, hmod, hcmd⟩ := cmdCreateRequest_absent hf ha hname
      obtain ⟨body, n, r, hbody, -, hdecode, hr, -⟩ := hreturns hf (by rw [hcmd]; simp)
      rw [hcmd, Option.some.injEq] at hbody
      subst hbody
      obtain ⟨hrest, hsmall⟩ := decodeCreateRequest_eq_some hf hf.nameLength (by decide) hnil hdecode hr
      have hoff := (contextOffset_eq hnil hf.nameLength).2
      rw [List.length_append, List.length_append, length_zeros, length_zeros] at hrest
      unfold CreateArgs.paddedName
      rw [hname]
      simp only
      split at hoff <;> exact ⟨fun _ => by omega, by omega⟩
    | units us =>
      obtain ⟨k, hk, hmod, hcmd⟩ := cmdCreateRequest_units hf ha hname
      obtain ⟨s, -, -, hpos⟩ := Name.ofString_units hname
      have hshort := hf.name us hname
      obtain ⟨body, n, r, hbody, -, hdecode, hr, -⟩ := hreturns hf (by rw [hcmd]; simp)
      rw [hcmd, Option.some.injEq] at hbody
      subst hbody
      obtain ⟨-, hsmall⟩ := decodeCreateRequest_eq_some hf hshort hshort hnil hdecode hr
      have hoff := (contextOffset_eq hnil hshort).2
      rw [if_neg (by omega)] at hoff
      have hpad : padTo64 (2 * us.length) = (2 * us.length + 7) / 8 * 8 := by
        unfold padTo64
        omega
      unfold CreateArgs.paddedName
      rw [hname]
      exact ⟨nofun, by simp only; omega⟩
  · intro hplain hf hsent
    have ha : req.Accepted := by
      by_contra ha
      exact hsent (cmdCreateRequest_refused ha)
    have hplain := hplain hf ha
    unfold CreateArgs.Plain CreateArgs.paddedName at hplain
    cases hname : Name.ofString req.name with
    | invalid => exact absurd hname ha.name
    | absent =>
      rw [hname] at hplain
      exact comesBack_absent hf ha hname (hplain.imp_right fun h => ⟨h.1 rfl, h.2⟩)
    | units us =>
      rw [hname] at hplain
      exact comesBack_units hf ha hname (hplain.imp_right fun h => h.2)

/-- One octet of contexts and no name, in a structure whose last request had a name of sixteen
octets. -/
def reusedRequest : CreateArgs where
  nameLength := 16
  createContext := [1]

/-- The contexts are said to begin behind sixteen octets, and do so behind eight. -/
theorem a_reused_request_does_not_return :
    reusedRequest.Fits ∧ reusedRequest.Accepted ∧ ¬ CreateReturns reusedRequest := by
  have hf : reusedRequest.Fits := by
    constructor <;> first | decide | exact nofun
  have ha : reusedRequest.Accepted := ⟨nofun, .inr (by decide)⟩
  refine ⟨hf, ha, fun hreturns => ?_⟩
  obtain ⟨body, hbody⟩ : ∃ body, cmdCreateRequest reusedRequest = some body := ⟨_, rfl⟩
  obtain ⟨body', n, r, hbody', -, hdecode, -⟩ := hreturns hf (by rw [hbody]; simp)
  have hnone : (cmdCreateRequest reusedRequest).map decodeCreateRequest = some (.ok none) := by
    decide +kernel
  rw [hbody', Option.map_some, hdecode] at hnone
  cases hnone

end

end Libsmb2
