import Libsmb2.QueryInfo.Encoded
import Libsmb2.QueryInfo.OutputBuffer

/-!
# A QUERY_INFO reply, there and back

What a server encodes with `smb2_encode_query_info_reply` and a client takes apart with
`smb2_process_query_info_fixed` and `smb2_process_query_info_variable`.

* `returned_eq_some_iff` — which information its decoder takes for what it is;
* `decodeQueryInfoReply_encoded` — a reply is decoded to what its decoder makes of it;
* `information_returns_iff` — which information comes back as it was.
-/

set_option autoImplicit false

namespace Libsmb2.QueryInfo

open Util
open PathOps (QueryInfoReply QUERY_INFO_REPLY_SIZE fieldOf processQueryInfoFixed)

/-! ## What comes back as it was -/

def FileBasicInfo.times (fs : FileBasicInfo) : List Timeval :=
  [fs.creationTime, fs.lastAccessTime, fs.lastWriteTime, fs.changeTime]

def Info.times : Info → List Timeval
  | .basic fs => fs.times
  | .all fs => fs.basic.times
  | .networkOpen fs => [fs.creationTime, fs.lastAccessTime, fs.lastWriteTime, fs.changeTime]
  | .fsVolume fs => [fs.creationTime]
  | _ => []

/-- The length that goes with a name is the one that is sent, the name is not empty where none is
meant by that, that of a file system has four code units, and there is no control information. -/
def Info.Named : Info → Prop
  | .all fs => fs.name = none ∨ unitsOf fs.name ≠ []
  | .normalizedName fs =>
    if fs.name = none then fs.fileNameLength.toNat = 0
    else 0 < fs.fileNameLength.toNat ∧ 2 * (unitsOf fs.name).length ≤ fs.fileNameLength.toNat
  | .fsVolume fs => fs.volumeLabelLength.toNat = 2 * (unitsOf fs.volumeLabel).length
  | .fsAttribute fs =>
    4 ≤ (unitsOf fs.filesystemName).length ∧ fs.filesystemNameLength.toNat = 0
  | .fsControl _ => False
  | _ => True

/-- All of it can be told from what is sent. -/
def Info.Keeps (i : Info) : Prop := (∀ tv ∈ i.times, Short tv) ∧ i.Named

section
variable {size : Nat}

theorem Modern.comes_back_iff {tv : Timeval} (h : Modern tv) :
    winToTimeval (Libsmb2.tvTimevalToWin tv) = tv ↔ Short tv := by
  rw [h.tvTimevalToWin]
  exact h.returns_iff

theorem FileBasicInfo.returned_eq_iff {fs : FileBasicInfo} (h : ∀ tv ∈ fs.times, Modern tv) :
    fs.returned = fs ↔ ∀ tv ∈ fs.times, Short tv := by
  unfold FileBasicInfo.times at h ⊢
  simp only [List.forall_mem_cons, List.not_mem_nil, false_imp_iff, implies_true, and_true] at h ⊢
  obtain ⟨hcreation, haccess, hwrite, hchange⟩ := h
  rw [← hcreation.comes_back_iff, ← haccess.comes_back_iff, ← hwrite.comes_back_iff,
    ← hchange.comes_back_iff]
  cases fs
  simp [FileBasicInfo.returned]

theorem FileNetworkOpenInfo.returned_eq_iff {fs : FileNetworkOpenInfo}
    (h : ∀ tv ∈ (Info.networkOpen fs).times, Modern tv) :
    fs.returned = fs ↔ ∀ tv ∈ (Info.networkOpen fs).times, Short tv := by
  unfold Info.times at h ⊢
  simp only [List.forall_mem_cons, List.not_mem_nil, false_imp_iff, implies_true, and_true] at h ⊢
  obtain ⟨hcreation, haccess, hwrite, hchange⟩ := h
  rw [← hcreation.comes_back_iff, ← haccess.comes_back_iff, ← hwrite.comes_back_iff,
    ← hchange.comes_back_iff]
  cases fs
  simp [FileNetworkOpenInfo.returned]

theorem FileAllInfo.returned_eq_iff {fs : FileAllInfo} (h : ∀ tv ∈ fs.basic.times, Modern tv) :
    fs.returned = fs ↔ (∀ tv ∈ fs.basic.times, Short tv) ∧ (Info.all fs).Named := by
  have hname : (if unitsOf fs.name = [] then none else fs.name) = fs.name ↔
      (Info.all fs).Named := by
    unfold Info.Named
    simp only
    by_cases hnil : unitsOf fs.name = []
    · rw [if_pos hnil, or_iff_left (not_not.mpr hnil)]
      exact eq_comm
    · rw [if_neg hnil]
      exact iff_of_true rfl (.inr hnil)
  rw [← FileBasicInfo.returned_eq_iff h, ← hname]
  cases fs
  simp [FileAllInfo.returned]

theorem ofNat_eq_iff {n : Nat} {x : UInt32} (hn : n < 2 ^ 32) : UInt32.ofNat n = x ↔ n = x.toNat := by
  rw [← UInt32.toNat_inj, UInt32.toNat_ofNat_of_lt' hn]

theorem FileNameInfo.returned_eq_iff {fs : FileNameInfo} (hsize : size < 2 ^ 31)
    (hadmitted : (Info.normalizedName fs).Admitted size) :
    fs.returned = fs ↔ (Info.normalizedName fs).Named := by
  have hlt := FileNameInfo.sentLength_lt hsize hadmitted
  have hlen : UInt32.ofNat fs.sentLength = fs.fileNameLength ↔
      fs.sentLength = fs.fileNameLength.toNat := ofNat_eq_iff (by omega)
  have hboth : fs.returned = fs ↔ fs.sentLength = fs.fileNameLength.toNat ∧
      (if fs.sentLength = 0 then none else fs.name) = fs.name := by
    rw [← hlen]
    cases fs
    simp [FileNameInfo.returned]
  rw [hboth]
  unfold Info.Named
  simp only
  by_cases hnone : fs.name = none
  · rw [show fs.sentLength = 0 from if_pos hnone, if_pos rfl, if_pos hnone, hnone, and_iff_left rfl]
    exact eq_comm
  · rw [if_neg hnone]
    have hsent : fs.sentLength = max fs.fileNameLength.toNat (2 * (unitsOf fs.name).length) :=
      if_neg hnone
    by_cases hzero : fs.sentLength = 0
    · rw [if_pos hzero]
      refine iff_of_false (fun h => hnone h.2.symm) ?_
      omega
    · rw [if_neg hzero, and_iff_left rfl]
      omega

theorem FsVolumeInfo.returned_eq_iff {fs : FsVolumeInfo} (hsize : size < 2 ^ 31)
    (hadmitted : (Info.fsVolume fs).Admitted size) (h : Modern fs.creationTime) :
    fs.returned = fs ↔ Short fs.creationTime ∧ (Info.fsVolume fs).Named := by
  have hsmall := Info.Admitted.units_lt hsize hadmitted.2
  have hlen : UInt32.ofNat (2 * (unitsOf fs.volumeLabel).length) = fs.volumeLabelLength ↔
      (Info.fsVolume fs).Named := by
    rw [ofNat_eq_iff hsmall]
    exact eq_comm
  rw [← h.returns_iff, ← hlen]
  cases fs
  simp [FsVolumeInfo.returned]

theorem FsAttributeInfo.returned_eq_iff {fs : FsAttributeInfo} :
    fs.returned = some fs ↔ (Info.fsAttribute fs).Named := by
  unfold FsAttributeInfo.returned Info.Named
  simp only
  split
  · refine iff_of_false (fun h => by cases h) ?_
    omega
  · rename_i hlong
    have hlen : (0 : UInt32) = fs.filesystemNameLength ↔ fs.filesystemNameLength.toNat = 0 := by
      rw [← UInt32.toNat_inj, UInt32.toNat_zero]
      exact eq_comm
    rw [and_iff_right (by omega), ← hlen]
    cases fs
    simp

/-- **Which information its decoder takes for what it is.** -/
theorem returned_eq_some_iff {i : Info} (hsize : size < 2 ^ 31) (hadmitted : i.Admitted size)
    (h : ∀ tv ∈ i.times, Modern tv) : i.returned = some i ↔ i.Keeps := by
  have htrivial : (∀ tv ∈ ([] : List Timeval), Short tv) ∧ True :=
    ⟨fun tv htv => absurd htv List.not_mem_nil, trivial⟩
  unfold Info.Keeps
  cases i with
  | basic fs =>
    show _ ↔ (∀ tv ∈ fs.times, Short tv) ∧ True
    rw [and_true, ← FileBasicInfo.returned_eq_iff h]
    simp [Info.returned]
  | all fs =>
    show _ ↔ (∀ tv ∈ fs.basic.times, Short tv) ∧ _
    rw [← FileAllInfo.returned_eq_iff h]
    simp [Info.returned]
  | networkOpen fs =>
    show _ ↔ _ ∧ True
    rw [and_true, ← FileNetworkOpenInfo.returned_eq_iff h]
    simp [Info.returned]
  | normalizedName fs =>
    show _ ↔ (∀ tv ∈ ([] : List Timeval), Short tv) ∧ _
    rw [and_iff_right htrivial.1, ← FileNameInfo.returned_eq_iff hsize hadmitted]
    simp [Info.returned]
  | fsVolume fs =>
    show _ ↔ (∀ tv ∈ [fs.creationTime], Short tv) ∧ _
    rw [List.forall_mem_singleton,
      ← FsVolumeInfo.returned_eq_iff hsize hadmitted (h _ List.mem_cons_self)]
    simp [Info.returned]
  | fsAttribute fs =>
    show _ ↔ (∀ tv ∈ ([] : List Timeval), Short tv) ∧ _
    rw [and_iff_right htrivial.1, ← FsAttributeInfo.returned_eq_iff]
    simp [Info.returned]
  | fsControl fs => exact iff_of_false (fun h => by cases h) fun h => h.2
  | _ => exact iff_of_true rfl htrivial

end

/-! ## The reply -/

/-- `smb2_process_query_info_variable`, for a class that has a decoder. -/
def processQueryInfoVariable (c : InfoClass) (t : Nat) (rep : QueryInfoReply Bytes) (iov : Bytes) :
    Except Overrun (Option Info) :=
  decodeInfo c t ((Window.whole iov).skip
    (rep.outputBufferOffset - HEADER_SIZE - (QUERY_INFO_REPLY_SIZE - 1)))

/-- What the client makes of the octets behind the header of a reply.  `t` is what its stack holds,
`spl` the length of the message and `nextCommand` that of the header. -/
def decodeQueryInfoReply (c : InfoClass) (t spl nextCommand : Nat) (body : Bytes) :
    Except Overrun (Option (QueryInfoReply Bytes × Option Info)) :=
  decodeBody 8 (queryInfoFixed spl nextCommand) (processQueryInfoVariable c t) body

/-- The octets behind the header; those of the block that nobody has written are `junk`. -/
def EncodedReply.octets (e : EncodedReply) (junk : Nat → UInt8) : Bytes :=
  e.fixed ++ (e.output.map fun v => v.1.octets junk v.2).getD []

/-- The reply that is sent where all of an encoding is. -/
def wholeReply (size : Nat) (e : Encoding) (s : Nat) : EncodedReply :=
  ⟨replyFixed (HEADER_SIZE + 8) s, some (e.stores.foldl Store.apply (.fresh size), padTo64 s), false⟩

/-- The information that is handed over, where there is an encoder. -/
def Output.information {cd : Coding} : Output cd → Option Info
  | .info i _ => some i
  | _ => none

/-- Information that is encoded whole: what it is made of is valid and has room in the block and
under the length of the request, and its times are from 1970 on and not the reserved zero. -/
structure Offered (requested size : Nat) (i : Info) : Prop where
  admitted : i.Admitted size
  room : i.encodedSize ≤ size
  requested : i.encodedSize ≤ requested
  times : ∀ tv ∈ i.times, Modern tv

section
variable {passthrough : Bool} {requested length size : Nat} {memory : Memory} {i : Info}

/-- The reply to a request that has room for all of it. -/
theorem encodeOutput_offered (hoffered : Offered requested size i) {cd : Coding} {output : Output cd}
    (hinfo : output.information = some i) {e : Encoding} (he : encodeInfo size i = .ok e)
    (hlays : Lays size e i.encodedSize) :
    encodeOutput passthrough requested length size output memory =
      .ok (some (wholeReply size e i.encodedSize)) := by
  have hpos := hlays.pos
  have hle := hoffered.requested
  cases output with
  | info i' h =>
    obtain rfl := Option.some.inj hinfo
    have henc : (Output.info i' h).encode size = .ok e := he
    rw [encodeOutput_of_ne (fun h => by cases h) henc hlays.fits, hlays.ret, Option.getD_some,
      finishOutput_of_ne (by omega), min_eq_left hle, decide_eq_false (by omega)]
    rfl
  | streams first rest => cases hinfo
  | uncoded => cases hinfo
  | unknown => cases hinfo

/-- The fixed part of the reply is accepted. -/
theorem queryInfoFixed_replyFixed {s spl nextCommand : Nat} (hpos : 0 < s) (hs : s < 2 ^ 31)
    (hspl : HEADER_SIZE + 8 + s ≤ spl) (hnext : nextCommand = 0 ∨ HEADER_SIZE + 8 + s ≤ nextCommand) :
    queryInfoFixed spl nextCommand (replyFixed (HEADER_SIZE + 8) s) =
      some ((s : Int), ⟨HEADER_SIZE + 8, s, none⟩) := by
  have hsize : fieldOf 2 (replyFixed (HEADER_SIZE + 8) s) 0 = QUERY_INFO_REPLY_SIZE := rfl
  have hoffset : fieldOf 2 (replyFixed (HEADER_SIZE + 8) s) 2 = 72 := rfl
  have hlength : fieldOf 4 (replyFixed (HEADER_SIZE + 8) s) 4 = s := by
    have hget : fieldOf 4 (replyFixed (HEADER_SIZE + 8) s) 4 =
        fromLe (slice (replyFixed (HEADER_SIZE + 8) s) 4 4) := rfl
    rw [hget, replyFixed_length, Nat.mod_eq_of_lt (by omega)]
  have hlen : (replyFixed (HEADER_SIZE + 8) s).length = QUERY_INFO_REPLY_SIZE - 1 := rfl
  have hheader : HEADER_SIZE = 64 := rfl
  have hreply : QUERY_INFO_REPLY_SIZE = 9 := rfl
  have hsum : (72 + s) % 4294967296 = 72 + s := by omega
  have hrun : processQueryInfoFixed (α := Bytes) spl nextCommand (replyFixed (HEADER_SIZE + 8) s) =
      some (⟨72, s, none⟩, s) := by
    unfold processQueryInfoFixed
    rw [hsize, hlen, hoffset, hlength]
    simp only
    rw [hsum, if_neg (by simp), if_neg (by omega), if_neg (by omega), if_neg (by omega),
      if_neg (by omega), if_neg (by omega), hheader, hreply]
    simp
  unfold queryInfoFixed
  rw [hrun]
  show some (toInt32 s, _) = _
  rw [toInt32_eq (by omega), Int.emod_eq_of_lt (by omega) (by omega)]
  rfl

theorem le_padTo64 {n : Nat} (h : n < 2 ^ 31) : n ≤ padTo64 n := by
  unfold padTo64
  omega

theorem octets_take {b : Block} (junk : Nat → UInt8) {m n : Nat} (h : m ≤ n) :
    (b.octets junk n).take m = b.octets junk m := by
  unfold Block.octets
  rw [← List.map_take, List.take_range, min_eq_left h]

theorem skip_zero (iov : Bytes) : (Window.whole iov).skip 0 = .whole iov := by
  unfold Window.skip
  rw [Window.whole_len, sub64_of_le (Nat.zero_le _)]
  rfl

theorem length_wholeReply (e : Encoding) (s : Nat) (junk : Nat → UInt8) :
    ((wholeReply size e s).octets junk).length = 8 + padTo64 s := by
  show (replyFixed (HEADER_SIZE + 8) s ++ Block.octets _ junk (padTo64 s)).length = _
  rw [List.length_append, Block.length_octets]
  rfl

/-- **A reply is decoded to what its decoder makes of it.** -/
theorem decodeQueryInfoReply_encoded (hsize : size < 2 ^ 31) (hoffered : Offered requested size i)
    {e : Encoding} (he : encodeInfo size i = .ok e) (hlays : Lays size e i.encodedSize)
    {junk : Nat → UInt8} (t : Nat) {spl nextCommand : Nat}
    (hspl : HEADER_SIZE + ((wholeReply size e i.encodedSize).octets junk).length ≤ spl)
    (hnext : nextCommand = 0 ∨
      HEADER_SIZE + ((wholeReply size e i.encodedSize).octets junk).length ≤ nextCommand) :
    decodeQueryInfoReply i.infoClass t spl nextCommand
      ((wholeReply size e i.encodedSize).octets junk) =
        .ok (i.returned.map fun i' => (⟨HEADER_SIZE + 8, i.encodedSize, none⟩, some i')) := by
  have hroom := hoffered.room
  have hpad := le_padTo64 (Nat.lt_of_le_of_lt hroom hsize)
  have hholds := hlays.holds (encodeInfo_apart he) hroom junk
  have hlen : (replyFixed (HEADER_SIZE + 8) i.encodedSize).length = 8 := rfl
  rw [length_wholeReply] at hspl hnext
  show decodeBody 8 _ _ (replyFixed (HEADER_SIZE + 8) i.encodedSize ++ Block.octets _ junk _) = _
  rw [decodeBody_of_pos hlen (queryInfoFixed_replyFixed hlays.pos (by omega) (by omega) (by omega))
    hlays.pos (by rw [Block.length_octets]; exact hpad), octets_take junk hpad]
  show (decodeInfo i.infoClass t ((Window.whole _).skip 0)).map _ = _
  rw [skip_zero, decodeInfo_encoded hsize hoffered.admitted he (Block.length_octets _ _ _) hholds]
  cases i.returned <;> rfl

end

/-! ## There and back -/

section
variable (passthrough : Bool) (req : QueryInfoRequest)
  (rep : ReplyArgs (coding req.infoType req.fileInfoClass))

/-- Information is encoded without failure, and decoded to the same information, whatever is in the
octets that nobody has written, in the last message of a chain or before others. -/
def Returns (i : Info) : Prop :=
  ∃ e, encodeQueryInfoReply passthrough req rep = .ok (some e) ∧ ∀ junk t spl nextCommand,
    HEADER_SIZE + (e.octets junk).length ≤ spl →
      (nextCommand = 0 ∨ HEADER_SIZE + (e.octets junk).length ≤ nextCommand) →
        ∃ r, decodeQueryInfoReply i.infoClass t spl nextCommand (e.octets junk) =
          .ok (some (r, some i))

/-- **Information comes back as it was exactly if all of it can be told from what is sent.** -/
theorem information_returns_iff {output : Output (coding req.infoType req.fileInfoClass)}
    {memory : Memory} {i : Info} {size : Nat} (hbuffer : rep.outputBuffer = some (output, memory))
    (hinfo : output.information = some i) (hlength : rep.outputBufferLength.toNat ≠ 0)
    (halloc : allocOutput rep.outputBufferLength = some size)
    (hoffered : Offered req.outputBufferLength size i) :
    Returns passthrough req rep i ↔ i.Keeps := by
  obtain ⟨hsize, -⟩ := allocOutput_some halloc
  obtain ⟨e, he, hlays⟩ := encodeInfo_lays hoffered.admitted
  have hrun : encodeQueryInfoReply passthrough req rep =
      .ok (some (wholeReply size e i.encodedSize)) := by
    unfold encodeQueryInfoReply
    simp only
    rw [hbuffer]
    simp only
    rw [if_neg hlength, halloc]
    exact encodeOutput_offered hoffered hinfo he hlays
  rw [← returned_eq_some_iff hsize hoffered.admitted hoffered.times]
  unfold Returns
  rw [hrun]
  constructor
  · rintro ⟨r, hr, hall⟩
    cases hr
    obtain ⟨reply, hreply⟩ := hall (fun _ => 0) 0 _ 0 le_rfl (.inl rfl)
    rw [decodeQueryInfoReply_encoded hsize hoffered he hlays 0 le_rfl (.inl rfl)] at hreply
    cases hi : i.returned with
    | none =>
      rw [hi] at hreply
      cases hreply
    | some i' =>
      rw [hi] at hreply
      cases hreply
      rfl
  · intro hkeeps
    refine ⟨_, rfl, fun junk t spl nextCommand hspl hnext => ?_⟩
    refine ⟨⟨HEADER_SIZE + 8, i.encodedSize, none⟩, ?_⟩
    rw [decodeQueryInfoReply_encoded hsize hoffered he hlays t hspl hnext, hkeeps]
    rfl

end

/-- A request for the attributes of a file system, of at most 65536 octets. -/
def attributeRequest : QueryInfoRequest where
  infoType := 2
  fileInfoClass := 5
  outputBufferLength := 65536
  inputBufferOffset := 0
  inputBufferLength := 0
  additionalInformation := 0
  flags := 0
  fileId := zeros 16

/-- A file system of this name. -/
def attributesOf (name : Bytes) : Info :=
  .fsAttribute ⟨3, 255, 0, some (.ofBytes name)⟩

def attributeReply (name : Bytes) :
    ReplyArgs (coding attributeRequest.infoType attributeRequest.fileInfoClass) :=
  ⟨24, some (.info (attributesOf name) rfl, fun _ => 0)⟩

/-- `NTFS` comes back. -/
theorem information_returns_iff_ntfs :
    Returns false attributeRequest (attributeReply [0x4e, 0x54, 0x46, 0x53])
      (attributesOf [0x4e, 0x54, 0x46, 0x53]) := by
  apply (information_returns_iff false attributeRequest (attributeReply [0x4e, 0x54, 0x46, 0x53])
    rfl rfl (by decide) (show allocOutput 24 = some 1048 by decide) ?_).mpr
  · refine ⟨fun tv htv => absurd htv List.not_mem_nil, ?_, rfl⟩
    decide
  · refine ⟨⟨by decide, rfl, .inr (by decide)⟩, by decide, by decide, ?_⟩
    exact fun tv htv => absurd htv List.not_mem_nil

/-- `FAT` does not: eighteen octets are sent. -/
theorem fat_does_not_return :
    Offered attributeRequest.outputBufferLength 1048 (attributesOf [0x46, 0x41, 0x54]) ∧
      ¬ Returns false attributeRequest (attributeReply [0x46, 0x41, 0x54])
        (attributesOf [0x46, 0x41, 0x54]) := by
  constructor
  · refine ⟨⟨by decide, rfl, .inr (by decide)⟩, by decide, by decide, ?_⟩
    exact fun tv htv => absurd htv List.not_mem_nil
  · rintro ⟨e, he, hall⟩
    have hrun : ((encodeQueryInfoReply false attributeRequest
        (attributeReply [0x46, 0x41, 0x54])).toOption.bind id).map (fun e =>
          ((e.octets fun _ => 0).length,
            (decodeQueryInfoReply .fsAttribute 0 96 0 (e.octets fun _ => 0)).toOption.map
              Option.isSome)) = some (32, some false) := by
      decide +kernel
    rw [he] at hrun
    obtain ⟨hlen, hnone⟩ := Prod.mk.inj (Option.some.inj hrun)
    obtain ⟨r, hr⟩ := hall (fun _ => 0) 0 96 0 (by rw [hlen]; decide) (.inl rfl)
    rw [show (attributesOf [0x46, 0x41, 0x54]).infoClass = .fsAttribute from rfl] at hr
    rw [hr] at hnone
    cases hnone

end Libsmb2.QueryInfo
