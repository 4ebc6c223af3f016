import Libsmb2.QueryInfo.StreamPlaces

/-!
# The output buffer of a QUERY_INFO reply

What is sent of the block that is allocated for the output.  What an encoder returns is compared
with zero as an unsigned number, the length is padded to eight octets that nobody has written, and
what there is no encoder for is sent as it is, or not at all, under the length that the application
has given.

* `outputStays_iff` — an output for which there may be an encoder;
* `reply_stays_in_its_buffer_iff` — when a reply stays in its buffer.
-/

set_option autoImplicit false

namespace Libsmb2.QueryInfo

open Util

/-! ## What is sent -/

/-- The length that is advertised is not more than what was asked for, and all that is sent of the
block is in it and was written. -/
structure Sent (requested : Nat) (e : EncodedReply) : Prop where
  length : fromLe (slice e.fixed 4 4) ≤ requested
  output : ∀ v ∈ e.output, v.1.Filled v.2

theorem replyFixed_length (offset n : Nat) :
    fromLe (slice (replyFixed offset n) 4 4) = n % 2 ^ 32 := by
  have hslice : slice (replyFixed offset n) 4 4 = le 4 n := by
    have hlen : (le 2 PathOps.QUERY_INFO_REPLY_SIZE ++ le 2 offset).length = 4 := by simp
    unfold replyFixed
    rw [slice_append_right hlen.le, hlen]
    exact slice_zero (length_le 4 n).le
  rw [hslice, fromLe_le]
  norm_num

/-- The block is `output_buffer_length + 1024` octets long, but for lengths close to 2^32. -/
theorem allocOutput_some {n : UInt32} {size : Nat} (h : allocOutput n = some size) :
    size < 2 ^ 31 ∧ (size = n.toNat + 1024 ∨ size + 2 ^ 32 = n.toNat + 1024) := by
  have hn : n.toNat < 2 ^ 32 := n.toNat_lt
  unfold allocOutput at h
  simp only at h
  split at h
  · cases h
  · rename_i hpos
    have hsize := Option.some.inj h
    unfold toInt32 at hpos hsize
    simp only at hpos hsize
    split at hpos <;> split at hpos <;> split at hsize <;> omega

section
variable {passthrough : Bool} {requested length size : Nat} {memory : Memory} {block : Block}
  {created : Nat}

theorem finishOutput_of_ne (h : created ≠ 0) :
    finishOutput passthrough requested length memory block created =
      .ok (some ⟨replyFixed (HEADER_SIZE + 8) (min created requested),
        some (block, padTo64 (min created requested)), decide (requested < created)⟩) := by
  have hmin : (if requested < created then requested else created) = min created requested := by
    split <;> omega
  unfold finishOutput
  rw [if_neg h]
  simp only [hmin]

theorem padTo64_room (hroom : length + 1024 = size) (hsize : size < 2 ^ 31) :
    length ≤ padTo64 length ∧ padTo64 length < length + 8 := by
  unfold padTo64
  omega

/-- What is handed through is copied and padded. -/
theorem finishOutput_passthrough (requested : Nat) (memory : Memory)
    (hroom : length + 1024 = size) (hsize : size < 2 ^ 31) (hblock : block.size = size) :
    ∃ block', finishOutput true requested length memory block 0 =
      .ok (some ⟨replyFixed (HEADER_SIZE + 8) length, some (block', padTo64 length), false⟩) ∧
        block'.Filled (padTo64 length) := by
  obtain ⟨hle, hlt⟩ := padTo64_room hroom hsize
  have hpad : sub32 (padTo64 length) length = padTo64 length - length := sub32_of_le hle
  let stores : List Store := [.copy 0 (memory.read length),
    .copy length (zeros (padTo64 length - length))]
  have hstores : ∀ st ∈ stores, st.Fits block.size := by
    intro st hst
    simp only [stores, List.mem_cons, List.not_mem_nil, or_false] at hst
    rcases hst with rfl | rfl
    · exact .inr (by rw [Memory.length_read]; omega)
    · exact .inr (by rw [length_zeros]; omega)
  have hrun := runStores_eq hstores
  refine ⟨stores.foldl Store.apply block, ?_, ?_⟩
  · unfold finishOutput
    rw [if_pos rfl, if_pos rfl, hpad, ← bind_assoc]
    have htwo : ((Store.copy 0 (memory.read length)).run block >>= fun b =>
        (Store.copy length (zeros (padTo64 length - length))).run b) = runStores block stores := by
      unfold runStores
      simp [stores, List.foldlM_cons, List.foldlM_nil]
    rw [htwo, hrun]
    rfl
  · refine ⟨by rw [size_foldl_apply]; omega, fun i hi => isSome_foldl_apply_iff.mpr (.inr ?_)⟩
    by_cases hlow : i < length
    · refine ⟨_, List.mem_cons_self, ?_⟩
      simp only [Store.Covers, Store.stop, Store.off, Store.bytes, Memory.length_read]
      omega
    · refine ⟨_, List.mem_cons_of_mem _ List.mem_cons_self, ?_⟩
      simp only [Store.Covers, Store.stop, Store.off, Store.bytes, length_zeros]
      omega

/-- What is handed through leaves a block that is shorter. -/
theorem finishOutput_overruns (hlength : length ≠ 0) (hlong : size < length)
    (hblock : block.size = size) :
    finishOutput true requested length memory block 0 = .error .write := by
  have hfits : ¬ (Store.copy 0 (memory.read length)).Fits block.size := by
    rintro (hnil | hin)
    · have hlen := congrArg List.length hnil
      rw [Memory.length_read, List.length_nil] at hlen
      exact hlength hlen
    · rw [Memory.length_read] at hin
      omega
  unfold finishOutput
  rw [if_pos rfl, if_pos rfl, Store.run_of_not_fits hfits]
  rfl

end

section
variable {cd : Coding}

/-- The encoder of the class fails. -/
def Fails (size : Nat) (output : Output cd) : Prop :=
  ∃ e, output.encode size = .ok e ∧ e.ret = none

/-- Nothing is written outside the block, a failure is one of the reply, and what is sent was
written. -/
def OutputStays (passthrough : Bool) (requested length size : Nat) (output : Output cd)
    (memory : Memory) : Prop :=
  ∃ r, encodeOutput passthrough requested length size output memory = .ok r ∧
    (Fails size output → r = none) ∧ ∀ e ∈ r, Sent requested e

/-- After the `switch`: either there is no encoding, and what there is for it is not longer than what
was asked for and than the block; or all of it that is sent is covered by the stores. -/
def Placed (passthrough : Bool) (requested length size : Nat) (e : Encoding) : Prop :=
  (∀ st ∈ e.stores, st.Fits size) ∧ ∃ s, e.ret = some s ∧
    if s = 0 then length ≤ requested ∧ (passthrough = true → length ≤ size)
    else padTo64 (min s requested) ≤ size ∧
      ∀ i < padTo64 (min s requested), ∃ st ∈ e.stores, st.Covers size i

section
variable {passthrough : Bool} {requested length size : Nat} {memory : Memory} {output : Output cd}

theorem encodeOutput_of_ne (hcd : cd ≠ .unknown) {e : Encoding}
    (he : output.encode size = .ok e) (hfits : ∀ st ∈ e.stores, st.Fits size) :
    encodeOutput passthrough requested length size output memory =
      finishOutput passthrough requested length memory
        (e.stores.foldl Store.apply (.fresh size)) (e.ret.getD (2 ^ 32 - 1)) := by
  have hrun : runStores (.fresh size) e.stores = .ok (e.stores.foldl Store.apply (.fresh size)) :=
    runStores_eq hfits
  unfold encodeOutput
  rw [if_neg hcd, he, ok_bind, hrun, ok_bind]

theorem sent_iff_of_filled (requested : Nat) {b : Block} {n : Nat} (hsmall : length < 2 ^ 32)
    (hfilled : b.Filled n) :
    (∀ r ∈ some (⟨replyFixed (HEADER_SIZE + 8) length, some (b, n), false⟩ : EncodedReply),
      Sent requested r) ↔ length ≤ requested := by
  constructor
  · intro h
    have hlen := (h _ rfl).length
    rwa [replyFixed_length, Nat.mod_eq_of_lt hsmall] at hlen
  · rintro h r hr
    cases hr
    refine ⟨?_, fun v hv => ?_⟩
    · rwa [replyFixed_length, Nat.mod_eq_of_lt hsmall]
    · cases hv
      exact hfilled

/-- What there is no encoding for. -/
theorem finishOutput_zero_iff {block : Block} {failed : Prop} (hlength : length ≠ 0)
    (hsmall : length < 2 ^ 32) (hsize : size < 2 ^ 31)
    (hroom : size = length + 1024 ∨ size + 2 ^ 32 = length + 1024) (hblock : block.size = size)
    (hnot : ¬ failed) :
    (∃ r, finishOutput passthrough requested length memory block 0 = .ok r ∧
      (failed → r = none) ∧ ∀ e ∈ r, Sent requested e) ↔
        length ≤ requested ∧ (passthrough = true → length ≤ size) := by
  cases passthrough with
  | false =>
    have hrun : finishOutput false requested length memory block 0 =
        .ok (some ⟨replyFixed (HEADER_SIZE + 8) length, some (block, 0), false⟩) := rfl
    have hfilled : block.Filled 0 := ⟨Nat.zero_le _, fun i hi => absurd hi (Nat.not_lt_zero i)⟩
    have hsent := sent_iff_of_filled requested hsmall hfilled
    rw [hrun]
    constructor
    · rintro ⟨r, hr, -, h⟩
      cases hr
      exact ⟨hsent.mp h, fun h => by cases h⟩
    · rintro ⟨h, -⟩
      exact ⟨_, rfl, fun h => absurd h hnot, hsent.mpr h⟩
  | true =>
    by_cases hfits : length ≤ size
    · obtain ⟨b, hrun, hfilled⟩ := finishOutput_passthrough requested memory
        (show length + 1024 = size by omega) hsize hblock
      have hsent := sent_iff_of_filled requested hsmall hfilled
      rw [hrun]
      constructor
      · rintro ⟨r, hr, -, h⟩
        cases hr
        exact ⟨hsent.mp h, fun _ => hfits⟩
      · rintro ⟨h, -⟩
        exact ⟨_, rfl, fun h => absurd h hnot, hsent.mpr h⟩
    · rw [finishOutput_overruns hlength (by omega) hblock]
      refine iff_of_false ?_ fun h => hfits (h.2 rfl)
      rintro ⟨r, hr, -⟩
      cases hr

theorem sent_iff_of_pos {s : Nat} {e : Encoding} :
    (∀ r ∈ some (⟨replyFixed (HEADER_SIZE + 8) (min s requested),
      some (e.stores.foldl Store.apply (.fresh size), padTo64 (min s requested)),
      decide (requested < s)⟩ : EncodedReply), Sent requested r) ↔
      padTo64 (min s requested) ≤ size ∧
        ∀ i < padTo64 (min s requested), ∃ st ∈ e.stores, st.Covers size i := by
  rw [← filled_iff]
  constructor
  · intro h
    exact (h _ rfl).output _ rfl
  · rintro h r hr
    cases hr
    refine ⟨?_, fun v hv => ?_⟩
    · rw [replyFixed_length]
      have hmod : min s requested % 2 ^ 32 ≤ min s requested := Nat.mod_le _ _
      omega
    · cases hv
      exact h

/-- What becomes of an output for which there may be an encoder. -/
theorem outputStays_iff (hcd : cd ≠ .unknown) (hlength : length ≠ 0) (hsmall : length < 2 ^ 32)
    (hsize : size < 2 ^ 31) (hroom : size = length + 1024 ∨ size + 2 ^ 32 = length + 1024) :
    OutputStays passthrough requested length size output memory ↔
      ∃ e, output.encode size = .ok e ∧ Placed passthrough requested length size e := by
  unfold OutputStays
  cases he : output.encode size with
  | error e =>
    refine iff_of_false ?_ ?_
    · rintro ⟨r, hr, -⟩
      unfold encodeOutput at hr
      rw [if_neg hcd, he] at hr
      cases hr
    · rintro ⟨e, h, -⟩
      cases h
  | ok e =>
    simp only [Except.ok.injEq, exists_eq_left']
    by_cases hfits : ∀ st ∈ e.stores, st.Fits size
    swap
    · refine iff_of_false ?_ fun h => hfits h.1
      rintro ⟨r, hr, -⟩
      have hinside : Inside (runStores (.fresh size) e.stores) := by
        unfold encodeOutput at hr
        rw [if_neg hcd, he, ok_bind] at hr
        obtain ⟨block, hblock, -⟩ := inside_bind_iff.mp ⟨r, hr⟩
        exact ⟨block, hblock⟩
      exact hfits (runStores_inside_iff.mp hinside)
    rw [encodeOutput_of_ne hcd he hfits]
    unfold Placed
    rw [and_iff_right hfits]
    cases hret : e.ret with
    | none =>
      -- -1 is a large length
      refine iff_of_false ?_ ?_
      · rintro ⟨r, hr, hfail, -⟩
        rw [Option.getD_none, finishOutput_of_ne (by decide)] at hr
        have hnone := hfail ⟨e, he, hret⟩
        rw [hnone] at hr
        cases hr
      · rintro ⟨s, hs, -⟩
        cases hs
    | some s =>
      have hnot : ¬ Fails size output := by
        rintro ⟨e', he', hret'⟩
        rw [he] at he'
        cases he'
        rw [hret] at hret'
        cases hret'
      simp only [Option.getD_some, Option.some.injEq, exists_eq_left']
      by_cases hs : s = 0
      · rw [if_pos hs, hs]
        exact finishOutput_zero_iff hlength hsmall hsize hroom size_foldl_apply hnot
      · rw [if_neg hs, finishOutput_of_ne hs, ← sent_iff_of_pos]
        constructor
        · rintro ⟨r, hr, -, hsent⟩
          cases hr
          exact hsent
        · intro hsent
          exact ⟨_, rfl, fun h => absurd h hnot, hsent⟩

end

end

/-- What the application hands over can be sent: of information with an encoder, the encoder does
not fail and the padded length is not more than what it writes, or the block; the streams of a file
are put into the block and leave no gap; of anything else there is not more than was asked for, and
if it is handed through it has the room; and the type is known, or there is no room at all. -/
def Output.Good (passthrough : Bool) (requested length size : Nat) {cd : Coding} : Output cd → Prop
  | .info i _ => i.Admitted size ∧
      padTo64 (min i.encodedSize requested) ≤ min i.encodedSize size
  | .streams first rest => StreamsStay passthrough requested length size first rest
  | .uncoded => length ≤ requested ∧ (passthrough = true → length ≤ size)
  | .unknown => size = 0

section
variable {passthrough : Bool} {requested length size : Nat} {memory : Memory}

theorem placed_info_iff {i : Info} :
    (∃ e, encodeInfo size i = .ok e ∧ Placed passthrough requested length size e) ↔
      i.Admitted size ∧ padTo64 (min i.encodedSize requested) ≤ min i.encodedSize size := by
  by_cases hadmitted : i.Admitted size
  · obtain ⟨e, he, hlays⟩ := encodeInfo_lays hadmitted
    have hpos := hlays.pos
    rw [he, and_iff_right hadmitted, ← hlays.filled_iff (padTo64_mod _), filled_iff]
    unfold Placed
    simp only [Except.ok.injEq, exists_eq_left', hlays.ret, Option.some.injEq]
    rw [and_iff_right hlays.fits, if_neg (by omega)]
  · refine iff_of_false ?_ fun h => hadmitted h.1
    rintro ⟨e, he, hfits, s, hs, -⟩
    rcases encodeInfo_spoiled hadmitted he with hnone | hnot
    · rw [hnone] at hs
      cases hs
    · exact hnot hfits

/-- A list of streams is covered exactly if it stays in the block without a gap. -/
theorem placed_streams_iff (hsize : size < 2 ^ 31) {first : StreamInfo} {rest : List StreamInfo} :
    Placed passthrough requested length size (encodeStreams size 0 first rest) ↔
      StreamsStay passthrough requested length size first rest := by
  by_cases hnamed : ∀ p ∈ placed size 0 first rest, p.info.nameOctets ≠ none
  swap
  · refine iff_of_false ?_ fun h => hnamed h.named
    push Not at hnamed
    obtain ⟨p, hp, hnone⟩ := hnamed
    rintro ⟨-, s, hs, -⟩
    rw [encodeStreams_of_invalid hp hnone] at hs
    cases hs
  have hsent (hin : ∀ p ∈ placed size 0 first rest, p.InBlock size)
      (hroom : padTo64 (min (placedEnd size 0 first rest) requested) ≤ size) :=
    placed_cover_iff (n := padTo64 (min (placedEnd size 0 first rest) requested)) hin hsize
      (padTo64_mod _) hroom (padTo64_le_paddedEnd (min_le_left _ _))
  rw [encodeStreams_of_valid hnamed]
  unfold Placed
  simp only [Option.some.injEq, exists_eq_left', placedStores_fit_iff hsize]
  constructor
  · rintro ⟨hin, hout⟩
    refine ⟨hnamed, hin, ?_⟩
    split_ifs at hout ⊢
    · exact hout
    · exact ⟨hout.1, (hsent hin hout.1).mp hout.2⟩
  · rintro ⟨-, hin, hout⟩
    refine ⟨hin, ?_⟩
    split_ifs at hout ⊢
    · exact hout
    · exact ⟨hout.1, (hsent hin hout.1).mpr hout.2⟩

theorem unknown_stays_iff :
    OutputStays passthrough requested length size .unknown memory ↔ size = 0 := by
  have hrun : encodeOutput passthrough requested length size .unknown memory =
      .ok (some ⟨replyFixed (HEADER_SIZE + 8) 0, some (.fresh size, size), false⟩) := if_pos rfl
  unfold OutputStays
  rw [hrun]
  constructor
  · rintro ⟨r, hr, -, hsent⟩
    cases hr
    by_contra hne
    have hsome := ((hsent _ rfl).output _ rfl).2 0 (by omega)
    cases hsome
  · rintro rfl
    refine ⟨_, rfl, ?_, ?_⟩
    · rintro ⟨e, he, hret⟩
      cases he
      cases hret
    · intro r hr
      cases hr
      refine ⟨?_, fun v hv => ?_⟩
      · rw [replyFixed_length]
        exact Nat.zero_le _
      · cases hv
        exact ⟨le_rfl, fun i hi => absurd hi (Nat.not_lt_zero i)⟩

theorem outputStays_iff_good (memory : Memory) {cd : Coding} {output : Output cd} (hlength : length ≠ 0)
    (hsmall : length < 2 ^ 32) (hsize : size < 2 ^ 31)
    (hroom : size = length + 1024 ∨ size + 2 ^ 32 = length + 1024) :
    OutputStays passthrough requested length size output memory ↔
      output.Good passthrough requested length size := by
  cases output with
  | info i h =>
    rw [outputStays_iff (fun h => by cases h) hlength hsmall hsize hroom]
    exact placed_info_iff
  | streams first rest =>
    rw [outputStays_iff (fun h => by cases h) hlength hsmall hsize hroom]
    constructor
    · rintro ⟨e, he, hplaced⟩
      cases he
      exact (placed_streams_iff hsize).mp hplaced
    · intro hgood
      exact ⟨_, rfl, (placed_streams_iff hsize).mpr hgood⟩
  | uncoded =>
    rw [outputStays_iff (fun h => by cases h) hlength hsmall hsize hroom]
    constructor
    · rintro ⟨e, he, -, s, hs, hplaced⟩
      cases he
      cases hs
      exact hplaced
    · intro hgood
      exact ⟨_, rfl, by simp, 0, rfl, hgood⟩
  | unknown => exact unknown_stays_iff

end

/-! ## The reply -/

section
variable (passthrough : Bool) (req : QueryInfoRequest)
  (rep : ReplyArgs (coding req.infoType req.fileInfoClass))

/-- There is an output, and a block for it, and the encoder of its class fails. -/
def EncoderFails : Prop :=
  ∃ output memory size, rep.outputBuffer = some (output, memory) ∧
    rep.outputBufferLength.toNat ≠ 0 ∧ allocOutput rep.outputBufferLength = some size ∧
    Fails size output

/-- Nothing is written outside the block that is allocated for the output, a reply whose encoder
fails is not sent, and what is sent was written and is not said to be longer than what was asked
for. -/
def ReplyStays : Prop :=
  ∃ r, encodeQueryInfoReply passthrough req rep = .ok r ∧ (EncoderFails req rep → r = none) ∧
    ∀ e ∈ r, Sent req.outputBufferLength e

/-- There is no output, under a length that was asked for; or it is empty, or too long for a block;
or it is good. -/
def ReplyFits : Prop :=
  match rep.outputBuffer with
  | none => rep.outputBufferLength.toNat ≤ req.outputBufferLength
  | some (output, _) => rep.outputBufferLength.toNat = 0 ∨
      ∀ size ∈ allocOutput rep.outputBufferLength,
        output.Good passthrough req.outputBufferLength rep.outputBufferLength.toNat size

/-- **A reply stays in its buffer exactly if what is handed over for it can be sent.** -/
theorem reply_stays_in_its_buffer_iff :
    ReplyStays passthrough req rep ↔ ReplyFits passthrough req rep := by
  have hsmall : rep.outputBufferLength.toNat < 2 ^ 32 := rep.outputBufferLength.toNat_lt
  unfold ReplyStays ReplyFits encodeQueryInfoReply EncoderFails
  simp only
  cases hbuffer : rep.outputBuffer with
  | none =>
    simp only
    constructor
    · rintro ⟨r, hr, -, hsent⟩
      cases hr
      have hlen := (hsent _ rfl).length
      rwa [replyFixed_length, Nat.mod_eq_of_lt hsmall] at hlen
    · intro hle
      refine ⟨_, rfl, ?_, ?_⟩
      · rintro ⟨output, memory, size, h, -⟩
        cases h
      · intro e he
        cases he
        refine ⟨?_, fun v hv => by cases hv⟩
        rwa [replyFixed_length, Nat.mod_eq_of_lt hsmall]
  | some handed =>
    obtain ⟨output, memory⟩ := handed
    simp only
    by_cases hzero : rep.outputBufferLength.toNat = 0
    · rw [if_pos hzero]
      refine iff_of_true ⟨_, rfl, ?_, ?_⟩ (.inl hzero)
      · rintro ⟨output, memory, size, -, hne, -⟩
        exact absurd hzero hne
      · intro e he
        cases he
        refine ⟨?_, fun v hv => by cases hv⟩
        rw [replyFixed_length]
        exact Nat.zero_le _
    rw [if_neg hzero, or_iff_right hzero]
    cases halloc : allocOutput rep.outputBufferLength with
    | none =>
      refine iff_of_true ⟨_, rfl, fun _ => rfl, ?_⟩ ?_
      · intro e he
        cases he
      · intro size h
        cases h
    | some size =>
      obtain ⟨hsize, hroom⟩ := allocOutput_some halloc
      simp only [Option.mem_def, Option.some.injEq, forall_eq', Prod.mk.injEq]
      rw [← outputStays_iff_good memory hzero hsmall hsize hroom]
      unfold OutputStays
      constructor
      · rintro ⟨r, hr, hfail, hsent⟩
        exact ⟨r, hr, fun h => hfail ⟨output, memory, size, ⟨rfl, rfl⟩, hzero, rfl, h⟩, hsent⟩
      · rintro ⟨r, hr, hfail, hsent⟩
        refine ⟨r, hr, ?_, hsent⟩
        rintro ⟨output', memory', size', ⟨rfl, rfl⟩, -, rfl, h⟩
        exact hfail h

end

/-- A request for the information of a file, of at most 65536 octets. -/
def allInfoRequest : QueryInfoRequest where
  infoType := 1
  fileInfoClass := 0x12
  outputBufferLength := 65536
  inputBufferOffset := 0
  inputBufferLength := 0
  additionalInformation := 0
  flags := 0
  fileId := zeros 16

/-- An octet that is no UTF-8 for a name. -/
def badlyNamed : FileAllInfo where
  basic := ⟨⟨0, 0⟩, ⟨0, 0⟩, ⟨0, 0⟩, ⟨0, 0⟩, 0⟩
  standard := ⟨0, 0, 1, 0, 0⟩
  indexNumber := 0
  eaSize := 0
  accessFlags := 0
  currentByteOffset := 0
  mode := 0
  alignmentRequirement := 0
  name := some (.ofBytes [0xff])

/-- A block of 1124 octets is allocated, and 65536 are sent. -/
theorem reply_is_sent_from_behind_its_block : ¬ ReplyStays false allInfoRequest
    ⟨100, some (.info (.all badlyNamed) rfl, fun _ => 0)⟩ := by
  rintro ⟨r, hr, -, hsent⟩
  have hlong : ((encodeQueryInfoReply false allInfoRequest
      ⟨100, some (.info (.all badlyNamed) rfl, fun _ => 0)⟩).toOption.bind id).bind (fun e =>
        e.output.map fun v => (v.1.size, v.2)) = some (1124, 65536) := by
    decide +kernel
  rw [hr] at hlong
  obtain ⟨e, he, hv⟩ := Option.bind_eq_some_iff.mp hlong
  obtain ⟨v, hv, hsize⟩ := Option.map_eq_some_iff.mp hv
  obtain ⟨hblock, hlen⟩ := Prod.mk.inj hsize
  have hfilled := ((hsent e he).output v hv).1
  omega

end Libsmb2.QueryInfo
