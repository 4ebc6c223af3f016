import Libsmb2.PathOps
import Libsmb2.Process.QueryDirectory
import Libsmb2.QueryInfo.Encode
import Libsmb2.Receive
import Libsmb2.Util.Heap

/-!
# The block behind a payload

What the decoders of received messages do with the block that they allocate for the payload of a
`smb2_pdu`, which `smb2_free_pdu` releases at last.  A decoder of a fixed part that gives up after
it has allocated the block releases it and has to take back the pointer; those of a QUERY_DIRECTORY
do not.  The decoders of the variable parts leave pointer and block alone.

* `Decoding` — what a decoder does about the payload, and `Decoding.releases_iff`, when it takes back
  all that it hands out;
* `failed_decoding_releases_once_iff` — which messages leave a pointer behind.

What the contents of a variable part are worth to the decoder that is called for them is given.
-/

set_option autoImplicit false

namespace Libsmb2.Payloads

open Util
open PathOps (fieldOf)

/-! ## Payloads -/

/-- What a `smb2_pdu` holds: its payload, whether `free_payload` is set, and the heap. -/
structure Held where
  payload : Option Nat
  freePayload : Bool
  heap : Heap

/-- The payload is null or allocated. -/
def Held.Sound (m : Held) : Prop := ∀ b ∈ m.payload, b ∈ m.heap.allocated

instance (m : Held) : Decidable m.Sound :=
  inferInstanceAs (Decidable (∀ b ∈ m.payload, b ∈ m.heap.allocated))

/-- `smb2_free_pdu` on the payload, of which `free_read_reply` first reads the length; `none` is a
fault. -/
def freePdu (m : Held) : Option Heap :=
  if m.freePayload = true ∧ ¬ m.Sound then none else m.heap.free m.payload

/-- A decoder: what it returns, and what it leaves. -/
abbrev Run := Held → Int × Held

/-- Of a message that is refused the payload is null or allocated, and `smb2_free_pdu` then
releases what the decoder has allocated, once. -/
def ReleasesOnce (run : Run) : Prop :=
  ∀ m : Held, m.Sound → (run m).1 < 0 → (run m).2.Sound ∧
    ∃ heap, freePdu (run m).2 = some heap ∧ heap.allocated ⊆ m.heap.allocated

/-- Where a decoder gives up and releases the block again. -/
structure Exit where
  taken : Bool
  /-- `pdu->payload = NULL` stands before the `free`. -/
  clears : Bool

/-- An exit that takes the pointer back. -/
def clearing (taken : Prop) [Decidable taken] : Exit := ⟨decide taken, true⟩

/-- One that does not. -/
def forgetting (taken : Prop) [Decidable taken] : Exit := ⟨decide taken, false⟩

/-- What a decoder does about the payload, and what it returns. -/
inductive Decoding
  | keep (ret : Int)
  /-- It copies what has been read, and sets `free_payload`. -/
  | copy (ret : Int)
  /-- It allocates a block, unless it has refused the message before or there is no memory, and
  leaves by the first of its exits that is taken. -/
  | alloc (refused mallocs : Bool) (exits : List Exit) (ret : Int)

namespace Decoding

/-- The exit by which a decoder that has allocated a block leaves. -/
def exit? : Decoding → Option Exit
  | alloc false true exits _ => exits.find? Exit.taken
  | _ => none

/-- Every exit takes the pointer back. -/
def Clears : Decoding → Prop
  | alloc _ _ exits _ => ∀ e ∈ exits, e.clears = true
  | _ => True

def run : Decoding → Run
  | keep ret, m => (ret, m)
  | copy ret, m => (ret, { m with freePayload := true })
  | alloc true _ _ _, m | alloc false false _ _, m => (-1, m)
  | alloc false true exits ret, m =>
    let (block, heap) := m.heap.malloc
    match exits.find? Exit.taken with
    | none => (ret, { m with payload := some block, heap := heap })
    | some e =>
      (-1, { m with payload := if e.clears then none else some block, heap := heap.erase block })

end Decoding

/-! ## Fixed parts -/

/-- What a decoder finds: the vector of the fixed and that of the variable part, what the context
and the request hold, whether `malloc` and `smb2_alloc_init` return a block, whether the decoder
that is called for the contents accepts them, and whether `data` of a READ is a block. -/
structure Received where
  fixed : Bytes
  rest : Bytes
  spl : Nat
  nextCommand : Nat
  maxReadSize : Nat
  passthrough : Bool
  infoType : Nat
  fileInfoClass : Nat
  mallocs : Bool
  allocates : Bool
  accepts : Bool
  copies : Bool

/-- The size that the fixed part begins with is not this one, or that of the vector is not. -/
def unexpected (size : Nat) (iov : Bytes) : Bool :=
  fieldOf 2 iov 0 ≠ size ∨ iov.length ≠ size &&& 0xfffe

/-- The size that the fixed part begins with is more. -/
def exceeds (size : Nat) (iov : Bytes) : Bool := size < fieldOf 2 iov 0

/-- `smb2_process_error_fixed`. -/
def processErrorFixed (r : Received) : Decoding :=
  .alloc (unexpected ERROR_REPLY_SIZE r.fixed) r.mallocs [] (toInt32 (fieldOf 4 r.fixed 4))

/-- `smb2_process_negotiate_fixed`. -/
def processNegotiateFixed (r : Received) : Decoding :=
  let offset := fieldOf 2 r.fixed 56
  let length := fieldOf 2 r.fixed 58
  .alloc (unexpected 65 r.fixed) r.mallocs
    [clearing (length ≠ 0 ∧ r.spl % 2 ^ 16 < offset + length),
      clearing (length ≠ 0 ∧ offset < HEADER_SIZE + 64)]
    (if length = 0 then 0
      else if 0x311 ≤ fieldOf 2 r.fixed 4 then toInt32 ((r.spl : Int) - HEADER_SIZE - 64)
      else (offset : Int) - HEADER_SIZE - 64 + length)

/-- `smb2_process_session_setup_fixed`. -/
def processSessionSetupFixed (r : Received) : Decoding :=
  let offset := fieldOf 2 r.fixed 4
  let length := fieldOf 2 r.fixed 6
  .alloc (unexpected 9 r.fixed) r.mallocs
    [clearing (length ≠ 0 ∧ r.spl % 2 ^ 16 < offset + length),
      clearing (length ≠ 0 ∧ offset < HEADER_SIZE + 8)]
    (if length = 0 then 0 else (offset : Int) - HEADER_SIZE - 8 + length)

/-- `smb2_process_tree_connect_fixed`. -/
def processTreeConnectFixed (r : Received) : Decoding :=
  .alloc (unexpected 16 r.fixed) r.mallocs [] 0

/-- `smb2_process_create_fixed`. -/
def processCreateFixed (r : Received) : Decoding :=
  let offset := fieldOf 4 r.fixed 80
  let length := fieldOf 4 r.fixed 84
  .alloc (unexpected 89 r.fixed) r.mallocs
    [clearing (length ≠ 0 ∧ offset < HEADER_SIZE + 88)]
    (if length = 0 then 0 else toInt32 ((offset : Int) - HEADER_SIZE - 88 + length))

/-- `smb2_process_close_fixed`. -/
def processCloseFixed (r : Received) : Decoding :=
  .alloc (unexpected 60 r.fixed) r.mallocs [] 0

/-- `smb2_process_flush_fixed`. -/
def processFlushFixed (r : Received) : Decoding := .keep (if unexpected 4 r.fixed then -1 else 0)

/-- `smb2_process_read_fixed`. -/
def processReadFixed (r : Received) : Decoding :=
  let length := fieldOf 4 r.fixed 4
  .alloc (exceeds 17 r.fixed) r.mallocs
    [clearing (length ≠ 0 ∧ fieldOf 1 r.fixed 2 ≠ HEADER_SIZE + 16)] (toInt32 length)

/-- `smb2_process_write_fixed`. -/
def processWriteFixed (r : Received) : Decoding :=
  .alloc (unexpected 17 r.fixed) r.mallocs [] 0

/-- `smb2_process_echo_fixed`. -/
def processEchoFixed (r : Received) : Decoding := .keep (if unexpected 4 r.fixed then -1 else 0)

/-- `smb2_process_lock_fixed`. -/
def processLockFixed (r : Received) : Decoding := .keep (if unexpected 4 r.fixed then -1 else 0)

/-- `smb2_process_query_directory_fixed`. -/
def processQueryDirectoryFixed (r : Received) : Decoding :=
  let offset := fieldOf 2 r.fixed 2
  let length := fieldOf 4 r.fixed 4
  .alloc (unexpected 9 r.fixed) r.mallocs
    [forgetting (length ≠ 0 ∧ r.spl < (offset + length) % 2 ^ 32),
      forgetting (length ≠ 0 ∧ offset < HEADER_SIZE + 8)]
    (if length = 0 then 0 else toInt32 ((offset : Int) - HEADER_SIZE - 8 + length))

/-- `smb2_process_change_notify_fixed`. -/
def processChangeNotifyFixed (r : Received) : Decoding :=
  .alloc (unexpected 9 r.fixed) r.mallocs [] (toInt32 (fieldOf 4 r.fixed 4))

/-- `smb2_process_query_info_fixed`. -/
def processQueryInfoFixed (r : Received) : Decoding :=
  let offset := fieldOf 2 r.fixed 2
  let length := fieldOf 4 r.fixed 4
  let opl := (offset + length) % 2 ^ 32
  .alloc (unexpected 9 r.fixed) r.mallocs
    [clearing (opl < offset), clearing (length ≠ 0 ∧ r.spl < opl),
      clearing (length ≠ 0 ∧ r.nextCommand ≠ 0 ∧ r.nextCommand < opl),
      clearing (length ≠ 0 ∧ offset < HEADER_SIZE + 8)]
    (if length = 0 then 0 else toInt32 ((offset : Int) - HEADER_SIZE - 8 + length))

/-- `smb2_process_ioctl_fixed`. -/
def processIoctlFixed (r : Received) : Decoding :=
  let inputCount := fieldOf 4 r.fixed 28
  let outputOffset := fieldOf 4 r.fixed 32
  let outputCount := fieldOf 4 r.fixed 36
  .alloc (unexpected 49 r.fixed) r.mallocs
    [clearing (outputCount ≠ 0 ∧ outputOffset < HEADER_SIZE + 48)]
    (if outputCount = 0 then 0
      else toInt32 ((outputOffset : Int) - HEADER_SIZE - 48 + padTo64 inputCount + outputCount))

/-- `smb2_process_oplock_break_fixed`, where what is received is allocated before it is looked
at. -/
def processOplockBreakFixed (r : Received) : Decoding :=
  let size := fieldOf 2 r.fixed 0
  .alloc false r.mallocs [clearing (size ≠ 24 ∧ size ≠ 44 ∧ size ≠ 36)] ((size : Int) - 2)

/-- `smb2_process_negotiate_request_fixed`. -/
def processNegotiateRequestFixed (r : Received) : Decoding :=
  .alloc (unexpected 36 r.fixed) r.mallocs []
    (if 0 < fieldOf 2 r.fixed 32 then toInt32 ((r.spl : Int) - HEADER_SIZE - 36)
      else 2 * fieldOf 2 r.fixed 2)

/-- `smb2_process_session_setup_request_fixed`. -/
def processSessionSetupRequestFixed (r : Received) : Decoding :=
  .alloc (unexpected 25 r.fixed) r.mallocs [] (fieldOf 2 r.fixed 14)

/-- `smb2_process_logoff_request_fixed`. -/
def processLogoffRequestFixed (r : Received) : Decoding :=
  .alloc (unexpected 4 r.fixed) r.mallocs [] 0

/-- `smb2_process_tree_connect_request_fixed`. -/
def processTreeConnectRequestFixed (r : Received) : Decoding :=
  .alloc (unexpected 9 r.fixed) r.mallocs [] (fieldOf 2 r.fixed 6)

/-- `smb2_process_create_request_fixed`. -/
def processCreateRequestFixed (r : Received) : Decoding :=
  let nameOffset := fieldOf 2 r.fixed 44
  let nameLength := fieldOf 2 r.fixed 46
  let contextOffset := fieldOf 4 r.fixed 48
  let contextLength := fieldOf 4 r.fixed 52
  .alloc (unexpected 57 r.fixed) r.mallocs
    [clearing (0 < nameLength ∧ nameOffset < HEADER_SIZE + 56),
      clearing (0 < contextLength ∧ contextOffset < HEADER_SIZE + 56)]
    (if contextLength = 0 ∧ nameLength = 0 then 0
      else toInt32 ((nameOffset : Int) - HEADER_SIZE - 56 +
        (if nameOffset < contextOffset then padTo64 (contextOffset - nameOffset) else nameLength) +
        contextLength))

/-- `smb2_process_close_request_fixed`. -/
def processCloseRequestFixed (r : Received) : Decoding :=
  .alloc (unexpected 24 r.fixed) r.mallocs [] 0

/-- `smb2_process_flush_request_fixed`. -/
def processFlushRequestFixed (r : Received) : Decoding :=
  .alloc (unexpected 24 r.fixed) r.mallocs [] 0

/-- `smb2_process_read_request_fixed`.  The offset of the channel info is taken if the length is not
zero, which is read behind it, so that it stays zero. -/
def processReadRequestFixed (r : Received) : Decoding :=
  let channelInfoOffset := 0
  let channelInfoLength := fieldOf 2 r.fixed 46
  .alloc (exceeds 49 r.fixed) r.mallocs
    [clearing (r.maxReadSize < fieldOf 4 r.fixed 4),
      clearing (channelInfoLength ≠ 0 ∧ channelInfoOffset < HEADER_SIZE + 48)] channelInfoLength

/-- `smb2_process_write_request_fixed`. -/
def processWriteRequestFixed (r : Received) : Decoding :=
  let length := fieldOf 4 r.fixed 4
  let channelInfoOffset := fieldOf 2 r.fixed 40
  let channelInfoLength := fieldOf 2 r.fixed 42
  let offset : Int := if channelInfoLength = 0 then 0 else channelInfoOffset - HEADER_SIZE - 48
  .alloc (exceeds 49 r.fixed) r.mallocs
    [clearing (channelInfoLength ≠ 0 ∧ channelInfoOffset < HEADER_SIZE + 48)]
    (if length ≠ 0 then toInt32 (offset + padTo64 channelInfoLength + length)
      else offset + channelInfoLength)

/-- `smb2_process_echo_request_fixed`. -/
def processEchoRequestFixed (r : Received) : Decoding :=
  .alloc (unexpected 4 r.fixed) r.mallocs [] 0

/-- `smb2_process_lock_request_fixed`, with a second block for the locks. -/
def processLockRequestFixed (r : Received) : Decoding :=
  let count := fieldOf 2 r.fixed 2
  .alloc (unexpected 48 r.fixed) r.mallocs [clearing (count < 1), clearing (r.allocates = false)]
    (24 * ((count : Int) - 1))

/-- `smb2_process_query_directory_request_fixed`. -/
def processQueryDirectoryRequestFixed (r : Received) : Decoding :=
  let offset := fieldOf 2 r.fixed 24
  let length := fieldOf 2 r.fixed 26
  .alloc (unexpected 33 r.fixed) r.mallocs
    [forgetting (length ≠ 0 ∧ r.spl % 2 ^ 16 < offset + length),
      forgetting (length ≠ 0 ∧ offset < HEADER_SIZE + 32)]
    (if length = 0 then 0 else (offset : Int) - HEADER_SIZE - 32 + length)

/-- `smb2_process_change_notify_request_fixed`. -/
def processChangeNotifyRequestFixed (r : Received) : Decoding :=
  .alloc (unexpected 32 r.fixed) r.mallocs [] 0

/-- `smb2_process_query_info_request_fixed`. -/
def processQueryInfoRequestFixed (r : Received) : Decoding :=
  let offset := fieldOf 2 r.fixed 8
  let length := fieldOf 4 r.fixed 12
  .alloc (unexpected 41 r.fixed) r.mallocs [clearing (length ≠ 0 ∧ offset < HEADER_SIZE + 40)]
    (if length = 0 then 0 else toInt32 ((offset : Int) - HEADER_SIZE - 40 + length))

/-- `smb2_process_set_info_request_fixed`. -/
def processSetInfoRequestFixed (r : Received) : Decoding :=
  .alloc (unexpected 33 r.fixed) r.mallocs [] (toInt32 (fieldOf 4 r.fixed 4))

/-- `smb2_process_ioctl_request_fixed`. -/
def processIoctlRequestFixed (r : Received) : Decoding :=
  let inputOffset := fieldOf 4 r.fixed 24
  let inputCount := fieldOf 4 r.fixed 28
  .alloc (unexpected 57 r.fixed) r.mallocs
    [clearing (inputCount ≠ 0 ∧ inputOffset < HEADER_SIZE + 56)]
    (if inputCount = 0 then 0 else toInt32 ((inputOffset : Int) - HEADER_SIZE - 56 + inputCount))

/-- `smb2_process_oplock_break_request_fixed`. -/
def processOplockBreakRequestFixed (r : Received) : Decoding :=
  let size := fieldOf 2 r.fixed 0
  .alloc false r.mallocs [clearing (size ≠ 24 ∧ size ≠ 36)] ((size : Int) - 2)

/-- `smb2_process_payload_fixed`. -/
def processPayloadFixed (d : Decoder) (r : Received) : Decoding :=
  match d with
  | .error => processErrorFixed r
  | .reply .negotiate => processNegotiateFixed r
  | .reply .sessionSetup => processSessionSetupFixed r
  | .reply .treeConnect => processTreeConnectFixed r
  | .reply .create => processCreateFixed r
  | .reply .close => processCloseFixed r
  | .reply .flush => processFlushFixed r
  | .reply .read => processReadFixed r
  | .reply .write => processWriteFixed r
  | .reply .echo => processEchoFixed r
  | .reply .lock => processLockFixed r
  | .reply .queryDirectory => processQueryDirectoryFixed r
  | .reply .changeNotify => processChangeNotifyFixed r
  | .reply .queryInfo => processQueryInfoFixed r
  | .reply .ioctl => processIoctlFixed r
  | .reply .oplockBreak => processOplockBreakFixed r
  | .reply _ => .keep 0
  | .request .negotiate => processNegotiateRequestFixed r
  | .request .sessionSetup => processSessionSetupRequestFixed r
  | .request .logoff => processLogoffRequestFixed r
  | .request .treeConnect => processTreeConnectRequestFixed r
  | .request .create => processCreateRequestFixed r
  | .request .close => processCloseRequestFixed r
  | .request .flush => processFlushRequestFixed r
  | .request .read => processReadRequestFixed r
  | .request .write => processWriteRequestFixed r
  | .request .echo => processEchoRequestFixed r
  | .request .lock => processLockRequestFixed r
  | .request .queryDirectory => processQueryDirectoryRequestFixed r
  | .request .changeNotify => processChangeNotifyRequestFixed r
  | .request .queryInfo => processQueryInfoRequestFixed r
  | .request .setInfo => processSetInfoRequestFixed r
  | .request .ioctl => processIoctlRequestFixed r
  | .request .oplockBreak => processOplockBreakRequestFixed r
  | .request .treeDisconnect | .request .cancel => .keep 0
  | .request _ => .keep (-1)

/-! ## Variable parts

What was stored in the block is what the fixed part holds. -/

/-- `smb2_process_negotiate_variable`, with contexts that are accepted or not. -/
def processNegotiateVariable (r : Received) : Int :=
  let offset := toInt32 ((fieldOf 4 r.fixed 60 : Int) - HEADER_SIZE - 64)
  if fieldOf 2 r.fixed 4 < 0x311 ∨ fieldOf 2 r.fixed 6 = 0 then 0
  else if offset < 0 ∨ toInt32 r.rest.length < offset then -1
  else if r.accepts then 0
  else -1

/-- `smb2_process_query_info_variable`, for a class that has a decoder or not. -/
def queryInfoResult (r : Received) (hasDecoder : Bool) : Int :=
  if hasDecoder then if r.accepts then 0 else -1
  else if r.passthrough then 0
  else -1

/-- `smb2_process_query_info_variable`. -/
def processQueryInfoVariable (r : Received) : Int :=
  match QueryInfo.coding r.infoType r.fileInfoClass with
  | .info _ | .streams => queryInfoResult r true
  -- a security descriptor is handed through, or decoded
  | .uncoded => queryInfoResult r (r.infoType = 3 ∧ r.passthrough = false)
  | .unknown => -1

/-- `smb2_process_ioctl_variable`, with a reparse point that is accepted or not; -22 is `-EINVAL` and
-12 `-ENOMEM`. -/
def processIoctlVariable (r : Received) : Int :=
  let outputOffset := sub32 (fieldOf 4 r.fixed 32) (HEADER_SIZE + 48)
  if sub64 r.rest.length outputOffset < fieldOf 4 r.fixed 36 then -22
  else if fieldOf 4 r.fixed 4 = 0x000900A8 then if r.accepts then 0 else -1
  else if r.allocates then 0
  else -12

/-- `smb2_process_oplock_break_variable`. -/
def processOplockBreakVariable (r : Received) : Int :=
  if fieldOf 2 r.fixed 0 ∈ [24, 44, 36] then 0 else -1

/-- `smb2_process_negotiate_request_variable`: of the dialects it reads ten at most. -/
def processNegotiateRequestVariable (r : Received) : Int :=
  let offset := toInt32 ((fieldOf 4 r.fixed 28 : Int) - HEADER_SIZE - 36)
  let has0311 := (List.range (min (fieldOf 2 r.fixed 2) 10)).any fun d =>
    fieldOf 2 r.rest (2 * d) = 0x311
  if fieldOf 2 r.fixed 32 = 0 ∨ has0311 = false then 0
  else if offset < 0 ∨ toInt32 r.rest.length < offset then -1
  else if r.accepts then 0
  else -1

/-- A name that is copied to a block of its own. -/
def nameResult (r : Received) (length : Nat) : Int :=
  if 0 < length ∧ r.allocates = false then -1 else 0

/-- `smb2_process_create_request_variable`. -/
def processCreateRequestVariable (r : Received) : Int := nameResult r (fieldOf 2 r.fixed 46)

/-- `smb2_process_query_directory_request_variable`. -/
def processQueryDirectoryRequestVariable (r : Received) : Int := nameResult r (fieldOf 2 r.fixed 26)

/-- `smb2_process_set_info_request_variable`. -/
def processSetInfoRequestVariable (r : Received) : Int := if r.passthrough then 0 else -1

/-- `smb2_process_ioctl_request_variable`. -/
def processIoctlRequestVariable (r : Received) : Int :=
  let inputOffset := sub32 (fieldOf 4 r.fixed 24) (HEADER_SIZE + 56)
  if sub64 r.rest.length inputOffset < fieldOf 4 r.fixed 28 then -22 else 0

/-- `smb2_process_oplock_break_request_variable`. -/
def processOplockBreakRequestVariable (r : Received) : Int :=
  if fieldOf 2 r.fixed 0 ∈ [24, 36] then 0 else -1

/-- `smb2_process_read_variable`. -/
def processReadVariable (r : Received) : Decoding := if r.copies then .copy 0 else .keep 0

/-- What the other decoders of variable parts return, where it is not 0. -/
def variableResult (d : Decoder) (r : Received) : Int :=
  match d with
  | .reply .negotiate => processNegotiateVariable r
  | .reply .queryInfo => processQueryInfoVariable r
  | .reply .ioctl => processIoctlVariable r
  | .reply .oplockBreak => processOplockBreakVariable r
  | .request .negotiate => processNegotiateRequestVariable r
  | .request .create => processCreateRequestVariable r
  | .request .queryDirectory => processQueryDirectoryRequestVariable r
  | .request .setInfo => processSetInfoRequestVariable r
  | .request .ioctl => processIoctlRequestVariable r
  | .request .oplockBreak => processOplockBreakRequestVariable r
  | d => (variableConstant d).getD 0

/-- `smb2_process_payload_variable`: a decoder of a variable part has the block, and leaves it where
it is. -/
def processPayloadVariable (d : Decoder) (r : Received) : Decoding :=
  match d with
  | .reply .read => processReadVariable r
  | d => .keep (variableResult d r)

inductive Part
  | fixedPart
  | variablePart
  deriving DecidableEq, Repr

/-- The decoder of a part. -/
def process : Part → Decoder → Received → Decoding
  | .fixedPart => processPayloadFixed
  | .variablePart => processPayloadVariable

/-! ## What is released -/

/-- What is sound is released. -/
theorem freePdu_of_sound {m : Held} (h : m.Sound) :
    ∃ heap, freePdu m = some heap ∧ heap.allocated ⊆ m.heap.allocated := by
  unfold freePdu
  rw [if_neg fun hnot => hnot.2 h]
  cases hb : m.payload with
  | none => exact ⟨m.heap, rfl, subset_rfl⟩
  | some b => exact ⟨m.heap.erase b, Heap.free_of_mem (h b hb), Finset.erase_subset _ _⟩

namespace Decoding

theorem releases_keep (ret : Int) : ReleasesOnce (keep ret).run := by
  intro m hm hret
  exact ⟨hm, freePdu_of_sound hm⟩

theorem releases_copy (ret : Int) : ReleasesOnce (copy ret).run := by
  intro m hm hret
  have hsound : Held.Sound { m with freePayload := true } := hm
  exact ⟨hsound, freePdu_of_sound hsound⟩

section
variable {exits : List Exit} {ret : Int} {e : Exit}

theorem run_of_none (h : exits.find? Exit.taken = none) (m : Held) :
    (alloc false true exits ret).run m =
      (ret, { m with payload := some m.heap.malloc.1, heap := m.heap.malloc.2 }) := by
  unfold run
  simp only [h]

theorem run_of_some (h : exits.find? Exit.taken = some e) (m : Held) :
    (alloc false true exits ret).run m = (-1, { m with
      payload := if e.clears then none else some m.heap.malloc.1
      heap := m.heap.malloc.2.erase m.heap.malloc.1 }) := by
  unfold run
  simp only [h]

/-- A block that is new is the only one that is released. -/
theorem releases_of_none (h : exits.find? Exit.taken = none) :
    ReleasesOnce (alloc false true exits ret).run := by
  intro m hm hret
  rw [run_of_none h]
  have hsound : Held.Sound { m with payload := some m.heap.malloc.1, heap := m.heap.malloc.2 } := by
    rintro _ ⟨⟩
    exact m.heap.malloc_mem
  obtain ⟨heap, hfree, hsub⟩ := m.heap.free_malloc
  refine ⟨hsound, heap, ?_, hsub.le⟩
  unfold freePdu
  rw [if_neg fun hnot => hnot.2 hsound]
  exact hfree

/-- A block that has been released already is behind the pointer if that is not taken back. -/
theorem releases_iff_of_some (h : exits.find? Exit.taken = some e) :
    ReleasesOnce (alloc false true exits ret).run ↔ e.clears = true := by
  cases hclears : e.clears with
  | true =>
    refine iff_of_true (fun m hm hret => ?_) rfl
    rw [run_of_some h, hclears]
    have hsound : Held.Sound { m with
        payload := none, heap := m.heap.malloc.2.erase m.heap.malloc.1 } := by
      intro b hb
      cases hb
    refine ⟨hsound, _, if_neg fun hnot => hnot.2 hsound, ?_⟩
    exact m.heap.erase_malloc.le
  | false =>
    refine iff_of_false (fun hreleases => ?_) Bool.false_ne_true
    have hlast := hreleases ⟨none, false, .empty⟩ (fun b hb => by cases hb)
    rw [run_of_some h, hclears] at hlast
    exact Heap.erase_not_mem _ _ ((hlast neg_one_lt_zero).1 _ rfl)

end

/-- **A decoder takes back all that it hands out** if the exit by which it leaves, if it leaves by
one, takes back the pointer. -/
theorem releases_iff (a : Decoding) : ReleasesOnce a.run ↔ ∀ e ∈ a.exit?, e.clears = true := by
  cases a with
  | keep ret => exact iff_of_true (releases_keep ret) fun e he => by cases he
  | copy ret => exact iff_of_true (releases_copy ret) fun e he => by cases he
  | alloc refused mallocs exits ret =>
    cases refused with
    | true => exact iff_of_true (releases_keep (-1)) fun e he => by cases he
    | false =>
      cases mallocs with
      | false => exact iff_of_true (releases_keep (-1)) fun e he => by cases he
      | true =>
        show _ ↔ ∀ e ∈ exits.find? Exit.taken, e.clears = true
        cases hfind : exits.find? Exit.taken with
        | none => exact iff_of_true (releases_of_none hfind) fun e he => by cases he
        | some e => simpa using releases_iff_of_some hfind

theorem releases_of_clears {a : Decoding} (h : a.Clears) : ReleasesOnce a.run := by
  rw [releases_iff]
  cases a with
  | keep ret | copy ret => exact fun e he => by cases he
  | alloc refused mallocs exits ret =>
    cases refused with
    | true => exact fun e he => by cases he
    | false =>
      cases mallocs with
      | false => exact fun e he => by cases he
      | true => exact fun e he => h e (List.mem_of_find?_eq_some he)

/-- Two exits, neither of which takes back the pointer. -/
theorem releases_forgetting_iff {refused mallocs : Bool} {p q : Prop} [Decidable p] [Decidable q]
    {ret : Int} : ReleasesOnce (alloc refused mallocs [forgetting p, forgetting q] ret).run ↔
      ¬ (refused = false ∧ mallocs = true ∧ (p ∨ q)) := by
  rw [releases_iff]
  cases refused with
  | true => simp [exit?]
  | false =>
    cases mallocs with
    | false => simp [exit?]
    | true =>
      by_cases hp : p
      · simp [exit?, forgetting, hp]
      · by_cases hq : q <;> simp [exit?, forgetting, hp, hq]

end Decoding

@[simp] theorem clears_clearing (p : Prop) [Decidable p] : (clearing p).clears = true := rfl

/-- The decoders of the other commands take the pointer back. -/
theorem clears_payloadFixed (r : Received) {d : Decoder} (hreply : d ≠ .reply .queryDirectory)
    (hrequest : d ≠ .request .queryDirectory) : (processPayloadFixed d r).Clears := by
  have hnone : ∀ e ∈ ([] : List Exit), e.clears = true := fun e he => by cases he
  have hcons : ∀ {p : Prop} [Decidable p] {exits : List Exit},
      (∀ e ∈ exits, e.clears = true) → ∀ e ∈ clearing p :: exits, e.clears = true := by
    intro p _ exits h
    exact List.forall_mem_cons.mpr ⟨rfl, h⟩
  cases d with
  | error => exact hnone
  | reply c =>
    cases c with
    | queryDirectory => exact absurd rfl hreply
    | flush | echo | lock | logoff | treeDisconnect | cancel | setInfo | smb1Negotiate | unknown =>
      trivial
    | negotiate | sessionSetup => exact hcons (hcons hnone)
    | create | read | ioctl | oplockBreak => exact hcons hnone
    | queryInfo => exact hcons (hcons (hcons (hcons hnone)))
    | _ => exact hnone
  | request c =>
    cases c with
    | queryDirectory => exact absurd rfl hrequest
    | treeDisconnect | cancel | smb1Negotiate | unknown => trivial
    | create | read | lock => exact hcons (hcons hnone)
    | write | queryInfo | ioctl | oplockBreak => exact hcons hnone
    | _ => exact hnone

/-- A QUERY_DIRECTORY of the right size whose listing ends behind the message or begins in its fixed
part, or a request whose name does. -/
def Forgotten (r : Received) : Part → Decoder → Prop
  | .fixedPart, .reply .queryDirectory =>
    unexpected 9 r.fixed = false ∧ r.mallocs = true ∧ fieldOf 4 r.fixed 4 ≠ 0 ∧
      (r.spl < (fieldOf 2 r.fixed 2 + fieldOf 4 r.fixed 4) % 2 ^ 32 ∨
        fieldOf 2 r.fixed 2 < HEADER_SIZE + 8)
  | .fixedPart, .request .queryDirectory =>
    unexpected 33 r.fixed = false ∧ r.mallocs = true ∧ fieldOf 2 r.fixed 26 ≠ 0 ∧
      (r.spl % 2 ^ 16 < fieldOf 2 r.fixed 24 + fieldOf 2 r.fixed 26 ∨
        fieldOf 2 r.fixed 24 < HEADER_SIZE + 32)
  | _, _ => False

/-- **A decoder that fails leaves a payload that is released once, but for those of a
QUERY_DIRECTORY.** -/
theorem failed_decoding_releases_once_iff (part : Part) (d : Decoder) (r : Received) :
    ReleasesOnce (process part d r).run ↔ ¬ Forgotten r part d := by
  cases part with
  | variablePart =>
    refine iff_of_true ?_ not_false
    show ReleasesOnce (processPayloadVariable d r).run
    unfold processPayloadVariable processReadVariable
    split
    · split
      · exact Decoding.releases_copy 0
      · exact Decoding.releases_keep 0
    · exact Decoding.releases_keep _
  | fixedPart =>
    show ReleasesOnce (processPayloadFixed d r).run ↔ _
    by_cases hreply : d = .reply .queryDirectory
    · subst hreply
      exact Decoding.releases_forgetting_iff.trans (by rw [← and_or_left]; rfl)
    · by_cases hrequest : d = .request .queryDirectory
      · subst hrequest
        exact Decoding.releases_forgetting_iff.trans (by rw [← and_or_left]; rfl)
      · refine iff_of_true (Decoding.releases_of_clears (clears_payloadFixed r hreply hrequest)) ?_
        intro h
        unfold Forgotten at h
        split at h
        · exact hreply rfl
        · exact hrequest rfl
        · exact h

/-- A listing of one octet that begins with the header. -/
def overlappingListing : Received where
  fixed := le 2 9 ++ le 2 0 ++ le 4 1
  rest := []
  spl := 72
  nextCommand := 0
  maxReadSize := 0
  passthrough := false
  infoType := 0
  fileInfoClass := 0
  mallocs := true
  allocates := true
  accepts := true
  copies := false

/-- The payload is a block that has been released. -/
theorem listing_leaves_a_dangling_payload :
    ¬ ReleasesOnce (process .fixedPart (.reply .queryDirectory) overlappingListing).run := by
  intro h
  have hlast := h ⟨none, false, .empty⟩ (fun b hb => by cases hb) (by decide)
  exact absurd hlast.1 (by decide)

end Libsmb2.Payloads
