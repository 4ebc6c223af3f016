import Libsmb2.Process.Requests

/-!
# Oplock and lease breaks

Six messages share one command: an oplock or a lease is broken by a notification, which a client
acknowledges, and a server responds to that.  A client knows an oplock break by the size of its
structure and tells the notification from the response by the message id; a server knows an
acknowledgement by the size alone.

What is decoded goes to a union in a block that `malloc` has returned (`Block`), so that the members
of its structures overlap and what is not written there is what was there before.  The integers of
the block have their least significant octet first.

* `Member.get_put_same`, `get_stored_head` — what is stored in a member is read from it until a
  member that overlaps it is stored, and `get_stored`, where there is none such;
* `Message.decode_vector` — every message is known for what it is;
* `break_comes_back_iff` — which come back as they were sent.

What a notification or an acknowledgement of a lease break tells beside the epoch and the key is all
written to offset 4, and the key of a response is stored in the structure of a notification, in
which it begins four octets further on.
-/

set_option autoImplicit false

namespace Libsmb2.OplockBreak

open Util

/-! ## Messages -/

def OPLOCK_BREAK_NOTIFICATION_SIZE : Nat := 24
def OPLOCK_BREAK_ACKNOWLEDGE_SIZE : Nat := 24
def OPLOCK_BREAK_REPLY_SIZE : Nat := 24
def LEASE_BREAK_NOTIFICATION_SIZE : Nat := 44
def LEASE_BREAK_ACKNOWLEDGE_SIZE : Nat := 36
def LEASE_BREAK_REPLY_SIZE : Nat := 36

/-- `struct smb2_oplock_break_notification`; an acknowledgement and a reply have its members. -/
structure OplockBreakNotification where
  oplockLevel : UInt8
  fileId : FileId

abbrev OplockBreakAcknowledgement : Type := OplockBreakNotification
abbrev OplockBreakReply : Type := OplockBreakNotification

/-- `struct smb2_lease_break_notification`. -/
structure LeaseBreakNotification where
  newEpoch : UInt16
  flags : UInt32
  leaseKey : Octets 16
  currentLeaseState : UInt32
  newLeaseState : UInt32
  breakReason : UInt32
  accessMaskHint : UInt32
  shareMaskHint : UInt32

/-- `struct smb2_lease_break_reply`; an acknowledgement has the same members. -/
structure LeaseBreakReply where
  flags : UInt32
  leaseKey : Octets 16
  leaseState : UInt32
  leaseDuration : UInt64

abbrev LeaseBreakAcknowledgement : Type := LeaseBreakReply

/-- `SMB2_BREAK_TYPE_*`. -/
inductive BreakType
  | oplockNotification
  | oplockResponse
  | oplockAcknowledge
  | leaseNotification
  | leaseResponse
  | leaseAcknowledge
  deriving DecidableEq, Repr

/-- What the two parties send each other. -/
inductive Message
  | oplockNotification (m : OplockBreakNotification)
  | oplockResponse (m : OplockBreakReply)
  | oplockAcknowledge (m : OplockBreakAcknowledgement)
  | leaseNotification (m : LeaseBreakNotification)
  | leaseResponse (m : LeaseBreakReply)
  | leaseAcknowledge (m : LeaseBreakAcknowledgement)

def Message.breakType : Message → BreakType
  | .oplockNotification _ => .oplockNotification
  | .oplockResponse _ => .oplockResponse
  | .oplockAcknowledge _ => .oplockAcknowledge
  | .leaseNotification _ => .leaseNotification
  | .leaseResponse _ => .leaseResponse
  | .leaseAcknowledge _ => .leaseAcknowledge

/-- What comes from the server without being asked for. -/
def BreakType.notifies : BreakType → Bool
  | .oplockNotification | .leaseNotification => true
  | _ => false

/-- What comes from a client. -/
def BreakType.acknowledges : BreakType → Bool
  | .oplockAcknowledge | .leaseAcknowledge => true
  | _ => false

/-! ## Encoders -/

/-- `smb2_encode_oplock_break_reply`. -/
def encodeOplockBreakReply (rep : OplockBreakReply) (out : List Bytes) : Option (List Bytes) :=
  addVector (zeros OPLOCK_BREAK_REPLY_SIZE
    |> setUint16 0 OPLOCK_BREAK_REPLY_SIZE
    |> setUint8 2 rep.oplockLevel.toNat
    |> (patch · 8 rep.fileId.1)) out

/-- `smb2_encode_oplock_break_notification`. -/
def encodeOplockBreakNotification (rep : OplockBreakNotification) (out : List Bytes) :
    Option (List Bytes) :=
  addVector (zeros OPLOCK_BREAK_REPLY_SIZE
    |> setUint16 0 OPLOCK_BREAK_REPLY_SIZE
    |> setUint8 2 rep.oplockLevel.toNat
    |> (patch · 8 rep.fileId.1)) out

/-- `smb2_encode_lease_break_reply`. -/
def encodeLeaseBreakReply (rep : LeaseBreakReply) (out : List Bytes) : Option (List Bytes) :=
  addVector (zeros LEASE_BREAK_REPLY_SIZE
    |> setUint16 0 LEASE_BREAK_REPLY_SIZE
    |> setUint32 4 rep.flags.toNat
    |> (patch · 8 rep.leaseKey.1)
    |> setUint32 24 rep.leaseState.toNat
    |> setUint32 28 rep.leaseDuration.toNat) out

/-- `smb2_encode_lease_break_notification`: flags, states, reason and hints all go to offset 4. -/
def encodeLeaseBreakNotification (req : LeaseBreakNotification) (out : List Bytes) :
    Option (List Bytes) :=
  addVector (zeros LEASE_BREAK_NOTIFICATION_SIZE
    |> setUint16 0 LEASE_BREAK_NOTIFICATION_SIZE
    |> setUint16 2 req.newEpoch.toNat
    |> setUint32 4 req.flags.toNat
    |> (patch · 8 req.leaseKey.1)
    |> setUint32 4 req.currentLeaseState.toNat
    |> setUint32 4 req.newLeaseState.toNat
    |> setUint32 4 req.breakReason.toNat
    |> setUint32 4 req.accessMaskHint.toNat
    |> setUint32 4 req.shareMaskHint.toNat) out

/-- The octets that are sent behind the header. -/
def Message.body (S : Settings) (version : Version) (passthrough : Bool) :
    Message → Option Bytes
  | .oplockNotification m => replyBody (encodeOplockBreakNotification m [zeros HEADER_SIZE])
  | .oplockResponse m => replyBody (encodeOplockBreakReply m [zeros HEADER_SIZE])
  | .oplockAcknowledge m =>
    (Cmd.oplockBreak m.oplockLevel.toNat m.fileId).body S version passthrough
  | .leaseNotification m => replyBody (encodeLeaseBreakNotification m [zeros HEADER_SIZE])
  | .leaseResponse m => replyBody (encodeLeaseBreakReply m [zeros HEADER_SIZE])
  | .leaseAcknowledge m =>
    (Cmd.leaseBreak m.flags.toNat m.leaseKey m.leaseState.toNat m.leaseDuration.toNat).body
      S version passthrough

/-! ## The union -/

/-- A member of a structure in the union `lock`: where it begins in the union, and its size. -/
structure Member where
  off : Nat
  size : Nat

namespace Member

/-- The octets of a member. -/
def get (m : Member) (lock : Bytes) : Bytes := slice lock m.off m.size

/-- Octets are stored in a member. -/
def put (m : Member) (octets lock : Bytes) : Bytes := patch lock m.off octets

/-- The members have no octet in common. -/
def Apart (m m' : Member) : Prop := m.off + m.size ≤ m'.off ∨ m'.off + m'.size ≤ m.off

instance (m m' : Member) : Decidable (m.Apart m') :=
  inferInstanceAs (Decidable (m.off + m.size ≤ m'.off ∨ m'.off + m'.size ≤ m.off))

/-! `struct smb2_oplock_break_notification` and its siblings. -/

def oplockLevel : Member := ⟨0, 1⟩
def fileId : Member := ⟨1, 16⟩

/-! `struct smb2_lease_break_notification`, where two octets follow the epoch. -/

def newEpoch : Member := ⟨0, 2⟩
def flags : Member := ⟨4, 4⟩
def leaseKey : Member := ⟨8, 16⟩
def currentLeaseState : Member := ⟨24, 4⟩
def newLeaseState : Member := ⟨28, 4⟩
def breakReason : Member := ⟨32, 4⟩
def accessMaskHint : Member := ⟨36, 4⟩
def shareMaskHint : Member := ⟨40, 4⟩

/-! `struct smb2_lease_break_reply` and `struct smb2_lease_break_acknowledgement`. -/

def replyFlags : Member := ⟨0, 4⟩
def replyLeaseKey : Member := ⟨4, 16⟩
def replyLeaseState : Member := ⟨20, 4⟩
def replyLeaseDuration : Member := ⟨24, 8⟩

end Member

/-- The size of the union in `struct smb2_oplock_or_lease_break_reply`. -/
def REPLY_LOCK_SIZE : Nat := 48

/-- The size of the union in `struct smb2_oplock_or_lease_break_request`. -/
def REQUEST_LOCK_SIZE : Nat := 32

/-- `struct smb2_oplock_or_lease_break_reply` or `_request` before its `break_type` is set. -/
structure Block where
  structSize : Nat
  lock : Bytes

/-- The same block when it has been filled in. -/
structure Received where
  breakType : BreakType
  lock : Bytes

/-! ## Decoders -/

/-- `smb2_get_uint*` into a member. -/
def getInto (v : Window) (off : Nat) (m : Member) (lock : Bytes) : Except Overrun Bytes :=
  (v.get m.size off (fromLe (m.get lock))).map fun value => m.put (le m.size value) lock

/-- `memcpy` into a member. -/
def copyInto (v : Window) (off : Nat) (m : Member) (lock : Bytes) : Except Overrun Bytes :=
  (v.read off m.size).map fun octets => m.put octets lock

/-- `smb2_process_oplock_break_fixed` with a block that holds `memory`. -/
def processOplockBreakFixed (memory : Memory) (iov : Bytes) : Except String (Int × Block) :=
  let structSize := fromLe (slice iov 0 2)
  if structSize = OPLOCK_BREAK_REPLY_SIZE ∨ structSize = LEASE_BREAK_NOTIFICATION_SIZE ∨
      structSize = LEASE_BREAK_REPLY_SIZE then
    .ok ((structSize : Int) - 2, ⟨structSize, memory.read REPLY_LOCK_SIZE⟩)
  else .error ("Unexpected size of oplock or lease break noiify/reply. Expected " ++
    toString OPLOCK_BREAK_REPLY_SIZE ++ " or " ++ toString LEASE_BREAK_REPLY_SIZE ++ ", got " ++
    toString structSize)

/-- `smb2_process_oplock_break_variable`; `none` is -1.  The size has been read, so that the offsets
are those of the structure less two. -/
def processOplockBreakVariable (messageId : Nat) (rep : Block) (iov : Bytes) :
    Except Overrun (Option Received) :=
  let v := Window.whole iov
  if rep.structSize = OPLOCK_BREAK_NOTIFICATION_SIZE then do
    let breakType := if messageId = 0xffffffffffffffff then .oplockNotification else .oplockResponse
    let lock ← getInto v 0 .oplockLevel rep.lock
    let lock ← copyInto v 6 .fileId lock
    .ok (some ⟨breakType, lock⟩)
  else if rep.structSize = LEASE_BREAK_NOTIFICATION_SIZE then do
    let lock ← getInto v 0 .newEpoch rep.lock
    let lock ← getInto v 2 .flags lock
    let lock ← copyInto v 6 .leaseKey lock
    let lock ← getInto v 22 .currentLeaseState lock
    let lock ← getInto v 26 .newLeaseState lock
    let lock ← getInto v 30 .breakReason lock
    let lock ← getInto v 34 .accessMaskHint lock
    let lock ← getInto v 38 .shareMaskHint lock
    .ok (some ⟨.leaseNotification, lock⟩)
  else if rep.structSize = LEASE_BREAK_REPLY_SIZE then do
    let lock ← getInto v 2 .replyFlags rep.lock
    -- the member is that of a notification
    let lock ← copyInto v 6 .leaseKey lock
    let lock ← getInto v 22 .replyLeaseState lock
    let lock ← getInto v 26 .replyLeaseDuration lock
    .ok (some ⟨.leaseResponse, lock⟩)
  else .ok none

/-- `smb2_process_oplock_break_request_fixed`. -/
def processOplockBreakRequestFixed (memory : Memory) (iov : Bytes) :
    Except String (Int × Block) :=
  let structSize := fromLe (slice iov 0 2)
  if structSize = OPLOCK_BREAK_ACKNOWLEDGE_SIZE ∨ structSize = LEASE_BREAK_ACKNOWLEDGE_SIZE then
    .ok ((structSize : Int) - 2, ⟨structSize, memory.read REQUEST_LOCK_SIZE⟩)
  else .error ("Unexpected size of oplock or lease break acknowledge. Expected " ++
    toString OPLOCK_BREAK_ACKNOWLEDGE_SIZE ++ " or " ++ toString LEASE_BREAK_ACKNOWLEDGE_SIZE ++
    ", got " ++ toString structSize)

/-- `smb2_process_oplock_break_request_variable`; `none` is -1. -/
def processOplockBreakRequestVariable (req : Block) (iov : Bytes) :
    Except Overrun (Option Received) :=
  let v := Window.whole iov
  if req.structSize = OPLOCK_BREAK_ACKNOWLEDGE_SIZE then do
    let lock ← getInto v 0 .oplockLevel req.lock
    let lock ← copyInto v 6 .fileId lock
    .ok (some ⟨.oplockAcknowledge, lock⟩)
  else if req.structSize = LEASE_BREAK_ACKNOWLEDGE_SIZE then do
    let lock ← getInto v 2 .replyFlags req.lock
    let lock ← copyInto v 6 .replyLeaseKey lock
    let lock ← getInto v 22 .replyLeaseState lock
    let lock ← getInto v 26 .replyLeaseDuration lock
    .ok (some ⟨.leaseAcknowledge, lock⟩)
  else .ok none

/-- What a client makes of the octets behind the header. -/
def decodeOplockBreak (memory : Memory) (messageId : Nat) (body : Bytes) :
    Except Overrun (Option (Block × Option Received)) :=
  decodeBody 2 (fun iov => (processOplockBreakFixed memory iov).toOption)
    (processOplockBreakVariable messageId) body

/-- What a server makes of them. -/
def decodeOplockBreakRequest (memory : Memory) (body : Bytes) :
    Except Overrun (Option (Block × Option Received)) :=
  decodeBody 2 (fun iov => (processOplockBreakRequestFixed memory iov).toOption)
    processOplockBreakRequestVariable body

/-! ## What comes back -/

/-- What the other party makes of the octets behind the header. -/
def Message.decode (m : Message) (memory : Memory) (messageId : Nat) (body : Bytes) :
    Except Overrun (Option (Block × Option Received)) :=
  if m.breakType.acknowledges then decodeOplockBreakRequest memory body
  else decodeOplockBreak memory messageId body

/-- The members of the structure for an oplock break, and what they are to hold. -/
def OplockBreakNotification.members (m : OplockBreakNotification) : List (Member × Bytes) :=
  [(.oplockLevel, le 1 m.oplockLevel.toNat), (.fileId, m.fileId.1)]

def LeaseBreakNotification.members (m : LeaseBreakNotification) : List (Member × Bytes) :=
  [(.newEpoch, le 2 m.newEpoch.toNat), (.flags, le 4 m.flags.toNat), (.leaseKey, m.leaseKey.1),
    (.currentLeaseState, le 4 m.currentLeaseState.toNat),
    (.newLeaseState, le 4 m.newLeaseState.toNat), (.breakReason, le 4 m.breakReason.toNat),
    (.accessMaskHint, le 4 m.accessMaskHint.toNat), (.shareMaskHint, le 4 m.shareMaskHint.toNat)]

def LeaseBreakReply.members (m : LeaseBreakReply) : List (Member × Bytes) :=
  [(.replyFlags, le 4 m.flags.toNat), (.replyLeaseKey, m.leaseKey.1),
    (.replyLeaseState, le 4 m.leaseState.toNat), (.replyLeaseDuration, le 8 m.leaseDuration.toNat)]

def Message.members : Message → List (Member × Bytes)
  | .oplockNotification m => m.members
  | .oplockResponse m => m.members
  | .oplockAcknowledge m => m.members
  | .leaseNotification m => m.members
  | .leaseResponse m => m.members
  | .leaseAcknowledge m => m.members

/-- The block tells of the same kind of message, and its structure for that kind is the one that was
sent. -/
structure Message.Returned (m : Message) (r : Received) : Prop where
  breakType : r.breakType = m.breakType
  members : ∀ f ∈ m.members, f.1.get r.lock = f.2

/-- The message is sent, and decoded as it was. -/
def Message.ComesBack (m : Message) (memory : Memory) (messageId : Nat) : Prop :=
  ∀ S version passthrough, ∃ body b r, m.body S version passthrough = some body ∧
    m.decode memory messageId body = .ok (some (b, some r)) ∧ m.Returned r

/-- What a lease break has to be for its fields not to be lost, in a block that holds `memory`. -/
def Message.Spared (memory : Memory) : Message → Prop
  | .leaseNotification m => m.flags = 0 ∧ m.currentLeaseState = 0 ∧ m.newLeaseState = 0 ∧
      m.breakReason = 0 ∧ m.accessMaskHint = 0 ∧ m.shareMaskHint = 0
  | .leaseResponse m => m.leaseDuration.toNat < 2 ^ 32 ∧
      slice (memory.read REPLY_LOCK_SIZE) 4 4 ++ m.leaseKey.1.take 12 = m.leaseKey.1
  | .leaseAcknowledge m => m.flags = 0 ∧ m.leaseState = 0 ∧ m.leaseDuration = 0
  | _ => True

/-! ## Members -/

section
variable {m m' : Member} {octets lock iov : Bytes} {off : Nat}

theorem Member.length_put (hlen : octets.length = m.size) (hin : m.off + m.size ≤ lock.length) :
    (m.put octets lock).length = lock.length := length_patch (by omega)

/-- What has been stored in a member is read from it. -/
theorem Member.get_put_same (hlen : octets.length = m.size) (hin : m.off ≤ lock.length) :
    m.get (m.put octets lock) = octets := by
  have hsame : slice (patch lock m.off octets) m.off octets.length = octets := slice_patch_same hin
  rwa [hlen] at hsame

/-- What is stored in another member does not change it. -/
theorem Member.get_put_apart (hapart : m.Apart m') (hlen : octets.length = m'.size)
    (hin : m'.off ≤ lock.length) : m.get (m'.put octets lock) = m.get lock := by
  rcases hapart with hbefore | hbehind
  · exact slice_patch_before hbefore hin
  · exact slice_patch_after hin (by omega)

theorem length_slice_of_le {n : Nat} (h : off + n ≤ iov.length) : (slice iov off n).length = n := by
  rw [length_slice]
  omega

/-- A field that is there is stored as it is. -/
theorem getInto_whole (h : off + m.size ≤ iov.length) :
    getInto (Window.whole iov) off m lock = .ok (m.put (slice iov off m.size) lock) := by
  have hback : le m.size (fromLe (slice iov off m.size)) = slice iov off m.size := by
    have hle := le_fromLe (slice iov off m.size)
    rwa [length_slice_of_le h] at hle
  unfold getInto Window.get
  rw [Window.whole_len, if_neg (by omega), Window.read_of_le h]
  simp only [Except.map, Window.whole_octets, hback]

theorem copyInto_whole (h : off + m.size ≤ iov.length) :
    copyInto (Window.whole iov) off m lock = .ok (m.put (slice iov off m.size) lock) := by
  unfold copyInto
  rw [Window.read_of_le h]
  rfl

end

/-! ## Decoding -/

section
variable {memory : Memory} {messageId n k : Nat} {buf lock : Bytes}

/-- The block in which a client decodes a message of `n` octets. -/
def replyBlock (memory : Memory) (n : Nat) : Block := ⟨n, memory.read REPLY_LOCK_SIZE⟩

/-- The block in which a server does. -/
def requestBlock (memory : Memory) (n : Nat) : Block := ⟨n, memory.read REQUEST_LOCK_SIZE⟩

/-- The first two octets of a message are its fixed part, and ask for the others. -/
theorem decodeBody_size {α β : Type} {fixed : Bytes → Option (Int × α)} {payload : α}
    {variablePart : α → Bytes → Except Overrun (Option β)} (hlen : buf.length = n) (hn : 2 < n)
    (hfixed : fixed (buf.take 2) = some ((n : Int) - 2, payload)) :
    decodeBody 2 fixed variablePart (buf ++ zeros k) =
      (variablePart payload (buf.drop 2)).map (Option.map fun b => (payload, some b)) := by
  have hfixed : fixed (buf.take 2) = some (((n - 2 : Nat) : Int), payload) := by
    rw [hfixed, Int.ofNat_sub (by omega)]
    rfl
  have htail : (buf.drop 2 ++ zeros k).take (n - 2) = buf.drop 2 :=
    List.take_left' (by rw [List.length_drop, hlen])
  have hsplit : buf ++ zeros k = buf.take 2 ++ (buf.drop 2 ++ zeros k) := by
    rw [← List.append_assoc, List.take_append_drop]
  rw [hsplit, decodeBody_of_pos (by rw [List.length_take]; omega) hfixed (by omega)
    (by rw [List.length_append, List.length_drop]; omega), htail]

theorem slice_size (hsize : fromLe (slice buf 0 2) = n) : fromLe (slice (buf.take 2) 0 2) = n := by
  have hhead : slice (buf.take 2) 0 2 = slice buf 0 2 := by simp [slice]
  rwa [hhead]

/-- A client decodes what follows the size of a structure that it knows. -/
theorem decodeOplockBreak_eq (hlen : buf.length = n) (hsize : fromLe (slice buf 0 2) = n)
    (hknown : n = OPLOCK_BREAK_REPLY_SIZE ∨ n = LEASE_BREAK_NOTIFICATION_SIZE ∨
      n = LEASE_BREAK_REPLY_SIZE) :
    decodeOplockBreak memory messageId (buf ++ zeros k) =
      (processOplockBreakVariable messageId (replyBlock memory n) (buf.drop 2)).map
        (Option.map fun r => (replyBlock memory n, some r)) := by
  have hn : 2 < n := by
    rcases hknown with rfl | rfl | rfl <;> simp [OPLOCK_BREAK_REPLY_SIZE,
      LEASE_BREAK_NOTIFICATION_SIZE, LEASE_BREAK_REPLY_SIZE]
  refine decodeBody_size hlen hn ?_
  unfold processOplockBreakFixed
  simp only [slice_size hsize, if_pos hknown]
  rfl

/-- And so does a server. -/
theorem decodeOplockBreakRequest_eq (hlen : buf.length = n) (hsize : fromLe (slice buf 0 2) = n)
    (hknown : n = OPLOCK_BREAK_ACKNOWLEDGE_SIZE ∨ n = LEASE_BREAK_ACKNOWLEDGE_SIZE) :
    decodeOplockBreakRequest memory (buf ++ zeros k) =
      (processOplockBreakRequestVariable (requestBlock memory n) (buf.drop 2)).map
        (Option.map fun r => (requestBlock memory n, some r)) := by
  have hn : 2 < n := by
    rcases hknown with rfl | rfl <;> simp [OPLOCK_BREAK_ACKNOWLEDGE_SIZE,
      LEASE_BREAK_ACKNOWLEDGE_SIZE]
  refine decodeBody_size hlen hn ?_
  unfold processOplockBreakRequestFixed
  simp only [slice_size hsize, if_pos hknown]
  rfl

/-! ## The variable parts -/

theorem slice_behind {off w : Nat} : slice (buf.drop 2) off w = slice buf (off + 2) w := by
  simp [slice, Nat.add_comm]

/-- Fields of a message that are stored one after another, each with the member it goes to. -/
def stored (buf : Bytes) (stores : List (Nat × Member)) (lock : Bytes) : Bytes :=
  stores.foldl (fun lock s => s.2.put (slice buf s.1 s.2.size) lock) lock

/-- Where the fields of an oplock break are found and go. -/
def oplockStores : List (Nat × Member) := [(2, .oplockLevel), (8, .fileId)]

def noticeStores : List (Nat × Member) :=
  [(2, .newEpoch), (4, .flags), (8, .leaseKey), (24, .currentLeaseState), (28, .newLeaseState),
    (32, .breakReason), (36, .accessMaskHint), (40, .shareMaskHint)]

/-- Where those of a lease break response or acknowledgement do, the key to this member. -/
def leaseStores (key : Member) : List (Nat × Member) :=
  [(4, .replyFlags), (8, key), (24, .replyLeaseState), (28, .replyLeaseDuration)]

theorem processOplockBreakVariable_oplock (hlen : buf.length = 24) :
    processOplockBreakVariable messageId ⟨24, lock⟩ (buf.drop 2) =
      .ok (some ⟨if messageId = 0xffffffffffffffff then .oplockNotification else .oplockResponse,
        stored buf oplockStores lock⟩) := by
  have htail : (buf.drop 2).length = 22 := by rw [List.length_drop, hlen]
  unfold processOplockBreakVariable
  dsimp only
  rw [if_pos (show 24 = OPLOCK_BREAK_NOTIFICATION_SIZE from rfl),
    getInto_whole (by simp [htail, Member.oplockLevel]), ok_bind,
    copyInto_whole (by simp [htail, Member.fileId]), ok_bind]
  simp only [slice_behind]
  rfl

theorem processOplockBreakVariable_notice (hlen : buf.length = 44) :
    processOplockBreakVariable messageId ⟨44, lock⟩ (buf.drop 2) =
      .ok (some ⟨.leaseNotification, stored buf noticeStores lock⟩) := by
  have htail : (buf.drop 2).length = 42 := by rw [List.length_drop, hlen]
  unfold processOplockBreakVariable
  dsimp only
  rw [if_neg (by simp [OPLOCK_BREAK_NOTIFICATION_SIZE]),
    if_pos (show 44 = LEASE_BREAK_NOTIFICATION_SIZE from rfl),
    getInto_whole (by simp [htail, Member.newEpoch]), ok_bind,
    getInto_whole (by simp [htail, Member.flags]), ok_bind,
    copyInto_whole (by simp [htail, Member.leaseKey]), ok_bind,
    getInto_whole (by simp [htail, Member.currentLeaseState]), ok_bind,
    getInto_whole (by simp [htail, Member.newLeaseState]), ok_bind,
    getInto_whole (by simp [htail, Member.breakReason]), ok_bind,
    getInto_whole (by simp [htail, Member.accessMaskHint]), ok_bind,
    getInto_whole (by simp [htail, Member.shareMaskHint]), ok_bind]
  simp only [slice_behind]
  rfl

theorem processOplockBreakVariable_response (hlen : buf.length = 36) :
    processOplockBreakVariable messageId ⟨36, lock⟩ (buf.drop 2) =
      .ok (some ⟨.leaseResponse, stored buf (leaseStores .leaseKey) lock⟩) := by
  have htail : (buf.drop 2).length = 34 := by rw [List.length_drop, hlen]
  unfold processOplockBreakVariable
  dsimp only
  rw [if_neg (by simp [OPLOCK_BREAK_NOTIFICATION_SIZE]),
    if_neg (by simp [LEASE_BREAK_NOTIFICATION_SIZE]),
    if_pos (show 36 = LEASE_BREAK_REPLY_SIZE from rfl),
    getInto_whole (by simp [htail, Member.replyFlags]), ok_bind,
    copyInto_whole (by simp [htail, Member.leaseKey]), ok_bind,
    getInto_whole (by simp [htail, Member.replyLeaseState]), ok_bind,
    getInto_whole (by simp [htail, Member.replyLeaseDuration]), ok_bind]
  simp only [slice_behind]
  rfl

theorem processOplockBreakRequestVariable_oplock (hlen : buf.length = 24) :
    processOplockBreakRequestVariable ⟨24, lock⟩ (buf.drop 2) =
      .ok (some ⟨.oplockAcknowledge, stored buf oplockStores lock⟩) := by
  have htail : (buf.drop 2).length = 22 := by rw [List.length_drop, hlen]
  unfold processOplockBreakRequestVariable
  dsimp only
  rw [if_pos (show 24 = OPLOCK_BREAK_ACKNOWLEDGE_SIZE from rfl),
    getInto_whole (by simp [htail, Member.oplockLevel]), ok_bind,
    copyInto_whole (by simp [htail, Member.fileId]), ok_bind]
  simp only [slice_behind]
  rfl

theorem processOplockBreakRequestVariable_lease (hlen : buf.length = 36) :
    processOplockBreakRequestVariable ⟨36, lock⟩ (buf.drop 2) =
      .ok (some ⟨.leaseAcknowledge, stored buf (leaseStores .replyLeaseKey) lock⟩) := by
  have htail : (buf.drop 2).length = 34 := by rw [List.length_drop, hlen]
  unfold processOplockBreakRequestVariable
  dsimp only
  rw [if_neg (by simp [OPLOCK_BREAK_ACKNOWLEDGE_SIZE]),
    if_pos (show 36 = LEASE_BREAK_ACKNOWLEDGE_SIZE from rfl),
    getInto_whole (by simp [htail, Member.replyFlags]), ok_bind,
    copyInto_whole (by simp [htail, Member.replyLeaseKey]), ok_bind,
    getInto_whole (by simp [htail, Member.replyLeaseState]), ok_bind,
    getInto_whole (by simp [htail, Member.replyLeaseDuration]), ok_bind]
  simp only [slice_behind]
  rfl

end

/-! ## What the union holds -/

section
variable {buf lock : Bytes} {m : Member} {stores : List (Nat × Member)}

/-- The fields are in the message, and the members in the union. -/
def Fits (stores : List (Nat × Member)) (buf lock : Bytes) : Prop :=
  ∀ s ∈ stores, s.1 + s.2.size ≤ buf.length ∧ s.2.off + s.2.size ≤ lock.length

theorem Fits.length_put {s : Nat × Member} (h : Fits (s :: stores) buf lock) :
    (s.2.put (slice buf s.1 s.2.size) lock).length = lock.length := by
  obtain ⟨hbuf, hlock⟩ := h s List.mem_cons_self
  exact Member.length_put (length_slice_of_le hbuf) hlock

theorem Fits.tail {s : Nat × Member} (h : Fits (s :: stores) buf lock) :
    Fits stores buf (s.2.put (slice buf s.1 s.2.size) lock) := by
  intro t ht
  rw [h.length_put]
  exact h t (List.mem_cons_of_mem s ht)

theorem stored_cons (s : Nat × Member) :
    stored buf (s :: stores) lock = stored buf stores (s.2.put (slice buf s.1 s.2.size) lock) := rfl

/-- A member that no store overlaps is what it was. -/
theorem get_stored_apart (hfits : Fits stores buf lock) (hapart : ∀ s ∈ stores, m.Apart s.2) :
    m.get (stored buf stores lock) = m.get lock := by
  induction stores generalizing lock with
  | nil => rfl
  | cons s stores ih =>
    obtain ⟨hbuf, hlock⟩ := hfits s List.mem_cons_self
    have htail := ih hfits.tail (fun t ht => hapart t (List.mem_cons_of_mem s ht))
    have hhead : m.get (s.2.put (slice buf s.1 s.2.size) lock) = m.get lock :=
      Member.get_put_apart (hapart s List.mem_cons_self) (length_slice_of_le hbuf)
        (Nat.le_of_add_right_le hlock)
    exact htail.trans hhead

/-- A field is in its member if no later store overlaps that. -/
theorem get_stored_head {off : Nat} (hfits : Fits ((off, m) :: stores) buf lock)
    (hapart : ∀ s ∈ stores, m.Apart s.2) :
    m.get (stored buf ((off, m) :: stores) lock) = slice buf off m.size := by
  obtain ⟨hbuf, hlock⟩ := hfits (off, m) List.mem_cons_self
  have htail := get_stored_apart hfits.tail hapart
  exact htail.trans
    (Member.get_put_same (length_slice_of_le hbuf) (Nat.le_of_add_right_le hlock))

/-- **Where no two members overlap** every field is in its member. -/
theorem get_stored (hfits : Fits stores buf lock)
    (hapart : stores.Pairwise fun s t => s.2.Apart t.2) :
    ∀ s ∈ stores, s.2.get (stored buf stores lock) = slice buf s.1 s.2.size := by
  induction stores generalizing lock with
  | nil => intro s hs; cases hs
  | cons t stores ih =>
    intro s hs
    obtain ⟨hhead, htail⟩ := List.pairwise_cons.mp hapart
    rcases List.mem_cons.mp hs with rfl | hs
    · exact get_stored_head hfits hhead
    · exact ih hfits.tail htail s hs

end

/-! ## What is sent -/

/-- The vector of an oplock break. -/
def oplockVector (m : OplockBreakNotification) : Bytes :=
  zeros 24
    |> setUint16 0 24
    |> setUint8 2 m.oplockLevel.toNat
    |> (patch · 8 m.fileId.1)

/-- The vector of a lease break notification. -/
def noticeVector (m : LeaseBreakNotification) : Bytes :=
  zeros 44
    |> setUint16 0 44
    |> setUint16 2 m.newEpoch.toNat
    |> setUint32 4 m.flags.toNat
    |> (patch · 8 m.leaseKey.1)
    |> setUint32 4 m.currentLeaseState.toNat
    |> setUint32 4 m.newLeaseState.toNat
    |> setUint32 4 m.breakReason.toNat
    |> setUint32 4 m.accessMaskHint.toNat
    |> setUint32 4 m.shareMaskHint.toNat

/-- The vector of a lease break response. -/
def responseVector (m : LeaseBreakReply) : Bytes :=
  zeros 36
    |> setUint16 0 36
    |> setUint32 4 m.flags.toNat
    |> (patch · 8 m.leaseKey.1)
    |> setUint32 24 m.leaseState.toNat
    |> setUint32 28 m.leaseDuration.toNat

/-- The vector of a lease break acknowledgement. -/
def acknowledgeVector (m : LeaseBreakAcknowledgement) : Bytes :=
  zeros 36
    |> setUint16 0 36
    |> setUint32 4 m.flags.toNat
    |> (patch · 8 m.leaseKey.1)
    |> setUint32 4 m.leaseState.toNat
    |> setUint32 4 m.leaseDuration.toNat

/-- The vector of a message. -/
def Message.vector : Message → Bytes
  | .oplockNotification m => oplockVector m
  | .oplockResponse m => oplockVector m
  | .oplockAcknowledge m => oplockVector m
  | .leaseNotification m => noticeVector m
  | .leaseResponse m => responseVector m
  | .leaseAcknowledge m => acknowledgeVector m

section
variable {S : Settings} {version : Version} {passthrough : Bool}

theorem replyBody_addVector (buf : Bytes) :
    ∃ k, replyBody (addVector buf [zeros HEADER_SIZE]) = some (buf ++ zeros k) := by
  obtain ⟨k, -, hbody⟩ := replyBody_of_lt [buf] (by simp [MAX_VECTORS])
  rw [List.flatten_singleton] at hbody
  exact ⟨k, hbody⟩

/-- **What is sent behind the header** is one vector, and padding. -/
theorem Message.body_eq (m : Message) (S : Settings) (version : Version) (passthrough : Bool) :
    ∃ k, m.body S version passthrough = some (m.vector ++ zeros k) := by
  cases m with
  | oplockNotification m => exact replyBody_addVector (oplockVector m)
  | oplockResponse m => exact replyBody_addVector (oplockVector m)
  | leaseNotification m => exact replyBody_addVector (noticeVector m)
  | leaseResponse m => exact replyBody_addVector (responseVector m)
  | oplockAcknowledge m =>
    have henc : (Cmd.oplockBreak m.oplockLevel.toNat m.fileId).encode S version passthrough
        [zeros HEADER_SIZE] = some (zeros HEADER_SIZE :: [oplockVector m]) := rfl
    obtain ⟨k, hbody⟩ := Cmd.body_of_encode (by simp [MAX_VECTORS]) (fun _ => rfl) henc
    rw [List.flatten_singleton] at hbody
    exact ⟨k, hbody⟩
  | leaseAcknowledge m =>
    have henc : (Cmd.leaseBreak m.flags.toNat m.leaseKey m.leaseState.toNat
        m.leaseDuration.toNat).encode S version passthrough [zeros HEADER_SIZE] =
        some (zeros HEADER_SIZE :: [acknowledgeVector m]) := rfl
    obtain ⟨k, hbody⟩ := Cmd.body_of_encode (by simp [MAX_VECTORS]) (fun _ => rfl) henc
    rw [List.flatten_singleton] at hbody
    exact ⟨k, hbody⟩

end

/-! ## The fields of the vectors -/

theorem slice_patch_key {bs : Bytes} {off : Nat} (key : Octets 16) (h : off ≤ bs.length) :
    slice (patch bs off key.1) off 16 = key.1 := slice_patch_fileId key h

section
variable (m : OplockBreakNotification) (n : LeaseBreakNotification) (r : LeaseBreakReply)

theorem length_oplockVector : (oplockVector m).length = 24 := by
  have hid := m.fileId.2
  simp [oplockVector, length_patch, hid]

theorem length_noticeVector : (noticeVector n).length = 44 := by
  have hkey := n.leaseKey.2
  simp [noticeVector, length_patch, hkey]

theorem length_responseVector : (responseVector r).length = 36 := by
  have hkey := r.leaseKey.2
  simp [responseVector, length_patch, hkey]

theorem length_acknowledgeVector : (acknowledgeVector r).length = 36 := by
  have hkey := r.leaseKey.2
  simp [acknowledgeVector, length_patch, hkey]

/-- What the vector of an oplock break holds. -/
theorem oplockVector_fields :
    fromLe (slice (oplockVector m) 0 2) = 24 ∧
      slice (oplockVector m) 2 1 = le 1 m.oplockLevel.toNat ∧
      slice (oplockVector m) 8 16 = m.fileId.1 := by
  have hid := m.fileId.2
  unfold oplockVector
  simp (disch := simp [length_setUint, length_patch, hid]) only [setUint8, setUint16,
    slice_setUint_before, slice_setUint_same, slice_patch_before, slice_patch_fileId, fromLe_le]
  simp

/-- Of the fields of a notification behind its epoch and its key the last has remained. -/
theorem noticeVector_fields :
    fromLe (slice (noticeVector n) 0 2) = 44 ∧
      slice (noticeVector n) 2 2 = le 2 n.newEpoch.toNat ∧
      slice (noticeVector n) 4 4 = le 4 n.shareMaskHint.toNat ∧
      slice (noticeVector n) 8 16 = n.leaseKey.1 ∧
      slice (noticeVector n) 24 20 = zeros 20 := by
  have hkey := n.leaseKey.2
  unfold noticeVector
  simp (disch := simp [length_setUint, length_patch, hkey]) only [setUint16, setUint32,
    slice_setUint_before, slice_setUint_same, slice_setUint_after, slice_patch_before,
    slice_patch_key, slice_patch_after, fromLe_le]
  simp [slice, zeros]

/-- The fields of a response are where they belong, but four octets of the duration. -/
theorem responseVector_fields :
    fromLe (slice (responseVector r) 0 2) = 36 ∧
      slice (responseVector r) 4 4 = le 4 r.flags.toNat ∧
      slice (responseVector r) 8 16 = r.leaseKey.1 ∧
      slice (responseVector r) 24 4 = le 4 r.leaseState.toNat ∧
      slice (responseVector r) 28 4 = le 4 r.leaseDuration.toNat ∧
      slice (responseVector r) 32 4 = zeros 4 := by
  have hkey := r.leaseKey.2
  unfold responseVector
  simp (disch := simp [length_setUint, length_patch, hkey]) only [setUint16, setUint32,
    slice_setUint_before, slice_setUint_same, slice_setUint_after, slice_patch_before,
    slice_patch_key, slice_patch_after, fromLe_le]
  simp [slice, zeros]

/-- In an acknowledgement the duration is where the flags belong. -/
theorem acknowledgeVector_fields :
    fromLe (slice (acknowledgeVector r) 0 2) = 36 ∧
      slice (acknowledgeVector r) 4 4 = le 4 r.leaseDuration.toNat ∧
      slice (acknowledgeVector r) 8 16 = r.leaseKey.1 ∧
      slice (acknowledgeVector r) 24 12 = zeros 12 := by
  have hkey := r.leaseKey.2
  unfold acknowledgeVector
  simp (disch := simp [length_setUint, length_patch, hkey]) only [setUint16, setUint32,
    slice_setUint_before, slice_setUint_same, slice_setUint_after, slice_patch_before,
    slice_patch_key, slice_patch_after, fromLe_le]
  simp [slice, zeros]

end

/-! ## What is received -/

namespace Message

/-- Where the fields of a message are found and go. -/
def stores : Message → List (Nat × Member)
  | oplockNotification _ | oplockResponse _ | oplockAcknowledge _ => oplockStores
  | leaseNotification _ => noticeStores
  | leaseResponse _ => leaseStores .leaseKey
  | leaseAcknowledge _ => leaseStores .replyLeaseKey

/-- The block that a message is decoded into. -/
def block (m : Message) (memory : Memory) : Block :=
  if m.breakType.acknowledges then requestBlock memory m.vector.length
  else replyBlock memory m.vector.length

/-- The union of a message that has been decoded. -/
def union (m : Message) (memory : Memory) : Bytes :=
  stored m.vector m.stores (m.block memory).lock

section
variable {m : Message} {memory : Memory} {messageId n k : Nat} {r : Received}

/-- What a client makes of the variable part. -/
theorem decode_reply (hkind : m.breakType.acknowledges = false) (hlen : m.vector.length = n)
    (hsize : fromLe (slice m.vector 0 2) = n)
    (hknown : n = OPLOCK_BREAK_REPLY_SIZE ∨ n = LEASE_BREAK_NOTIFICATION_SIZE ∨
      n = LEASE_BREAK_REPLY_SIZE)
    (hvariable : processOplockBreakVariable messageId ⟨n, memory.read REPLY_LOCK_SIZE⟩
      (m.vector.drop 2) = .ok (some r)) :
    m.decode memory messageId (m.vector ++ zeros k) = .ok (some (m.block memory, some r)) := by
  have hblock : m.block memory = ⟨n, memory.read REPLY_LOCK_SIZE⟩ := by
    rw [block, hkind, hlen]
    rfl
  rw [decode, hkind, if_neg Bool.false_ne_true, decodeOplockBreak_eq hlen hsize hknown, replyBlock,
    hvariable, hblock]
  rfl

/-- What a server makes of it. -/
theorem decode_request (hkind : m.breakType.acknowledges = true) (hlen : m.vector.length = n)
    (hsize : fromLe (slice m.vector 0 2) = n)
    (hknown : n = OPLOCK_BREAK_ACKNOWLEDGE_SIZE ∨ n = LEASE_BREAK_ACKNOWLEDGE_SIZE)
    (hvariable : processOplockBreakRequestVariable ⟨n, memory.read REQUEST_LOCK_SIZE⟩
      (m.vector.drop 2) = .ok (some r)) :
    m.decode memory messageId (m.vector ++ zeros k) = .ok (some (m.block memory, some r)) := by
  have hblock : m.block memory = ⟨n, memory.read REQUEST_LOCK_SIZE⟩ := by
    rw [block, hkind, hlen]
    rfl
  rw [decode, hkind, if_pos rfl, decodeOplockBreakRequest_eq hlen hsize hknown, requestBlock,
    hvariable, hblock]
  rfl

/-- **Every message is known for what it is**, and its fields are stored one after another. -/
theorem decode_vector (hid : m.breakType.acknowledges = false →
      (messageId = 0xffffffffffffffff ↔ m.breakType.notifies = true)) :
    m.decode memory messageId (m.vector ++ zeros k) =
      .ok (some (m.block memory, some ⟨m.breakType, m.union memory⟩)) := by
  cases m with
  | oplockNotification m =>
    have hlen := length_oplockVector m
    have hbreak : messageId = 0xffffffffffffffff := (hid rfl).mpr rfl
    refine decode_reply rfl hlen (oplockVector_fields m).1 (.inl rfl) ?_
    rw [vector, processOplockBreakVariable_oplock hlen, if_pos hbreak]
    rfl
  | oplockResponse m =>
    have hlen := length_oplockVector m
    have hbreak : ¬ messageId = 0xffffffffffffffff :=
      fun h => Bool.false_ne_true ((hid rfl).mp h)
    refine decode_reply rfl hlen (oplockVector_fields m).1 (.inl rfl) ?_
    rw [vector, processOplockBreakVariable_oplock hlen, if_neg hbreak]
    rfl
  | leaseNotification m =>
    have hlen := length_noticeVector m
    refine decode_reply rfl hlen (noticeVector_fields m).1 (.inr (.inl rfl)) ?_
    exact processOplockBreakVariable_notice hlen
  | leaseResponse m =>
    have hlen := length_responseVector m
    refine decode_reply rfl hlen (responseVector_fields m).1 (.inr (.inr rfl)) ?_
    exact processOplockBreakVariable_response hlen
  | oplockAcknowledge m =>
    have hlen := length_oplockVector m
    refine decode_request rfl hlen (oplockVector_fields m).1 (.inl rfl) ?_
    exact processOplockBreakRequestVariable_oplock hlen
  | leaseAcknowledge m =>
    have hlen := length_acknowledgeVector m
    refine decode_request rfl hlen (acknowledgeVector_fields m).1 (.inr rfl) ?_
    exact processOplockBreakRequestVariable_lease hlen

/-- So it comes back if the union holds what its structure is to hold. -/
theorem comesBack_iff (hid : m.breakType.acknowledges = false →
      (messageId = 0xffffffffffffffff ↔ m.breakType.notifies = true)) :
    m.ComesBack memory messageId ↔ ∀ f ∈ m.members, f.1.get (m.union memory) = f.2 := by
  constructor
  · intro h
    obtain ⟨body, b, r, hbody, hdecode, hr⟩ := h {} .any false
    obtain ⟨k, hsent⟩ := m.body_eq {} .any false
    obtain rfl := Option.some.inj (hsent.symm.trans hbody)
    rw [decode_vector hid] at hdecode
    cases hdecode
    exact hr.members
  · intro h S version passthrough
    obtain ⟨k, hsent⟩ := m.body_eq S version passthrough
    exact ⟨_, _, _, hsent, decode_vector hid, rfl, h⟩

end

end Message

/-! ## What is lost -/

section
variable {lock : Bytes}

theorem slice_zeros {o n k : Nat} (h : o + n ≤ k) : slice (zeros k) o n = zeros n := by
  unfold slice zeros
  rw [List.drop_replicate, List.take_replicate, Nat.min_eq_left (by omega)]

theorem le_inj {k a b : Nat} (ha : a < 256 ^ k) (hb : b < 256 ^ k) : le k a = le k b ↔ a = b := by
  constructor
  · intro h
    have hback := congrArg fromLe h
    rwa [fromLe_le, fromLe_le, Nat.mod_eq_of_lt ha, Nat.mod_eq_of_lt hb] at hback
  · intro h
    rw [h]

theorem le_toNat32 {a b : UInt32} : le 4 a.toNat = le 4 b.toNat ↔ a = b := by
  rw [le_inj a.toNat_lt b.toNat_lt]
  exact UInt32.toNat_inj

theorem zeros_eq_le32 {a : UInt32} : zeros 4 = le 4 a.toNat ↔ a = 0 := by
  have hzeros : zeros 4 = le 4 (0 : UInt32).toNat := rfl
  rw [hzeros, le_toNat32]
  exact eq_comm

theorem fromLe_append_zeros (bs : Bytes) (k : Nat) : fromLe (bs ++ zeros k) = fromLe bs := by
  induction bs with
  | nil =>
    induction k with
    | zero => rfl
    | succ k ih =>
      have hzero : fromLe (zeros k) = 0 := ih
      simp [zeros, List.replicate_succ, fromLe] at hzero ⊢
      exact hzero
  | cons b bs ih => simp only [List.cons_append, fromLe, ih]

/-- The lower half of a field stands for it if the upper one is zero. -/
theorem le_low {a : UInt64} : le 4 a.toNat ++ zeros 4 = le 8 a.toNat ↔ a.toNat < 2 ^ 32 := by
  have hhalf : le 4 a.toNat ++ zeros 4 = le 8 (a.toNat % 256 ^ 4) := by
    have hback := le_fromLe (le 4 a.toNat ++ zeros 4)
    rw [fromLe_append_zeros, fromLe_le, List.length_append, length_le, length_zeros] at hback
    exact hback.symm
  rw [hhalf, le_inj (by omega) a.toNat_lt]
  omega

theorem le_toNat64 {a b : UInt64} : le 8 a.toNat = le 8 b.toNat ↔ a = b := by
  rw [le_inj a.toNat_lt b.toNat_lt]
  exact UInt64.toNat_inj

theorem zeros_eq_le64 {a : UInt64} : zeros 8 = le 8 a.toNat ↔ a = 0 := by
  have hzeros : zeros 8 = le 8 (0 : UInt64).toNat := rfl
  rw [hzeros, le_toNat64]
  exact eq_comm

/-- **An oplock break is stored as it was sent.** -/
theorem oplock_kept (m : OplockBreakNotification) (hlock : 17 ≤ lock.length) :
    ∀ f ∈ m.members, f.1.get (stored (oplockVector m) oplockStores lock) = f.2 := by
  obtain ⟨-, hlevel, hid⟩ := oplockVector_fields m
  have hfits : Fits oplockStores (oplockVector m) lock := by
    simp [Fits, oplockStores, length_oplockVector, Member.oplockLevel, Member.fileId]
    omega
  have hget := get_stored hfits (by decide)
  simp only [oplockStores, List.forall_mem_cons] at hget
  simp only [OplockBreakNotification.members, List.forall_mem_cons]
  exact ⟨hget.1.trans hlevel, hget.2.1.trans hid, nofun⟩

/-- **Of a lease break notification** the epoch and the key are stored as they were sent, the hint
for the share mode as the flags, and no other field. -/
theorem notice_kept_iff (m : LeaseBreakNotification) (hlock : 44 ≤ lock.length) :
    (∀ f ∈ m.members, f.1.get (stored (noticeVector m) noticeStores lock) = f.2) ↔
      m.flags = 0 ∧ m.currentLeaseState = 0 ∧ m.newLeaseState = 0 ∧ m.breakReason = 0 ∧
        m.accessMaskHint = 0 ∧ m.shareMaskHint = 0 := by
  obtain ⟨-, hepoch, hflags, hkey, hrest⟩ := noticeVector_fields m
  have hfits : Fits noticeStores (noticeVector m) lock := by
    simp [Fits, noticeStores, length_noticeVector, Member.newEpoch, Member.flags, Member.leaseKey,
      Member.currentLeaseState, Member.newLeaseState, Member.breakReason, Member.accessMaskHint,
      Member.shareMaskHint]
    omega
  have hcleared : ∀ o, o + 4 ≤ 20 → slice (noticeVector m) (24 + o) 4 = zeros 4 := fun o ho => by
    rw [← slice_slice ho, hrest, slice_zeros ho]
  have hget := get_stored hfits (by decide)
  simp only [noticeStores, List.forall_mem_cons] at hget
  obtain ⟨h₁, h₂, h₃, h₄, h₅, h₆, h₇, h₈, -⟩ := hget
  have h₁ := h₁.trans hepoch
  have h₂ := h₂.trans hflags
  have h₃ := h₃.trans hkey
  have h₄ := h₄.trans (hcleared 0 (by omega))
  have h₅ := h₅.trans (hcleared 4 (by omega))
  have h₆ := h₆.trans (hcleared 8 (by omega))
  have h₇ := h₇.trans (hcleared 12 (by omega))
  have h₈ := h₈.trans (hcleared 16 (by omega))
  simp only [LeaseBreakNotification.members, noticeStores, List.forall_mem_cons, h₁, h₂, h₃, h₄,
    h₅, h₆, h₇, h₈, le_toNat32, zeros_eq_le32, true_and]
  constructor
  · rintro ⟨hflag, hcurrent, hnew, hreason, haccess, hshare, -⟩
    exact ⟨hflag.symm.trans hshare, hcurrent, hnew, hreason, haccess, hshare⟩
  · rintro ⟨hflag, hcurrent, hnew, hreason, haccess, hshare⟩
    exact ⟨hshare.trans hflag.symm, hcurrent, hnew, hreason, haccess, hshare, nofun⟩

/-- **Of a lease break acknowledgement** the key is stored as it was sent, half of the duration as
the flags, and no other field. -/
theorem acknowledge_kept_iff (m : LeaseBreakAcknowledgement) (hlock : 32 ≤ lock.length) :
    (∀ f ∈ m.members, f.1.get (stored (acknowledgeVector m) (leaseStores .replyLeaseKey) lock) =
      f.2) ↔ m.flags = 0 ∧ m.leaseState = 0 ∧ m.leaseDuration = 0 := by
  obtain ⟨-, hflags, hkey, hrest⟩ := acknowledgeVector_fields m
  have hfits : Fits (leaseStores .replyLeaseKey) (acknowledgeVector m) lock := by
    simp [Fits, leaseStores, length_acknowledgeVector, Member.replyFlags, Member.replyLeaseKey,
      Member.replyLeaseState, Member.replyLeaseDuration]
    omega
  have hstate : slice (acknowledgeVector m) (24 + 0) 4 = zeros 4 := by
    rw [← slice_slice (show 0 + 4 ≤ 12 by omega), hrest, slice_zeros (by omega)]
  have hduration : slice (acknowledgeVector m) (24 + 4) 8 = zeros 8 := by
    rw [← slice_slice (show 4 + 8 ≤ 12 by omega), hrest, slice_zeros (by omega)]
  have hget := get_stored hfits (by decide)
  simp only [leaseStores, List.forall_mem_cons] at hget
  obtain ⟨h₁, h₂, h₃, h₄, -⟩ := hget
  have h₁ := h₁.trans hflags
  have h₂ := h₂.trans hkey
  have h₃ := h₃.trans hstate
  have h₄ := h₄.trans hduration
  simp only [LeaseBreakReply.members, leaseStores, List.forall_mem_cons, h₁, h₂, h₃, h₄,
    zeros_eq_le32, zeros_eq_le64, true_and]
  constructor
  · rintro ⟨hflag, hcurrent, hlong, -⟩
    rw [hlong] at hflag
    exact ⟨zeros_eq_le32.mp hflag, hcurrent, hlong⟩
  · rintro ⟨hflag, hcurrent, hlong⟩
    rw [hlong]
    exact ⟨zeros_eq_le32.mpr hflag, hcurrent, rfl, nofun⟩

section
variable (m : LeaseBreakReply) (hlock : 32 ≤ lock.length)

include hlock

theorem response_fits : Fits (leaseStores .leaseKey) (responseVector m) lock := by
  simp [Fits, leaseStores, length_responseVector, Member.replyFlags, Member.leaseKey,
    Member.replyLeaseState, Member.replyLeaseDuration]
  omega

/-- The state of a response is stored where it is looked for. -/
theorem response_state :
    Member.replyLeaseState.get (stored (responseVector m) (leaseStores .leaseKey) lock) =
      le 4 m.leaseState.toNat := by
  have hfits := response_fits m hlock
  obtain ⟨-, -, -, hstate, -⟩ := responseVector_fields m
  rw [← hstate, leaseStores, stored_cons, stored_cons]
  exact get_stored_head hfits.tail.tail (by decide)

/-- Where its key is stored the first twelve octets remain. -/
theorem response_keyStart :
    Member.get ⟨8, 12⟩ (stored (responseVector m) (leaseStores .leaseKey) lock) =
      m.leaseKey.1.take 12 := by
  have hfits := response_fits m hlock
  obtain ⟨-, -, hkey, -⟩ := responseVector_fields m
  obtain ⟨hbuf, hin⟩ := hfits.tail (8, .leaseKey) List.mem_cons_self
  have hstored := Member.get_put_same (length_slice_of_le hbuf) (Nat.le_of_add_right_le hin)
  have hlast := get_stored_apart (m := ⟨8, 12⟩) hfits.tail.tail (by decide)
  rw [leaseStores, stored_cons, stored_cons, hlast, Member.get,
    slice_take _ _ (show 12 ≤ 16 by omega), ← hkey]
  exact congrArg (List.take 12) hstored

/-- In the structure of a response the key begins four octets before the place it is stored in. -/
theorem response_leaseKey :
    Member.replyLeaseKey.get (stored (responseVector m) (leaseStores .leaseKey) lock) =
      slice lock 4 4 ++ m.leaseKey.1.take 12 := by
  have hbefore : Member.get ⟨4, 4⟩ (stored (responseVector m) (leaseStores .leaseKey) lock) =
      slice lock 4 4 := get_stored_apart (response_fits m hlock) (by decide)
  have hbehind := response_keyStart m hlock
  exact (slice_add _ 4 4 12).trans (congrArg₂ (· ++ ·) hbefore hbehind)

/-- **Of a lease break response** the key is not stored where it is looked for, and half of the
duration is not sent. -/
theorem response_kept_iff :
    (∀ f ∈ m.members, f.1.get (stored (responseVector m) (leaseStores .leaseKey) lock) = f.2) ↔
      m.leaseDuration.toNat < 2 ^ 32 ∧ slice lock 4 4 ++ m.leaseKey.1.take 12 = m.leaseKey.1 := by
  have hfits := response_fits m hlock
  have hkey := response_leaseKey m hlock
  have hstate := response_state m hlock
  obtain ⟨-, hvector, -, -, hlow, hhigh⟩ := responseVector_fields m
  have hflags : Member.replyFlags.get (stored (responseVector m) (leaseStores .leaseKey) lock) =
      le 4 m.flags.toNat := by
    rw [← hvector]
    exact get_stored_head hfits (by decide)
  have hduration : Member.replyLeaseDuration.get
      (stored (responseVector m) (leaseStores .leaseKey) lock) =
        le 4 m.leaseDuration.toNat ++ zeros 4 := by
    rw [← hlow, ← hhigh, leaseStores, stored_cons, stored_cons, stored_cons,
      get_stored_head hfits.tail.tail.tail (by decide)]
    exact slice_add _ 28 4 4
  generalize stored (responseVector m) (leaseStores .leaseKey) lock = last at *
  simp only [LeaseBreakReply.members, List.forall_mem_cons, hflags, hkey, hstate, hduration, le_low,
    true_and]
  constructor
  · rintro ⟨hsame, hlong, -⟩
    exact ⟨hlong, hsame⟩
  · rintro ⟨hlong, hsame⟩
    exact ⟨hsame, hlong, nofun⟩

end

end

/-- **Which breaks come back.**  Each is known for what it is, and an oplock break comes back.  A
lease break notification does if the fields that go to offset 4 are zero, and so does a lease break
acknowledgement; a response does if its duration fits the field, and its key happens to be what the
block held before the place that it is stored in, followed by its own first twelve octets. -/
theorem break_comes_back_iff (m : Message) (memory : Memory) (messageId : Nat)
    (hid : m.breakType.acknowledges = false →
      (messageId = 0xffffffffffffffff ↔ m.breakType.notifies = true)) :
    m.ComesBack memory messageId ↔ m.Spared memory := by
  have hreply : (memory.read REPLY_LOCK_SIZE).length = 48 := memory.length_read 48
  have hrequest : (memory.read REQUEST_LOCK_SIZE).length = 32 := memory.length_read 32
  have hnotice : 44 ≤ (memory.read REPLY_LOCK_SIZE).length := by omega
  have hresponse : 32 ≤ (memory.read REPLY_LOCK_SIZE).length := by omega
  have hoplock : 17 ≤ (memory.read REPLY_LOCK_SIZE).length := by omega
  have hacknowledge : 17 ≤ (memory.read REQUEST_LOCK_SIZE).length := by omega
  rw [Message.comesBack_iff hid]
  cases m with
  | oplockNotification m => exact iff_of_true (oplock_kept m hoplock) trivial
  | oplockResponse m => exact iff_of_true (oplock_kept m hoplock) trivial
  | oplockAcknowledge m => exact iff_of_true (oplock_kept m hacknowledge) trivial
  | leaseNotification m => exact notice_kept_iff m hnotice
  | leaseResponse m => exact response_kept_iff m hresponse
  | leaseAcknowledge m => exact acknowledge_kept_iff m hrequest.ge

/-- An oplock that is broken to level II. -/
def levelTwo : Message := .oplockNotification ⟨1, noId⟩

theorem level_two_comes_back : levelTwo.ComesBack (fun _ => 0) 0xffffffffffffffff :=
  (break_comes_back_iff levelTwo (fun _ => 0) 0xffffffffffffffff
    (fun _ => iff_of_true rfl rfl)).mpr trivial

/-- A client acknowledges that it keeps a lease for reading. -/
def keepsReading : Message := .leaseAcknowledge ⟨0, noId, 1, 0⟩

/-- The lease of this acknowledgement has no state left when a server has decoded it. -/
theorem lease_state_is_lost : ¬ keepsReading.ComesBack (fun _ => 0) 4 := by
  intro h
  have hlock : (Memory.read (fun _ => 0) REQUEST_LOCK_SIZE).length = 32 := Memory.length_read _ 32
  have hkept := (Message.comesBack_iff (m := keepsReading) (fun hclient => nomatch hclient)).mp h
  have hlost := (acknowledge_kept_iff ⟨0, noId, 1, 0⟩ hlock.ge).mp hkept
  have hone : (1 : UInt32) = 0 := hlost.2.1
  exact absurd hone (by decide)

end Libsmb2.OplockBreak
