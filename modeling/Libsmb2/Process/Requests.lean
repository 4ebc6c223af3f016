import Libsmb2.Process

/-!
# LOCK and SET_INFO requests that come back

What a server makes of the octets of a command.  The first element of a LOCK is in its fixed part
and the others are in a vector of their own.  The encoder of a SET_INFO sets the length and the
offset of the buffer in the last vector that it has added; in passthrough mode that is the buffer.

* `Cmd.body_of_encode`, `replyBody_of_lt` — what is sent behind the header;
* `parseLocks_spec` — elements that are read one after another;
* `lock_request_comes_back` — a LOCK comes back as it was sent;
* `set_info_comes_back_iff` — when a SET_INFO does.
-/

set_option autoImplicit false

namespace Libsmb2

open Util

/-! ## What is sent -/

/-- The octets of a command behind its header. -/
def Cmd.body (S : Settings) (version : Version) (passthrough : Bool) (c : Cmd) : Option Bytes :=
  (c.marshal S version passthrough).map fun out => (out.drop 1).flatten

section
variable {S : Settings} {version : Version} {passthrough : Bool} {c : Cmd} {vs : List Bytes}

/-- The vectors that an encoder adds, padded to a multiple of eight octets, and what follows the
padding. -/
theorem Cmd.marshal_of_encode (hroom : vs.length < MAX_VECTORS - 1)
    (henc : c.encode S version passthrough [zeros HEADER_SIZE] = some (zeros HEADER_SIZE :: vs)) :
    ∃ pad k, pad.flatten = zeros k ∧ k < 8 ∧ (vs.flatten.length + k) % 8 = 0 ∧ pad.length ≤ 1 ∧
      c.marshal S version passthrough = c.finish S (zeros HEADER_SIZE :: (vs ++ pad)) := by
  have hlen : (zeros HEADER_SIZE :: vs).length < MAX_VECTORS := by
    rw [List.length_cons]
    omega
  obtain ⟨pad, k, hpad, hzeros, hk, hmod⟩ := padTo64Bit_of_lt hlen
  have hcount : octetCount (zeros HEADER_SIZE :: vs) = 64 + vs.flatten.length := by
    rw [← octetCount_eq, List.flatten_cons, List.length_append, length_zeros]
    rfl
  have hone : pad.length ≤ 1 := by
    unfold padTo64Bit at hpad
    simp only at hpad
    split at hpad
    · have hsame : zeros HEADER_SIZE :: vs ++ [] = zeros HEADER_SIZE :: vs ++ pad := by
        rw [List.append_nil]
        exact Option.some.inj hpad
      rw [← List.append_cancel_left hsame]
      exact Nat.zero_le 1
    · have hadd := (addVector_eq hpad).1
      rw [List.append_cancel_left hadd]
      exact Nat.le_refl 1
  refine ⟨pad, k, hzeros, hk, by omega, hone, ?_⟩
  unfold Cmd.marshal
  rw [henc]
  simp only [Option.bind_eq_bind, Option.bind_some, hpad, List.cons_append]

/-- **What is sent behind the header** of a command that has nothing behind its padding. -/
theorem Cmd.body_of_encode (hroom : vs.length < MAX_VECTORS - 1)
    (hfinish : ∀ out, c.finish S out = some out)
    (henc : c.encode S version passthrough [zeros HEADER_SIZE] = some (zeros HEADER_SIZE :: vs)) :
    ∃ k, c.body S version passthrough = some (vs.flatten ++ zeros k) := by
  obtain ⟨pad, k, hzeros, -, -, -, hmarshal⟩ := Cmd.marshal_of_encode hroom henc
  refine ⟨k, ?_⟩
  unfold Cmd.body
  rw [hmarshal, hfinish]
  simp only [Option.map_some, List.drop_succ_cons, List.drop_zero, List.flatten_append, hzeros]

end

/-- The octets of a reply behind its header, of the vectors that its encoder leaves. -/
def replyBody (out : Option (List Bytes)) : Option Bytes :=
  (out.bind padTo64Bit).map fun out => (out.drop 1).flatten

/-- **What is sent behind the header** of a reply. -/
theorem replyBody_of_lt (vs : List Bytes) (hroom : vs.length < MAX_VECTORS - 1) :
    ∃ k, k < 8 ∧ replyBody (some (zeros HEADER_SIZE :: vs)) = some (vs.flatten ++ zeros k) := by
  have hlen : (zeros HEADER_SIZE :: vs).length < MAX_VECTORS := by
    rw [List.length_cons]
    omega
  obtain ⟨pad, k, hpad, hzeros, hk, -⟩ := padTo64Bit_of_lt hlen
  refine ⟨k, hk, ?_⟩
  unfold replyBody
  rw [Option.bind_some, hpad, Option.map_some, List.cons_append, List.drop_succ_cons,
    List.drop_zero, List.flatten_append, hzeros]

/-- The field of an identifier reads back. -/
theorem slice_patch_fileId {bs : Bytes} {off : Nat} (fileId : FileId) (h : off ≤ bs.length) :
    slice (patch bs off fileId.1) off 16 = fileId.1 := by
  have hsame : slice (patch bs off fileId.1) off fileId.1.length = fileId.1 := slice_patch_same h
  rwa [fileId.2] at hsame

/-! ## LOCK -/

deriving instance DecidableEq, Repr for LockElement

/-- `struct smb2_lock_request`, with the array that `locks` points to. -/
structure LockRequest where
  lockCount : Nat
  lockSequenceNumber : Nat
  lockSequenceIndex : Nat
  fileId : Bytes
  locks : List LockElement
  deriving DecidableEq, Repr

/-- The fields of an element that fit. -/
def parseLock (v : Window) (off : Nat) (old : LockElement) : Except Overrun LockElement := do
  let offset ← v.get 8 off old.offset
  let length ← v.get 8 (off + 8) old.length
  let flags ← v.get 4 (off + 16) old.flags
  .ok ⟨offset, length, flags⟩

/-- `smb2_parse_locks`, into the elements of an array from the `i`th on. -/
def parseLocks (v : Window) : Nat → Nat → Nat → List LockElement →
    Except Overrun (List LockElement)
  | 0, _, _, locks => .ok locks
  | count + 1, off, i, locks =>
    match locks[i]? with
    -- nothing is written of an element that is not there
    | none =>
      if v.len < off + 8 then parseLocks v count (off + LOCK_ELEMENT_SIZE) (i + 1) locks
      else .error .write
    | some old => do
      let e ← parseLock v off old
      parseLocks v count (off + LOCK_ELEMENT_SIZE) (i + 1) (locks.set i e)

/-- The element at an offset. -/
def elementAt (bs : Bytes) (off : Nat) : LockElement where
  offset := fromLe (slice bs off 8)
  length := fromLe (slice bs (off + 8) 8)
  flags := fromLe (slice bs (off + 16) 4)

/-- `smb2_process_lock_request_fixed`; `none` is -1.  The fixed part has been found to be long
enough for an element. -/
def processLockRequestFixed (iov : Bytes) : Option (Int × LockRequest) :=
  if fromLe (slice iov 0 2) ≠ LOCK_REQUEST_SIZE ∨ iov.length ≠ 48 then none
  else
    let lockCount := fromLe (slice iov 2 2)
    let u32 := fromLe (slice iov 4 4)
    if lockCount < 1 then none
    else some ((LOCK_ELEMENT_SIZE * (lockCount - 1) : Nat), {
      lockCount := lockCount
      lockSequenceNumber := u32 >>> 28
      lockSequenceIndex := u32 &&& 0x0fffffff
      fileId := slice iov 8 16
      locks := elementAt iov LOCK_ELEMENT_SIZE :: List.replicate (lockCount - 1) {} })

/-- `smb2_process_lock_request_variable`: the array behind it. -/
def processLockRequestVariable (req : LockRequest) (iov : Bytes) :
    Except Overrun (Option (List LockElement)) :=
  (parseLocks (.whole iov) (req.lockCount - 1) 0 1 req.locks).map some

/-- What a server makes of the octets behind the header. -/
def decodeLockRequest (body : Bytes) :
    Except Overrun (Option (LockRequest × Option (List LockElement))) :=
  decodeBody 48 processLockRequestFixed processLockRequestVariable body

section
variable {v : Window} {bs : Bytes} {off : Nat} {locks : List LockElement}

theorem parseLock_of_le (hlen : off + 24 ≤ v.len) (hv : v.Sound) (old : LockElement) :
    parseLock v off old = .ok (elementAt v.octets off) := by
  unfold Window.Sound at hv
  unfold parseLock
  rw [Window.get_of_le (by omega) (by omega), Window.get_of_le (by omega) (by omega),
    Window.get_of_le (by omega) (by omega)]
  rfl

/-- **Elements that are read one after another** fill the part of an array that they are read
into. -/
theorem parseLocks_spec (off i : Nat) (hv : v.Sound) (count : Nat)
    (hlen : off + count * LOCK_ELEMENT_SIZE ≤ v.len) (hroom : i + count ≤ locks.length) :
    parseLocks v count off i locks = .ok (locks.take i ++
      (List.range count).map (fun j => elementAt v.octets (off + j * LOCK_ELEMENT_SIZE)) ++
      locks.drop (i + count)) := by
  induction count generalizing off i locks with
  | zero => simp [parseLocks]
  | succ count ih =>
    have hi : i < locks.length := by omega
    have helem : LOCK_ELEMENT_SIZE = 24 := rfl
    rw [Nat.succ_mul] at hlen
    have hset : (locks.set i (elementAt v.octets off)).take (i + 1) =
        locks.take i ++ [elementAt v.octets off] := by
      rw [List.take_set, List.take_succ_eq_append_getElem hi, List.set_append_right _ _ (by simp),
        List.length_take, Nat.min_eq_left (by omega), Nat.sub_self]
      rfl
    have hdrop : (locks.set i (elementAt v.octets off)).drop (i + 1 + count) =
        locks.drop (i + (count + 1)) := by
      rw [List.drop_set_of_lt (by omega), Nat.add_assoc, Nat.add_comm 1 count]
    rw [parseLocks, List.getElem?_eq_getElem hi]
    simp only
    rw [parseLock_of_le (by omega) hv, ok_bind,
      ih (off + LOCK_ELEMENT_SIZE) (i + 1) (by omega) (by rw [List.length_set]; omega), hset, hdrop,
      List.range_succ_eq_map]
    simp only [List.append_assoc, List.map_cons, Nat.zero_mul, Nat.add_zero, List.map_map,
      List.cons_append, List.nil_append]
    congr 5
    funext j
    simp only [Function.comp, Nat.succ_mul]
    congr 1
    omega

end

/-! ## A LOCK that comes back -/

/-- The fields have their widths, and there is an array of one to 65535 elements. -/
structure LockArgs.Fits (req : LockArgs) (locks : Nat → LockElement) : Prop where
  array : req.locks = some locks
  lockCount : 1 ≤ req.lockCount ∧ req.lockCount < 2 ^ 16
  lockSequenceNumber : req.lockSequenceNumber < 16
  lockSequenceIndex : req.lockSequenceIndex < 2 ^ 28
  offset : ∀ i, (locks i).offset < 256 ^ 8
  length : ∀ i, (locks i).length < 256 ^ 8
  flags : ∀ i, (locks i).flags < 256 ^ 4

/-- The request is the one that was sent, and every element is read from its own octets. -/
structure LockArgs.Returned (req : LockArgs) (locks : Nat → LockElement) (body : Bytes)
    (r : LockRequest × Option (List LockElement)) : Prop where
  lockCount : r.1.lockCount = req.lockCount
  lockSequenceNumber : r.1.lockSequenceNumber = req.lockSequenceNumber
  lockSequenceIndex : r.1.lockSequenceIndex = req.lockSequenceIndex
  fileId : r.1.fileId = req.fileId.1
  locks : r.2.getD r.1.locks = (List.range req.lockCount).map locks
  places : r.2.getD r.1.locks =
    (List.range req.lockCount).map fun i => elementAt body (24 + i * LOCK_ELEMENT_SIZE)

/-- The request is sent, and decoded as it was, with nothing written outside the array. -/
def LockArgs.ComesBack (req : LockArgs) (locks : Nat → LockElement) : Prop :=
  ∀ S version passthrough, ∃ body r, (Cmd.lock req).body S version passthrough = some body ∧
    decodeLockRequest body = .ok (some r) ∧ req.Returned locks body r

section
variable {req : LockArgs} {locks : Nat → LockElement} {bs iov : Bytes} {off : Nat} {e : LockElement}

theorem length_setLockElement (off : Nat) (e : LockElement) (iov : Bytes) :
    (setLockElement off e iov).length = iov.length := by
  simp [setLockElement]

/-- An element that was set reads back. -/
theorem elementAt_setLockElement (h : off + 24 ≤ iov.length) (hoffset : e.offset < 256 ^ 8)
    (hlength : e.length < 256 ^ 8) (hflags : e.flags < 256 ^ 4) :
    elementAt (setLockElement off e iov) off = e := by
  unfold elementAt setLockElement
  simp (disch := first | omega | (simp only [length_setUint]; omega)) only [setUint32, setUint64,
    slice_setUint_before, slice_setUint_same, fromLe_le]
  rw [Nat.mod_eq_of_lt hoffset, Nat.mod_eq_of_lt hlength, Nat.mod_eq_of_lt hflags]

theorem slice_setLockElement_before {o n : Nat} (h : o + n ≤ off) :
    slice (setLockElement off e iov) o n = slice iov o n := by
  unfold setLockElement
  simp (disch := omega) only [setUint32, setUint64, slice_setUint_before]

/-- Setting an element leaves those before it. -/
theorem elementAt_setLockElement_before {o : Nat} (h : o + 24 ≤ off) :
    elementAt (setLockElement off e iov) o = elementAt iov o := by
  unfold elementAt
  rw [slice_setLockElement_before (by omega), slice_setLockElement_before (by omega),
    slice_setLockElement_before (by omega)]

/-- The vector of the elements but the first. -/
def lockVector (locks : Nat → LockElement) (size n : Nat) : Bytes :=
  (List.range n).foldl
    (fun buf i => setLockElement (i * LOCK_ELEMENT_SIZE) (locks (i + 1)) buf) (zeros size)

theorem lockVector_succ (locks : Nat → LockElement) (size n : Nat) : lockVector locks size (n + 1) =
    setLockElement (n * LOCK_ELEMENT_SIZE) (locks (n + 1)) (lockVector locks size n) := by
  unfold lockVector
  rw [List.range_succ, List.foldl_append]
  rfl

theorem length_lockVector (locks : Nat → LockElement) (size n : Nat) :
    (lockVector locks size n).length = size := by
  induction n with
  | zero => exact length_zeros size
  | succ n ih => rw [lockVector_succ, length_setLockElement, ih]

/-- Every element of the vector reads back. -/
theorem elementAt_lockVector (hf : req.Fits locks) {size n j : Nat}
    (hsize : n * LOCK_ELEMENT_SIZE ≤ size) (hj : j < n) :
    elementAt (lockVector locks size n) (j * LOCK_ELEMENT_SIZE) = locks (j + 1) := by
  rw [show LOCK_ELEMENT_SIZE = 24 from rfl] at *
  induction n with
  | zero => cases hj
  | succ n ih =>
    rw [lockVector_succ, show LOCK_ELEMENT_SIZE = 24 from rfl]
    by_cases hlast : j = n
    · subst hlast
      refine elementAt_setLockElement ?_ (hf.offset _) (hf.length _) (hf.flags _)
      rw [length_lockVector]
      omega
    · rw [elementAt_setLockElement_before (by omega)]
      exact ih (by omega) (by omega)

/-- The fixed part of a LOCK, with its first element. -/
def lockFixed (req : LockArgs) (locks : Nat → LockElement) : Bytes :=
  zeros LOCK_REQUEST_SIZE
    |> setUint16 0 LOCK_REQUEST_SIZE
    |> setUint16 2 req.lockCount
    |> setUint32 4 ((req.lockSequenceNumber <<< 28) ||| req.lockSequenceIndex)
    |> (patch · 8 req.fileId.1)
    |> setLockElement 24 (locks 0)

theorem length_lockFixed (req : LockArgs) (locks : Nat → LockElement) :
    (lockFixed req locks).length = 48 := by
  have hid := req.fileId.2
  simp [lockFixed, length_setLockElement, length_patch, hid, LOCK_REQUEST_SIZE]

/-- The sequence number and the index share a word. -/
theorem lockSequence_split {number index : Nat} (hnumber : number < 16) (hindex : index < 2 ^ 28) :
    ((number <<< 28) ||| index) < 256 ^ 4 ∧ ((number <<< 28) ||| index) >>> 28 = number ∧
      ((number <<< 28) ||| index) &&& 0x0fffffff = index := by
  have hsum : (number <<< 28) ||| index = number * 2 ^ 28 + index := or_eq_add hindex
  have hmask : ∀ n, n &&& 0x0fffffff = n % 2 ^ 28 := fun n => Nat.and_two_pow_sub_one_eq_mod n 28
  rw [hsum, hmask, Nat.shiftRight_eq_div_pow]
  omega

/-- What is found in the fixed part. -/
def LockArgs.received (req : LockArgs) (locks : Nat → LockElement) : LockRequest where
  lockCount := req.lockCount
  lockSequenceNumber := req.lockSequenceNumber
  lockSequenceIndex := req.lockSequenceIndex
  fileId := req.fileId.1
  locks := locks 0 :: List.replicate (req.lockCount - 1) {}

theorem processLockRequestFixed_sent (hf : req.Fits locks) :
    processLockRequestFixed (lockFixed req locks) =
      some (((LOCK_ELEMENT_SIZE * (req.lockCount - 1) : Nat) : Int), req.received locks) := by
  have hid := req.fileId.2
  obtain ⟨hpos, hcount⟩ := hf.lockCount
  obtain ⟨hword, hnumber, hindex⟩ := lockSequence_split hf.lockSequenceNumber hf.lockSequenceIndex
  have hfirst : elementAt (lockFixed req locks) LOCK_ELEMENT_SIZE = locks 0 := by
    refine elementAt_setLockElement ?_ (hf.offset 0) (hf.length 0) (hf.flags 0)
    simp [length_patch, hid, LOCK_REQUEST_SIZE]
  unfold processLockRequestFixed
  rw [length_lockFixed, hfirst]
  unfold lockFixed
  simp (disch := simp [length_setUint, length_patch, hid, LOCK_REQUEST_SIZE]) only [setUint16,
    setUint32, slice_setLockElement_before, slice_setUint_before, slice_setUint_same,
    slice_patch_before, slice_patch_fileId, fromLe_le]
  rw [if_neg (by decide), Nat.mod_eq_of_lt (show req.lockCount < 256 ^ 2 by omega),
    Nat.mod_eq_of_lt hword, hnumber, hindex, if_neg (by omega)]
  rfl

/-- The vector of the other elements, if there are any. -/
def lockVectors (req : LockArgs) (locks : Nat → LockElement) : List Bytes :=
  if req.lockCount = 1 then []
  else [lockVector locks (padTo64 (LOCK_ELEMENT_SIZE * req.lockCount)) (req.lockCount - 1)]

theorem encodeLockRequest_eq (hf : req.Fits locks) :
    encodeLockRequest req [zeros HEADER_SIZE] =
      some (zeros HEADER_SIZE :: lockFixed req locks :: lockVectors req locks) := by
  obtain ⟨hpos, -⟩ := hf.lockCount
  have hadd : addVector (lockFixed req locks) [zeros HEADER_SIZE] =
      some [zeros HEADER_SIZE, lockFixed req locks] := rfl
  unfold encodeLockRequest lockVectors
  rw [hf.array]
  simp only
  rw [if_neg (by omega)]
  change (addVector (lockFixed req locks) [zeros HEADER_SIZE] >>= fun out =>
    if req.lockCount = 1 then some out
    else addVector (lockVector locks (padTo64 (LOCK_ELEMENT_SIZE * req.lockCount))
      (req.lockCount - 1)) out) = _
  rw [hadd, Option.bind_eq_bind, Option.bind_some]
  by_cases hone : req.lockCount = 1
  · rw [if_pos hone, if_pos hone]
  · rw [if_neg hone, if_neg hone]
    rfl

theorem elementAt_append_left {a : Bytes} (b : Bytes) (h : off + 24 ≤ a.length) :
    elementAt (a ++ b) off = elementAt a off := by
  unfold elementAt
  rw [slice_append_left (by omega), slice_append_left (by omega), slice_append_left (by omega)]

theorem elementAt_append_right (a : Bytes) {b : Bytes} (h : a.length ≤ off) :
    elementAt (a ++ b) off = elementAt b (off - a.length) := by
  unfold elementAt
  rw [slice_append_right h, slice_append_right (by omega), slice_append_right (by omega)]
  have h8 : off + 8 - a.length = off - a.length + 8 := by omega
  have h16 : off + 16 - a.length = off - a.length + 16 := by omega
  rw [h8, h16]

theorem elementAt_take {n : Nat} (hn : n ≤ bs.length) (h : off + 24 ≤ n) :
    elementAt (bs.take n) off = elementAt bs off := by
  have hsplit : elementAt (bs.take n ++ bs.drop n) off = elementAt (bs.take n) off :=
    elementAt_append_left (bs.drop n) (by rw [List.length_take]; omega)
  rw [List.take_append_drop] at hsplit
  exact hsplit.symm

/-- Every element stands in its own octets. -/
theorem elementAt_sent (hf : req.Fits locks) (rest : Bytes) {i : Nat} (hi : i < req.lockCount) :
    elementAt (lockFixed req locks ++ ((lockVectors req locks).flatten ++ rest))
      (24 + i * LOCK_ELEMENT_SIZE) = locks i := by
  have hid := req.fileId.2
  have hfixed := length_lockFixed req locks
  obtain ⟨hpos, hcount⟩ := hf.lockCount
  rw [show LOCK_ELEMENT_SIZE = 24 from rfl]
  cases i with
  | zero =>
    rw [Nat.zero_mul, elementAt_append_left _ (by omega)]
    refine elementAt_setLockElement ?_ (hf.offset 0) (hf.length 0) (hf.flags 0)
    simp [length_patch, hid, LOCK_REQUEST_SIZE]
  | succ j =>
    have hroom : (req.lockCount - 1) * 24 ≤ padTo64 (LOCK_ELEMENT_SIZE * req.lockCount) := by
      unfold padTo64 LOCK_ELEMENT_SIZE
      omega
    have hplace : 24 + (j + 1) * 24 - (lockFixed req locks).length = j * 24 := by omega
    rw [elementAt_append_right _ (by omega), hplace, lockVectors, if_neg (by omega),
      List.flatten_singleton, elementAt_append_left _ (by rw [length_lockVector]; omega)]
    exact elementAt_lockVector hf hroom (by omega)

/-- What the vector of the other elements is read into. -/
theorem processLockRequestVariable_sent {iov : Bytes} (hf : req.Fits locks)
    (hlen : iov.length = LOCK_ELEMENT_SIZE * (req.lockCount - 1))
    (helems : ∀ j < req.lockCount - 1, elementAt iov (j * LOCK_ELEMENT_SIZE) = locks (j + 1)) :
    processLockRequestVariable (req.received locks) iov =
      .ok (some ((List.range req.lockCount).map locks)) := by
  obtain ⟨hpos, -⟩ := hf.lockCount
  have harray : (req.received locks).locks.length = req.lockCount := by
    simp only [LockArgs.received, List.length_cons, List.length_replicate]
    omega
  have hparse := parseLocks_spec 0 1 (Window.sound_whole iov) (req.lockCount - 1)
    (by rw [Window.whole_len, hlen, Nat.mul_comm, Nat.zero_add]) (by rw [harray]; omega)
  have hothers : (List.range (req.lockCount - 1)).map
        (fun j => elementAt (Window.whole iov).octets (0 + j * LOCK_ELEMENT_SIZE)) =
      (List.range (req.lockCount - 1)).map (locks ∘ Nat.succ) := by
    refine List.map_congr_left fun j hj => ?_
    rw [Nat.zero_add]
    exact helems j (List.mem_range.mp hj)
  have hall : locks 0 :: (List.range (req.lockCount - 1)).map (locks ∘ Nat.succ) =
      (List.range req.lockCount).map locks := by
    have hcount : req.lockCount = req.lockCount - 1 + 1 := by omega
    rw [hcount, List.range_succ_eq_map, List.map_cons, List.map_map, Nat.add_sub_cancel]
  rw [hothers, List.drop_eq_nil_of_le (by rw [harray]; omega), List.append_nil] at hparse
  unfold processLockRequestVariable
  rw [show (req.received locks).lockCount = req.lockCount from rfl, hparse, ← hall]
  rfl

/-- **A LOCK comes back as it was sent.** -/
theorem lock_request_comes_back (hf : req.Fits locks) : req.ComesBack locks := by
  intro S version passthrough
  obtain ⟨hpos, hcount⟩ := hf.lockCount
  have hvectors : (lockFixed req locks :: lockVectors req locks).length < MAX_VECTORS - 1 := by
    unfold lockVectors
    split
    · simp [MAX_VECTORS]
    · simp [MAX_VECTORS]
  obtain ⟨k, hbody⟩ : ∃ k, (Cmd.lock req).body S version passthrough =
      some ((lockFixed req locks :: lockVectors req locks).flatten ++ zeros k) :=
    Cmd.body_of_encode hvectors (fun _ => rfl) (encodeLockRequest_eq hf)
  rw [List.flatten_cons, List.append_assoc] at hbody
  have hfixed := processLockRequestFixed_sent hf
  have hplaces : (List.range req.lockCount).map locks = (List.range req.lockCount).map fun i =>
      elementAt (lockFixed req locks ++ ((lockVectors req locks).flatten ++ zeros k))
        (24 + i * LOCK_ELEMENT_SIZE) :=
    List.map_congr_left fun i hi => (elementAt_sent hf (zeros k) (List.mem_range.mp hi)).symm
  by_cases hone : req.lockCount = 1
  · have hlocks : (req.received locks).locks = (List.range req.lockCount).map locks := by
      simp [LockArgs.received, hone]
    rw [hone, Nat.sub_self, Nat.mul_zero] at hfixed
    exact ⟨_, _, hbody, decodeBody_of_zero (length_lockFixed req locks) hfixed, rfl, rfl, rfl, rfl,
      hlocks, hlocks.trans hplaces⟩
  · have hlong : LOCK_ELEMENT_SIZE * (req.lockCount - 1) ≤
        ((lockVectors req locks).flatten ++ zeros k).length := by
      rw [lockVectors, if_neg hone, List.flatten_singleton, List.length_append, length_lockVector]
      unfold padTo64 LOCK_ELEMENT_SIZE
      omega
    have hothers : ∀ j < req.lockCount - 1,
        elementAt (((lockVectors req locks).flatten ++ zeros k).take
          (LOCK_ELEMENT_SIZE * (req.lockCount - 1))) (j * LOCK_ELEMENT_SIZE) = locks (j + 1) := by
      intro j hj
      have hin : j * LOCK_ELEMENT_SIZE + 24 ≤ LOCK_ELEMENT_SIZE * (req.lockCount - 1) := by
        unfold LOCK_ELEMENT_SIZE
        omega
      have hplace : 24 + (j + 1) * LOCK_ELEMENT_SIZE - (lockFixed req locks).length =
          j * LOCK_ELEMENT_SIZE := by
        rw [length_lockFixed]
        unfold LOCK_ELEMENT_SIZE
        omega
      rw [elementAt_take hlong hin, ← hplace, ← elementAt_append_right _ (by
        rw [length_lockFixed]
        unfold LOCK_ELEMENT_SIZE
        omega)]
      exact elementAt_sent hf (zeros k) (by omega)
    have hvariable := processLockRequestVariable_sent hf
      (by rw [List.length_take, Nat.min_eq_left hlong]) hothers
    have hdecode : decodeLockRequest (lockFixed req locks ++
        ((lockVectors req locks).flatten ++ zeros k)) = _ :=
      decodeBody_of_pos (length_lockFixed req locks) hfixed
        (Nat.mul_pos (by decide) (by omega)) hlong
    rw [hvariable] at hdecode
    exact ⟨_, _, hbody, hdecode, rfl, rfl, rfl, rfl, rfl, hplaces⟩

end

/-- A LOCK of three elements, of which the first is in the fixed part. -/
def threeLocks : LockArgs where
  lockCount := 3
  lockSequenceNumber := 15
  lockSequenceIndex := 7
  fileId := noId
  locks := some fun i => ⟨i % 4 * 4096, 4096, 2⟩

theorem three_locks_come_back :
    threeLocks.ComesBack fun i => ⟨i % 4 * 4096, 4096, 2⟩ := by
  refine lock_request_comes_back ⟨rfl, by simp [threeLocks], by simp [threeLocks],
    by simp [threeLocks], fun i => ?_, fun i => ?_, fun i => ?_⟩
  · show i % 4 * 4096 < 256 ^ 8
    omega
  · simp
  · simp

/-! ## SET_INFO -/

/-- `struct smb2_set_info_request`, without the data. -/
structure SetInfoRequest where
  infoType : Nat
  fileInfoClass : Nat
  bufferLength : Nat
  bufferOffset : Nat
  additionalInformation : Nat
  fileId : Bytes
  deriving DecidableEq, Repr

/-- `smb2_process_set_info_request_fixed`; `none` is -1. -/
def processSetInfoRequestFixed (iov : Bytes) : Option (Int × SetInfoRequest) :=
  if fromLe (slice iov 0 2) ≠ SET_INFO_REQUEST_SIZE ∨ iov.length ≠ 32 then none
  else
    let bufferLength := fromLe (slice iov 4 4)
    some (toInt32 bufferLength, {
      infoType := fromLe (slice iov 2 1)
      fileInfoClass := fromLe (slice iov 3 1)
      bufferLength := bufferLength
      bufferOffset := fromLe (slice iov 8 2)
      additionalInformation := fromLe (slice iov 12 4)
      fileId := slice iov 16 16 })

/-- `smb2_process_set_info_request_variable`: `input_data`, wherever the offset points to; `none` is
-1. -/
def processSetInfoRequestVariable (passthrough : Bool) (_ : SetInfoRequest) (iov : Bytes) :
    Except Overrun (Option Bytes) :=
  if passthrough then .ok (some iov) else .ok none

/-- What a server makes of the octets behind the header. -/
def decodeSetInfoRequest (passthrough : Bool) (body : Bytes) :
    Except Overrun (Option (SetInfoRequest × Option Bytes)) :=
  decodeBody 32 processSetInfoRequestFixed (processSetInfoRequestVariable passthrough) body

/-- The fields have their widths. -/
structure SetInfoArgs.Fits (req : SetInfoArgs) : Prop where
  infoType : req.input.infoType < 256 ^ 1
  fileInfoClass : req.input.fileInfoClass < 256 ^ 1
  additionalInformation : req.additionalInformation < 256 ^ 4
  bufferOffset : req.bufferOffset < 256 ^ 2
  buffer : req.buffer.length < 256 ^ 4

/-- The request is the one that was sent. -/
structure SetInfoArgs.Returned (req : SetInfoArgs) (r : SetInfoRequest × Option Bytes) : Prop where
  infoType : r.1.infoType = req.input.infoType
  fileInfoClass : r.1.fileInfoClass = req.input.fileInfoClass
  bufferLength : r.1.bufferLength = req.buffer.length
  bufferOffset : r.1.bufferOffset = req.bufferOffset
  additionalInformation : r.1.additionalInformation = req.additionalInformation
  fileId : r.1.fileId = req.fileId.1
  buffer : r.2.getD [] = req.buffer

/-- In passthrough mode the request is sent, and decoded as it was. -/
def SetInfoArgs.ComesBack (req : SetInfoArgs) : Prop :=
  ∀ S version, ∃ body r, (Cmd.setInfo req).body S version true = some body ∧
    decodeSetInfoRequest true body = .ok (some r) ∧ req.Returned r

section
variable {req : SetInfoArgs}

/-- The fixed part of a SET_INFO before the length and the offset of the buffer are set. -/
def setInfoFixed (req : SetInfoArgs) : Bytes :=
  zeros (SET_INFO_REQUEST_SIZE - 1)
    |> setUint16 0 SET_INFO_REQUEST_SIZE
    |> setUint8 2 req.input.infoType
    |> setUint8 3 req.input.fileInfoClass
    |> setUint16 8 (HEADER_SIZE + 32)
    |> setUint32 12 req.additionalInformation
    |> (patch · 16 req.fileId.1)

theorem length_setInfoFixed (req : SetInfoArgs) : (setInfoFixed req).length = 32 := by
  have hid := req.fileId.2
  simp [setInfoFixed, length_patch, hid, SET_INFO_REQUEST_SIZE]

/-- What is found in the fixed part, with some offset. -/
def SetInfoArgs.received (req : SetInfoArgs) (bufferOffset : Nat) : SetInfoRequest where
  infoType := req.input.infoType
  fileInfoClass := req.input.fileInfoClass
  bufferLength := 0
  bufferOffset := bufferOffset
  additionalInformation := req.additionalInformation
  fileId := req.fileId.1

/-- The fixed part that goes out in front of a buffer tells of none. -/
theorem processSetInfoRequestFixed_buffer (hf : req.Fits) :
    processSetInfoRequestFixed (setInfoFixed req) = some (0, req.received (HEADER_SIZE + 32)) := by
  have hid := req.fileId.2
  have hlength : fromLe (slice (zeros (33 - 1)) 4 4) = 0 := by simp [zeros, slice, fromLe]
  unfold processSetInfoRequestFixed
  rw [length_setInfoFixed]
  unfold setInfoFixed SET_INFO_REQUEST_SIZE
  simp (disch := simp [length_setUint, length_patch, hid]) only [setUint8, setUint16, setUint32,
    slice_setUint_before, slice_setUint_same, slice_setUint_after, slice_patch_before,
    slice_patch_fileId, fromLe_le, hlength]
  rw [if_neg (by simp), Nat.mod_eq_of_lt hf.infoType, Nat.mod_eq_of_lt hf.fileInfoClass,
    Nat.mod_eq_of_lt hf.additionalInformation]
  rfl

/-- Without a buffer it is the fixed part that the length and the offset go to. -/
theorem processSetInfoRequestFixed_empty (hf : req.Fits) :
    processSetInfoRequestFixed
      (setInfoFixed req |> setUint32 4 0 |> setUint16 8 req.bufferOffset) =
      some (0, req.received req.bufferOffset) := by
  have hid := req.fileId.2
  unfold processSetInfoRequestFixed
  have hlen : (setInfoFixed req |> setUint32 4 0 |> setUint16 8 req.bufferOffset).length = 32 := by
    simp [length_setInfoFixed]
  rw [hlen]
  unfold setInfoFixed SET_INFO_REQUEST_SIZE
  simp (disch := simp [length_setUint, length_patch, hid]) only [setUint8, setUint16, setUint32,
    slice_setUint_before, slice_setUint_same, slice_setUint_after, slice_patch_before,
    slice_patch_fileId, fromLe_le]
  rw [if_neg (by simp), Nat.mod_eq_of_lt hf.infoType, Nat.mod_eq_of_lt hf.fileInfoClass,
    Nat.mod_eq_of_lt hf.additionalInformation, Nat.mod_eq_of_lt hf.bufferOffset]
  rfl

/-- A buffer that there is does not come back. -/
theorem setInfo_buffer_lost (hf : req.Fits) (hbuffer : req.buffer ≠ []) : ¬ req.ComesBack := by
  intro h
  obtain ⟨body, r, hbody, hdecode, hr⟩ := h {} .any
  have henc : (Cmd.setInfo req).encode {} .any true [zeros HEADER_SIZE] =
      some (zeros HEADER_SIZE :: [setInfoFixed req,
        req.buffer |> setUint32 4 req.buffer.length |> setUint16 8 req.bufferOffset]) := by
    unfold Cmd.encode encodeSetInfoRequest
    simp only [if_true, if_neg hbuffer]
    rfl
  obtain ⟨k, hsent⟩ := Cmd.body_of_encode (by simp [MAX_VECTORS]) (fun _ => rfl) henc
  rw [hsent] at hbody
  obtain rfl := Option.some.inj hbody
  rw [List.flatten_cons, List.append_assoc] at hdecode
  unfold decodeSetInfoRequest at hdecode
  rw [decodeBody_of_zero (length_setInfoFixed req) (processSetInfoRequestFixed_buffer hf)] at hdecode
  obtain rfl := Option.some.inj (Except.ok.inj hdecode)
  exact hbuffer (List.length_eq_zero_iff.mp hr.bufferLength.symm)

/-- **When a SET_INFO comes back.**  A buffer goes out with a fixed part that tells of none, and has
the length and the offset written into it. -/
theorem set_info_comes_back_iff (hf : req.Fits) : req.ComesBack ↔ req.buffer = [] := by
  constructor
  · intro h
    by_contra hbuffer
    exact setInfo_buffer_lost hf hbuffer h
  · intro hbuffer S version
    have henc : (Cmd.setInfo req).encode S version true [zeros HEADER_SIZE] =
        some (zeros HEADER_SIZE ::
          [setInfoFixed req |> setUint32 4 0 |> setUint16 8 req.bufferOffset]) := by
      unfold Cmd.encode encodeSetInfoRequest
      simp only [if_true, if_pos hbuffer]
      rfl
    obtain ⟨k, hbody⟩ := Cmd.body_of_encode (by simp [MAX_VECTORS]) (fun _ => rfl) henc
    rw [List.flatten_singleton] at hbody
    refine ⟨_, _, hbody, decodeBody_of_zero ?_ (processSetInfoRequestFixed_empty hf), ?_⟩
    · simp [length_setInfoFixed]
    · exact ⟨rfl, rfl, by rw [hbuffer]; rfl, rfl, rfl, rfl, hbuffer.symm⟩

end

/-- A security descriptor of twelve octets. -/
def setSecurity : SetInfoArgs where
  additionalInformation := 4
  fileId := noId
  input := .other 3 0
  buffer := [1, 0, 4, 128, 0, 0, 0, 0, 0, 0, 0, 0]
  bufferOffset := 96

theorem setSecurity_fits : setSecurity.Fits := by
  constructor <;> simp [setSecurity, SetInfoInput.infoType, SetInfoInput.fileInfoClass]

theorem set_security_buffer_lost : setSecurity.Fits ∧ ¬ setSecurity.ComesBack :=
  ⟨setSecurity_fits, setInfo_buffer_lost setSecurity_fits (by simp [setSecurity])⟩

/-- A SET_INFO for the same that has no descriptor. -/
def setNothing : SetInfoArgs := { setSecurity with buffer := [] }

theorem set_nothing_comes_back : setNothing.ComesBack := by
  refine (set_info_comes_back_iff ?_).mpr rfl
  constructor <;>
    simp [setNothing, setSecurity, SetInfoInput.infoType, SetInfoInput.fileInfoClass]

end Libsmb2
