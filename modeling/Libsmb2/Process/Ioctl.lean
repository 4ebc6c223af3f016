import Libsmb2.Process
import Libsmb2.Server

/-!
# The reply to an IOCTL

`smb2_process_ioctl_fixed` and `smb2_process_ioctl_variable`, with which a client takes it apart:
the fixed part says where the output begins and how long it is, and an input that is not looked at
lies between the two.  `smb2_encode_ioctl_reply`, with which a server puts it together, keeps the
length of the output and that of the fixed part in one variable.

* `output_is_confined_iff` — when the variable part is read, and its output written, inside the
  buffers that are there for it;
* `ioctl_reply_returns_iff` — when a reply comes back as it was sent.
-/

set_option autoImplicit false

namespace Libsmb2

open Util

/-! ## Reparse points -/

def REPARSE_TAG_SYMLINK : Nat := 0xa000000c

structure Symlink where
  flags : Nat
  subname : CString
  printname : CString
  deriving DecidableEq, Repr

/-- `struct smb2_reparse_data_buffer`. -/
structure ReparseDataBuffer where
  reparseTag : Nat
  reparseDataLength : Nat
  symlink : Option Symlink
  deriving DecidableEq, Repr

/-- A name that begins `off` octets behind the twenty of a symbolic link. -/
def reparseName (v : Window) (off len : Nat) : Except Overrun CString := utf16At v (off + 20) len

/-- The `SMB2_REPARSE_TAG_SYMLINK` case. -/
def decodeSymlink (dataLength : Nat) (v : Window) : Except Overrun (Option Symlink) :=
  if v.len < 20 then .ok none
  else do
    let flags ← v.get 4 16 0
    let suboffset ← v.get 2 8 0
    let sublen ← v.get 2 10 0
    if dataLength < suboffset + sublen + 12 then .ok none
    else do
      let subname ← reparseName v suboffset sublen
      let printoffset ← v.get 2 12 0
      let printlen ← v.get 2 14 0
      if dataLength < printoffset + printlen + 12 then .ok none
      else do
        let printname ← reparseName v printoffset printlen
        .ok (some ⟨flags, subname, printname⟩)

/-- `smb2_decode_reparse_data_buffer`; the length of the vector is compared as a `uint16_t`. -/
def decodeReparseDataBuffer (v : Window) : Except Overrun (Option ReparseDataBuffer) :=
  if v.len < 8 then .ok none
  else do
    let tag ← v.get 4 0 0
    let dataLength ← v.get 2 4 0
    if v.len % 2 ^ 16 < dataLength + 8 then .ok none
    else if tag = REPARSE_TAG_SYMLINK then
      (decodeSymlink dataLength v).map (Option.map fun link => ⟨tag, dataLength, some link⟩)
    else .ok (some ⟨tag, dataLength, none⟩)

/-! ## The reply -/

def IOCTL_REPLY_SIZE : Nat := 49
def FSCTL_GET_REPARSE_POINT : Nat := 0x000900A8

/-- `struct smb2_ioctl_reply`, without the buffers. -/
structure IoctlReply where
  ctlCode : Nat
  fileId : Bytes
  inputOffset : Nat
  inputCount : Nat
  outputOffset : Nat
  outputCount : Nat
  flags : Nat
  deriving DecidableEq, Repr

namespace IoctlReply

/-- `IOV_OFFSET_IOCTL`, a `uint32_t`. -/
def iovOffset (rep : IoctlReply) : Nat := sub32 rep.outputOffset (HEADER_SIZE + 48)

/-- How much is to be read, before the sum wraps. -/
def extent (rep : IoctlReply) : Nat := rep.iovOffset + padTo64 rep.inputCount + rep.outputCount

end IoctlReply

/-- The fields of a fixed part of the right size. -/
def ioctlFields (iov : Bytes) : Option IoctlReply :=
  if fromLe (slice iov 0 2) ≠ IOCTL_REPLY_SIZE ∨ iov.length ≠ 48 then none
  else some {
    ctlCode := fromLe (slice iov 4 4)
    fileId := slice iov 8 16
    inputOffset := fromLe (slice iov 24 4)
    inputCount := fromLe (slice iov 28 4)
    outputOffset := fromLe (slice iov 32 4)
    outputCount := fromLe (slice iov 36 4)
    flags := fromLe (slice iov 40 4) }

/-- `smb2_process_ioctl_fixed`; `none` is -1. -/
def processIoctlFixed (iov : Bytes) : Option (Int × IoctlReply) :=
  match ioctlFields iov with
  | none => none
  | some rep =>
    if rep.outputCount = 0 then some (0, rep)
    else if rep.outputOffset < HEADER_SIZE + 48 then none
    else some (toInt32 rep.extent, rep)

inductive IoctlOutput
  | reparse (rp : ReparseDataBuffer)
  | raw (bs : Bytes)
  deriving DecidableEq, Repr

/-- `smb2_process_ioctl_variable`; `none` is a negative result.  All that is left of the vector is
copied into `output_count` octets. -/
def processIoctlVariable (rep : IoctlReply) (iov : Bytes) :
    Except Overrun (Option IoctlOutput) :=
  let vec := (Window.whole iov).skip rep.iovOffset
  if vec.len < rep.outputCount then .ok none
  else if rep.ctlCode = FSCTL_GET_REPARSE_POINT then
    (decodeReparseDataBuffer vec).map (Option.map .reparse)
  else do
    let bs ← vec.read 0 vec.len
    if rep.outputCount < vec.len then .error .write else .ok (some (.raw bs))

section
variable {v : Window} {rep : IoctlReply} {iov : Bytes}

/-! ## What is read of a reparse point -/

theorem reparseName_inside (hv : v.Sound) {off len : Nat} (h : off + len + 20 ≤ v.len) :
    Inside (reparseName v off len) := Inside.map (hv.read (by omega))

theorem decodeSymlink_inside (hv : v.Sound) {dataLength : Nat} (hlen : dataLength + 8 ≤ v.len) :
    Inside (decodeSymlink dataLength v) := by
  unfold decodeSymlink
  split
  · exact .ok _
  refine (hv.get 4 16 0).bind fun flags _ => (hv.get 2 8 0).bind fun suboffset _ =>
    (hv.get 2 10 0).bind fun sublen _ => ?_
  split
  · exact .ok _
  refine (reparseName_inside hv (by omega)).bind fun subname _ =>
    (hv.get 2 12 0).bind fun printoffset _ => (hv.get 2 14 0).bind fun printlen _ => ?_
  split
  · exact .ok _
  exact (reparseName_inside hv (by omega)).bind fun printname _ => .ok _

/-- A reparse point is read inside its vector. -/
theorem decodeReparseDataBuffer_inside (hv : v.Sound) : Inside (decodeReparseDataBuffer v) := by
  unfold decodeReparseDataBuffer
  split
  · exact .ok _
  refine (hv.get 4 0 0).bind fun tag _ => (hv.get 2 4 0).bind fun dataLength _ => ?_
  split
  · exact .ok _
  have hmod : v.len % 2 ^ 16 ≤ v.len := Nat.mod_le _ _
  split
  · exact (decodeSymlink_inside hv (by omega)).map
  · exact .ok _

theorem decodeReparseDataBuffer_overruns (h : 8 ≤ v.len) (hempty : v.octets = []) :
    decodeReparseDataBuffer v = .error .read := by
  have htag : v.get 4 0 0 = .error .read :=
    Window.get_of_lt (by omega) (by decide) (by rw [hempty]; decide) 0
  unfold decodeReparseDataBuffer
  rw [if_neg (by omega), htag]
  rfl

/-! ## What is read and written of an output -/

/-- The run fails or stays in its buffers, and an output that is copied is as long as the block
that is allocated for it. -/
def Confined (rep : IoctlReply) (run : Except Overrun (Option IoctlOutput)) : Prop :=
  run = .ok none ∨ ∃ output, run = .ok (some output) ∧
    ∀ bs, output = .raw bs → bs.length = rep.outputCount

theorem Confined.inside {run : Except Overrun (Option IoctlOutput)} (h : Confined rep run) :
    Inside run := by
  rcases h with h | ⟨output, h, -⟩
  · exact ⟨_, h⟩
  · exact ⟨_, h⟩

/-- The output begins in the vector. -/
theorem processIoctlVariable_of_le (hoff : rep.iovOffset ≤ iov.length) :
    Confined rep (processIoctlVariable rep iov) ↔
      (rep.ctlCode ≠ FSCTL_GET_REPARSE_POINT → iov.length - rep.iovOffset ≤ rep.outputCount) := by
  have hv : ((Window.whole iov).skip rep.iovOffset).Sound := (Window.sound_whole iov).skip hoff
  have hlen : ((Window.whole iov).skip rep.iovOffset).len = iov.length - rep.iovOffset := by
    rw [Window.skip_len, Window.whole_len, sub64_of_le hoff]
  unfold processIoctlVariable
  generalize (Window.whole iov).skip rep.iovOffset = vec at hv hlen
  simp only
  rw [← hlen]
  split
  · exact iff_of_true (.inl rfl) fun _ => by omega
  split
  · rename_i hcode
    refine iff_of_true ?_ fun hne => absurd hcode hne
    obtain ⟨rp, hrp⟩ := decodeReparseDataBuffer_inside hv
    rw [hrp]
    cases rp with
    | none => exact .inl rfl
    | some rp => exact .inr ⟨.reparse rp, rfl, fun bs h => by cases h⟩
  · rename_i hcode
    have hread : vec.read 0 vec.len = .ok (slice vec.octets 0 vec.len) := by
      refine Window.read_of_le ?_
      rw [Nat.zero_add]
      exact hv
    rw [hread]
    simp only [bind, Except.bind]
    split
    · rename_i hlong
      refine iff_of_false (fun h => not_inside_error _ h.inside) fun h => ?_
      have := h hcode
      omega
    · refine iff_of_true (.inr ⟨_, rfl, fun bs h => ?_⟩) fun _ => by omega
      cases h
      rw [length_slice]
      unfold Window.Sound at hv
      omega

/-- The output begins behind the vector: what is left of it is counted down past zero. -/
theorem processIoctlVariable_of_lt (hoff : iov.length < rep.iovOffset)
    (hsmall : rep.iovOffset < 2 ^ 32) (hcount : rep.outputCount < 2 ^ 32) :
    processIoctlVariable rep iov = .error .read := by
  have hlen : ((Window.whole iov).skip rep.iovOffset).len = iov.length + 2 ^ 64 - rep.iovOffset := by
    rw [Window.skip_len, Window.whole_len, sub64_of_lt hoff]
  have hempty : ((Window.whole iov).skip rep.iovOffset).octets = [] := by
    rw [Window.skip_octets, Window.whole_octets, List.drop_of_length_le (Nat.le_of_lt hoff)]
  unfold processIoctlVariable
  generalize (Window.whole iov).skip rep.iovOffset = vec at hlen hempty
  simp only
  rw [if_neg (by omega)]
  split
  · rw [decodeReparseDataBuffer_overruns (by omega) hempty]
    rfl
  · have hread : vec.read 0 vec.len = .error .read :=
      Window.read_of_lt (by omega) (by rw [hempty, List.length_nil]; omega)
    rw [hread]
    rfl

/-- Whatever is accepted and has a variable part, of which there are `n` octets, is confined. -/
def OutputConfined (iov : Bytes) : Prop :=
  ∀ n rep, processIoctlFixed iov = some (n, rep) → 0 < n →
    ∀ buf : Bytes, (buf.length : Int) = n → Confined rep (processIoctlVariable rep buf)

/-- The number of octets that are to be read has wrapped to less than the offset of the output; or
it has not, and there is an input between the two that is counted for output. -/
def IoctlReply.Misplaced (rep : IoctlReply) : Prop :=
  HEADER_SIZE + 48 ≤ rep.outputOffset ∧ rep.outputCount ≠ 0 ∧ 0 < rep.extent % 2 ^ 32 ∧
    rep.extent % 2 ^ 32 < 2 ^ 31 ∧ (rep.extent % 2 ^ 32 < rep.iovOffset ∨ rep.extent < 2 ^ 32 ∧
      rep.ctlCode ≠ FSCTL_GET_REPARSE_POINT ∧ padTo64 rep.inputCount ≠ 0)

instance (rep : IoctlReply) : Decidable rep.Misplaced := inferInstanceAs (Decidable (_ ∧ _))

theorem ioctlFields_lt (h : ioctlFields iov = some rep) :
    rep.outputOffset < 2 ^ 32 ∧ rep.outputCount < 2 ^ 32 := by
  unfold ioctlFields at h
  split at h
  · cases h
  · cases h
    exact ⟨fromLe_slice_lt iov 32 4, fromLe_slice_lt iov 36 4⟩

/-- **The output of an IOCTL is confined exactly if it is not misplaced.** -/
theorem output_is_confined_iff (iov : Bytes) :
    OutputConfined iov ↔ ∀ rep, ioctlFields iov = some rep → ¬ rep.Misplaced := by
  unfold OutputConfined processIoctlFixed
  cases hfields : ioctlFields iov with
  | none => simp
  | some rep =>
    obtain ⟨houtput, hcount⟩ := ioctlFields_lt hfields
    have hstart : rep.iovOffset < 2 ^ 32 := sub32_lt houtput
    have hpad : padTo64 rep.inputCount < 2 ^ 32 := Nat.mod_lt _ (by decide)
    have hextent : rep.extent = rep.iovOffset + padTo64 rep.inputCount + rep.outputCount := rfl
    simp only [Option.some.injEq, forall_eq']
    constructor
    · rintro hall ⟨hoff, hne, hpos, hsmall, hbad⟩
      have hret : toInt32 rep.extent = (rep.extent % 2 ^ 32 : Nat) := by
        unfold toInt32
        simp only
        split <;> omega
      have hconf := hall _ rep (by rw [if_neg hne, if_neg (by omega), hret]) (by omega)
        (zeros (rep.extent % 2 ^ 32)) (by rw [length_zeros])
      rcases hbad with hbefore | ⟨hfits, hcode, hinput⟩
      · rw [processIoctlVariable_of_lt (by rwa [length_zeros]) hstart hcount] at hconf
        exact not_inside_error _ hconf.inside
      · have hmod : rep.extent % 2 ^ 32 = rep.extent := Nat.mod_eq_of_lt hfits
        have hle := (processIoctlVariable_of_le (by rw [length_zeros]; omega)).mp hconf hcode
        rw [length_zeros] at hle
        omega
    · intro hnot n rep' hfixed hpos buf hbuf
      split at hfixed
      · cases hfixed
        omega
      rename_i hne
      split at hfixed
      · cases hfixed
      rename_i hoff
      simp only [Option.some.injEq, Prod.mk.injEq] at hfixed
      obtain ⟨rfl, rfl⟩ := hfixed
      obtain ⟨hval, hsmall⟩ := toInt32_pos hpos
      have hlength : buf.length = rep.extent % 2 ^ 32 := by omega
      have hgood : ¬ (rep.extent % 2 ^ 32 < rep.iovOffset ∨ rep.extent < 2 ^ 32 ∧
          rep.ctlCode ≠ FSCTL_GET_REPARSE_POINT ∧ padTo64 rep.inputCount ≠ 0) :=
        fun hbad => hnot ⟨by omega, hne, by omega, by omega, hbad⟩
      refine (processIoctlVariable_of_le (by omega)).mpr fun hcode => ?_
      by_cases hfits : rep.extent < 2 ^ 32
      · have hinput : padTo64 rep.inputCount = 0 := by
          by_contra hinput
          exact hgood (.inr ⟨hfits, hcode, hinput⟩)
        rw [hlength, Nat.mod_eq_of_lt hfits]
        omega
      · omega

/-- Eight octets of input and one of output. -/
def replyWithInput : Bytes :=
  le 2 49 ++ zeros 26 ++ le 4 8 ++ le 4 112 ++ le 4 1 ++ zeros 8

/-- Nine octets are copied into a block of one. -/
theorem input_is_copied_behind_the_output : ¬ OutputConfined replyWithInput := by
  intro hall
  have hfixed : processIoctlFixed replyWithInput = some (9, ⟨0, zeros 16, 0, 8, 112, 1, 0⟩) := by
    decide +kernel
  have hconf := hall 9 _ hfixed (by decide) (zeros 9) (by decide)
  have hrun : processIoctlVariable ⟨0, zeros 16, 0, 8, 112, 1, 0⟩ (zeros 9) = .error .write := by
    decide +kernel
  rw [hrun] at hconf
  exact not_inside_error _ hconf.inside

end

/-! ## The reply of a server -/

def IOCTL_VALIDIATE_NEGOTIATE_INFO_SIZE : Nat := 24

/-- `struct smb2_ioctl_reply`, as the encoder takes it. -/
structure IoctlReplyArgs where
  ctlCode : UInt32
  fileId : FileId
  inputCount : UInt32 := 0
  outputCount : UInt32
  flags : UInt32 := 0
  output : Memory

namespace IoctlReplyArgs

/-- The fixed part, with `len` in it for the number of octets of the output. -/
def fixed (rep : IoctlReplyArgs) (len : Nat) : Bytes :=
  zeros (IOCTL_REPLY_SIZE - 1)
    |> setUint16 0 IOCTL_REPLY_SIZE
    |> setUint32 4 rep.ctlCode.toNat
    |> (patch · 8 rep.fileId.1)
    |> setUint32 24 (HEADER_SIZE + 48)
    |> setUint32 28 rep.inputCount.toNat
    |> setUint32 32 (HEADER_SIZE + 48 + padTo64 rep.inputCount.toNat)
    |> setUint32 36 len
    |> setUint32 40 rep.flags.toNat

/-- The fields of a `struct smb2_ioctl_validate_negotiate_info`, which a little-endian host has in
memory as they are sent. -/
def validateNegotiateInfo (rep : IoctlReplyArgs) : Bytes :=
  let info := rep.output.read IOCTL_VALIDIATE_NEGOTIATE_INFO_SIZE
  zeros IOCTL_VALIDIATE_NEGOTIATE_INFO_SIZE
    |> setUint32 0 (fromLe (slice info 0 4))
    |> (patch · 4 (slice info 4 16))
    |> setUint16 20 (fromLe (slice info 20 2))
    |> setUint16 22 (fromLe (slice info 22 2))

/-- The vectors of a reply whose output is put in a block of `PAD_TO_64BIT(len)` octets, of which
`output_count` are cleared first. -/
def addOutput (rep : IoctlReplyArgs) (len : Nat) (output : Bytes) (out : List Bytes) :
    Except Overrun (Option (List Bytes)) :=
  if padTo64 len < rep.outputCount.toNat then .error .write
  else .ok do
    let out ← addVector (rep.fixed len) out
    addVector output out

end IoctlReplyArgs

/-- `smb2_encode_ioctl_reply`; `none` is -1. -/
def encodeIoctlReply (passthrough : Bool) (rep : IoctlReplyArgs) (out : List Bytes) :
    Except Overrun (Option (List Bytes)) :=
  if MAX_VECTORS ≤ out.length then .ok none
  else if rep.outputCount = 0 then
    -- without an output `len` is still the length of the fixed part
    .ok (addVector (rep.fixed (IOCTL_REPLY_SIZE - 1)) out)
  else if rep.ctlCode.toNat = FSCTL_VALIDATE_NEGOTIATE_INFO then
    rep.addOutput IOCTL_VALIDIATE_NEGOTIATE_INFO_SIZE rep.validateNegotiateInfo out
  else if passthrough then
    rep.addOutput rep.outputCount.toNat (rep.output.read rep.outputCount.toNat) out
  else .ok none

/-- `smb2_cmd_ioctl_reply_async`: the octets behind the header. -/
def cmdIoctlReply (passthrough : Bool) (rep : IoctlReplyArgs) : Except Overrun (Option Bytes) :=
  (encodeIoctlReply passthrough rep [zeros HEADER_SIZE]).map fun out =>
    (out.bind padTo64Bit).map fun out => (out.drop 1).flatten

/-- What a client makes of the octets behind the header. -/
def decodeIoctlReply (body : Bytes) : Except Overrun (Option (IoctlReply × Option IoctlOutput)) :=
  decodeBody 48 processIoctlFixed processIoctlVariable body

section
variable {passthrough : Bool} {rep : IoctlReplyArgs} {len : Nat} {output : Bytes}

theorem padTo64_of_lt (h : len < 2 ^ 31) : len ≤ padTo64 len := by
  unfold padTo64
  omega

@[simp] theorem IoctlReplyArgs.length_fixed (rep : IoctlReplyArgs) (len : Nat) :
    (rep.fixed len).length = 48 := by
  have hid := rep.fileId.2
  simp [IoctlReplyArgs.fixed, IOCTL_REPLY_SIZE, length_patch, hid]

/-- What is found in the fixed part. -/
def IoctlReplyArgs.received (rep : IoctlReplyArgs) (len : Nat) : IoctlReply where
  ctlCode := rep.ctlCode.toNat
  fileId := rep.fileId.1
  inputOffset := HEADER_SIZE + 48
  inputCount := rep.inputCount.toNat
  outputOffset := (HEADER_SIZE + 48 + padTo64 rep.inputCount.toNat) % 2 ^ 32
  outputCount := len % 2 ^ 32
  flags := rep.flags.toNat

theorem ioctlFields_fixed (rep : IoctlReplyArgs) (len : Nat) :
    ioctlFields (rep.fixed len) = some (rep.received len) := by
  have hid := rep.fileId.2
  have hctl := rep.ctlCode.toNat_lt
  have hin := rep.inputCount.toNat_lt
  have hflags := rep.flags.toNat_lt
  have hsame : ∀ bs : Bytes, 8 ≤ bs.length → slice (patch bs 8 rep.fileId.1) 8 16 = rep.fileId.1 :=
    fun bs h => by
      have hsame : slice (patch bs 8 rep.fileId.1) 8 rep.fileId.1.length = rep.fileId.1 :=
        slice_patch_same h
      rwa [hid] at hsame
  unfold ioctlFields
  rw [rep.length_fixed len]
  unfold IoctlReplyArgs.fixed IoctlReplyArgs.received
  simp (disch := simp [length_setUint, length_patch, hid, IOCTL_REPLY_SIZE]) only [setUint16,
    setUint32, slice_setUint_before, slice_setUint_same, slice_patch_before, hsame, fromLe_le]
  rw [if_neg (by decide), Nat.mod_eq_of_lt (a := rep.ctlCode.toNat) (by omega),
    Nat.mod_eq_of_lt (a := rep.inputCount.toNat) (by omega),
    Nat.mod_eq_of_lt (a := rep.flags.toNat) (by omega)]
  rfl

/-- What is sent of the structure is the structure. -/
theorem validateNegotiateInfo_eq (rep : IoctlReplyArgs) :
    rep.validateNegotiateInfo = rep.output.read 24 := by
  have hinfo : (rep.output.read 24).length = 24 := Memory.length_read _ _
  unfold IoctlReplyArgs.validateNegotiateInfo
  simp only [setUint16, setUint32, IOCTL_VALIDIATE_NEGOTIATE_INFO_SIZE]
  generalize rep.output.read 24 = info at hinfo
  have hset : ∀ {w off : Nat} {iov : Bytes}, iov.length = 24 → off + w ≤ 24 →
      setUint w off (fromLe (slice info off w)) iov = patch iov off (slice info off w) :=
    fun {w off iov} hiov hw => by
      have hle := le_fromLe (slice info off w)
      rw [length_slice, hinfo, Nat.min_eq_left (by omega)] at hle
      rw [setUint, if_pos (by omega), hle]
  -- every field that is set extends the part in which the two agree
  have hstep : ∀ {off n : Nat} {iov : Bytes}, iov.length = 24 → iov.take off = info.take off →
      off + n ≤ 24 → (patch iov off (slice info off n)).length = 24 ∧
        (patch iov off (slice info off n)).take (off + n) = info.take (off + n) :=
    fun {off n iov} hiov hagree hn =>
      ⟨by rw [length_patch (by rw [length_slice]; omega), hiov],
        take_patch_slice hagree (by omega) (by omega)⟩
  obtain ⟨hlen₁, hagree₁⟩ := hstep (n := 4) (length_zeros 24) (List.take_zero.trans
    List.take_zero.symm) (by decide)
  obtain ⟨hlen₂, hagree₂⟩ := hstep (n := 16) hlen₁ hagree₁ (by decide)
  obtain ⟨hlen₃, hagree₃⟩ := hstep (n := 2) hlen₂ hagree₂ (by decide)
  obtain ⟨hlen₄, hagree₄⟩ := hstep (n := 2) hlen₃ hagree₃ (by decide)
  rw [List.take_of_length_le (Nat.le_of_eq hlen₄), List.take_of_length_le (Nat.le_of_eq hinfo)]
    at hagree₄
  rw [hset (length_zeros 24) (by decide), hset hlen₂ (by decide), hset hlen₃ (by decide)]
  exact hagree₄

/-! ## What comes back -/

/-- The octets of an output, if they are handed out. -/
def outputOctets : Option IoctlOutput → Option Bytes
  | none => some []
  | some (.raw bs) => some bs
  | some (.reparse _) => none

/-- The reply is the one that was sent. -/
structure IoctlReplyArgs.Returned (rep : IoctlReplyArgs) (r : IoctlReply × Option IoctlOutput) :
    Prop where
  ctlCode : r.1.ctlCode = rep.ctlCode.toNat
  fileId : r.1.fileId = rep.fileId.1
  flags : r.1.flags = rep.flags.toNat
  outputCount : r.1.outputCount = rep.outputCount.toNat
  output : outputOctets r.2 = some (rep.output.read rep.outputCount.toNat)

/-- A reply without an input that is not refused comes back as it was sent. -/
def IoctlReplyReturns (passthrough : Bool) (rep : IoctlReplyArgs) : Prop :=
  rep.inputCount = 0 → cmdIoctlReply passthrough rep ≠ .ok none →
    ∃ body r, cmdIoctlReply passthrough rep = .ok (some body) ∧
      decodeIoctlReply body = .ok (some r) ∧ rep.Returned r

/-- The encoder takes the control code. -/
def IoctlReplyArgs.Taken (passthrough : Bool) (rep : IoctlReplyArgs) : Prop :=
  rep.outputCount = 0 ∨ rep.ctlCode.toNat = FSCTL_VALIDATE_NEGOTIATE_INFO ∨ passthrough = true

/-- There is an output, whose length is an `int` and the one that its control code stands for, and
which is not taken for a reparse point. -/
structure IoctlReplyArgs.Plain (rep : IoctlReplyArgs) : Prop where
  nonempty : rep.outputCount ≠ 0
  small : rep.outputCount.toNat < 2 ^ 31
  validate : rep.ctlCode.toNat = FSCTL_VALIDATE_NEGOTIATE_INFO → rep.outputCount = 24
  reparse : rep.ctlCode.toNat ≠ FSCTL_GET_REPARSE_POINT

theorem processIoctlFixed_fixed (hin : rep.inputCount = 0) (hpos : 0 < len) (hlen : len < 2 ^ 32) :
    processIoctlFixed (rep.fixed len) = some (toInt32 len, rep.received len) := by
  have hcount : (rep.received len).outputCount = len := Nat.mod_eq_of_lt hlen
  have hoffset : (rep.received len).outputOffset = HEADER_SIZE + 48 := by
    unfold IoctlReplyArgs.received
    simp only [hin]
    rfl
  have hinput : padTo64 (rep.received len).inputCount = 0 := by
    unfold IoctlReplyArgs.received
    simp only [hin]
    rfl
  have hextent : (rep.received len).extent = len := by
    unfold IoctlReply.extent IoctlReply.iovOffset
    rw [hoffset, hinput, hcount, sub32_of_le (Nat.le_refl _)]
    omega
  unfold processIoctlFixed
  rw [ioctlFields_fixed]
  simp only
  rw [hcount, if_neg (by omega), hoffset, if_neg (by omega), hextent]

/-- An output that is an `int` long and no reparse point comes back. -/
theorem decodeIoctlReply_raw (hin : rep.inputCount = 0) (hpos : 0 < len) (hlen : len < 2 ^ 31)
    (hcode : rep.ctlCode.toNat ≠ FSCTL_GET_REPARSE_POINT) (hout : output.length = len)
    (pad : Bytes) : decodeIoctlReply (rep.fixed len ++ (output ++ pad)) =
      .ok (some (rep.received len, some (.raw output))) := by
  have hfixed : processIoctlFixed (rep.fixed len) = some ((len : Int), rep.received len) := by
    rw [processIoctlFixed_fixed hin hpos (by omega), toInt32_of_lt (by omega)]
  have hstart : (rep.received len).iovOffset = 0 := by
    unfold IoctlReply.iovOffset IoctlReplyArgs.received
    simp only [hin]
    rfl
  have hcount : (rep.received len).outputCount = len := Nat.mod_eq_of_lt (by omega)
  have hvar : processIoctlVariable (rep.received len) output = .ok (some (.raw output)) := by
    have hread : (Window.whole output).read 0 len = .ok output := by
      rw [Window.read_of_le (by rw [Window.whole_octets]; omega), Window.whole_octets,
        slice_zero (Nat.le_of_eq hout)]
    have hskip : (Window.whole output).skip 0 = Window.whole output := rfl
    unfold processIoctlVariable
    rw [hstart, hskip, hcount]
    simp only [Window.whole_len, hout, Nat.lt_irrefl, if_false]
    rw [if_neg (show (rep.received len).ctlCode ≠ _ from hcode), hread]
    rfl
  unfold decodeIoctlReply
  have hlong : len ≤ (output ++ pad).length := by
    rw [List.length_append, hout]
    exact Nat.le_add_right _ _
  rw [decodeBody_of_pos (rep.length_fixed len) hfixed hpos hlong, List.take_left' hout, hvar]
  rfl

theorem processIoctlVariable_reparse {r : IoctlReply} {iov : Bytes} {out : IoctlOutput}
    (hcode : r.ctlCode = FSCTL_GET_REPARSE_POINT)
    (h : processIoctlVariable r iov = .ok (some out)) : outputOctets (some out) = none := by
  unfold processIoctlVariable at h
  simp only at h
  split at h
  · cases h
  · cases hrp : decodeReparseDataBuffer ((Window.whole iov).skip r.iovOffset) with
    | error e =>
      rw [hrp] at h
      cases h
    | ok rp =>
      rw [hrp] at h
      cases rp with
      | none => cases h
      | some rp =>
        cases h
        rfl

/-- What is decoded is what the fixed part says; its length is positive as an `int`, and a reparse
point has no octets. -/
theorem decodeIoctlReply_eq_some {rest : Bytes} {r : IoctlReply × Option IoctlOutput}
    (hin : rep.inputCount = 0) (hpos : 0 < len) (hlen : len < 2 ^ 32)
    (h : decodeIoctlReply (rep.fixed len ++ rest) = .ok (some r)) :
    r.1.outputCount = len ∧ len < 2 ^ 31 ∧
      (rep.ctlCode.toNat = FSCTL_GET_REPARSE_POINT → outputOctets r.2 = none) := by
  have hcount : (rep.received len).outputCount = len := Nat.mod_eq_of_lt hlen
  obtain ⟨n, hfixed, hr⟩ := decodeBody_eq_some h
  rw [List.take_left' (rep.length_fixed len), processIoctlFixed_fixed hin hpos hlen] at hfixed
  simp only [Option.some.injEq, Prod.mk.injEq] at hfixed
  obtain ⟨rfl, hreceived⟩ := hfixed
  rcases hr with ⟨hzero, -⟩ | ⟨hint, output, hvar, hout⟩
  · exfalso
    unfold toInt32 at hzero
    simp only at hzero
    split at hzero <;> omega
  · have hsmall := (toInt32_pos hint).2
    refine ⟨by rw [← hreceived, hcount], by omega, fun hcode => ?_⟩
    rw [hout]
    rw [← hreceived] at hvar
    exact processIoctlVariable_reparse hcode hvar

/-! ## What is sent -/

theorem cmdIoctlReply_of_ok {body : List Bytes} (hbody : body.length < MAX_VECTORS - 1)
    (h : encodeIoctlReply passthrough rep [zeros HEADER_SIZE] =
      .ok (some (zeros HEADER_SIZE :: body))) :
    ∃ pad, cmdIoctlReply passthrough rep = .ok (some (body.flatten ++ pad)) := by
  have hroom : (zeros HEADER_SIZE :: body).length < MAX_VECTORS := by
    rw [List.length_cons]
    omega
  obtain ⟨pad, k, hpad, -⟩ := padTo64Bit_of_lt hroom
  refine ⟨pad.flatten, ?_⟩
  unfold cmdIoctlReply
  rw [h]
  simp only [Except.map, Option.bind_some, hpad, Option.map_some, List.cons_append, List.drop_succ_cons,
    List.drop_zero, List.flatten_append]

/-- The length that is sent for an output that is not empty. -/
def IoctlReplyArgs.sentLength (rep : IoctlReplyArgs) : Nat :=
  if rep.ctlCode.toNat = FSCTL_VALIDATE_NEGOTIATE_INFO then IOCTL_VALIDIATE_NEGOTIATE_INFO_SIZE
  else rep.outputCount.toNat

theorem cmdIoctlReply_refused (h : ¬ rep.Taken passthrough) :
    cmdIoctlReply passthrough rep = .ok none := by
  have hempty : rep.outputCount ≠ 0 := fun hempty => h (.inl hempty)
  have hcode : rep.ctlCode.toNat ≠ FSCTL_VALIDATE_NEGOTIATE_INFO := fun hcode => h (.inr (.inl hcode))
  have hpass : ¬ passthrough = true := fun hpass => h (.inr (.inr hpass))
  unfold cmdIoctlReply encodeIoctlReply
  rw [if_neg (by decide), if_neg hempty, if_neg hcode, if_neg hpass]
  rfl

/-- The length of the fixed part is what is sent for an empty output. -/
theorem cmdIoctlReply_empty (h : rep.outputCount = 0) :
    ∃ rest, cmdIoctlReply passthrough rep = .ok (some (rep.fixed 48 ++ rest)) := by
  have henc : encodeIoctlReply passthrough rep [zeros HEADER_SIZE] =
      .ok (some [zeros HEADER_SIZE, rep.fixed 48]) := by
    unfold encodeIoctlReply
    rw [if_neg (by decide), if_pos h]
    rfl
  obtain ⟨pad, hcmd⟩ := cmdIoctlReply_of_ok (by simp [MAX_VECTORS]) henc
  refine ⟨pad, ?_⟩
  rw [hcmd, List.flatten_singleton]

/-- More octets are cleared than the block has, or it is sent. -/
theorem cmdIoctlReply_output (h : rep.outputCount ≠ 0) (ht : rep.Taken passthrough) :
    (padTo64 rep.sentLength < rep.outputCount.toNat ∧
      cmdIoctlReply passthrough rep = .error .write) ∨
    (rep.outputCount.toNat ≤ padTo64 rep.sentLength ∧
      ∃ pad, cmdIoctlReply passthrough rep =
        .ok (some (rep.fixed rep.sentLength ++ (rep.output.read rep.sentLength ++ pad)))) := by
  have henc : encodeIoctlReply passthrough rep [zeros HEADER_SIZE] =
      rep.addOutput rep.sentLength (rep.output.read rep.sentLength) [zeros HEADER_SIZE] := by
    unfold encodeIoctlReply IoctlReplyArgs.sentLength
    rw [if_neg (by decide), if_neg h]
    split
    · rw [validateNegotiateInfo_eq]
      rfl
    · rename_i hcode
      rw [if_pos (by
        rcases ht with hempty | hvalidate | hpass
        · exact absurd hempty h
        · exact absurd hvalidate hcode
        · exact hpass)]
  by_cases hover : padTo64 rep.sentLength < rep.outputCount.toNat
  · refine .inl ⟨hover, ?_⟩
    unfold cmdIoctlReply
    rw [henc, IoctlReplyArgs.addOutput, if_pos hover]
    rfl
  · have hok : encodeIoctlReply passthrough rep [zeros HEADER_SIZE] =
        .ok (some [zeros HEADER_SIZE, rep.fixed rep.sentLength,
          rep.output.read rep.sentLength]) := by
      rw [henc, IoctlReplyArgs.addOutput, if_neg hover]
      rfl
    obtain ⟨pad, hcmd⟩ := cmdIoctlReply_of_ok (by simp [MAX_VECTORS]) hok
    refine .inr ⟨by omega, pad, ?_⟩
    rw [hcmd, List.flatten_cons, List.flatten_singleton, List.append_assoc]

/-- **An IOCTL reply comes back exactly if its output is plain.** -/
theorem ioctl_reply_returns_iff (passthrough : Bool) (rep : IoctlReplyArgs) :
    IoctlReplyReturns passthrough rep ↔
      (rep.inputCount = 0 → rep.Taken passthrough → rep.Plain) := by
  have hlt := rep.outputCount.toNat_lt
  constructor
  · intro hreturns hin ht
    by_cases hempty : rep.outputCount = 0
    · exfalso
      obtain ⟨rest, hcmd⟩ : ∃ rest, cmdIoctlReply passthrough rep = _ := cmdIoctlReply_empty hempty
      obtain ⟨body, r, hbody, hdecode, hret⟩ := hreturns hin (by rw [hcmd]; simp)
      rw [hcmd, Except.ok.injEq, Option.some.injEq] at hbody
      subst hbody
      obtain ⟨hcount, -, -⟩ := decodeIoctlReply_eq_some hin (by decide) (by decide) hdecode
      have := hret.outputCount
      rw [hcount, hempty] at this
      exact absurd this (by decide)
    · have hne : rep.outputCount.toNat ≠ 0 := fun h => hempty (UInt32.toNat.inj h)
      rcases cmdIoctlReply_output hempty ht with ⟨-, hcmd⟩ | ⟨-, pad, hcmd⟩
      · obtain ⟨body, r, hbody, -⟩ := hreturns hin (by rw [hcmd]; simp)
        rw [hcmd] at hbody
        cases hbody
      · obtain ⟨body, r, hbody, hdecode, hret⟩ := hreturns hin (by rw [hcmd]; simp)
        rw [hcmd, Except.ok.injEq, Option.some.injEq] at hbody
        subst hbody
        have hsent : 0 < rep.sentLength ∧ rep.sentLength < 2 ^ 32 := by
          unfold IoctlReplyArgs.sentLength
          split
          · decide
          · omega
        obtain ⟨hcount, hsmall, hraw⟩ := decodeIoctlReply_eq_some hin hsent.1 hsent.2 hdecode
        have hlen : rep.sentLength = rep.outputCount.toNat := hcount.symm.trans hret.outputCount
        refine ⟨hempty, by omega, fun hcode => ?_, fun hcode => ?_⟩
        · rw [IoctlReplyArgs.sentLength, if_pos hcode] at hlen
          exact UInt32.toNat.inj hlen.symm
        · have := hret.output
          rw [hraw hcode] at this
          cases this
  · intro hplain hin haccepted
    by_cases ht : rep.Taken passthrough
    · obtain ⟨hempty, hsmall, hvalidate, hreparse⟩ := hplain hin ht
      have hne : rep.outputCount.toNat ≠ 0 := fun h => hempty (UInt32.toNat.inj h)
      have hlen : rep.sentLength = rep.outputCount.toNat := by
        unfold IoctlReplyArgs.sentLength
        split
        · rename_i hcode
          rw [hvalidate hcode]
          rfl
        · rfl
      have hpad := padTo64_of_lt hsmall
      rcases cmdIoctlReply_output hempty ht with ⟨hover, -⟩ | ⟨-, pad, hcmd⟩
      · rw [hlen] at hover
        omega
      · rw [hlen] at hcmd
        exact ⟨_, _, hcmd, decodeIoctlReply_raw hin (by omega) hsmall hreparse
          (Memory.length_read _ _) pad, rfl, rfl, rfl, Nat.mod_eq_of_lt (by omega), rfl⟩
    · exact absurd (cmdIoctlReply_refused ht) haccepted

/-- A reply without an output, to a control code that a passthrough context takes. -/
def emptyReply : IoctlReplyArgs where
  ctlCode := 0
  fileId := noId
  outputCount := 0
  output := fun _ => 0

/-- A client is told to wait for 48 octets of output, none of which is sent. -/
theorem an_empty_output_does_not_return : ¬ IoctlReplyReturns true emptyReply := by
  intro hreturns
  have hcmd : cmdIoctlReply true emptyReply = .ok (some (emptyReply.fixed 48)) := by
    decide +kernel
  obtain ⟨body, r, hbody, hdecode, -⟩ := hreturns rfl (by rw [hcmd]; simp)
  rw [hcmd] at hbody
  cases hbody
  have hnone : decodeIoctlReply (emptyReply.fixed 48) = .ok none := by
    decide +kernel
  rw [hnone] at hdecode
  cases hdecode

end

end Libsmb2
