import Libsmb2.Process.Ioctl

/-!
# Symbolic links

What a client makes of the reparse point of a symbolic link.  The names are given by offsets into
the path buffer, which begins behind twenty octets; the offsets are compared with the length that
the reparse point gives for itself, without eight of those, and that with the length of the vector
as a `uint16_t`.

* `SymlinkBuffer` — a well-formed symbolic link, of fewer than 65536 octets;
* `symlink_is_decoded` — its flags and names are decoded;
* `reparse_point_is_decoded` — nothing is read outside any buffer, and every symbolic link is
  decoded.
-/

set_option autoImplicit false

namespace Libsmb2

open Util

/-- The reparse point of a symbolic link, and what follows it in the buffer. -/
structure SymlinkBuffer where
  reserved : Nat
  suboffset : Nat
  sublen : Nat
  printoffset : Nat
  printlen : Nat
  flags : Nat
  pathBuffer : Bytes
  rest : Bytes
  flags_lt : flags < 256 ^ 4
  subname_inside : suboffset + sublen ≤ pathBuffer.length
  printname_inside : printoffset + printlen ≤ pathBuffer.length
  short : 20 + pathBuffer.length + rest.length < 65536

namespace SymlinkBuffer

/-- The octets before the path buffer. -/
def head (b : SymlinkBuffer) : Bytes :=
  le 4 REPARSE_TAG_SYMLINK ++ (le 2 (12 + b.pathBuffer.length) ++ (le 2 b.reserved ++
    (le 2 b.suboffset ++ (le 2 b.sublen ++ (le 2 b.printoffset ++ (le 2 b.printlen ++
      le 4 b.flags))))))

def octets (b : SymlinkBuffer) : Bytes := b.head ++ (b.pathBuffer ++ b.rest)

/-- The code units of a name. -/
def units (b : SymlinkBuffer) (off len : Nat) : List Nat :=
  utf16Units (slice b.pathBuffer off (len / 2 * 2))

def subname (b : SymlinkBuffer) : List Nat := b.units b.suboffset b.sublen

def printname (b : SymlinkBuffer) : List Nat := b.units b.printoffset b.printlen

/-- The flags and the UTF-8 forms of the names. -/
def decoded (b : SymlinkBuffer) : ReparseDataBuffer where
  reparseTag := REPARSE_TAG_SYMLINK
  reparseDataLength := 12 + b.pathBuffer.length
  symlink := some {
    flags := b.flags
    subname := .ofBytes (utf16ToUtf8 b.subname)
    printname := .ofBytes (utf16ToUtf8 b.printname) }

section
variable (b : SymlinkBuffer)

theorem length_head : b.head.length = 20 := by simp [head]

theorem length_octets : b.octets.length = 20 + b.pathBuffer.length + b.rest.length := by
  rw [octets, List.length_append, List.length_append, length_head, Nat.add_assoc]

/-- A field before the path buffer. -/
theorem get_head {off n value : Nat} (h : slice b.head off n = le n value) (hoff : off + n ≤ 20)
    (hvalue : value < 256 ^ n) : (Window.whole b.octets).get n off 0 = .ok value := by
  have hlen := b.length_octets
  have hhead := b.length_head
  rw [Window.get_of_le (by rw [Window.whole_len]; omega) (by rw [Window.whole_octets]; omega),
    Window.whole_octets, octets, slice_append_left (by omega), h, fromLe_le,
    Nat.mod_eq_of_lt hvalue]

/-- All fields before the path buffer. -/
theorem get_fields :
    (Window.whole b.octets).get 4 0 0 = .ok REPARSE_TAG_SYMLINK ∧
    (Window.whole b.octets).get 2 4 0 = .ok (12 + b.pathBuffer.length) ∧
    (Window.whole b.octets).get 2 8 0 = .ok b.suboffset ∧
    (Window.whole b.octets).get 2 10 0 = .ok b.sublen ∧
    (Window.whole b.octets).get 2 12 0 = .ok b.printoffset ∧
    (Window.whole b.octets).get 2 14 0 = .ok b.printlen ∧
    (Window.whole b.octets).get 4 16 0 = .ok b.flags := by
  have hsub := b.subname_inside
  have hprint := b.printname_inside
  have hshort := b.short
  refine ⟨b.get_head ?_ (by simp) (by decide), b.get_head ?_ (by simp) (by omega),
    b.get_head ?_ (by simp) (by omega), b.get_head ?_ (by simp) (by omega),
    b.get_head ?_ (by simp) (by omega), b.get_head ?_ (by simp) (by omega),
    b.get_head ?_ (by simp) b.flags_lt⟩
  case refine_7 =>
    simp (disch := simp) only [head, slice_skip_le, Nat.reduceSub]
    simp [slice]
  all_goals simp (disch := simp) only [head, slice_skip_le, slice_here_le, Nat.reduceSub]

/-- A name in the path buffer. -/
theorem reparseName_path {off len : Nat} (h : off + len ≤ b.pathBuffer.length) :
    reparseName (.whole b.octets) off len = .ok (.ofBytes (utf16ToUtf8 (b.units off len))) := by
  have hlen := b.length_octets
  have hhead := b.length_head
  have hplace : slice b.octets (off + 20) (len / 2 * 2) = slice b.pathBuffer off (len / 2 * 2) := by
    rw [octets, slice_append_right (by omega), hhead, Nat.add_sub_cancel,
      slice_append_left (by omega)]
  unfold reparseName utf16At units
  rw [Window.read_of_le (by rw [Window.whole_octets]; omega), Window.whole_octets, hplace]
  rfl

end

end SymlinkBuffer

/-- **A symbolic link is decoded**, wherever in the path buffer its names are. -/
theorem symlink_is_decoded (b : SymlinkBuffer) :
    decodeReparseDataBuffer (.whole b.octets) = .ok (some b.decoded) := by
  have hlen : (Window.whole b.octets).len = 20 + b.pathBuffer.length + b.rest.length :=
    b.length_octets
  have hshort := b.short
  have hsub := b.subname_inside
  have hprint := b.printname_inside
  obtain ⟨htag, hdata, hsuboffset, hsublen, hprintoffset, hprintlen, hflags⟩ := b.get_fields
  have hlink : decodeSymlink (12 + b.pathBuffer.length) (.whole b.octets) =
      .ok (some ⟨b.flags, .ofBytes (utf16ToUtf8 b.subname),
        .ofBytes (utf16ToUtf8 b.printname)⟩) := by
    unfold decodeSymlink
    rw [if_neg (by omega), hflags]
    simp only [bind, Except.bind]
    rw [hsuboffset, hsublen]
    simp only
    rw [if_neg (by omega), b.reparseName_path hsub, hprintoffset, hprintlen]
    simp only
    rw [if_neg (by omega), b.reparseName_path hprint]
    rfl
  unfold decodeReparseDataBuffer
  rw [if_neg (by omega), htag, hdata]
  simp only [bind, Except.bind]
  rw [if_neg (by omega), if_pos trivial, hlink]
  rfl

/-- **Reparse points.**  Nothing is read outside a vector, whatever is in it, and of every symbolic
link the flags and the names come out; they are the UTF-8 forms of the names unless one of their
code units is zero. -/
theorem reparse_point_is_decoded :
    (∀ v : Window, v.Sound → Inside (decodeReparseDataBuffer v)) ∧
    ∀ b : SymlinkBuffer,
      decodeReparseDataBuffer (.whole b.octets) = .ok (some b.decoded) ∧
      (0 ∉ b.subname → (CString.ofBytes (utf16ToUtf8 b.subname)).octets =
        utf16ToUtf8 b.subname) ∧
      (0 ∉ b.printname → (CString.ofBytes (utf16ToUtf8 b.printname)).octets =
        utf16ToUtf8 b.printname) :=
  ⟨fun _ hv => decodeReparseDataBuffer_inside hv, fun b => ⟨symlink_is_decoded b,
    CString.ofBytes_utf16ToUtf8, CString.ofBytes_utf16ToUtf8⟩⟩

/-- A link whose two names, "ab" and "bc", share a letter. -/
def overlappingLink : SymlinkBuffer where
  reserved := 0
  suboffset := 0
  sublen := 4
  printoffset := 2
  printlen := 4
  flags := 1
  pathBuffer := [0x61, 0, 0x62, 0, 0x63, 0]
  rest := [0xff]
  flags_lt := by decide
  subname_inside := by decide
  printname_inside := by decide
  short := by decide

theorem overlapping_names_are_decoded :
    decodeReparseDataBuffer (.whole overlappingLink.octets) = .ok (some overlappingLink.decoded) ∧
      (CString.ofBytes (utf16ToUtf8 overlappingLink.subname)).octets = [0x61, 0x62] ∧
      (CString.ofBytes (utf16ToUtf8 overlappingLink.printname)).octets = [0x62, 0x63] := by
  obtain ⟨hdecoded, hsub, hprint⟩ := reparse_point_is_decoded.2 overlappingLink
  have hsubname : utf16ToUtf8 overlappingLink.subname = [0x61, 0x62] := by decide +kernel
  have hprintname : utf16ToUtf8 overlappingLink.printname = [0x62, 0x63] := by decide +kernel
  exact ⟨hdecoded, (hsub (by decide)).trans hsubname, (hprint (by decide)).trans hprintname⟩

end Libsmb2
