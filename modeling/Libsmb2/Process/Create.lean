import Libsmb2.Process

/-!
# The request to CREATE a file

`smb2_process_create_request_fixed` and `smb2_process_create_request_variable`, with which a server
takes apart what a client has put together.  How much is to be read is told from the two offsets and
the length of the contexts, or from the length of the name; the name is read from where the variable
part begins, wherever the request says it is.

* `create_request_is_confined_iff` — when the name that is read and the contexts that are handed
  out lie in what was read, and the name where the request says it is.
-/

set_option autoImplicit false

namespace Libsmb2

open Util

/-- `struct smb2_create_request` after the fixed part. -/
structure CreateRequest where
  securityFlags : Nat
  requestedOplockLevel : Nat
  impersonationLevel : Nat
  smbCreateFlags : Nat
  desiredAccess : Nat
  fileAttributes : Nat
  shareAccess : Nat
  createDisposition : Nat
  createOptions : Nat
  nameOffset : Nat
  nameLength : Nat
  createContextOffset : Nat
  createContextLength : Nat
  deriving DecidableEq, Repr

/-- The fields of a fixed part of the right size. -/
def createFields (iov : Bytes) : Option CreateRequest :=
  if fromLe (slice iov 0 2) ≠ CREATE_REQUEST_SIZE ∨ iov.length ≠ 56 then none
  else some {
    securityFlags := fromLe (slice iov 2 1)
    requestedOplockLevel := fromLe (slice iov 3 1)
    impersonationLevel := fromLe (slice iov 4 4)
    smbCreateFlags := fromLe (slice iov 8 8)
    desiredAccess := fromLe (slice iov 24 4)
    fileAttributes := fromLe (slice iov 28 4)
    shareAccess := fromLe (slice iov 32 4)
    createDisposition := fromLe (slice iov 36 4)
    createOptions := fromLe (slice iov 40 4)
    nameOffset := fromLe (slice iov 44 2)
    nameLength := fromLe (slice iov 46 2)
    createContextOffset := fromLe (slice iov 48 4)
    createContextLength := fromLe (slice iov 52 4) }

namespace CreateRequest

/-- `IOVREQ_OFFSET_CREATE`, an `int`. -/
def iovreqOffset (req : CreateRequest) : Int := (req.nameOffset : Int) - HEADER_SIZE - 56

/-- What the name takes up, with what lies between it and the contexts. -/
def nameExtent (req : CreateRequest) : Nat :=
  if req.nameOffset < req.createContextOffset then
    padTo64 (req.createContextOffset - req.nameOffset)
  else req.nameLength

/-- `remaining`, an `int`. -/
def remaining (req : CreateRequest) : Int :=
  toInt32 (req.iovreqOffset + req.nameExtent + req.createContextLength)

end CreateRequest

/-- `smb2_process_create_request_fixed`; `none` is -1. -/
def processCreateRequestFixed (iov : Bytes) : Option (Int × CreateRequest) :=
  match createFields iov with
  | none => none
  | some req =>
    if req.createContextLength = 0 ∧ req.nameLength = 0 then some (0, req)
    else if 0 < req.nameLength ∧ req.nameOffset < HEADER_SIZE + 56 then none
    else if 0 < req.createContextLength ∧ req.createContextOffset < HEADER_SIZE + 56 then none
    else some (req.remaining, req)

/-- What the variable part adds to the request. -/
structure CreateNames where
  name : Option CString
  createContext : Option Bytes
  deriving DecidableEq, Repr

/-- The name, from the beginning of the variable part. -/
def readName (req : CreateRequest) (iov : Bytes) : Except Overrun (Option CString) :=
  if 0 < req.nameLength then (utf16At (.whole iov) 0 req.nameLength).map some else .ok none

/-- The contexts, which are not looked at: these are the octets that a caller finds where it is told
that they are. -/
def readContext (req : CreateRequest) (iov : Bytes) : Except Overrun (Option Bytes) :=
  if req.createContextLength ≠ 0 ∧ req.createContextOffset ≠ 0 then
    ((Window.whole iov).read (sub32 req.createContextOffset (HEADER_SIZE + 56))
      req.createContextLength).map some
  else .ok none

/-- `smb2_process_create_request_variable`. -/
def processCreateRequestVariable (req : CreateRequest) (iov : Bytes) :
    Except Overrun (Option CreateNames) := do
  let name ← readName req iov
  let createContext ← readContext req iov
  .ok (some ⟨name, createContext⟩)

section
variable {req : CreateRequest} {iov : Bytes}

/-! ## What is read of the variable part -/

/-- The text of `len / 2` code units at an offset. -/
def textAt (buf : Bytes) (off len : Nat) : CString :=
  .ofBytes (utf16ToUtf8 (utf16Units (slice buf off (len / 2 * 2))))

namespace CreateRequest

/-- The name and the contexts, from the beginning of the variable part and from their offset. -/
def names (req : CreateRequest) (iov : Bytes) : CreateNames where
  name := if 0 < req.nameLength then some (textAt iov 0 req.nameLength) else none
  createContext := if req.createContextLength ≠ 0 ∧ req.createContextOffset ≠ 0 then
      some (slice iov (sub32 req.createContextOffset (HEADER_SIZE + 56)) req.createContextLength)
    else none

/-- What is read lies in the variable part. -/
structure Within (req : CreateRequest) (n : Nat) : Prop where
  name : req.nameLength / 2 * 2 ≤ n
  createContext : req.createContextLength ≠ 0 → req.createContextOffset ≠ 0 →
    sub32 req.createContextOffset (HEADER_SIZE + 56) + req.createContextLength ≤ n

end CreateRequest

theorem readName_of_le (h : req.nameLength / 2 * 2 ≤ iov.length) :
    readName req iov = .ok (req.names iov).name := by
  have hname : utf16At (.whole iov) 0 req.nameLength = .ok (textAt iov 0 req.nameLength) := by
    unfold utf16At
    rw [Window.read_of_le (by rw [Window.whole_octets, Nat.zero_add]; exact h)]
    rfl
  unfold readName CreateRequest.names
  rw [hname]
  split <;> rfl

theorem readName_of_lt (h : iov.length < req.nameLength / 2 * 2) :
    readName req iov = .error .read := by
  have hread : (Window.whole iov).read 0 (req.nameLength / 2 * 2) = .error .read :=
    Window.read_of_lt (by omega) (by rw [Window.whole_octets, Nat.zero_add]; exact h)
  unfold readName utf16At
  rw [if_pos (by omega), hread]
  rfl

theorem processCreateRequestVariable_of_within (h : req.Within iov.length) :
    processCreateRequestVariable req iov = .ok (some (req.names iov)) := by
  have hctx : readContext req iov = .ok (req.names iov).createContext := by
    unfold readContext CreateRequest.names
    by_cases hctx : req.createContextLength ≠ 0 ∧ req.createContextOffset ≠ 0
    · rw [if_pos hctx, if_pos hctx, Window.read_of_le (h.createContext hctx.1 hctx.2)]
      rfl
    · rw [if_neg hctx, if_neg hctx]
  unfold processCreateRequestVariable
  rw [readName_of_le h.name, hctx]
  rfl

theorem within_of_inside (h : Inside (processCreateRequestVariable req iov)) :
    req.Within iov.length := by
  unfold processCreateRequestVariable at h
  by_cases hname : req.nameLength / 2 * 2 ≤ iov.length
  · refine ⟨hname, fun hlen hoff => ?_⟩
    by_contra hlong
    have hread : (Window.whole iov).read (sub32 req.createContextOffset (HEADER_SIZE + 56))
        req.createContextLength = .error .read :=
      Window.read_of_lt hlen (by rw [Window.whole_octets]; omega)
    rw [readName_of_le hname, readContext, if_pos ⟨hlen, hoff⟩, hread] at h
    exact not_inside_error _ h
  · rw [readName_of_lt (by omega)] at h
    exact absurd h (not_inside_error _)

/-! ## Where the name is -/

/-- The name that is read is the one at the offset of the request, and nothing is read from behind
the variable part. -/
def ReadsItsName (req : CreateRequest) (buf : Bytes) : Prop :=
  ∃ names, processCreateRequestVariable req buf = .ok (some names) ∧
    (0 < req.nameLength → names.name = some (textAt buf req.iovreqOffset.toNat req.nameLength))

theorem textAt_zeros {buf : Bytes} {off k : Nat} (h : buf.drop off = zeros k) (len : Nat) :
    (textAt buf off len).octets = [] := by
  have htake : slice buf off (len / 2 * 2) = zeros (min (len / 2 * 2) k) := by
    rw [slice, h, zeros, List.take_replicate]
    rfl
  unfold textAt
  rw [htake]
  rcases min (len / 2 * 2) k with _ | _ | m
  · rfl
  · rfl
  · have hunits : utf16Units (zeros (m + 2)) = 0 :: utf16Units (zeros m) := rfl
    rw [hunits, CString.ofBytes]
    simp only [utf16ToUtf8_ascii _ (show 0 < 0x80 by decide)]
    rfl

theorem textAt_letter {len : Nat} (h : 2 ≤ len) (k : Nat) :
    (textAt (0x41 :: zeros (k + 1)) 0 len).octets ≠ [] := by
  obtain ⟨m, hm⟩ : ∃ m, len / 2 * 2 = m + 2 := ⟨len / 2 * 2 - 2, by omega⟩
  have hslice : slice (0x41 :: zeros (k + 1)) 0 (len / 2 * 2) = 0x41 :: 0 :: (zeros k).take m := by
    rw [hm]
    rfl
  have hunits : utf16Units (0x41 :: 0 :: (zeros k).take m) =
      0x41 :: utf16Units ((zeros k).take m) := rfl
  unfold textAt
  rw [hslice, hunits, CString.ofBytes]
  simp only [utf16ToUtf8_ascii _ (show 0x41 < 0x80 by decide)]
  exact nofun

/-! ## How much is read -/

namespace CreateRequest

/-- How much is to be read, before the sum wraps. -/
def extent (req : CreateRequest) : Int :=
  req.iovreqOffset + (if req.nameOffset < req.createContextOffset then
    (req.createContextOffset - req.nameOffset + 7) / 8 * 8 else req.nameLength : Nat) +
    req.createContextLength

theorem remaining_eq (req : CreateRequest) : req.remaining = toInt32 req.extent := by
  unfold remaining extent nameExtent padTo64
  apply toInt32_congr
  split <;> omega

theorem extent_cases (req : CreateRequest) :
    (req.nameOffset < req.createContextOffset ∧ req.extent = (req.nameOffset : Int) - 120 +
      ((req.createContextOffset - req.nameOffset + 7) / 8 * 8 : Nat) + req.createContextLength) ∨
    (req.createContextOffset ≤ req.nameOffset ∧ req.extent = (req.nameOffset : Int) - 120 +
      req.nameLength + req.createContextLength) := by
  have hheader : HEADER_SIZE = 64 := rfl
  unfold extent iovreqOffset
  split
  · exact .inl ⟨by assumption, by omega⟩
  · exact .inr ⟨by omega, by omega⟩

/-- The widths of the fields. -/
structure Sized (req : CreateRequest) : Prop where
  nameOffset : req.nameOffset < 2 ^ 16
  nameLength : req.nameLength < 2 ^ 16
  createContextOffset : req.createContextOffset < 2 ^ 32
  createContextLength : req.createContextLength < 2 ^ 32

/-- Neither the name nor the contexts overlap the fixed part, and there is one or the other. -/
structure Taken (req : CreateRequest) : Prop where
  nonempty : ¬ (req.createContextLength = 0 ∧ req.nameLength = 0)
  name : ¬ (0 < req.nameLength ∧ req.nameOffset < HEADER_SIZE + 56)
  createContext : ¬ (0 < req.createContextLength ∧ req.createContextOffset < HEADER_SIZE + 56)

/-- The number of octets to be read, positive as an `int`, has wrapped and there are contexts; or
there is a name, which does not begin with the variable part or is longer than that. -/
structure Misplaced (req : CreateRequest) : Prop where
  taken : req.Taken
  pos : 0 < req.extent % 2 ^ 32
  small : req.extent % 2 ^ 32 < 2 ^ 31
  bad : req.createContextLength ≠ 0 ∧ 2 ^ 32 ≤ req.extent ∨
    2 ≤ req.nameLength ∧
      (req.nameOffset ≠ HEADER_SIZE + 56 ∨ req.extent < (req.nameLength / 2 * 2 : Nat))

end CreateRequest

/-- Whatever is accepted and has a variable part, of which there are `n` octets, is read as it
should be. -/
def CreateConfined (iov : Bytes) : Prop :=
  ∀ n req, processCreateRequestFixed iov = some (n, req) → 0 < n →
    ∀ buf : Bytes, (buf.length : Int) = n → ReadsItsName req buf

theorem createFields_sized (h : createFields iov = some req) : req.Sized := by
  unfold createFields at h
  split at h
  · cases h
  · cases h
    exact ⟨fromLe_slice_lt iov 44 2, fromLe_slice_lt iov 46 2, fromLe_slice_lt iov 48 4,
      fromLe_slice_lt iov 52 4⟩

theorem processCreateRequestFixed_taken (h : createFields iov = some req) (ht : req.Taken) :
    processCreateRequestFixed iov = some (req.remaining, req) := by
  unfold processCreateRequestFixed
  rw [h]
  simp only
  rw [if_neg ht.nonempty, if_neg ht.name, if_neg ht.createContext]

theorem processCreateRequestFixed_fields {n : Int}
    (h : processCreateRequestFixed iov = some (n, req)) :
    createFields iov = some req ∧ (0 < n → n = req.remaining ∧ req.Taken) := by
  unfold processCreateRequestFixed at h
  split at h
  · cases h
  rename_i req' hfields
  split at h
  · rw [Option.some.injEq, Prod.mk.injEq] at h
    rw [hfields, h.2]
    exact ⟨rfl, fun hpos => by omega⟩
  rename_i hne
  split at h
  · cases h
  rename_i hname
  split at h
  · cases h
  rename_i hctx
  rw [Option.some.injEq, Prod.mk.injEq] at h
  obtain ⟨rfl, rfl⟩ := h
  exact ⟨hfields, fun _ => ⟨rfl, hne, hname, hctx⟩⟩

/-- A request that is not misplaced is read as it should be. -/
theorem readsItsName_of_not_misplaced {buf : Bytes} (hs : req.Sized) (ht : req.Taken)
    (hpos : 0 < req.remaining) (hbuf : (buf.length : Int) = req.remaining)
    (hnot : ¬ req.Misplaced) : ReadsItsName req buf := by
  obtain ⟨hno, hnl, hco, hcl⟩ := hs
  rw [req.remaining_eq] at hpos hbuf
  obtain ⟨hval, hsmall⟩ := toInt32_pos hpos
  have hgood : ¬ (req.createContextLength ≠ 0 ∧ 2 ^ 32 ≤ req.extent ∨ 2 ≤ req.nameLength ∧
      (req.nameOffset ≠ HEADER_SIZE + 56 ∨ req.extent < (req.nameLength / 2 * 2 : Nat))) :=
    fun hbad => hnot ⟨ht, by omega, by omega, hbad⟩
  have hheader : HEADER_SIZE = 64 := rfl
  obtain ⟨hne, hname, hctx⟩ := ht
  have hwithin : req.Within buf.length := by
    have hextent := req.extent_cases
    refine ⟨?_, fun hlen hoff => ?_⟩
    · omega
    · rw [sub32_of_le (by omega)]
      omega
  refine ⟨req.names buf, processCreateRequestVariable_of_within hwithin, fun hlen => ?_⟩
  unfold CreateRequest.names
  rw [if_pos hlen]
  by_cases hlong : 2 ≤ req.nameLength
  · have hstart : req.nameOffset = HEADER_SIZE + 56 := by
      by_contra hstart
      exact hgood (.inr ⟨hlong, .inl hstart⟩)
    have hzero : req.iovreqOffset.toNat = 0 := by
      unfold CreateRequest.iovreqOffset
      omega
    rw [hzero]
  · have hone : req.nameLength / 2 * 2 = 0 := by omega
    unfold textAt
    rw [hone]
    rfl

/-- A name behind the beginning of the variable part is not the one that is read, if the variable
part begins with a letter and goes on with zeros. -/
theorem not_readsItsName_of_offset {k : Nat} (hlen : 2 ≤ req.nameLength)
    (hoff : HEADER_SIZE + 56 < req.nameOffset) : ¬ ReadsItsName req (0x41 :: zeros (k + 1)) := by
  rintro ⟨names, hrun, hname⟩
  have hwithin := within_of_inside ⟨_, hrun⟩
  rw [processCreateRequestVariable_of_within hwithin] at hrun
  cases hrun
  have hread := hname (by omega)
  unfold CreateRequest.names at hread
  rw [if_pos (by omega), Option.some.injEq] at hread
  have hdrop : (0x41 :: zeros (k + 1)).drop req.iovreqOffset.toNat =
      zeros (k + 1 - (req.iovreqOffset.toNat - 1)) := by
    obtain ⟨d, hd⟩ : ∃ d, req.iovreqOffset.toNat = d + 1 := by
      have hheader : HEADER_SIZE = 64 := rfl
      refine ⟨req.nameOffset - 121, ?_⟩
      unfold CreateRequest.iovreqOffset
      omega
    rw [hd, List.drop_succ_cons, zeros, List.drop_replicate]
    rfl
  have hempty := textAt_zeros hdrop req.nameLength
  rw [← hread] at hempty
  exact textAt_letter hlen k hempty

/-- Some variable part of a misplaced request is not read as it should be. -/
theorem CreateRequest.Misplaced.not_readsItsName (h : req.Misplaced) (hs : req.Sized) :
    ∃ buf : Bytes, (buf.length : Int) = req.remaining ∧ ¬ ReadsItsName req buf := by
  obtain ⟨hno, hnl, hco, hcl⟩ := hs
  obtain ⟨⟨hne, hname, hctx⟩, hpos, hsmall, hbad⟩ := h
  have hheader : HEADER_SIZE = 64 := rfl
  have hrem : req.remaining = req.extent % 4294967296 := by
    rw [req.remaining_eq, toInt32_eq (by omega)]
  have hextent := req.extent_cases
  have hinside : ∀ buf : Bytes, ReadsItsName req buf → req.Within buf.length :=
    fun buf ⟨names, hrun, _⟩ => within_of_inside ⟨_, hrun⟩
  obtain ⟨n, hn⟩ : ∃ n : Nat, (n : Int) = req.remaining := ⟨req.remaining.toNat, by omega⟩
  rcases hbad with ⟨hlen, hwraps⟩ | ⟨hlen, hoff | hshort⟩
  · -- the contexts end behind what is read
    refine ⟨zeros n, by rw [length_zeros, hn], fun hreads => ?_⟩
    have hend := (hinside _ hreads).createContext hlen (by omega)
    rw [sub32_of_le (by omega), length_zeros] at hend
    omega
  · by_cases htwo : n < 2
    · refine ⟨zeros n, by rw [length_zeros, hn], fun hreads => ?_⟩
      have hend := (hinside _ hreads).name
      rw [length_zeros] at hend
      omega
    · obtain ⟨k, rfl⟩ : ∃ k, n = k + 2 := ⟨n - 2, by omega⟩
      exact ⟨0x41 :: zeros (k + 1), by rw [List.length_cons, length_zeros, ← hn],
        not_readsItsName_of_offset hlen (by omega)⟩
  · refine ⟨zeros n, by rw [length_zeros, hn], fun hreads => ?_⟩
    have hend := (hinside _ hreads).name
    rw [length_zeros] at hend
    omega

/-- **A CREATE is read inside its variable part, and its name from where it is, exactly if the
request is not misplaced.** -/
theorem create_request_is_confined_iff (iov : Bytes) :
    CreateConfined iov ↔ ∀ req, createFields iov = some req → ¬ req.Misplaced := by
  constructor
  · intro hall req hfields hbad
    obtain ⟨buf, hbuf, hnot⟩ := hbad.not_readsItsName (createFields_sized hfields)
    have hpos : 0 < req.remaining := by
      have := hbad.pos
      have := hbad.small
      rw [req.remaining_eq, toInt32_eq (by omega)]
      omega
    exact hnot (hall _ req (processCreateRequestFixed_taken hfields hbad.taken) hpos buf hbuf)
  · intro hnot n req hfixed hpos buf hbuf
    obtain ⟨hfields, hn⟩ := processCreateRequestFixed_fields hfixed
    obtain ⟨rfl, ht⟩ := hn hpos
    exact readsItsName_of_not_misplaced (createFields_sized hfields) ht hpos hbuf (hnot req hfields)

/-- A name of sixteen octets, and one octet of contexts that begin after eight of them. -/
def overlappingRequest : Bytes :=
  le 2 57 ++ zeros 42 ++ le 2 120 ++ le 2 16 ++ le 4 128 ++ le 4 1

/-- The name of sixteen octets is read from the nine that there are. -/
theorem sixteen_octets_are_read_of_nine : ¬ CreateConfined overlappingRequest := by
  intro hall
  have hfixed : (processCreateRequestFixed overlappingRequest).map (fun r => (r.1, r.2.nameLength)) =
      some (9, 16) := by decide +kernel
  obtain ⟨⟨n, req⟩, hreq, heq⟩ := Option.map_eq_some_iff.mp hfixed
  simp only [Prod.mk.injEq] at heq
  obtain ⟨rfl, hlen⟩ := heq
  obtain ⟨names, hrun, -⟩ := hall 9 req hreq (by decide) (zeros 9) (by decide)
  have hend := (within_of_inside ⟨_, hrun⟩).name
  rw [hlen, length_zeros] at hend
  omega

end

end Libsmb2
