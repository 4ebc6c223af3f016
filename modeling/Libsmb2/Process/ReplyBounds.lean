import Libsmb2.PathOps
import Libsmb2.Process.Negotiate.Returns

/-!
# The buffers of four replies

The fixed parts of a CREATE, a NEGOTIATE, a SESSION_SETUP and a QUERY_INFO reply give an offset and
a length, from which it is computed how much is to be read; the variable part then takes the buffer
from the offset.  Each of the four has a check of its own, and CREATE has none against the wrapping
of the sum.

* `ReadInside` — what is exposed of a variable part lies in it, and `readInside_iff`, when a buffer
  that ends with the variable part does;
* `reply_buffers_lie_inside_iff` — what is exposed of the four replies.
-/

set_option autoImplicit false

namespace Libsmb2

open Util
open PathOps (QueryInfoReply QUERY_INFO_REPLY_SIZE fieldOf getUint processQueryInfoFixed)

/-! ## Variable parts -/

/-- A sum of 32 bits is returned as a positive `int`. -/
def Asks (extent : Nat) : Prop := 0 < extent % 4294967296 ∧ extent % 4294967296 < 2147483648

theorem toInt32_asks {extent : Nat} : 0 < toInt32 extent ↔ Asks extent := by
  unfold Asks toInt32
  simp only
  split <;> omega

theorem Asks.toInt32 {extent : Nat} (h : Asks extent) :
    Util.toInt32 extent = (extent % 4294967296 : Nat) := by
  obtain ⟨_, hsmall⟩ := h
  rw [toInt32_eq (by omega)]
  omega

section
variable {ρ β : Type}

/-- Whatever is accepted and has a variable part, of which there are `n` octets, is read inside
it. -/
def ReadInside (fixed : Bytes → Option (Int × ρ)) (variablePart : ρ → Bytes → Except Overrun β)
    (iov : Bytes) : Prop :=
  ∀ n rep, fixed iov = some (n, rep) → 0 < n →
    ∀ buf : Bytes, (buf.length : Int) = n → Inside (variablePart rep buf)

section
variable {fixed : Bytes → Option (Int × ρ)} {variablePart : ρ → Bytes → Except Overrun β}
  {iov buf : Bytes} {rep : ρ} {off len extent : Nat}

theorem ReadInside.of_none (h : fixed iov = none) : ReadInside fixed variablePart iov := by
  intro n rep hfixed
  rw [h] at hfixed
  cases hfixed

theorem ReadInside.of_nonpos {n : Int} (h : fixed iov = some (n, rep)) (hn : n ≤ 0) :
    ReadInside fixed variablePart iov := by
  intro n' rep' hfixed hpos
  rw [h] at hfixed
  cases hfixed
  omega

theorem not_readInside_of_error (n : Int) (buf : Bytes) (e : Overrun)
    (hfixed : (fixed iov).map Prod.fst = some n)
    (hread : (fixed iov).map (fun r => variablePart r.2 buf) = some (.error e)) (hpos : 0 < n)
    (hbuf : (buf.length : Int) = n) : ¬ ReadInside fixed variablePart iov := by
  intro h
  obtain ⟨⟨n', rep⟩, hrun, hn⟩ := Option.map_eq_some_iff.mp hfixed
  cases hn
  have hinside := h _ rep hrun hpos buf hbuf
  rw [hrun] at hread
  rw [show variablePart rep buf = .error e from Option.some.inj hread] at hinside
  exact not_inside_error e hinside

/-- A message whose fixed part asks for the octets up to an extent. -/
theorem readInside_iff (h : fixed iov = some (toInt32 extent, rep)) :
    ReadInside fixed variablePart iov ↔ (Asks extent →
      ∀ buf : Bytes, buf.length = extent % 4294967296 → Inside (variablePart rep buf)) := by
  unfold ReadInside
  constructor
  · intro hall hasks buf hbuf
    apply hall _ rep h (toInt32_asks.mpr hasks) buf
    rw [hasks.toInt32, hbuf]
  · intro hall n rep' hfixed hpos buf hbuf
    rw [h] at hfixed
    obtain ⟨hn, hrep⟩ := Prod.mk.inj (Option.some.inj hfixed)
    subst hn hrep
    have hasks := toInt32_asks.mp hpos
    rw [hasks.toInt32] at hbuf
    exact hall hasks buf (Nat.cast_injective hbuf)

end

end

theorem fieldOf_lt (w : Nat) (vec : Bytes) (off : Nat) : fieldOf w vec off < 256 ^ w := by
  unfold fieldOf getUint
  split
  · exact Nat.pow_pos (by decide)
  · exact fromLe_slice_lt vec off w

section
variable {ρ β : Type} {fixed : Bytes → Option (Int × ρ)}
  {variablePart : ρ → Bytes → Except Overrun β} {iov : Bytes} {rep : ρ} {off len low extent : Nat}

/-- A message with one buffer, which is refused if it begins too early: what is exposed lies in the
variable part exactly if the end of the buffer does not wrap. -/
theorem readInside_extent_iff
    (hfixed : fixed iov = if len = 0 then some (0, rep) else if off < low then none
      else some (toInt32 extent, rep))
    (hread : len ≠ 0 → low ≤ off → ∀ buf : Bytes,
      Inside (variablePart rep buf) ↔ extent ≤ buf.length) :
    ReadInside fixed variablePart iov ↔
      len = 0 ∨ off < low ∨ (Asks extent → extent < 4294967296) := by
  by_cases hlen : len = 0
  · rw [if_pos hlen] at hfixed
    exact iff_of_true (.of_nonpos hfixed le_rfl) (.inl hlen)
  rw [if_neg hlen] at hfixed
  by_cases hoff : off < low
  · rw [if_pos hoff] at hfixed
    exact iff_of_true (.of_none hfixed) (.inr (.inl hoff))
  rw [if_neg hoff] at hfixed
  rw [readInside_iff hfixed, or_iff_right hlen, or_iff_right hoff]
  refine imp_congr_right fun hasks => ?_
  simp only [hread hlen (by omega)]
  constructor
  · intro hall
    have hlong := hall (zeros (extent % 4294967296)) (length_zeros _)
    rw [length_zeros] at hlong
    omega
  · intro hsmall buf hbuf
    omega

end

/-! ## CREATE -/

/-- `struct smb2_create_reply`, without the contexts. -/
structure CreateReply where
  oplockLevel : Nat
  flags : Nat
  createAction : Nat
  creationTime : Nat
  lastAccessTime : Nat
  lastWriteTime : Nat
  changeTime : Nat
  allocationSize : Nat
  endOfFile : Nat
  fileAttributes : Nat
  fileId : Bytes
  createContextOffset : Nat
  createContextLength : Nat
  deriving DecidableEq, Repr

def CREATE_REPLY_SIZE : Nat := 89

/-- The fields of a fixed part of the right size. -/
def createReplyFields (iov : Bytes) : Option CreateReply :=
  if fromLe (slice iov 0 2) ≠ CREATE_REPLY_SIZE ∨ iov.length ≠ 88 then none
  else some {
    oplockLevel := fromLe (slice iov 2 1)
    flags := fromLe (slice iov 3 1)
    createAction := fromLe (slice iov 4 4)
    creationTime := fromLe (slice iov 8 8)
    lastAccessTime := fromLe (slice iov 16 8)
    lastWriteTime := fromLe (slice iov 24 8)
    changeTime := fromLe (slice iov 32 8)
    allocationSize := fromLe (slice iov 40 8)
    endOfFile := fromLe (slice iov 48 8)
    fileAttributes := fromLe (slice iov 56 4)
    fileId := slice iov 64 16
    createContextOffset := fromLe (slice iov 80 4)
    createContextLength := fromLe (slice iov 84 4) }

namespace CreateReply

/-- `IOV_OFFSET_CREATE`, a `uint32_t`. -/
def iovOffset (rep : CreateReply) : Nat := sub32 rep.createContextOffset (HEADER_SIZE + 88)

/-- How much is to be read, before the sum wraps. -/
def extent (rep : CreateReply) : Nat := rep.iovOffset + rep.createContextLength

end CreateReply

/-- `smb2_process_create_fixed`; `none` is -1. -/
def processCreateFixed (iov : Bytes) : Option (Int × CreateReply) :=
  match createReplyFields iov with
  | none => none
  | some rep =>
    if rep.createContextLength = 0 then some (0, rep)
    else if rep.createContextOffset < HEADER_SIZE + 88 then none
    else some (toInt32 rep.extent, rep)

/-- `smb2_process_create_variable`: the contexts, which are not looked at.  These are the octets that
a caller finds where it is told that they are. -/
def processCreateVariable (rep : CreateReply) (iov : Bytes) : Except Overrun (Option Bytes) :=
  if rep.createContextLength ≠ 0 then
    ((Window.whole iov).read rep.iovOffset rep.createContextLength).map some
  else .ok none

/-- There are no contexts, or they overlap the fixed part, or nothing is asked for, or their end
does not wrap. -/
def CreateReply.Fits (rep : CreateReply) : Prop :=
  rep.createContextLength = 0 ∨ rep.createContextOffset < HEADER_SIZE + 88 ∨
    (Asks rep.extent → rep.extent < 4294967296)

theorem create_read_inside_iff (iov : Bytes) :
    ReadInside processCreateFixed processCreateVariable iov ↔
      ∀ rep ∈ createReplyFields iov, rep.Fits := by
  cases hfields : createReplyFields iov with
  | none =>
    refine iff_of_true (.of_none ?_) (by simp)
    unfold processCreateFixed
    rw [hfields]
  | some rep =>
    have hfixed : processCreateFixed iov = if rep.createContextLength = 0 then some (0, rep)
        else if rep.createContextOffset < HEADER_SIZE + 88 then none
        else some (toInt32 rep.extent, rep) := by
      unfold processCreateFixed
      rw [hfields]
    simp only [Option.mem_def, Option.some.injEq, forall_eq']
    refine readInside_extent_iff hfixed fun hlen _ buf => ?_
    unfold processCreateVariable
    rw [if_pos hlen, inside_map_iff]
    exact Window.inside_read_iff hlen

/-! ## NEGOTIATE -/

theorem negotiate_read_inside (spl : Nat) (iov : Bytes) :
    ReadInside (processNegotiateFixed spl) replySecurityBuffer iov := by
  intro n rep hfixed hpos buf hbuf
  have hheader : HEADER_SIZE = 64 := rfl
  have hmod : spl % 2 ^ 16 ≤ spl := Nat.mod_le _ _
  unfold processNegotiateFixed at hfixed
  split at hfixed
  · cases hfixed
  rename_i fields hfields
  split at hfixed
  · cases hfixed
  rename_i hspl
  split at hfixed
  · cases hfixed
    exact absurd hpos (lt_irrefl 0)
  rename_i hlen
  split at hfixed
  · cases hfixed
  rename_i hoff
  unfold replySecurityBuffer
  split at hfixed
  -- all that is left of the message is read, and it was compared with the end of the buffer
  · cases hfixed
    obtain ⟨hval, hsmall⟩ := toInt32_pos hpos
    refine (Window.inside_read_iff hlen).mpr ?_
    rw [Window.whole_octets]
    omega
  · cases hfixed
    obtain ⟨hval, hsmall⟩ := toInt32_pos hpos
    refine (Window.inside_read_iff hlen).mpr ?_
    rw [Window.whole_octets]
    omega

/-! ## SESSION_SETUP -/

/-- What `smb2_process_session_setup_fixed` reads. -/
structure SessionSetupFixed where
  sessionFlags : Nat
  securityBufferOffset : Nat
  securityBufferLength : Nat
  deriving DecidableEq, Repr

def SESSION_SETUP_REPLY_SIZE : Nat := 9

def sessionSetupFields (iov : Bytes) : Option SessionSetupFixed :=
  if fromLe (slice iov 0 2) ≠ SESSION_SETUP_REPLY_SIZE ∨ iov.length ≠ 8 then none
  else some {
    sessionFlags := fromLe (slice iov 2 2)
    securityBufferOffset := fromLe (slice iov 4 2)
    securityBufferLength := fromLe (slice iov 6 2) }

/-- `IOV_OFFSET_SESSION`, an `int`. -/
def SessionSetupFixed.iovOffset (rep : SessionSetupFixed) : Int :=
  (rep.securityBufferOffset : Int) - HEADER_SIZE - 8

/-- `smb2_process_session_setup_fixed`; `none` is -1. -/
def processSessionSetupFixed (spl : Nat) (iov : Bytes) : Option (Int × SessionSetupFixed) :=
  match sessionSetupFields iov with
  | none => none
  | some rep =>
    if rep.securityBufferLength ≠ 0 ∧
        spl % 2 ^ 16 < rep.securityBufferOffset + rep.securityBufferLength then none
    else if rep.securityBufferLength = 0 then some (0, rep)
    else if rep.securityBufferOffset < HEADER_SIZE + 8 then none
    else some (rep.iovOffset + rep.securityBufferLength, rep)

/-- `smb2_process_session_setup_variable`: the security buffer, as a caller finds it. -/
def processSessionSetupVariable (rep : SessionSetupFixed) (iov : Bytes) : Except Overrun Bytes :=
  (Window.whole iov).read rep.iovOffset.toNat rep.securityBufferLength

theorem session_setup_read_inside (spl : Nat) (iov : Bytes) :
    ReadInside (processSessionSetupFixed spl) processSessionSetupVariable iov := by
  intro n rep hfixed hpos buf hbuf
  have hheader : HEADER_SIZE = 64 := rfl
  unfold processSessionSetupFixed at hfixed
  split at hfixed
  · cases hfixed
  rename_i fields hfields
  split at hfixed
  · cases hfixed
  split at hfixed
  · cases hfixed
    exact absurd hpos (lt_irrefl 0)
  rename_i hlen
  split at hfixed
  · cases hfixed
  rename_i hoff
  cases hfixed
  unfold processSessionSetupVariable
  refine (Window.inside_read_iff hlen).mpr ?_
  rw [Window.whole_octets]
  unfold SessionSetupFixed.iovOffset at hbuf ⊢
  omega

/-! ## QUERY_INFO -/

/-- `smb2_process_query_info_fixed`, with its result as an `int`. -/
def queryInfoFixed (spl nextCommand : Nat) (iov : Bytes) : Option (Int × QueryInfoReply Bytes) :=
  (processQueryInfoFixed spl nextCommand iov).map fun (rep, n) => (toInt32 n, rep)

/-- The vector that `smb2_process_query_info_variable` hands to a decoder, or copies. -/
def queryInfoVector (rep : QueryInfoReply Bytes) (iov : Bytes) : Except Overrun Bytes :=
  (Window.whole iov).read (rep.outputBufferOffset - HEADER_SIZE - (QUERY_INFO_REPLY_SIZE - 1))
    rep.outputBufferLength

theorem processQueryInfoFixed_extent {spl nextCommand extent : Nat} {iov : Bytes}
    {rep : QueryInfoReply Bytes}
    (h : processQueryInfoFixed spl nextCommand iov = some (rep, extent))
    (hlen : rep.outputBufferLength ≠ 0) :
    rep.outputBufferOffset - HEADER_SIZE - (QUERY_INFO_REPLY_SIZE - 1) + rep.outputBufferLength =
      extent ∧ extent < 4294967296 := by
  have hoffset : fieldOf 2 iov 2 < 65536 := fieldOf_lt 2 iov 2
  have hlength : fieldOf 4 iov 4 < 4294967296 := fieldOf_lt 4 iov 4
  unfold processQueryInfoFixed at h
  split at h
  · cases h
  simp only at h
  split at h
  · cases h
  rename_i hwrap
  split at h
  · cases h
    rename_i hzero
    exact absurd hzero hlen
  split at h
  · cases h
  split at h
  · cases h
  split at h
  · cases h
  cases h
  refine ⟨rfl, ?_⟩
  omega

theorem query_info_read_inside (spl nextCommand : Nat) (iov : Bytes) :
    ReadInside (queryInfoFixed spl nextCommand) queryInfoVector iov := by
  cases hfixed : processQueryInfoFixed (α := Bytes) spl nextCommand iov with
  | none =>
    apply ReadInside.of_none
    unfold queryInfoFixed
    rw [hfixed]
    rfl
  | some r =>
    obtain ⟨rep, extent⟩ := r
    have hrun : queryInfoFixed spl nextCommand iov = some (toInt32 extent, rep) := by
      unfold queryInfoFixed
      rw [hfixed]
      rfl
    rw [readInside_iff hrun]
    intro hasks buf hbuf
    by_cases hlen : rep.outputBufferLength = 0
    · exact ⟨_, if_pos (.inl hlen)⟩
    obtain ⟨hsum, hsmall⟩ := processQueryInfoFixed_extent hfixed hlen
    refine (Window.inside_read_iff hlen).mpr ?_
    rw [Window.whole_octets, hsum, hbuf, Nat.mod_eq_of_lt hsmall]

/-- **The buffers of the four replies lie in what is read for them, those of CREATE exactly if
their end does not wrap.** -/
theorem reply_buffers_lie_inside_iff (spl nextCommand : Nat) (iov : Bytes) :
    (ReadInside processCreateFixed processCreateVariable iov ↔
        ∀ rep ∈ createReplyFields iov, rep.Fits) ∧
      ReadInside (processNegotiateFixed spl) replySecurityBuffer iov ∧
      ReadInside (processSessionSetupFixed spl) processSessionSetupVariable iov ∧
      ReadInside (queryInfoFixed spl nextCommand) queryInfoVector iov := by
  refine ⟨?_, ?_, ?_, ?_⟩
  · exact create_read_inside_iff iov
  · exact negotiate_read_inside spl iov
  · exact session_setup_read_inside spl iov
  · exact query_info_read_inside spl nextCommand iov

/-- Contexts that begin sixteen octets behind the fixed part and end seven octets behind it. -/
def wrappingCreateReply : Bytes := le 2 89 ++ zeros 78 ++ le 4 168 ++ le 4 4294967287

/-- Seven octets are read, and the contexts begin behind them. -/
theorem contexts_begin_behind_the_reply :
    ¬ ReadInside processCreateFixed processCreateVariable wrappingCreateReply := by
  apply not_readInside_of_error 7 (zeros 7) .read
  · decide +kernel
  · decide +kernel
  · decide
  · decide

end Libsmb2
