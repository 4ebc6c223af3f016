import Libsmb2.Process

/-!
# The contexts of a NEGOTIATE

`smb2_parse_negotiate_contexts` and `smb2_parse_negotiate_request_contexts`: loops over as many
contexts as the fixed part says there are.  A field of a context that is not there any more is left
as it was for the context before it (`stale`, which is what the stack holds for the first one), and
the name of a client is read without a look at how much there is.

* `ContextKind` — what one of the two loops makes of a context;
* `staysInside_iff` — when a loop stays inside what was received and goes by what is in it;
* `negotiate_contexts_are_received_iff` — this for both of them, from the offset that a message has.
-/

set_option autoImplicit false

namespace Libsmb2

open Util

def CONTEXTTYPE_RESERVED : Nat := 0x0100

/-- What was read for a variable part, whose length is an `int`. -/
abbrev Received : Type := { bs : Bytes // bs.length < 2 ^ 31 }

/-- `smb2_get_uint16`.  The offset is an `int`, and its end a `size_t`. -/
def getUint16 (iov : Bytes) (offset : Int) (old : UInt16) : Except Overrun UInt16 :=
  if (iov.length : Int) < (offset + 2) % 2 ^ 64 then .ok old
  else if 0 ≤ offset then .ok (.ofNat (fromLe (slice iov offset.toNat 2)))
  else .error .read

/-- The type and the length of a context. -/
structure ContextHeader where
  type : UInt16
  len : UInt16
  deriving DecidableEq, Repr

/-- `PAD_TO_64BIT(len + 8)`. -/
def ContextHeader.step (header : ContextHeader) : Nat := padTo64 (header.len.toNat + 8)

def readContextHeader (iov : Bytes) (offset : Int) (stale : ContextHeader) :
    Except Overrun ContextHeader := do
  let type ← getUint16 iov offset stale.type
  let len ← getUint16 iov (offset + 2) stale.len
  .ok ⟨type, len⟩

/-- A field at an offset, if it is there. -/
def uint16At (iov : Bytes) (offset : Nat) (old : UInt16) : UInt16 :=
  if offset + 2 ≤ iov.length then .ofNat (fromLe (slice iov offset 2)) else old

/-- What is read at an offset. -/
def headerAt (iov : Bytes) (offset : Nat) (stale : ContextHeader) : ContextHeader :=
  ⟨uint16At iov offset stale.type, uint16At iov (offset + 2) stale.len⟩

section
variable {iov : Bytes} {offset : Nat} {stale : ContextHeader}

theorem getUint16_eq (hoffset : offset < 2 ^ 63) (old : UInt16) :
    getUint16 iov offset old = .ok (uint16At iov offset old) := by
  have hmod : ((offset : Int) + 2) % 2 ^ 64 = offset + 2 := by omega
  unfold getUint16 uint16At
  rw [hmod]
  split
  · rw [if_neg (by omega)]
  · rw [if_pos (by omega), if_pos (by omega), Int.toNat_natCast]

theorem readContextHeader_eq (hoffset : offset < 2 ^ 62) :
    readContextHeader iov offset stale = .ok (headerAt iov offset stale) := by
  have hlen : getUint16 iov ((offset : Int) + 2) stale.len = .ok (uint16At iov (offset + 2) stale.len) := by
    have hlen : getUint16 iov ((offset + 2 : Nat) : Int) stale.len = _ :=
      getUint16_eq (by omega) stale.len
    rwa [Nat.cast_add] at hlen
  unfold readContextHeader
  rw [getUint16_eq (by omega), hlen]
  rfl

/-- A header that is there does not depend on the one before it. -/
theorem headerAt_eq (h : offset + 4 ≤ iov.length) (stale' : ContextHeader) :
    headerAt iov offset stale = headerAt iov offset stale' := by
  unfold headerAt uint16At
  rw [if_pos (by omega), if_pos (by omega), if_pos (by omega), if_pos (by omega)]

theorem ContextHeader.step_eq (header : ContextHeader) :
    header.step = (header.len.toNat + 15) / 8 * 8 := by
  have hlen := header.len.toNat_lt
  unfold ContextHeader.step padTo64
  omega

end

/-! ## The loop -/

/-- What a loop makes of a context: the types that it knows, what it reads of the contexts that it
interprets, and where their payload ends, counted from the header. -/
structure ContextKind (α : Type) where
  known : UInt16 → Bool
  interpret : Bytes → Int → ContextHeader → α → Except Overrun α
  extent : ContextHeader → Nat
  Overreads : Bytes → Nat → ContextHeader → Prop
  four_le_extent (header : ContextHeader) : 4 ≤ extent header
  extent_le (header : ContextHeader) : extent header ≤ header.step + 3
  inside_iff {iov : Bytes} {offset : Nat} (hoffset : offset < 2 ^ 31) (header : ContextHeader)
    (a : α) : Inside (interpret iov offset header a) ↔ ¬ Overreads iov offset header

section
variable {α : Type}

/-- The loop of `smb2_parse_negotiate_contexts`; `none` is -1. -/
def parseContexts (K : ContextKind α) (iov : Bytes) :
    Nat → Int → ContextHeader → α → Except Overrun (Option α)
  | 0, _, _, a => .ok (some a)
  | count + 1, offset, stale, a =>
    if (iov.length : Int) < offset then .ok none
    else do
      let header ← readContextHeader iov offset stale
      if K.known header.type then do
        let a ← K.interpret iov offset header a
        parseContexts K iov count (toInt32 (offset + header.step)) header a
      else .ok none

/-- The offsets at which the loop reads a context. -/
def visited (K : ContextKind α) (iov : Bytes) : Nat → Int → ContextHeader → List Int
  | 0, _, _ => []
  | count + 1, offset, stale =>
    if (iov.length : Int) < offset then []
    else offset :: match readContextHeader iov offset stale with
      | .error _ => []
      | .ok header =>
        if K.known header.type then visited K iov count (toInt32 (offset + header.step)) header
        else []

/-- The contexts from an offset on lie in the vector, and make `b` of `a` each by its own header. -/
inductive ReadsOwn (K : ContextKind α) (iov : Bytes) : Nat → Nat → α → α → Prop
  | done {offset : Nat} {a : α} : ReadsOwn K iov 0 offset a a
  | more {count offset : Nat} {header : ContextHeader} {a b c : α}
      (hheader : ∀ stale, headerAt iov offset stale = header) (hknown : K.known header.type = true)
      (hin : offset + K.extent header ≤ iov.length)
      (hinterpret : K.interpret iov offset header a = .ok b)
      (hrest : ReadsOwn K iov count (offset + header.step) b c) :
      ReadsOwn K iov (count + 1) offset a c

/-- The run does not leave the vector, goes forward, and succeeds only on contexts that were
received. -/
structure StaysInside (K : ContextKind α) (iov : Bytes) (count offset : Nat) (stale : ContextHeader)
    (a : α) (run : Except Overrun (Option α)) : Prop where
  inside : Inside run
  increasing : (visited K iov count offset stale).Pairwise (· < ·)
  own : ∀ b, run = .ok (some b) → ReadsOwn K iov count offset a b

/-- There is a context of a known type, found where the contexts before it lead to, that is the last
one and cut short, or from which more is read than there is, or behind which there is more to come
at an offset that is not an `int`. -/
inductive Breaks (K : ContextKind α) (iov : Bytes) : Nat → Nat → ContextHeader → Prop
  | last {offset : Nat} {stale : ContextHeader} (hle : offset ≤ iov.length)
      (hknown : K.known (headerAt iov offset stale).type = true)
      (hcut : iov.length < offset + K.extent (headerAt iov offset stale)) :
      Breaks K iov 1 offset stale
  | overreads {count offset : Nat} {stale : ContextHeader} (hle : offset ≤ iov.length)
      (hknown : K.known (headerAt iov offset stale).type = true)
      (hover : K.Overreads iov offset (headerAt iov offset stale)) :
      Breaks K iov (count + 1) offset stale
  | wraps {count offset : Nat} {stale : ContextHeader} (hle : offset ≤ iov.length)
      (hknown : K.known (headerAt iov offset stale).type = true)
      (hnext : 2 ^ 31 ≤ offset + (headerAt iov offset stale).step) :
      Breaks K iov (count + 2) offset stale
  | later {count offset : Nat} {stale : ContextHeader} (hle : offset ≤ iov.length)
      (hknown : K.known (headerAt iov offset stale).type = true)
      (hrest : Breaks K iov (count + 1) (offset + (headerAt iov offset stale).step)
        (headerAt iov offset stale)) : Breaks K iov (count + 2) offset stale

section
variable {K : ContextKind α} {iov : Bytes} {count offset : Nat} {stale : ContextHeader} {a b : α}

theorem parseContexts_behind (h : iov.length < offset) :
    parseContexts K iov (count + 1) offset stale a = .ok none := by
  rw [parseContexts, if_pos (by omega)]

theorem parseContexts_unknown (h : offset ≤ iov.length) (hiov : iov.length < 2 ^ 31)
    (hknown : ¬ K.known (headerAt iov offset stale).type = true) :
    parseContexts K iov (count + 1) offset stale a = .ok none := by
  rw [parseContexts, if_neg (by omega), readContextHeader_eq (by omega)]
  exact if_neg hknown

/-- A context of a known type from which no more is read than there is. -/
theorem parseContexts_known (h : offset ≤ iov.length) (hiov : iov.length < 2 ^ 31)
    (hknown : K.known (headerAt iov offset stale).type = true) :
    parseContexts K iov (count + 1) offset stale a =
      K.interpret iov offset (headerAt iov offset stale) a >>= fun b =>
        parseContexts K iov count (toInt32 (offset + (headerAt iov offset stale).step))
          (headerAt iov offset stale) b := by
  rw [parseContexts, if_neg (by omega), readContextHeader_eq (by omega)]
  exact if_pos hknown

theorem visited_behind (h : iov.length < offset) : visited K iov (count + 1) offset stale = [] := by
  rw [visited, if_pos (by omega)]

theorem visited_unknown (h : offset ≤ iov.length) (hiov : iov.length < 2 ^ 31)
    (hknown : ¬ K.known (headerAt iov offset stale).type = true) :
    visited K iov (count + 1) offset stale = [(offset : Int)] := by
  rw [visited, if_neg (by omega), readContextHeader_eq (by omega)]
  simp only
  rw [if_neg hknown]

theorem visited_known (h : offset ≤ iov.length) (hiov : iov.length < 2 ^ 31)
    (hknown : K.known (headerAt iov offset stale).type = true) :
    visited K iov (count + 1) offset stale = (offset : Int) :: visited K iov count
      (toInt32 (offset + (headerAt iov offset stale).step)) (headerAt iov offset stale) := by
  rw [visited, if_neg (by omega), readContextHeader_eq (by omega)]
  simp only
  rw [if_pos hknown]

/-- The first context visited is the one at the offset, if there is any. -/
theorem visited_head (count : Nat) (o : Int) (stale : ContextHeader) :
    visited K iov count o stale = [] ∨ ∃ rest, visited K iov count o stale = o :: rest := by
  cases count with
  | zero => exact .inl rfl
  | succ count =>
    rw [visited]
    split
    · exact .inl rfl
    · exact .inr ⟨_, rfl⟩

theorem visited_of_le {o : Int} (h : o ≤ iov.length) (count : Nat) (stale : ContextHeader) :
    ∃ rest, visited K iov (count + 1) o stale = o :: rest := by
  rw [visited, if_neg (by omega)]
  exact ⟨_, rfl⟩

/-- A list that goes on with a larger offset goes forward if its rest does. -/
theorem increasing_cons {o next : Int} (hlt : o < next) :
    (o :: visited K iov count next stale).Pairwise (· < ·) ↔
      (visited K iov count next stale).Pairwise (· < ·) := by
  rw [List.pairwise_cons]
  refine ⟨fun h => h.2, fun h => ⟨fun x hx => ?_, h⟩⟩
  rcases visited_head count next stale with hnil | ⟨rest, hrest⟩
  · rw [hnil] at hx
    cases hx
  · rw [hrest] at hx h
    rcases List.mem_cons.mp hx with rfl | hx
    · exact hlt
    · exact Int.lt_trans hlt ((List.pairwise_cons.mp h).1 x hx)

theorem ContextHeader.step_pos (header : ContextHeader) : 8 ≤ header.step := by
  rw [header.step_eq]
  omega

theorem ContextHeader.step_lt (header : ContextHeader) : header.step < 2 ^ 17 := by
  have hlen := header.len.toNat_lt
  rw [header.step_eq]
  omega

/-- An offset that is not an `int` any more is taken for a smaller one. -/
theorem toInt32_back {m n : Nat} (hm : m < 2 ^ 31) (hmn : 2 ^ 31 ≤ m + n) (hn : n < 2 ^ 17) :
    toInt32 ((m : Int) + n) < m := by
  unfold toInt32
  simp only
  split <;> omega

/-- A context that was received has its own header. -/
theorem ReadsOwn.header_eq (h : ReadsOwn K iov (count + 1) offset a b) (stale : ContextHeader) :
    ∃ c, K.known (headerAt iov offset stale).type = true ∧
      offset + K.extent (headerAt iov offset stale) ≤ iov.length ∧
      K.interpret iov offset (headerAt iov offset stale) a = .ok c ∧
      ReadsOwn K iov count (offset + (headerAt iov offset stale).step) c b := by
  cases h with
  | more hheader hknown hin hinterpret hrest =>
    rw [hheader stale]
    exact ⟨_, hknown, hin, hinterpret, hrest⟩

theorem readsOwn_of_header (hknown : K.known (headerAt iov offset stale).type = true)
    (hin : offset + K.extent (headerAt iov offset stale) ≤ iov.length)
    {c : α} (hinterpret : K.interpret iov offset (headerAt iov offset stale) a = .ok c)
    (hrest : ReadsOwn K iov count (offset + (headerAt iov offset stale).step) c b) :
    ReadsOwn K iov (count + 1) offset a b := by
  have hfour := K.four_le_extent (headerAt iov offset stale)
  exact .more (fun stale' => headerAt_eq (by omega) stale) hknown hin hinterpret hrest

/-- The last context. -/
theorem staysInside_last (hle : offset ≤ iov.length) (hiov : iov.length < 2 ^ 31)
    (hknown : K.known (headerAt iov offset stale).type = true)
    (hover : ¬ K.Overreads iov offset (headerAt iov offset stale)) :
    StaysInside K iov 1 offset stale a (parseContexts K iov 1 offset stale a) ↔
      offset + K.extent (headerAt iov offset stale) ≤ iov.length := by
  obtain ⟨c, hc⟩ := (K.inside_iff (by omega) (headerAt iov offset stale) a).mpr hover
  have hrun : parseContexts K iov 1 offset stale a = .ok (some c) := by
    rw [parseContexts_known hle hiov hknown, hc]
    rfl
  rw [hrun]
  constructor
  · intro h
    obtain ⟨_, _, hin, _, _⟩ := (h.own c rfl).header_eq stale
    exact hin
  · intro hin
    refine ⟨.ok _, ?_, fun b hb => ?_⟩
    · rw [visited_known hle hiov hknown]
      exact List.pairwise_singleton _ _
    · cases hb
      exact readsOwn_of_header hknown hin hc .done

/-- A context with more behind it stays inside if they do: one that is cut short leads to no
other. -/
theorem staysInside_more {c : α} (hle : offset ≤ iov.length) (hiov : iov.length < 2 ^ 31)
    (hknown : K.known (headerAt iov offset stale).type = true)
    (hc : K.interpret iov offset (headerAt iov offset stale) a = .ok c)
    (hnext : offset + (headerAt iov offset stale).step < 2 ^ 31) :
    StaysInside K iov (count + 2) offset stale a (parseContexts K iov (count + 2) offset stale a) ↔
      StaysInside K iov (count + 1) (offset + (headerAt iov offset stale).step)
        (headerAt iov offset stale) c (parseContexts K iov (count + 1)
          ((offset + (headerAt iov offset stale).step : Nat) : Int) (headerAt iov offset stale) c) := by
  have hpos := (headerAt iov offset stale).step_pos
  have hoffset : toInt32 ((offset : Int) + (headerAt iov offset stale).step) =
      ((offset + (headerAt iov offset stale).step : Nat) : Int) := by
    rw [← Nat.cast_add, toInt32_of_lt hnext]
  have hrun : parseContexts K iov (count + 2) offset stale a =
      parseContexts K iov (count + 1) ((offset + (headerAt iov offset stale).step : Nat) : Int)
        (headerAt iov offset stale) c := by
    rw [parseContexts_known hle hiov hknown, hc, hoffset]
    rfl
  have hvisited : (visited K iov (count + 2) offset stale).Pairwise (· < ·) ↔
      (visited K iov (count + 1) ((offset + (headerAt iov offset stale).step : Nat) : Int)
        (headerAt iov offset stale)).Pairwise (· < ·) := by
    rw [visited_known hle hiov hknown, hoffset]
    exact increasing_cons (by omega)
  rw [hrun]
  constructor
  · intro h
    refine ⟨h.inside, hvisited.mp h.increasing, fun b hb => ?_⟩
    obtain ⟨c', _, _, hc', hrest⟩ := (h.own b hb).header_eq stale
    rw [hc, Except.ok.injEq] at hc'
    rwa [hc']
  · intro h
    refine ⟨h.inside, hvisited.mpr h.increasing, fun b hb => ?_⟩
    have hrest := h.own b hb
    obtain ⟨_, _, hin, _, _⟩ := hrest.header_eq (headerAt iov offset stale)
    have hextent := K.extent_le (headerAt iov offset stale)
    have hfour := K.four_le_extent (headerAt iov (offset + (headerAt iov offset stale).step)
      (headerAt iov offset stale))
    exact readsOwn_of_header hknown (by omega) hc hrest

/-- **A loop stays inside what was received exactly if nothing breaks it.** -/
theorem staysInside_iff (hiov : iov.length < 2 ^ 31) (hoffset : offset < 2 ^ 31) :
    StaysInside K iov count offset stale a (parseContexts K iov count offset stale a) ↔
      ¬ Breaks K iov count offset stale := by
  induction count generalizing offset stale a with
  | zero =>
    refine iff_of_true ⟨.ok _, .nil, fun b hb => ?_⟩ nofun
    cases hb
    exact .done
  | succ count ih =>
    by_cases hle : offset ≤ iov.length
    swap
    · refine iff_of_true ?_ fun h => ?_
      · rw [parseContexts_behind (by omega)]
        exact ⟨.ok _, by rw [visited_behind (by omega)]; exact .nil, nofun⟩
      · cases h <;> exact hle (by assumption)
    by_cases hknown : K.known (headerAt iov offset stale).type = true
    swap
    · refine iff_of_true ?_ fun h => ?_
      · rw [parseContexts_unknown hle hiov hknown]
        refine ⟨.ok _, ?_, nofun⟩
        rw [visited_unknown hle hiov hknown]
        exact List.pairwise_singleton _ _
      · cases h <;> exact hknown (by assumption)
    by_cases hover : K.Overreads iov offset (headerAt iov offset stale)
    · refine iff_of_false (fun h => ?_) fun h => h (.overreads hle hknown hover)
      obtain ⟨b, hb⟩ := h.inside
      rw [parseContexts_known hle hiov hknown] at hb
      cases hc : K.interpret iov offset (headerAt iov offset stale) a with
      | error e =>
        rw [hc] at hb
        cases hb
      | ok c => exact (K.inside_iff hoffset (headerAt iov offset stale) a).mp ⟨c, hc⟩ hover
    obtain ⟨c, hc⟩ := (K.inside_iff hoffset (headerAt iov offset stale) a).mpr hover
    cases count with
    | zero =>
      rw [staysInside_last hle hiov hknown hover]
      constructor
      · intro hin h
        cases h with
        | last _ _ hcut => omega
        | overreads _ _ hover' => exact hover hover'
      · intro h
        by_contra hcut
        exact h (.last hle hknown (by omega))
    | succ count =>
      by_cases hnext : offset + (headerAt iov offset stale).step < 2 ^ 31
      · rw [staysInside_more hle hiov hknown hc hnext, ih hnext]
        constructor
        · intro hrest h
          cases h with
          | overreads _ _ hover' => exact hover hover'
          | wraps _ _ hwraps => omega
          | later _ _ hrest' => exact hrest hrest'
        · exact fun h hrest => h (.later hle hknown hrest)
      · refine iff_of_false (fun h => ?_) fun h => h (.wraps hle hknown (by omega))
        -- the next offset is negative, and is visited
        have hincreasing := h.increasing
        have hback : toInt32 ((offset : Int) + (headerAt iov offset stale).step) < offset :=
          toInt32_back hoffset (by omega) (headerAt iov offset stale).step_lt
        obtain ⟨rest, hrest⟩ : ∃ rest, visited K iov (count + 1)
            (toInt32 ((offset : Int) + (headerAt iov offset stale).step)) (headerAt iov offset stale) =
              _ :: rest := visited_of_le (by omega) count _
        rw [visited_known hle hiov hknown, hrest] at hincreasing
        have := (List.pairwise_cons.mp hincreasing).1 _ List.mem_cons_self
        omega

end

end

/-! ## The two loops -/

/-- `smb2_parse_encryption_context`. -/
def parseEncryptionContext (iov : Bytes) (offset : Int) (cypher : UInt16) :
    Except Overrun UInt16 := getUint16 iov offset cypher

/-- What a client makes of a context. -/
def interpretContext (iov : Bytes) (offset : Int) (header : ContextHeader) (cypher : UInt16) :
    Except Overrun UInt16 :=
  if header.type.toNat = ENCRYPTION_CAP then parseEncryptionContext iov (offset + 8) cypher
  else .ok cypher

/-- The contexts of a reply. -/
def replyContexts : ContextKind UInt16 where
  known type := type.toNat ∈ [PREAUTH_INTEGRITY_CAP, ENCRYPTION_CAP, SIGNING_CAP, COMPRESSION_CAP,
    NETNAME_NEGOTIATE_CONTEXT_ID, TRANSPORT_CAP, RDMA_TRANSFORM_CAP]
  interpret := interpretContext
  extent header := if header.type.toNat = ENCRYPTION_CAP then 10 else 4
  Overreads _ _ _ := False
  four_le_extent header := by split <;> omega
  extent_le header := by
    have hpos := header.step_pos
    split <;> omega
  inside_iff {iov offset} hoffset header a := by
    refine iff_of_true ?_ id
    unfold interpretContext
    split
    · exact ⟨_, getUint16_eq (show offset + 8 < 2 ^ 63 by omega) a⟩
    · exact .ok a

/-- `smb2_parse_negotiate_contexts`: the cipher. -/
def parseNegotiateContexts (iov : Bytes) (count : Nat) (offset : Int) (stale : ContextHeader)
    (cypher : UInt16) : Except Overrun (Option UInt16) :=
  parseContexts replyContexts iov count offset stale cypher

/-- `smb2_parse_netname_request_context`.  The name is converted and forgotten. -/
def parseNetnameRequestContext (iov : Bytes) (offset : Int) (len : UInt16) : Except Overrun Unit :=
  if len.toNat / 2 * 2 = 0 ∨ (0 ≤ offset ∧ offset + (len.toNat / 2 * 2 : Nat) ≤ iov.length) then .ok ()
  else .error .read

/-- What a server makes of a context; `smb2_parse_encryption_request_context` does nothing. -/
def interpretRequestContext (iov : Bytes) (offset : Int) (header : ContextHeader) (_ : Unit) :
    Except Overrun Unit :=
  if header.type.toNat = NETNAME_NEGOTIATE_CONTEXT_ID then
    parseNetnameRequestContext iov (offset + 8) header.len
  else .ok ()

/-- The contexts of a request. -/
def requestContexts : ContextKind Unit where
  known type := type.toNat ∈ [PREAUTH_INTEGRITY_CAP, ENCRYPTION_CAP, NETNAME_NEGOTIATE_CONTEXT_ID,
    SIGNING_CAP, COMPRESSION_CAP, TRANSPORT_CAP, RDMA_TRANSFORM_CAP, CONTEXTTYPE_RESERVED]
  interpret := interpretRequestContext
  extent header :=
    if header.type.toNat = NETNAME_NEGOTIATE_CONTEXT_ID then 8 + header.len.toNat else 4
  Overreads iov offset header := header.type.toNat = NETNAME_NEGOTIATE_CONTEXT_ID ∧
    header.len.toNat / 2 * 2 ≠ 0 ∧ iov.length < offset + 8 + header.len.toNat / 2 * 2
  four_le_extent header := by split <;> omega
  extent_le header := by
    rw [header.step_eq]
    split <;> omega
  inside_iff {iov offset} hoffset header a := by
    unfold interpretRequestContext parseNetnameRequestContext
    split
    · rename_i htype
      split
      · rename_i hin
        refine iff_of_true (.ok _) fun hover => ?_
        omega
      · rename_i hout
        refine iff_of_false (not_inside_error _) fun hnot => hnot ⟨htype, ?_, ?_⟩ <;> omega
    · rename_i htype
      exact iff_of_true (.ok _) fun hover => htype hover.1

/-- `smb2_parse_negotiate_request_contexts`, which reads a header before it looks whether there is
one. -/
def parseNegotiateRequestContexts (iov : Bytes) :
    Nat → Int → ContextHeader → Except Overrun (Option Unit)
  | 0, _, _ => .ok (some ())
  | count + 1, offset, stale => do
    let header ← readContextHeader iov offset stale
    if (iov.length : Int) < offset then .ok none
    else if requestContexts.known header.type then do
      interpretRequestContext iov offset header ()
      parseNegotiateRequestContexts iov count (toInt32 (offset + header.step)) header
    else .ok none

theorem toInt32_lt (n : Int) : toInt32 n < 2 ^ 31 := by
  unfold toInt32
  simp only
  split <;> omega

/-- What is read behind the vector is what was there before, so that the order does not matter. -/
theorem parseNegotiateRequestContexts_eq (iov : Bytes) (count : Nat) (offset : Int)
    (stale : ContextHeader) (hoffset : offset < 2 ^ 31) :
    parseNegotiateRequestContexts iov count offset stale =
      parseContexts requestContexts iov count offset stale () := by
  induction count generalizing offset stale with
  | zero => rfl
  | succ count ih =>
    rw [parseNegotiateRequestContexts, parseContexts]
    by_cases hbehind : (iov.length : Int) < offset
    · obtain ⟨o, rfl⟩ : ∃ o : Nat, offset = o := ⟨offset.toNat, by omega⟩
      rw [if_pos hbehind, readContextHeader_eq (by omega)]
      simp only [bind, Except.bind]
      rw [if_pos hbehind]
    · simp only [if_neg hbehind, ih _ _ (toInt32_lt _)]
      rfl

/-! ## The offset of a message -/

/-- `offset` in `smb2_process_negotiate_variable` and `smb2_process_negotiate_request_variable`,
where the variable part begins `base` octets behind the beginning of the message. -/
def contextOffset (base : Nat) (iov : Bytes) (negotiateContextOffset : UInt32) : Option Nat :=
  let offset := toInt32 ((negotiateContextOffset.toNat : Int) - base)
  if offset < 0 ∨ (iov.length : Int) < offset then none else some offset.toNat

/-- The contexts of a reply are read inside what was received, and only they are. -/
def ReplyContextsReceived (iov : Received) (negotiateContextOffset : UInt32) (count : UInt16)
    (stale : ContextHeader) (cypher : UInt16) : Prop :=
  ∀ offset, contextOffset (HEADER_SIZE + 64) iov.1 negotiateContextOffset = some offset →
    StaysInside replyContexts iov.1 count.toNat offset stale cypher
      (parseNegotiateContexts iov.1 count.toNat offset stale cypher)

/-- The contexts of a request are read inside what was received, and only they are. -/
def RequestContextsReceived (iov : Received) (negotiateContextOffset : UInt32) (count : UInt16)
    (stale : ContextHeader) : Prop :=
  ∀ offset, contextOffset (HEADER_SIZE + 36) iov.1 negotiateContextOffset = some offset →
    StaysInside requestContexts iov.1 count.toNat offset stale ()
      (parseNegotiateRequestContexts iov.1 count.toNat offset stale)

theorem contextOffset_le {base offset : Nat} {iov : Bytes} {negotiateContextOffset : UInt32}
    (h : contextOffset base iov negotiateContextOffset = some offset) : offset ≤ iov.length := by
  unfold contextOffset at h
  simp only at h
  split at h
  · cases h
  · cases h
    omega

/-- **The contexts of a reply, and those of a request, are read inside what was received exactly if
nothing breaks their loop.** -/
theorem negotiate_contexts_are_received_iff (iov : Received) (negotiateContextOffset : UInt32)
    (count : UInt16) (stale : ContextHeader) (cypher : UInt16) :
    (ReplyContextsReceived iov negotiateContextOffset count stale cypher ↔
      ∀ offset, contextOffset (HEADER_SIZE + 64) iov.1 negotiateContextOffset = some offset →
        ¬ Breaks replyContexts iov.1 count.toNat offset stale) ∧
    (RequestContextsReceived iov negotiateContextOffset count stale ↔
      ∀ offset, contextOffset (HEADER_SIZE + 36) iov.1 negotiateContextOffset = some offset →
        ¬ Breaks requestContexts iov.1 count.toNat offset stale) := by
  have hiov := iov.2
  constructor
  · refine forall_congr' fun offset => forall_congr' fun hoffset => ?_
    have hle := contextOffset_le hoffset
    exact staysInside_iff hiov (by omega)
  · refine forall_congr' fun offset => forall_congr' fun hoffset => ?_
    have hle := contextOffset_le hoffset
    rw [parseNegotiateRequestContexts_eq iov.1 count.toNat offset stale (by omega)]
    exact staysInside_iff hiov (by omega)

/-- The context of a cipher. -/
def cipherContext : Received := ⟨le 2 2 ++ le 2 8 ++ zeros 4 ++ le 2 1 ++ zeros 6, by decide⟩

/-- The context of a client's name, without the name. -/
def namelessContext : Received := ⟨le 2 5 ++ le 2 2 ++ zeros 4, by decide⟩

/-- The second of two contexts, of which there is nothing, is taken for another cipher; and a name
is read behind the end of the message. -/
theorem contexts_are_read_that_were_not_received :
    ¬ ReplyContextsReceived cipherContext 128 2 ⟨0, 0⟩ 0 ∧
      ¬ RequestContextsReceived namelessContext 100 1 ⟨0, 0⟩ := by
  constructor
  · intro h
    have hrun : parseNegotiateContexts cipherContext.1 2 0 ⟨0, 0⟩ 0 = .ok (some 1) := by
      decide +kernel
    obtain ⟨_, _, _, _, hrest⟩ := ((h 0 (by decide +kernel)).own 1 hrun).header_eq ⟨0, 0⟩
    obtain ⟨_, _, hin, _, _⟩ := hrest.header_eq ⟨0, 0⟩
    exact absurd hin (by decide +kernel)
  · intro h
    have hrun : parseNegotiateRequestContexts namelessContext.1 1 0 ⟨0, 0⟩ = .error .read := by
      decide +kernel
    have hinside := (h 0 (by decide +kernel)).inside
    exact not_inside_error _ (hrun ▸ hinside)

end Libsmb2
