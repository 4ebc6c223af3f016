import Libsmb2.Commands.Layout

/-!
# What a request is charged

A request costs one credit for every 64 KiB that it sends or asks for, and one at least.  The
allocator assumes one credit; READ, WRITE and QUERY_DIRECTORY correct that from their length.
`smb2_pread_async` and `smb2_pwrite_async` cut a count to the negotiated maximum and to the
credits before.

* `chargeFor_eq_iff` — the correction is right but for no octets at all and for the last 64 KiB;
* `transfers_are_clamped` — when the two functions cut the count as they should;
* `payloads_are_charged` — when the other requests have the charge of their payload.
-/

set_option autoImplicit false

namespace Libsmb2

open Util

/-- The credits that so many octets cost. -/
def creditsOf (octets : Nat) : Nat := max 1 ((octets + 65535) / 65536)

/-- So many octets cost no more than some credits, if these are worth as much. -/
theorem creditsOf_le_iff {n : Nat} {k : Int} :
    (creditsOf n : Int) ≤ max 1 k ↔ (n : Int) ≤ 65536 * max 1 k := by
  unfold creditsOf
  omega

/-! ## The charge of an encoder -/

theorem pred_toNat {n : UInt32} (h : n ≠ 0) : (n - 1).toNat = n.toNat - 1 := by
  have hpos : n.toNat ≠ 0 := fun hz => h (UInt32.toNat_inj.mp hz)
  have hone : (1 : UInt32).toNat = 1 := rfl
  rw [UInt32.toNat_sub, hone]
  have hlt := n.toNat_lt
  omega

theorem pos_of_ne_zero {n : UInt32} (h : n ≠ 0) : 0 < n.toNat :=
  Nat.pos_of_ne_zero fun hz => h (UInt32.toNat_inj.mp hz)

theorem chargeFor_zero : Cmd.chargeFor 0 = 0 := by decide

/-- **The correction of the charge is right** unless the length is zero or within 64 KiB of what
its field holds. -/
theorem chargeFor_eq_iff (n : UInt32) :
    Cmd.chargeFor n = creditsOf n.toNat ↔ n ≠ 0 ∧ n.toNat ≤ 2 ^ 32 - 65536 := by
  by_cases hz : n = 0
  · subst hz
    simp only [chargeFor_zero, ne_eq, not_true_eq_false, false_and, iff_false]
    decide
  · have hpos := pos_of_ne_zero hz
    have hlt := n.toNat_lt
    unfold Cmd.chargeFor creditsOf
    rw [pred_toNat hz]
    refine ⟨fun h => ⟨hz, ?_⟩, fun h => ?_⟩
    · omega
    · omega

/-! ## Reading and writing -/

/-- `needed_credits`: the count less one is unsigned. -/
def neededCredits (count : UInt32) : Nat := (count - 1).toNat / 65536 + 1

/-- What `smb2_pread_async` and `smb2_pwrite_async` make of a count. -/
def clampCount (ctx : Context) (maxSize count : UInt32) : UInt32 :=
  let count := if maxSize < count then maxSize else count
  if VERSION_0202 < ctx.dialect then
    let count := if MAX_CREDITS - 16 < neededCredits count then 1008 * 65536 else count
    if ctx.credits < neededCredits count then UInt32.ofNat (ctx.credits * 65536 % 2 ^ 32).toNat
    else count
  else if 65536 < count then 65536 else count

/-- The request that `smb2_pread_async` queues. -/
def preadAsync (S : Settings) (ctx : Context) (fileId : FileId) (buf : Bool) (count : UInt32)
    (offset : Nat) (cb : Callback) : Option Pdu × Context :=
  (Cmd.read { length := clampCount ctx S.maxReadSize count, offset := offset, buf := buf,
              fileId := fileId }).async S ctx cb

/-- The request that `smb2_pwrite_async` queues. -/
def pwriteAsync (S : Settings) (ctx : Context) (fileId : FileId) (buf : Memory) (count : UInt32)
    (offset : Nat) (cb : Callback) : Option Pdu × Context :=
  (Cmd.write { length := clampCount ctx S.maxWriteSize count, offset := offset, buf := buf,
               fileId := fileId }).async S ctx cb

/-- The length field of a READ or a WRITE. -/
def Pdu.lengthField (p : Pdu) : Nat := fromLe (slice (p.out.getD 1 []) 4 4)

/-- A request asks for no more than it should, and is charged for that. -/
structure Clamped (S : Settings) (ctx : Context) (maxSize count : UInt32) (p : Pdu) : Prop where
  count : p.lengthField ≤ count.toNat
  size : p.lengthField ≤ maxSize.toNat
  charge : S.supportsMultiCredit = true → p.header.creditCharge = creditsOf p.lengthField
  paid : S.supportsMultiCredit = true → (p.header.creditCharge : Int) ≤ max 1 ctx.credits

/-- There is something to transfer and, where the credits limit the length, a credit for it. -/
def Clampable (S : Settings) (ctx : Context) (maxSize count : UInt32) : Prop :=
  if S.supportsMultiCredit then
    (count ≠ 0 ∧ maxSize ≠ 0) ∧ (ctx.dialect ≤ VERSION_0202 ∨ ctx.credits ≠ 0)
  else (count ≠ 0 ∧ maxSize ≠ 0) ∨ ctx.dialect ≤ VERSION_0202 ∨ ctx.credits = 0

/-! ### The length that is left -/

section
variable {S : Settings} {ctx : Context} {maxSize count : UInt32}

theorem neededCredits_eq {n : UInt32} (h : n ≠ 0) :
    neededCredits n = (n.toNat + 65535) / 65536 := by
  have hpos := pos_of_ne_zero h
  unfold neededCredits
  rw [pred_toNat h]
  omega

/-- The smaller of the count and the maximum. -/
theorem toNat_cut (maxSize count : UInt32) :
    (if maxSize < count then maxSize else count).toNat = min count.toNat maxSize.toNat := by
  split
  · rename_i h
    have hlt := UInt32.lt_iff_toNat_lt.mp h
    omega
  · rename_i h
    have hle := UInt32.le_iff_toNat_le.mp (UInt32.not_lt.mp h)
    omega

theorem cut_ne_zero (hn : count ≠ 0 ∧ maxSize ≠ 0) :
    (if maxSize < count then maxSize else count) ≠ 0 := by
  split
  · exact hn.2
  · exact hn.1

theorem cut_eq_zero (hn : ¬(count ≠ 0 ∧ maxSize ≠ 0)) :
    (if maxSize < count then maxSize else count) = 0 := by
  have hz : count.toNat = 0 ∨ maxSize.toNat = 0 := by
    rcases Classical.em (count = 0) with h | h
    · exact .inl (by rw [h]; rfl)
    · exact .inr (by rw [Classical.not_not.mp fun hm => hn ⟨h, hm⟩]; rfl)
  refine UInt32.toNat_inj.mp ?_
  have hcut := toNat_cut maxSize count
  have hzero : (0 : UInt32).toNat = 0 := rfl
  omega

/-- The length that the credits pay for. -/
theorem toNat_paid (hc : 0 ≤ ctx.credits) (hmax : ctx.credits ≤ MAX_CREDITS) :
    (UInt32.ofNat (ctx.credits * 65536 % 2 ^ 32).toNat).toNat = ctx.credits.toNat * 65536 := by
  rw [UInt32.toNat_ofNat_of_lt'] <;> simp only [MAX_CREDITS, UInt32.size] at * <;> omega

/-- A count that is not zero is cut to 63 MiB, to 64 KiB and to the credits. -/
theorem clampCount_pos (hc : 0 ≤ ctx.credits) (hmax : ctx.credits ≤ MAX_CREDITS)
    (hn : count ≠ 0 ∧ maxSize ≠ 0) : (clampCount ctx maxSize count).toNat =
      if VERSION_0202 < ctx.dialect then
        min (min (min count.toNat maxSize.toNat) (1008 * 65536)) (ctx.credits.toNat * 65536)
      else min (min count.toNat maxSize.toNat) 65536 := by
  have hcut := toNat_cut maxSize count
  have hne := cut_ne_zero hn
  unfold clampCount
  simp only
  generalize (if maxSize < count then maxSize else count) = n at hcut hne ⊢
  have hpos := pos_of_ne_zero hne
  have hbig : (1008 * 65536 : UInt32).toNat = 1008 * 65536 := by decide
  have hbigne : (1008 * 65536 : UInt32) ≠ 0 := by decide
  have hneeded := neededCredits_eq hne
  have hneeded' := neededCredits_eq hbigne
  have hpaid := toNat_paid hc hmax
  have hcap : MAX_CREDITS - 16 = 1008 := rfl
  rw [hcap]
  clear hcap
  generalize (1008 * 65536 : UInt32) = big at hbig hneeded' ⊢
  generalize UInt32.ofNat (ctx.credits * 65536 % 2 ^ 32).toNat = paid at hpaid ⊢
  split
  · by_cases h₁ : 1008 < neededCredits n
    · rw [if_pos h₁]
      split
      · omega
      · omega
    · rw [if_neg h₁]
      split
      · omega
      · omega
  · split
    · rename_i h
      have hlt := UInt32.lt_iff_toNat_lt.mp h
      have hsmall : (65536 : UInt32).toNat = 65536 := rfl
      omega
    · rename_i h
      have hle := UInt32.le_iff_toNat_le.mp (UInt32.not_lt.mp h)
      have hsmall : (65536 : UInt32).toNat = 65536 := rfl
      omega

/-- A count of zero needs 65536 credits. -/
theorem clampCount_zero (hc : 0 ≤ ctx.credits) (hmax : ctx.credits ≤ MAX_CREDITS)
    (hn : ¬(count ≠ 0 ∧ maxSize ≠ 0)) : (clampCount ctx maxSize count).toNat =
      if VERSION_0202 < ctx.dialect then min (1008 * 65536) (ctx.credits.toNat * 65536)
      else 0 := by
  unfold clampCount
  rw [cut_eq_zero hn]
  have hbig : (1008 * 65536 : UInt32).toNat = 1008 * 65536 := by decide
  have hbigne : (1008 * 65536 : UInt32) ≠ 0 := by decide
  have hneeded := neededCredits_eq hbigne
  have hzero : neededCredits 0 = 65536 := by decide
  have hpaid := toNat_paid hc hmax
  have hcap : MAX_CREDITS - 16 = 1008 := rfl
  have hmany : 1008 < 65536 := by decide
  simp only [hzero, hcap, hmany, if_true]
  generalize (1008 * 65536 : UInt32) = big at hbig hneeded ⊢
  by_cases hd : VERSION_0202 < ctx.dialect
  · rw [if_pos hd, if_pos hd]
    clear hcap hzero
    generalize UInt32.ofNat (ctx.credits * 65536 % 2 ^ 32).toNat = paid at hpaid ⊢
    split
    · omega
    · omega
  · rw [if_neg hd, if_neg hd]
    rfl

end

/-! ### The field of the length -/

section
variable {S : Settings} {ctx ctx' : Context} {cb : Callback} {p : Pdu} {out : List Bytes}
  {v : Bytes}

/-- The first vector that an encoder adds is the second of the request. -/
theorem second_of_grown {fixed : Bytes} {g : List Bytes → Option (List Bytes)} (hg : Adds g)
    (h : (addVector fixed [v] >>= g) = some out) : ∃ rest, out = v :: fixed :: rest := by
  obtain ⟨o, ho, h⟩ := Option.bind_eq_some_iff.mp h
  obtain ⟨rfl, -⟩ := addVector_eq ho
  obtain ⟨rest, hrest⟩ := (hg _ _ h).added
  exact ⟨rest, hrest.symm⟩

theorem encodeReadRequest_length {passthrough : Bool} {req : ReadArgs}
    (h : encodeReadRequest S passthrough req [v] = some out) : ∃ fixed rest,
      out = v :: fixed :: rest ∧ slice fixed 4 4 = le 4 (clampLength S req.length).toNat := by
  obtain ⟨rest, hout⟩ := second_of_grown
    (.bind (addChannelInfo_adds _ _ _) (.ite (.vector _) .nothing)) h
  refine ⟨_, rest, hout, ?_⟩
  split <;> simp (disch := simp [length_setUint, READ_REQUEST_SIZE]) only [setUint16, setUint32, setUint64,
    setUint8, slice_setUint_before, slice_patch_before, slice_setUint_same]

theorem encodeWriteRequest_length {passthrough : Bool} {req : WriteArgs}
    (h : encodeWriteRequest S passthrough req [v] = some out) : ∃ fixed rest,
      out = v :: fixed :: rest ∧ slice fixed 4 4 = le 4 (clampLength S req.length).toNat := by
  obtain ⟨rest, hout⟩ := second_of_grown (addChannelInfo_adds _ _ _) h
  refine ⟨_, rest, hout, ?_⟩
  split <;> simp (disch := simp [length_setUint, WRITE_REQUEST_SIZE]) only [setUint16, setUint32, setUint64,
    slice_setUint_before, slice_patch_before, slice_setUint_same]

/-- A READ or a WRITE, with this length. -/
def Cmd.Transfers (length : UInt32) : Cmd → Prop
  | read req => req.length = length
  | write req => req.length = length
  | _ => False

/-- What is queued for a READ or a WRITE. -/
theorem Cmd.Transfers.spec {c : Cmd} {length : UInt32} (hc : c.Transfers length)
    (h : c.async S ctx cb = (some p, ctx')) :
    p.lengthField = (clampLength S length).toNat ∧ (S.supportsMultiCredit = true →
      p.header.creditCharge = Cmd.chargeFor (clampLength S length)) := by
  obtain ⟨q, out, -, hout, rfl⟩ := Cmd.async_spec h
  obtain ⟨o₁, h₁, hout⟩ := Option.bind_eq_some_iff.mp hout
  obtain ⟨o₂, h₂, h₃⟩ := Option.bind_eq_some_iff.mp hout
  have hadded := (padTo64Bit_spec h₂).1.trans (finish_spec h₃ (padTo64Bit_spec h₂).2.1).1
  have hsecond : ∃ fixed rest, o₁ = zeros HEADER_SIZE :: fixed :: rest ∧
      slice fixed 4 4 = le 4 (clampLength S length).toNat := by
    cases c with
    | read req =>
      obtain rfl : req.length = length := hc
      exact encodeReadRequest_length h₁
    | write req =>
      obtain rfl : req.length = length := hc
      exact encodeWriteRequest_length h₁
    | _ => exact hc.elim
  obtain ⟨fixed, rest, rfl, hfield⟩ := hsecond
  obtain ⟨more, rfl⟩ := hadded.added
  have hlt := (clampLength S length).toNat_lt
  refine ⟨?_, fun hmulti => ?_⟩
  · show fromLe (slice fixed 4 4) = _
    rw [hfield, fromLe_le]
    omega
  · cases c with
    | read req =>
      obtain rfl : req.length = length := hc
      simp only [Cmd.creditCharge, hmulti, if_true, Option.getD_some]
    | write req =>
      obtain rfl : req.length = length := hc
      simp only [Cmd.creditCharge, hmulti, if_true, Option.getD_some]
    | _ => exact hc.elim

theorem clampLength_toNat (S : Settings) (length : UInt32) : (clampLength S length).toNat =
    if S.supportsMultiCredit then length.toNat else min length.toNat 65536 := by
  unfold clampLength
  have hsmall : (65536 : UInt32).toNat = 65536 := rfl
  cases S.supportsMultiCredit with
  | true => rfl
  | false =>
    simp only [Bool.not_false, Bool.true_and, Bool.false_eq_true, if_false, decide_eq_true_eq]
    split
    · omega
    · omega

/-- A transfer of this length is as it should be iff there is something to transfer and a credit
for it. -/
theorem clamped_iff {maxSize count : UInt32} (hc : 0 ≤ ctx.credits)
    (hmax : ctx.credits ≤ MAX_CREDITS) {L : UInt32}
    (hL : L = clampLength S (clampCount ctx maxSize count)) (hfield : p.lengthField = L.toNat)
    (hcharge : S.supportsMultiCredit = true → p.header.creditCharge = Cmd.chargeFor L) :
    Clamped S ctx maxSize count p ↔ Clampable S ctx maxSize count := by
  have hLz : L ≠ 0 ↔ L.toNat ≠ 0 := by
    rw [ne_eq, ne_eq, ← UInt32.toNat_inj]
    exact Iff.rfl
  have hright := chargeFor_eq_iff L
  have hcap : MAX_CREDITS = 1024 := rfl
  rw [hcap] at hmax
  -- with multi-credit support a length of zero has no charge, and only that
  have hmulti : S.supportsMultiCredit = true → L.toNat ≤ 1008 * 65536 →
      (Clamped S ctx maxSize count p ↔ L.toNat ≠ 0 ∧ L.toNat ≤ count.toNat ∧
        L.toNat ≤ maxSize.toNat ∧ (L.toNat : Int) ≤ 65536 * max 1 ctx.credits) := by
    intro hm hle
    have hcharge' := hcharge hm
    constructor
    · intro h
      have hfull := h.charge hm
      rw [hcharge', hfield] at hfull
      have hpaid := h.paid hm
      rw [hcharge', hfull] at hpaid
      exact ⟨hLz.mp (hright.mp hfull).1, hfield ▸ h.count, hfield ▸ h.size,
        creditsOf_le_iff.mp hpaid⟩
    · rintro ⟨hne, hcount, hsize, hpaid⟩
      have hfull := hright.mpr ⟨hLz.mpr hne, by omega⟩
      refine ⟨hfield ▸ hcount, hfield ▸ hsize, fun _ => ?_, fun _ => ?_⟩
      · rw [hcharge', hfield]
        exact hfull
      · rw [hcharge', hfull]
        exact creditsOf_le_iff.mpr hpaid
  have hsingle : S.supportsMultiCredit = false →
      (Clamped S ctx maxSize count p ↔ L.toNat ≤ count.toNat ∧ L.toNat ≤ maxSize.toNat) := by
    intro hm
    have hno : S.supportsMultiCredit ≠ true := by simp [hm]
    exact ⟨fun h => ⟨hfield ▸ h.count, hfield ▸ h.size⟩, fun h =>
      ⟨hfield ▸ h.1, hfield ▸ h.2, fun h' => absurd h' hno, fun h' => absurd h' hno⟩⟩
  have hlen := clampLength_toNat S (clampCount ctx maxSize count)
  rw [← hL] at hlen
  clear hright hLz hfield hcharge hL
  unfold Clampable
  by_cases hn : count ≠ 0 ∧ maxSize ≠ 0
  · have hcount := pos_of_ne_zero hn.1
    have hsize := pos_of_ne_zero hn.2
    rw [clampCount_pos hc hmax hn] at hlen
    cases hm : S.supportsMultiCredit with
    | true =>
      rw [hm, if_pos rfl] at hlen
      rw [hmulti hm (by split at hlen <;> omega), if_pos rfl]
      by_cases hd : VERSION_0202 < ctx.dialect
      · rw [if_pos hd] at hlen
        refine ⟨fun h => ⟨hn, .inr (by omega)⟩, fun h => ?_⟩
        rcases h.2 with hle | hne
        · omega
        · omega
      · rw [if_neg hd] at hlen
        exact ⟨fun _ => ⟨hn, .inl (by omega)⟩, fun _ => by omega⟩
    | false =>
      rw [hm, if_neg (by simp)] at hlen
      rw [hsingle hm, if_neg (by simp)]
      refine ⟨fun _ => .inl hn, fun _ => ?_⟩
      split at hlen <;> omega
  · have hzero : count.toNat = 0 ∨ maxSize.toNat = 0 := by
      have hcut := toNat_cut maxSize count
      rw [cut_eq_zero hn] at hcut
      have hz : (0 : UInt32).toNat = 0 := rfl
      omega
    rw [clampCount_zero hc hmax hn] at hlen
    cases hm : S.supportsMultiCredit with
    | true =>
      rw [hm, if_pos rfl] at hlen
      rw [hmulti hm (by split at hlen <;> omega), if_pos rfl]
      exact ⟨fun h => by omega, fun h => absurd h.1 hn⟩
    | false =>
      rw [hm, if_neg (by simp)] at hlen
      rw [hsingle hm, if_neg (by simp)]
      by_cases hd : VERSION_0202 < ctx.dialect
      · rw [if_pos hd] at hlen
        refine ⟨fun _ => .inr (.inr (by omega)), fun h => ?_⟩
        rcases h with h | h | h
        · exact absurd h hn
        · omega
        · omega
      · rw [if_neg hd] at hlen
        exact ⟨fun _ => .inr (.inl (by omega)), fun _ => by omega⟩

/-- **A READ and a WRITE are cut as they should be** iff there is something to transfer and,
where the credits limit it, a credit. -/
theorem transfers_are_clamped (S : Settings) (ctx : Context) (fileId : FileId) (count : UInt32)
    (offset : Nat) (cb : Callback) (hc : 0 ≤ ctx.credits) (hmax : ctx.credits ≤ MAX_CREDITS) :
    (∀ buf p ctx', preadAsync S ctx fileId buf count offset cb = (some p, ctx') →
      (Clamped S ctx S.maxReadSize count p ↔ Clampable S ctx S.maxReadSize count)) ∧
    (∀ buf p ctx', pwriteAsync S ctx fileId buf count offset cb = (some p, ctx') →
      (Clamped S ctx S.maxWriteSize count p ↔ Clampable S ctx S.maxWriteSize count)) := by
  refine ⟨fun buf p ctx' h => ?_, fun buf p ctx' h => ?_⟩
  · unfold preadAsync at h
    obtain ⟨hfield, hcharge⟩ := Cmd.Transfers.spec (by exact rfl) h
    exact clamped_iff hc hmax rfl hfield hcharge
  · unfold pwriteAsync at h
    obtain ⟨hfield, hcharge⟩ := Cmd.Transfers.spec (by exact rfl) h
    exact clamped_iff hc hmax rfl hfield hcharge

end

/-- A context that supports multi-credit requests, with maxima of 8 MiB. -/
def multiCredit : Settings where
  supportsMultiCredit := true
  maxReadSize := 8388608
  maxWriteSize := 8388608

theorem transfers_are_clamped_read : ∃ p ctx',
    preadAsync multiCredit sixtyFour someFile true 100000 0 .none = (some p, ctx') ∧
      Clamped multiCredit sixtyFour multiCredit.maxReadSize 100000 p := by
  have hsome : (preadAsync multiCredit sixtyFour someFile true 100000 0 .none).1.isSome = true := by
    decide +kernel
  obtain ⟨p, hp⟩ := Option.isSome_iff_exists.mp hsome
  refine ⟨p, _, Prod.ext hp rfl, ?_⟩
  have hclamped := (transfers_are_clamped multiCredit sixtyFour someFile 100000 0 .none
    (by decide) (by decide)).1 true p _ (Prod.ext hp rfl)
  exact hclamped.mpr ⟨⟨by decide, by decide⟩, .inr (by decide)⟩

/-- **A READ of nothing asks for 4 MiB.** -/
theorem empty_read_asks : ∃ p ctx',
    preadAsync multiCredit sixtyFour someFile true 0 0 .none = (some p, ctx') ∧
      p.lengthField = 4194304 ∧ ¬Clamped multiCredit sixtyFour multiCredit.maxReadSize 0 p := by
  have hread : (preadAsync multiCredit sixtyFour someFile true 0 0 .none).1.map Pdu.lengthField =
      some 4194304 := by decide +kernel
  obtain ⟨p, hp, hlength⟩ := Option.map_eq_some_iff.mp hread
  refine ⟨p, _, Prod.ext hp rfl, hlength, fun h => ?_⟩
  have hcount := h.count
  rw [hlength] at hcount
  exact absurd hcount (by decide)

/-! ## Requests with a payload -/

/-- The octets of variable length that a request sends. -/
def Cmd.sent (passthrough : Bool) : Cmd → Nat
  | queryDirectory req =>
    match Name.ofString req.name with
    | .units us => 2 * us.length
    | _ => 0
  | setInfo req =>
    if passthrough then req.buffer.length else (req.input.encode.getD []).length
  | ioctl req => req.input.length
  | _ => 0

/-- The octets that a request asks for. -/
def Cmd.asked : Cmd → Nat
  | queryDirectory req => req.outputBufferLength.toNat
  | changeNotify req => req.outputBufferLength.toNat
  | queryInfo req => req.outputBufferLength.toNat
  | ioctl _ => IOCTL_MAX_OUTPUT
  | _ => 0

/-- The credits that a request costs. -/
def Cmd.cost (passthrough : Bool) (c : Cmd) : Nat := creditsOf (max (c.sent passthrough) c.asked)

/-- The octets of the fixed part of a request with a payload. -/
def Cmd.fixedSize : Cmd → Option Nat
  | queryDirectory _ => some (QUERY_DIRECTORY_REQUEST_SIZE - 1)
  | queryInfo _ => some (QUERY_INFO_REQUEST_SIZE - 1)
  | setInfo _ => some (SET_INFO_REQUEST_SIZE - 1)
  | changeNotify _ => some 32
  | ioctl _ => some (IOCTL_REQUEST_SIZE - 1)
  | _ => none

/-- The request has the charge of its payload: a QUERY_DIRECTORY looks at what it asks for, the
others have one credit, or none at all in dialect 2.0.2. -/
def Cmd.ChargeFits (dialect : Nat) (passthrough : Bool) : Cmd → Prop
  | queryDirectory req => req.outputBufferLength ≠ 0 ∧
      req.outputBufferLength.toNat ≤ 2 ^ 32 - 65536 ∧
      (queryDirectory req).sent passthrough ≤
        (req.outputBufferLength.toNat + 65535) / 65536 * 65536
  | c => dialect ≠ VERSION_0202 ∧ max (c.sent passthrough) c.asked ≤ 65536

section
variable {S : Settings} {version : Version} {passthrough : Bool} {ctx ctx' ctx₂ : Context}
  {cb : Callback} {c : Cmd} {p : Pdu} {out : List Bytes} {v : Bytes}

/-- **A request has the charge of its payload**, and reserves as many message ids, iff the charge
fits. -/
theorem payloads_are_charged (hmulti : S.supportsMultiCredit = true)
    (hkind : c.fixedSize.isSome = true) (h : c.async S ctx cb = (some p, ctx'))
    (hclient : ctx₂.isServer = false) :
    (p.header.creditCharge = c.cost ctx.passthrough ∧
      (encodeHeader ctx₂ p).1.messageId =
        (ctx₂.messageId + c.cost ctx.passthrough) % 2 ^ 64) ↔
      c.ChargeFits ctx.dialect ctx.passthrough := by
  obtain ⟨q, out, halloc, hout, rfl⟩ := Cmd.async_spec h
  obtain ⟨-, -, -, hassumed, -⟩ := allocatePdu_spec halloc
  have hone : 1 ≤ c.cost ctx.passthrough := Nat.le_max_left ..
  have hreserved : ∀ q : Pdu, q.header.creditCharge = c.cost ctx.passthrough →
      (encodeHeader ctx₂ q).1.messageId = (ctx₂.messageId + c.cost ctx.passthrough) % 2 ^ 64 := by
    intro q hq
    simp only [encodeHeader, hclient, Bool.false_eq_true, if_false, hq, Nat.max_eq_right hone]
  rw [and_iff_left_of_imp (hreserved _)]
  have hassume : q.header.creditCharge = (if ctx.dialect = VERSION_0202 then 0 else 1) →
      (q.header.creditCharge = c.cost ctx.passthrough ↔
        ctx.dialect ≠ VERSION_0202 ∧ max (c.sent ctx.passthrough) c.asked ≤ 65536) := by
    intro hq
    rw [hq]
    unfold Cmd.cost creditsOf
    split
    · rename_i hd
      exact ⟨fun hz => by omega, fun hne => absurd hd hne.1⟩
    · rename_i hd
      exact ⟨fun hz => ⟨hd, by omega⟩, fun hle => by omega⟩
  cases c with
  | queryDirectory req =>
    simp only [Cmd.creditCharge, hmulti, if_true, Option.getD_some]
    have hright := chargeFor_eq_iff req.outputBufferLength
    have hlt := req.outputBufferLength.toNat_lt
    simp only [Cmd.ChargeFits, Cmd.cost, Cmd.asked]
    generalize (Cmd.queryDirectory req).sent ctx.passthrough = sent
    by_cases hz : req.outputBufferLength = 0
    · refine ⟨fun hcost => ?_, fun hfits => absurd hz hfits.1⟩
      rw [hz, chargeFor_zero] at hcost
      unfold creditsOf at hcost
      omega
    · have hpos := pos_of_ne_zero hz
      by_cases hbig : req.outputBufferLength.toNat ≤ 2 ^ 32 - 65536
      · rw [hright.mpr ⟨hz, hbig⟩]
        unfold creditsOf
        exact ⟨fun hcost => ⟨hz, hbig, by omega⟩, fun hfits => by omega⟩
      · refine ⟨fun hcost => ?_, fun hfits => absurd hfits.2.1 hbig⟩
        have hsmall : Cmd.chargeFor req.outputBufferLength < 65536 := Nat.mod_lt _ (by decide)
        rw [hcost] at hsmall
        unfold creditsOf at hsmall
        omega
  | queryInfo req =>
    simp only [Cmd.creditCharge, hmulti, if_true, Option.getD_none]
    exact hassume (by simpa [Cmd.command] using hassumed)
  | setInfo req =>
    simp only [Cmd.creditCharge, hmulti, if_true, Option.getD_none]
    exact hassume (by simpa [Cmd.command] using hassumed)
  | changeNotify req =>
    simp only [Cmd.creditCharge, hmulti, if_true, Option.getD_none]
    exact hassume (by simpa [Cmd.command] using hassumed)
  | ioctl req =>
    simp only [Cmd.creditCharge, hmulti, if_true, Option.getD_none]
    exact hassume (by simpa [Cmd.command] using hassumed)
  | _ => cases hkind

end

/-- **A QUERY_INFO for 65537 octets is charged one credit**, and reserves one message id. -/
theorem large_query_is_charged_one : ∃ p ctx',
    (Cmd.queryInfo { outputBufferLength := 65537, fileId := someFile }).async multiCredit
        sixtyFour .none = (some p, ctx') ∧
      p.header.creditCharge = 1 ∧ (encodeHeader sixtyFour p).1.messageId = 1 ∧
      (Cmd.queryInfo { outputBufferLength := 65537, fileId := someFile }).cost false = 2 := by
  have hquery : ((Cmd.queryInfo { outputBufferLength := 65537, fileId := someFile }).async
      multiCredit sixtyFour .none).1.map (fun p =>
        (p.header.creditCharge, (encodeHeader sixtyFour p).1.messageId)) = some (1, 1) := by
    decide +kernel
  obtain ⟨p, hp, hpair⟩ := Option.map_eq_some_iff.mp hquery
  obtain ⟨hcharge, hid⟩ := Prod.mk.inj hpair
  exact ⟨p, _, Prod.ext hp rfl, hcharge, hid, by decide⟩

theorem payloads_are_charged_directory : ∃ p ctx',
    (Cmd.queryDirectory { outputBufferLength := 65537, fileId := someFile }).async multiCredit
        sixtyFour .none = (some p, ctx') ∧
      p.header.creditCharge = 2 ∧ (encodeHeader sixtyFour p).1.messageId = 2 := by
  have hsome : ((Cmd.queryDirectory { outputBufferLength := 65537, fileId := someFile }).async
      multiCredit sixtyFour .none).1.isSome = true := by decide +kernel
  obtain ⟨p, hp⟩ := Option.isSome_iff_exists.mp hsome
  have hfits : (Cmd.queryDirectory { outputBufferLength := 65537, fileId := someFile }).ChargeFits
      sixtyFour.dialect sixtyFour.passthrough := ⟨by decide +kernel, by decide +kernel, by decide +kernel⟩
  refine ⟨p, _, Prod.ext hp rfl, ?_⟩
  have hclient : sixtyFour.isServer = false := rfl
  have hcost : (Cmd.queryDirectory { outputBufferLength := 65537, fileId := someFile }).cost
      sixtyFour.passthrough = 2 := by decide +kernel
  have hcharged := (payloads_are_charged rfl rfl (Prod.ext hp rfl) hclient).mpr hfits
  rw [hcost] at hcharged
  exact hcharged

end Libsmb2
