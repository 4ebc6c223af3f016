import Libsmb2.Spnego

/-!
# What is read of a SPNEGO blob

The decoder of `asn1-ber.c` holds an index into the blob and its length.  Here it works on that
index, and an octet that is fetched at `spnego_len` or behind ends the run; so does a loop that
takes more turns than the blob has octets.

* `Follows` — such a run makes of the blob what the decoder of its suffixes makes of it, and stays
  inside;
* `unwrapBlobAt_eq` — the one read that leaves the blob;
* `unwrapping_stays_inside_iff` — when the reads, and the token that is returned, lie inside.
-/

set_option autoImplicit false

namespace Libsmb2.Spnego

open Util Asn1Ber

/-! ## Reading by index -/

/-- What a run must not do. -/
inductive Stray
  | read
  | endless
  deriving DecidableEq, Repr

/-- A run over a blob from an index on, to the index behind what it has read; `none` is a
failure. -/
structure Rd (α : Type) where
  run : Bytes → Nat → Except Stray (Option (α × Nat))

instance : Monad Rd where
  pure a := ⟨fun _ tail => .ok (some (a, tail))⟩
  bind x f := ⟨fun blob tail =>
    match x.run blob tail with
    | .error e => .error e
    | .ok none => .ok none
    | .ok (some (a, tail)) => (f a).run blob tail⟩

def refuse {α : Type} : Rd α := ⟨fun _ _ => .ok none⟩

/-- `src[i]`. -/
def fetchAt (blob : Bytes) (i : Nat) : Except Stray Nat :=
  match blob[i]? with
  | none => .error .read
  | some b => .ok b.toNat

/-- `asn1ber_next_byte`. -/
def nextByteAt : Rd Nat where
  run blob tail :=
    if blob.length ≤ tail then .ok none
    else (fetchAt blob tail).map fun b => some (b, tail + 1)

/-- The loop of `asn1ber_length_from_ber`, and that of `asn1ber_uint32_from_ber`. -/
def numberAt : Nat → Nat → Rd Nat
  | 0, val => pure val
  | vallen + 1, val => do
    let b ← nextByteAt
    numberAt vallen ((val * 256 + b) % 4294967296)

/-- `asn1ber_length_from_ber`. -/
def lengthAt : Rd Nat := do
  let b ← nextByteAt
  if b < 128 then pure b
  else if 4 < b % 128 then refuse
  else numberAt (b % 128) 0

/-- `ber_typecode_from_ber`. -/
def typecodeAt : Rd Nat := do
  let b ← nextByteAt
  if b % 32 ≠ 31 then pure b
  else do
    let b ← nextByteAt
    pure (if 0x30 ≤ b then b - 0x30 else b)

/-- `ber_typelen_from_ber`. -/
def typelenAt : Rd (Nat × Nat) := do
  let typecode ← typecodeAt
  let len ← lengthAt
  pure (typecode, len)

/-- `asn1ber_uint32_from_ber`. -/
def uint32At : Rd Nat := do
  let b ← nextByteAt
  if b ∉ uint32Types then refuse
  else do
    let vallen ← nextByteAt
    if 4 < vallen ∨ vallen = 0 then refuse else numberAt vallen 0

/-- The octets of an element of an object identifier behind the octet `b`. -/
def oidGroupsAt : Nat → Nat → Nat → Rd (Nat × Nat)
  | 0, _, oval => pure (oval, 0)
  | vallen + 1, b, oval =>
    if b < 128 then pure (oval, vallen + 1)
    else do
      let b ← nextByteAt
      oidGroupsAt vallen b (oval * 128 % 4294967296 + b % 128)

/-- The elements of an object identifier, at most as many as there is room for. -/
def oidElementsAt : Nat → Nat → List Nat → Rd (List Nat)
  | _, 0, elements => pure elements
  | 0, _ + 1, _ => refuse
  | room + 1, vallen + 1, elements => do
    let b ← nextByteAt
    let r ← oidGroupsAt vallen b (b % 128)
    oidElementsAt room r.2 (elements ++ [r.1])

/-- `asn1ber_oid_from_ber`. -/
def oidAt : Rd (List Nat) := do
  let b ← nextByteAt
  if b ≠ asnOBJECT_ID then refuse
  else do
    let vallen ← lengthAt
    if BER_MAX_OID_ELEMENTS < vallen ∨ vallen = 0 then refuse
    else do
      let b ← nextByteAt
      oidElementsAt (BER_MAX_OID_ELEMENTS - 2) (vallen - 1) [b / 40, b - b / 40 * 40]

/-- `require_typeandlen`, with the length. -/
def requireTypeandlenAt (expected minimum : Nat) : Rd Nat := do
  let r ← typelenAt
  if r.1 ≠ expected ∨ r.2 < minimum then refuse else pure r.2

/-! ## Unwrapping by index -/

/-- The loop of `smb2_spnego_unwrap_targ`. -/
def targLoopAt (blob : Bytes) : Nat → Nat → Int → Option Nat → Except Stray Unwrapped
  | 0, _, _, _ => .error .endless
  | turns + 1, tail, sequenceLen, mechs =>
    if sequenceLen ≤ 2 then .ok { ret := 0, mechanisms := mechs }
    else
      typelenAt.run blob tail >>= fun
      | none => .ok (.fail mechs)
      | some ((typecode, _), i) =>
        if typecode = ASN1_CONTEXT 0 then
          uint32At.run blob i >>= fun
          | none => .ok (.fail (some 0))
          | some (val, j) => targLoopAt blob turns j (sequenceLen - (j - tail)) (some val)
        else if typecode = ASN1_CONTEXT 1 then
          oidAt.run blob i >>= fun
          | none => .ok (.fail mechs)
          | some (_, j) => targLoopAt blob turns j (sequenceLen - (j - tail)) mechs
        else if typecode = ASN1_CONTEXT 2 then
          (requireTypeandlenAt asnOCTET_STRING 8).run blob i >>= fun
          | none => .ok (.fail mechs)
          | some (typelen, j) => .ok ⟨toInt32 typelen, some j, mechs⟩
        else targLoopAt blob turns i (sequenceLen - (i - tail)) mechs

/-- `smb2_spnego_unwrap_targ`. -/
def unwrapTargAt (blob : Bytes) : Except Stray Unwrapped :=
  let outer : Rd Nat := do
    let _ ← requireTypeandlenAt (ASN1_CONTEXT 1) 14
    requireTypeandlenAt (ASN1_SEQUENCE 0) 12
  outer.run blob 0 >>= fun
  | none => .ok (.fail none)
  | some (typelen, tail) => targLoopAt blob (blob.length + 1) tail (toInt32 typelen) none

/-- `asn_decoder.src_tail`. -/
def srcTail : Rd Nat := ⟨fun _ tail => .ok (some (tail, tail))⟩

/-- The loop of `smb2_spnego_unwrap_gssapi` over the mechanism types. -/
def mechLoopAt : Nat → Int → Nat → Rd Nat
  | 0, _, _ => ⟨fun _ _ => .error .endless⟩
  | turns + 1, mechBytes, mechs =>
    if mechBytes ≤ 0 then pure mechs
    else do
      let decodePos ← srcTail
      let oid ← oidAt
      let tail ← srcTail
      mechLoopAt turns (mechBytes - (tail - decodePos)) (mechs ||| mechanismOf oid)

/-- `smb2_spnego_unwrap_gssapi`, up to the mechanism types. -/
def mechTypesAt : Rd Nat := do
  let _ ← requireTypeandlenAt asnGssapi 32
  let oid ← oidAt
  if oidCompare oid oidGssMechSpnego ≠ 0 then refuse
  else do
    let _ ← requireTypeandlenAt (ASN1_CONTEXT 0) 10
    let _ ← requireTypeandlenAt (ASN1_SEQUENCE 0) 8
    let _ ← requireTypeandlenAt (ASN1_CONTEXT 0) 10
    requireTypeandlenAt (ASN1_SEQUENCE 0) 8

/-- `smb2_spnego_unwrap_gssapi`, up to the end of the mechanism types. -/
def gssapiMechsAt (turns : Nat) : Rd Nat := do
  let typelen ← mechTypesAt
  mechLoopAt turns (toInt32 typelen) 0

/-- `smb2_spnego_unwrap_gssapi`, with a `token` that is not null. -/
def unwrapGssapiAt (blob : Bytes) : Except Stray Unwrapped :=
  (gssapiMechsAt (blob.length + 1)).run blob 0 >>= fun
  | none => .ok (.fail none)
  | some (mechs, tail) =>
    if 2 < blob.length then do
      -- `src_tail` is not compared with `src_count`
      let typecode ← fetchAt blob tail
      if typecode ≠ ASN1_CONTEXT 2 then .ok { ret := 0, mechanisms := some mechs }
      else
        let inner : Rd Nat := do
          let _ ← requireTypeandlenAt (ASN1_CONTEXT 2) 10
          requireTypeandlenAt asnOCTET_STRING 7
        inner.run blob tail >>= fun
        | none => .ok (.fail (some mechs))
        | some (typelen, tail) => .ok ⟨toInt32 typelen, some tail, some mechs⟩
    else .ok { ret := 0, mechanisms := some mechs }

/-- `smb2_spnego_unwrap_blob`. -/
def unwrapBlobAt (blob : Bytes) : Except Stray Unwrapped :=
  if blob.length < 7 then .ok (.fail none)
  else do
    let raw ← if 7 < blob.length then
      (List.range 8).mapM (fetchAt blob) >>= fun bs => .ok (bs = rawMagic.map UInt8.toNat : Bool)
      else .ok false
    if raw then .ok { ret := toInt32 blob.length, token := some 0 }
    else do
      let typecode ← fetchAt blob 0
      if typecode = asnGssapi then unwrapGssapiAt blob
      else if typecode = ASN1_CONTEXT 0 ∨ typecode = ASN1_CONTEXT 1 ∨ typecode = ASN1_CONTEXT 2
        then unwrapTargAt blob
      else .ok (.fail none)

/-! ## The run follows the decoder -/

section

/-- The decoder of a blob at an index. -/
def decoderAt (blob : Bytes) (i : Nat) : Asn1Ber.Decoder := ⟨blob.drop i, i⟩

variable {α β : Type} {blob : Bytes}

/-- The run by index stays inside the blob, makes the same of it as the decoder, and moves on by
`k` octets or more. -/
def Follows (blob : Bytes) (k : Nat) (x : Rd α)
    (f : Asn1Ber.Decoder → Option (α × Asn1Ber.Decoder)) : Prop :=
  ∀ tail, tail ≤ blob.length →
    x.run blob tail = .ok none ∧ f (decoderAt blob tail) = none ∨
    ∃ a j, x.run blob tail = .ok (some (a, j))
      ∧ f (decoderAt blob tail) = some (a, decoderAt blob j) ∧ tail + k ≤ j ∧ j ≤ blob.length

variable {k l : Nat} {x : Rd α} {f : Asn1Ber.Decoder → Option (α × Asn1Ber.Decoder)}

theorem Follows.mono (h : Follows blob k x f) (hl : l ≤ k) : Follows blob l x f := by
  intro tail htail
  rcases h tail htail with hnone | ⟨a, j, hx, hf, hk, hj⟩
  · exact .inl hnone
  · exact .inr ⟨a, j, hx, hf, by omega, hj⟩

theorem Follows.congr {g : Asn1Ber.Decoder → Option (α × Asn1Ber.Decoder)} (h : Follows blob k x f)
    (hfg : ∀ d, g d = f d) : Follows blob k x g := by
  rwa [funext hfg]

theorem Follows.pure (a : α) : Follows blob 0 (pure a : Rd α) fun d => some (a, d) := by
  intro tail htail
  exact .inr ⟨a, tail, rfl, rfl, Nat.le_refl _, htail⟩

theorem Follows.refuse (k : Nat) : Follows blob k (Spnego.refuse : Rd α) fun _ => none :=
  fun _ _ => .inl ⟨rfl, rfl⟩

theorem Rd.bind_run (x : Rd α) (y : α → Rd β) (tail : Nat) :
    (x >>= y).run blob tail = match x.run blob tail with
      | .error e => .error e
      | .ok none => .ok none
      | .ok (some (a, tail)) => (y a).run blob tail :=
  rfl

theorem Follows.bind {y : α → Rd β} {g : α × Asn1Ber.Decoder → Option (β × Asn1Ber.Decoder)}
    (hx : Follows blob k x f) (hy : ∀ a, Follows blob l (y a) fun d => g (a, d)) :
    Follows blob (k + l) (x >>= y) fun d => f d >>= g := by
  intro tail htail
  rw [Rd.bind_run]
  rcases hx tail htail with ⟨hx, hf⟩ | ⟨a, j, hx, hf, hk, hj⟩
  · rw [hx]
    exact .inl ⟨rfl, by simp [hf]⟩
  · rw [hx]
    have hg : (f (decoderAt blob tail) >>= g) = g (a, decoderAt blob j) := by simp [hf]
    dsimp only
    rw [hg]
    rcases hy a j hj with hnone | ⟨b, i, hx, hf, hl, hi⟩
    · exact .inl hnone
    · exact .inr ⟨b, i, hx, hf, by omega, hi⟩

theorem Follows.ite {y : Rd α} {g : Asn1Ber.Decoder → Option (α × Asn1Ber.Decoder)} {p : Prop}
    [Decidable p] (hx : p → Follows blob k x f) (hy : ¬ p → Follows blob k y g) :
    Follows blob k (if p then x else y) fun d => if p then f d else g d := by
  by_cases hp : p
  · simpa only [if_pos hp] using hx hp
  · simpa only [if_neg hp] using hy hp

theorem fetchAt_of_lt {i : Nat} (h : i < blob.length) :
    fetchAt blob i = .ok blob[i].toNat := by
  rw [fetchAt, List.getElem?_eq_getElem h]

theorem fetchAt_of_le {i : Nat} (h : blob.length ≤ i) :
    fetchAt blob i = .error .read := by
  rw [fetchAt, List.getElem?_eq_none h]

theorem nextByteAt_follows : Follows blob 1 nextByteAt nextByte := by
  intro tail htail
  by_cases hend : blob.length ≤ tail
  · have hdrop : blob.drop tail = [] := List.drop_of_length_le hend
    refine .inl ⟨if_pos hend, ?_⟩
    simp only [nextByte, decoderAt, hdrop]
  · have hlt : tail < blob.length := by omega
    have hdrop : blob.drop tail = blob[tail] :: blob.drop (tail + 1) := List.drop_eq_getElem_cons hlt
    refine .inr ⟨blob[tail].toNat, tail + 1, ?_, ?_, Nat.le_refl _, hlt⟩
    · simp only [nextByteAt, if_neg hend, fetchAt_of_lt hlt]
      rfl
    · simp only [nextByte, decoderAt, hdrop]

theorem numberAt_follows (n val : Nat) : Follows blob 0 (numberAt n val) (numberFromBer n val) := by
  induction n generalizing val with
  | zero => exact .pure val
  | succ n ih =>
    apply Follows.mono (k := 1 + 0) _ (Nat.zero_le _)
    apply nextByteAt_follows.bind
    intro b
    exact ih _

theorem lengthAt_follows : Follows blob 1 lengthAt lengthFromBer := by
  apply nextByteAt_follows.bind (l := 0)
  intro b
  exact .ite (fun _ => .pure b) fun _ => .ite (fun _ => .refuse 0) fun _ => numberAt_follows _ 0

theorem typecodeAt_follows : Follows blob 1 typecodeAt typecodeFromBer := by
  apply nextByteAt_follows.bind (l := 0)
  intro b
  refine .ite (fun _ => .pure b) fun _ => Follows.mono (k := 1 + 0) ?_ (Nat.zero_le _)
  apply nextByteAt_follows.bind
  intro b
  exact .pure _

/-- `typelenFromBer`, with what is read in front of the decoder. -/
def typelen (d : Asn1Ber.Decoder) : Option ((Nat × Nat) × Asn1Ber.Decoder) :=
  (typelenFromBer d).map fun r => ((r.1, r.2.1), r.2.2)

theorem typelen_eq (d : Asn1Ber.Decoder) : typelen d = typecodeFromBer d >>= fun t =>
    lengthFromBer t.2 >>= fun n => some ((t.1, n.1), n.2) := by
  cases ht : typecodeFromBer d with
  | none => simp [typelen, typelenFromBer, ht]
  | some t =>
    cases hn : lengthFromBer t.2 with
    | none => simp [typelen, typelenFromBer, ht, hn]
    | some n => simp [typelen, typelenFromBer, ht, hn]

theorem typelenAt_follows : Follows blob 2 typelenAt typelen := by
  refine Follows.congr ?_ typelen_eq
  apply typecodeAt_follows.bind (l := 1)
  intro t
  dsimp only
  apply lengthAt_follows.bind (l := 0)
  intro n
  exact .pure _

theorem uint32At_follows : Follows blob 1 uint32At uint32FromBer := by
  apply nextByteAt_follows.bind (l := 0)
  intro b
  refine .ite (fun _ => .refuse 0) fun _ => Follows.mono (k := 1 + 0) ?_ (Nat.zero_le _)
  apply nextByteAt_follows.bind
  intro vallen
  exact .ite (fun _ => .refuse 0) fun _ => numberAt_follows _ 0

/-- `oidGroups`, with what is read in front of the decoder. -/
def groups (vallen b oval : Nat) (d : Asn1Ber.Decoder) : Option ((Nat × Nat) × Asn1Ber.Decoder) :=
  (oidGroups vallen b oval d).map fun r => ((r.1, r.2.1), r.2.2)

theorem groups_succ (vallen b oval : Nat) (d : Asn1Ber.Decoder) :
    groups (vallen + 1) b oval d = if b < 128 then some ((oval, vallen + 1), d)
      else nextByte d >>= fun r =>
        groups vallen r.1 (oval * 128 % 4294967296 + r.1 % 128) r.2 := by
  rw [groups, oidGroups]
  split
  · rfl
  · cases hb : nextByte d with
    | none => rfl
    | some r => rfl

theorem oidGroupsAt_follows (vallen b oval : Nat) :
    Follows blob 0 (oidGroupsAt vallen b oval) (groups vallen b oval) := by
  induction vallen generalizing b oval with
  | zero => exact .pure (oval, 0)
  | succ vallen ih =>
    refine Follows.congr ?_ (groups_succ vallen b oval)
    refine .ite (fun _ => .pure _) fun _ => Follows.mono (k := 1 + 0) ?_ (Nat.zero_le _)
    apply nextByteAt_follows.bind
    intro b
    exact ih _ _

theorem oidElements_succ (room vallen : Nat) (elements : List Nat) (d : Asn1Ber.Decoder) :
    oidElements (room + 1) (vallen + 1) elements d = nextByte d >>= fun b =>
      groups vallen b.1 (b.1 % 128) b.2 >>= fun r =>
        oidElements room r.1.2 (elements ++ [r.1.1]) r.2 := by
  rw [oidElements]
  cases hb : nextByte d with
  | none => rfl
  | some b =>
    simp only [Option.bind_eq_bind, Option.bind_some]
    cases hr : oidGroups vallen b.1 (b.1 % 128) b.2 with
    | none => simp [groups, hr]
    | some r => simp [groups, hr]

theorem oidElementsAt_follows (room vallen : Nat) (elements : List Nat) :
    Follows blob 0 (oidElementsAt room vallen elements) (oidElements room vallen elements) := by
  induction room generalizing vallen elements with
  | zero =>
    cases vallen with
    | zero => exact .pure elements
    | succ vallen => exact .refuse 0
  | succ room ih =>
    cases vallen with
    | zero => exact .pure elements
    | succ vallen =>
      refine Follows.congr (Follows.mono (k := 1 + (0 + 0)) ?_ (Nat.zero_le _))
        (oidElements_succ room vallen elements)
      apply nextByteAt_follows.bind
      intro b
      apply (oidGroupsAt_follows vallen b (b % 128)).bind
      intro r
      exact ih _ _

theorem oidAt_follows : Follows blob 2 oidAt oidFromBer := by
  apply nextByteAt_follows.bind (l := 1)
  intro b
  refine .ite (fun _ => .refuse 1) fun _ => ?_
  apply lengthAt_follows.bind (l := 0)
  intro vallen
  refine .ite (fun _ => .refuse 0) fun _ => Follows.mono (k := 1 + 0) ?_ (Nat.zero_le _)
  apply nextByteAt_follows.bind
  intro b
  exact oidElementsAt_follows _ _ _

theorem requireTypeandlen_eq (expected minimum : Nat) (d : Asn1Ber.Decoder) :
    requireTypeandlen d expected minimum = typelen d >>= fun r =>
      if r.1.1 ≠ expected ∨ r.1.2 < minimum then none else some (r.1.2, r.2) := by
  cases ht : typelenFromBer d with
  | none => simp [requireTypeandlen, typelen, ht]
  | some r => simp [requireTypeandlen, typelen, ht]

theorem requireTypeandlenAt_follows (expected minimum : Nat) :
    Follows blob 2 (requireTypeandlenAt expected minimum)
      (requireTypeandlen · expected minimum) := by
  refine Follows.congr ?_ (requireTypeandlen_eq expected minimum)
  apply typelenAt_follows.bind (l := 0)
  intro r
  exact .ite (fun _ => .refuse 0) fun _ => .pure _

/-! ## The loops -/

variable {d d' : Asn1Ber.Decoder}

theorem typelen_none (h : typelen d = none) : typelenFromBer d = none := by
  simpa [typelen] using h

theorem typelen_some {d e : Asn1Ber.Decoder} {t n : Nat} (h : typelen d = some ((t, n), e)) :
    typelenFromBer d = some (t, n, e) := by
  obtain ⟨⟨t', n', e'⟩, ht, he⟩ := Option.map_eq_some_iff.mp h
  cases he
  exact ht

variable {tail turns turns' : Nat} {n : Int}

/-- The loop over a response ends within the octets that are left, and reads inside the blob. -/
theorem targLoopAt_eq {mechs : Option Nat} (htail : tail ≤ blob.length)
    (h : blob.length - tail < turns) (h' : blob.length - tail < turns') :
    targLoopAt blob turns tail n mechs = .ok (targLoop turns' (decoderAt blob tail) n mechs) := by
  induction turns generalizing tail turns' n mechs with
  | zero => omega
  | succ turns ih =>
    obtain ⟨turns', rfl⟩ : ∃ t, turns' = t + 1 := ⟨turns' - 1, by omega⟩
    by_cases hn : n ≤ 2
    · rw [targLoopAt, targLoop, if_pos hn, if_pos hn]
    rw [targLoopAt, targLoop, if_neg hn, if_neg hn]
    rcases typelenAt_follows tail htail with ⟨hx, hf⟩ | ⟨⟨t, len⟩, i, hx, hf, hi, hle⟩
    · rw [hx, typelen_none hf]
      rfl
    rw [hx, typelen_some hf]
    change (if t = ASN1_CONTEXT 0 then _ else _) = Except.ok (if t = ASN1_CONTEXT 0 then _ else _)
    by_cases h0 : t = ASN1_CONTEXT 0
    · rw [if_pos h0, if_pos h0]
      rcases uint32At_follows i hle with ⟨hx, hf⟩ | ⟨val, j, hx, hf, hj, hle⟩
      · rw [hx, hf]
        rfl
      · rw [hx, hf]
        exact ih hle (by omega) (by omega)
    rw [if_neg h0, if_neg h0]
    by_cases h1 : t = ASN1_CONTEXT 1
    · rw [if_pos h1, if_pos h1]
      rcases oidAt_follows i hle with ⟨hx, hf⟩ | ⟨oid, j, hx, hf, hj, hle⟩
      · rw [hx, hf]
        rfl
      · rw [hx, hf]
        exact ih hle (by omega) (by omega)
    rw [if_neg h1, if_neg h1]
    by_cases h2 : t = ASN1_CONTEXT 2
    · rw [if_pos h2, if_pos h2]
      rcases requireTypeandlenAt_follows asnOCTET_STRING 8 i hle with
        ⟨hx, hf⟩ | ⟨k, j, hx, hf, hj, hle⟩
      · dsimp only at hf
        rw [hx, hf]
        rfl
      · dsimp only at hf
        rw [hx, hf]
        rfl
    · rw [if_neg h2, if_neg h2]
      exact ih hle (by omega) (by omega)

/-- The loop over the mechanism types ends within the octets that are left. -/
theorem mechLoopAt_follows (mechs : Nat) (htail : tail ≤ blob.length)
    (h : blob.length - tail < turns) (h' : blob.length - tail < turns') :
    (mechLoopAt turns n mechs).run blob tail = .ok none
        ∧ mechLoop turns' (decoderAt blob tail) n mechs = none
      ∨ ∃ a j, (mechLoopAt turns n mechs).run blob tail = .ok (some (a, j))
        ∧ mechLoop turns' (decoderAt blob tail) n mechs = some (a, decoderAt blob j)
        ∧ tail ≤ j ∧ j ≤ blob.length := by
  induction turns generalizing tail turns' n mechs with
  | zero => omega
  | succ turns ih =>
    obtain ⟨turns', rfl⟩ : ∃ t, turns' = t + 1 := ⟨turns' - 1, by omega⟩
    by_cases hn : n ≤ 0
    · refine .inr ⟨mechs, tail, ?_, ?_, Nat.le_refl _, htail⟩
      · rw [mechLoopAt, if_pos hn]
        rfl
      · rw [mechLoop, if_pos hn]
    have hrun : (mechLoopAt (turns + 1) n mechs).run blob tail
        = (oidAt >>= fun oid => srcTail >>= fun j =>
            mechLoopAt turns (n - (j - tail)) (mechs ||| mechanismOf oid)).run blob tail := by
      rw [mechLoopAt, if_neg hn]
      rfl
    rw [hrun, Rd.bind_run, mechLoop, if_neg hn]
    rcases oidAt_follows tail htail with ⟨hx, hf⟩ | ⟨oid, j, hx, hf, hj, hle⟩
    · rw [hx, hf]
      exact .inl ⟨rfl, rfl⟩
    · rw [hx, hf]
      have hnext := ih (n := n - (j - tail)) (mechs ||| mechanismOf oid) hle
        (show blob.length - j < turns by omega) (show blob.length - j < turns' by omega)
      rcases hnext with hnone | ⟨a, i, hx, hf, hi, hle⟩
      · exact .inl hnone
      · exact .inr ⟨a, i, hx, hf, by omega, hle⟩

/-! ## The one read behind the blob -/

/-- The decoder at the mechanism types of a GSS-API blob, and the length that they claim. -/
def mechTypes (d : Asn1Ber.Decoder) : Option (Nat × Asn1Ber.Decoder) :=
  requireTypeandlen d asnGssapi 32 >>= fun gssapi =>
    oidFromBer gssapi.2 >>= fun oid =>
      if oidCompare oid.1 oidGssMechSpnego ≠ 0 then none
      else
        requireTypeandlen oid.2 (ASN1_CONTEXT 0) 10 >>= fun context =>
          requireTypeandlen context.2 (ASN1_SEQUENCE 0) 8 >>= fun sequence =>
            requireTypeandlen sequence.2 (ASN1_CONTEXT 0) 10 >>= fun context =>
              requireTypeandlen context.2 (ASN1_SEQUENCE 0) 8

/-- The mechanism types from `d` on, which claim `n` octets, end at `d'`. -/
inductive Mechs : Asn1Ber.Decoder → Int → Asn1Ber.Decoder → Prop
  | done {d : Asn1Ber.Decoder} {n : Int} (hn : n ≤ 0) : Mechs d n d
  | next {d e d' : Asn1Ber.Decoder} {n : Int} {oid : List Nat} (hn : 0 < n)
      (he : oidFromBer d = some (oid, e)) (hrest : Mechs e (n - (e.srcTail - d.srcTail)) d') :
      Mechs d n d'

/-- A blob that `smb2_spnego_unwrap_gssapi` gets. -/
def IsGssapi (blob : Bytes) : Prop :=
  7 ≤ blob.length ∧ ∃ b, blob.head? = some b ∧ b.toNat = asnGssapi

/-- A GSS-API blob, with the decoder behind its mechanism types. -/
def MechsEnd (blob : Bytes) (d' : Asn1Ber.Decoder) : Prop :=
  IsGssapi blob ∧ ∃ n d, mechTypes (decoderAt blob 0) = some (n, d) ∧ Mechs d (toInt32 n) d'

theorem mechLoop_some {m mechs : Nat} {turns : Nat}
    {n : Int} (h : mechLoop turns d n mechs = some (m, d')) : Mechs d n d' := by
  induction turns generalizing d n mechs with
  | zero => cases h
  | succ turns ih =>
    rw [mechLoop] at h
    split at h
    · cases h
      exact .done ‹_›
    · obtain ⟨⟨oid, e⟩, he, hrest⟩ := Option.bind_eq_some_iff.mp h
      exact .next (by omega) he (ih hrest)

/-- Where there is a way through the mechanism types, the loop takes it. -/
theorem Mechs.mechLoop {n : Int} (h : Mechs d n d')
    {tail : Nat} (hd : d = decoderAt blob tail) (htail : tail ≤ blob.length) (mechs : Nat)
    (hturns : blob.length - tail < turns) :
    ∃ m, Spnego.mechLoop turns d n mechs = some (m, d') := by
  induction h generalizing tail turns mechs with
  | done hn =>
    obtain ⟨turns, rfl⟩ : ∃ t, turns = t + 1 := ⟨turns - 1, by omega⟩
    exact ⟨mechs, by rw [Spnego.mechLoop, if_pos hn]⟩
  | next hn he hrest ih =>
    obtain ⟨turns, rfl⟩ : ∃ t, turns = t + 1 := ⟨turns - 1, by omega⟩
    rcases oidAt_follows tail htail with ⟨hx, hf⟩ | ⟨oid, j, hx, hf, hj, hle⟩
    · rw [hd, hf] at he
      cases he
    · have he' := he
      rw [hd, hf] at he'
      cases he'
      obtain ⟨m, hm⟩ := ih rfl hle (mechs ||| mechanismOf _)
        (show blob.length - j < turns by omega)
      refine ⟨m, ?_⟩
      rw [Spnego.mechLoop, if_neg (by omega), he]
      exact hm

theorem mechTypes_bind (d : Asn1Ber.Decoder) (f : Nat × Asn1Ber.Decoder → Option (Nat × Asn1Ber.Decoder)) :
    (requireTypeandlen d asnGssapi 32 >>= fun gssapi =>
      oidFromBer gssapi.2 >>= fun oid =>
        if oidCompare oid.1 oidGssMechSpnego ≠ 0 then none
        else
          requireTypeandlen oid.2 (ASN1_CONTEXT 0) 10 >>= fun context =>
            requireTypeandlen context.2 (ASN1_SEQUENCE 0) 8 >>= fun sequence =>
              requireTypeandlen sequence.2 (ASN1_CONTEXT 0) 10 >>= fun context =>
                requireTypeandlen context.2 (ASN1_SEQUENCE 0) 8 >>= f)
      = mechTypes d >>= f := by
  simp only [mechTypes, bind_assoc]
  congr
  funext gssapi
  congr
  funext oid
  split
  · rfl
  · simp only [bind_assoc]

theorem gssapiMechs_eq (blob : Bytes) : gssapiMechs blob = mechTypes (decoderAt blob 0)
    >>= fun r => mechLoop (r.2.src.length + 1) r.2 (toInt32 r.1) 0 :=
  mechTypes_bind (decoderAt blob 0) _

theorem mechTypesAt_follows : Follows blob 0 mechTypesAt mechTypes := by
  refine Follows.mono (k := 2 + (2 + 0)) ?_ (Nat.zero_le _)
  apply (requireTypeandlenAt_follows asnGssapi 32).bind
  intro gssapi
  apply oidAt_follows.bind
  intro oid
  refine .ite (fun _ => .refuse 0) fun _ => ?_
  refine Follows.mono (k := 2 + (2 + (2 + 2))) ?_ (Nat.zero_le _)
  apply (requireTypeandlenAt_follows (ASN1_CONTEXT 0) 10).bind
  intro context
  apply (requireTypeandlenAt_follows (ASN1_SEQUENCE 0) 8).bind
  intro sequence
  apply (requireTypeandlenAt_follows (ASN1_CONTEXT 0) 10).bind
  intro context
  exact requireTypeandlenAt_follows (ASN1_SEQUENCE 0) 8

theorem mechLoopAt_follows_mechLoop (n : Int) : Follows blob 0 (mechLoopAt (blob.length + 1) n 0)
    fun d => mechLoop (d.src.length + 1) d n 0 := by
  intro tail htail
  have hlen : (decoderAt blob tail).src.length = blob.length - tail := List.length_drop
  have hloop := mechLoopAt_follows (n := n) 0 htail
    (show blob.length - tail < blob.length + 1 by omega)
    (show blob.length - tail < (decoderAt blob tail).src.length + 1 by omega)
  rcases hloop with
    hnone | ⟨a, j, hx, hf, hj, hle⟩
  · exact .inl hnone
  · exact .inr ⟨a, j, hx, hf, hj, hle⟩

theorem gssapiMechsAt_follows : Follows blob 0 (gssapiMechsAt (blob.length + 1)) fun d =>
    mechTypes d >>= fun r => mechLoop (r.2.src.length + 1) r.2 (toInt32 r.1) 0 := by
  apply mechTypesAt_follows.bind (l := 0)
  intro typelen
  exact mechLoopAt_follows_mechLoop _

theorem gssapiMechsAt_run (blob : Bytes) :
    (gssapiMechsAt (blob.length + 1)).run blob 0 = .ok none ∧ gssapiMechs blob = none
      ∨ ∃ m j, (gssapiMechsAt (blob.length + 1)).run blob 0 = .ok (some (m, j))
        ∧ gssapiMechs blob = some (m, decoderAt blob j) ∧ j ≤ blob.length := by
  rw [gssapiMechs_eq]
  rcases @gssapiMechsAt_follows blob 0 (Nat.zero_le _) with hnone | ⟨m, j, hx, hf, -, hle⟩
  · exact .inl hnone
  · exact .inr ⟨m, j, hx, hf, hle⟩

theorem mechsEnd_iff (h : IsGssapi blob) (d' : Asn1Ber.Decoder) :
    MechsEnd blob d' ↔ ∃ m, gssapiMechs blob = some (m, d') := by
  rw [gssapiMechs_eq]
  constructor
  · rintro ⟨-, n, d, htypes, hmechs⟩
    rcases @mechTypesAt_follows blob 0 (Nat.zero_le _) with
      ⟨-, hnone⟩ | ⟨n', j, -, htypes', -, hle⟩
    · rw [hnone] at htypes
      cases htypes
    · rw [htypes'] at htypes
      cases htypes
      have hleft : (decoderAt blob j).src.length = blob.length - j := List.length_drop
      obtain ⟨m, hm⟩ := hmechs.mechLoop rfl hle 0
        (show blob.length - j < (decoderAt blob j).src.length + 1 by omega)
      refine ⟨m, ?_⟩
      rw [htypes', Option.bind_eq_bind, Option.bind_some]
      exact hm
  · rintro ⟨m, hm⟩
    obtain ⟨⟨n, d⟩, htypes, hloop⟩ := Option.bind_eq_some_iff.mp hm
    exact ⟨h, n, d, htypes, mechLoop_some hloop⟩

/-- The octets of the token behind the mechanism types. -/
def initialToken (d : Asn1Ber.Decoder) : Option (Nat × Asn1Ber.Decoder) :=
  requireTypeandlen d (ASN1_CONTEXT 2) 10 >>= fun context =>
    requireTypeandlen context.2 asnOCTET_STRING 7

theorem initialToken_follows : Follows blob 4
    (requireTypeandlenAt (ASN1_CONTEXT 2) 10 >>= fun _ => requireTypeandlenAt asnOCTET_STRING 7)
    initialToken := by
  refine Follows.mono (k := 2 + 2) ?_ (Nat.le_refl _)
  apply (requireTypeandlenAt_follows (ASN1_CONTEXT 2) 10).bind
  intro context
  exact requireTypeandlenAt_follows asnOCTET_STRING 7

/-- `smb2_spnego_unwrap_gssapi` looks behind the blob exactly if the mechanism types end with it. -/
theorem unwrapGssapiAt_eq (hlen : 2 < blob.length) :
    (∀ m d, gssapiMechs blob = some (m, d) → d.src = [] → unwrapGssapiAt blob = .error .read)
      ∧ ((∀ m d, gssapiMechs blob = some (m, d) → d.src ≠ []) →
        unwrapGssapiAt blob = .ok (unwrapGssapi blob [] true)) := by
  rw [unwrapGssapiAt, unwrapGssapi]
  rcases gssapiMechsAt_run blob with ⟨hx, hf⟩ | ⟨mechs, tail, hx, hf, hle⟩
  · rw [hx, hf]
    refine ⟨fun m d h => ?_, fun _ => rfl⟩
    cases h
  rw [hx, hf, ok_bind]
  dsimp only
  rw [if_pos hlen]
  rcases Nat.lt_or_ge tail blob.length with hlt | hge
  · have hsrc : (decoderAt blob tail).src = blob[tail] :: blob.drop (tail + 1) :=
      List.drop_eq_getElem_cons hlt
    refine ⟨fun m d h hd => ?_, fun _ => ?_⟩
    · cases h
      rw [hsrc] at hd
      cases hd
    rw [fetchAt_of_lt hlt, ok_bind, hsrc]
    have hhead : (blob[tail] :: blob.drop (tail + 1) ++ []).head? = some (UInt8.ofNat (ASN1_CONTEXT 2))
        ↔ blob[tail].toNat = ASN1_CONTEXT 2 := by
      rw [List.append_nil, List.head?_cons, Option.some.injEq, ← UInt8.toNat_inj]
      rfl
    by_cases hcode : blob[tail].toNat = ASN1_CONTEXT 2
    · rw [if_neg (by simpa using hcode), if_neg (by decide), if_pos ⟨hlen, hhead.mpr hcode⟩]
      rcases initialToken_follows tail hle with ⟨hx, hf⟩ | ⟨k, j, hx, hf, hj, hle⟩
      · rw [initialToken] at hf
        rw [hx, hf]
        rfl
      · rw [initialToken] at hf
        rw [hx, hf]
        rfl
    · rw [if_pos hcode, if_neg (by decide), if_neg fun h => hcode (hhead.mp h.2)]
  · have hsrc : (decoderAt blob tail).src = [] := List.drop_of_length_le hge
    refine ⟨fun m d h hd => ?_, fun h => absurd hsrc (h _ _ rfl)⟩
    rw [fetchAt_of_le hge]
    rfl

/-- The levels around a response. -/
def responseFront (d : Asn1Ber.Decoder) : Option (Nat × Asn1Ber.Decoder) :=
  requireTypeandlen d (ASN1_CONTEXT 1) 14 >>= fun response =>
    requireTypeandlen response.2 (ASN1_SEQUENCE 0) 12

theorem responseFront_follows : Follows blob 4
    (requireTypeandlenAt (ASN1_CONTEXT 1) 14 >>= fun _ => requireTypeandlenAt (ASN1_SEQUENCE 0) 12)
    responseFront := by
  refine Follows.mono (k := 2 + 2) ?_ (Nat.le_refl _)
  apply (requireTypeandlenAt_follows (ASN1_CONTEXT 1) 14).bind
  intro response
  exact requireTypeandlenAt_follows (ASN1_SEQUENCE 0) 12

/-- What `smb2_spnego_unwrap_targ` makes of a blob, by its loop. -/
theorem unwrapTargAt_eq (blob : Bytes) : unwrapTargAt blob = .ok (unwrapTarg blob) := by
  rw [unwrapTargAt, unwrapTarg]
  rcases @responseFront_follows blob 0 (Nat.zero_le _) with
    ⟨hx, hf⟩ | ⟨k, j, hx, hf, hj, hle⟩
  · rw [responseFront, decoderAt] at hf
    rw [hx]
    simp only [List.drop_zero] at hf
    rw [hf]
    rfl
  · have hlen : (decoderAt blob j).src.length = blob.length - j := List.length_drop
    rw [responseFront, decoderAt] at hf
    simp only [List.drop_zero] at hf
    rw [hx, hf, ok_bind]
    exact targLoopAt_eq hle (by omega) (by omega)

/-- A blob that `smb2_spnego_unwrap_targ` gets. -/
def IsResponse (blob : Bytes) : Prop :=
  7 ≤ blob.length ∧ ∃ b, blob.head? = some b
    ∧ (b.toNat = ASN1_CONTEXT 0 ∨ b.toNat = ASN1_CONTEXT 1 ∨ b.toNat = ASN1_CONTEXT 2)

theorem mapM_fetchAt (n : Nat) {i : Nat} (h : i + n ≤ blob.length) :
    (List.range' i n).mapM (fetchAt blob) = .ok ((slice blob i n).map UInt8.toNat) := by
  induction n generalizing i with
  | zero => rfl
  | succ n ih =>
    have hlt : i < blob.length := by omega
    have hslice : slice blob i (n + 1) = blob[i] :: slice blob (i + 1) n := by
      rw [slice, List.drop_eq_getElem_cons hlt, List.take_succ_cons]
      rfl
    rw [List.range'_succ, List.mapM_cons, fetchAt_of_lt hlt, ok_bind, ih (by omega), ok_bind, hslice]
    rfl

/-- The first octets are compared inside the blob. -/
theorem rawCheck_eq (h : 7 < blob.length) :
    ((List.range 8).mapM (fetchAt blob) >>= fun bs =>
      (.ok (decide (bs = rawMagic.map UInt8.toNat)) : Except Stray Bool))
      = .ok (decide (blob.take 8 = rawMagic)) := by
  have hmap : (blob.take 8).map UInt8.toNat = rawMagic.map UInt8.toNat ↔ blob.take 8 = rawMagic :=
    List.map_inj_right fun _ _ => UInt8.toNat_inj.mp
  rw [List.range_eq_range', mapM_fetchAt 8 (by omega), ok_bind]
  simp only [slice, List.drop_zero, hmap]

/-- The dispatch on the first octet. -/
theorem unwrapBlobAt_cons {b : UInt8} {rest : Bytes} (h : 7 ≤ (b :: rest).length) :
    unwrapBlobAt (b :: rest)
      = if 7 < (b :: rest).length ∧ (b :: rest).take 8 = rawMagic then
          .ok { ret := toInt32 (b :: rest).length, token := some 0 }
        else if b.toNat = asnGssapi then unwrapGssapiAt (b :: rest)
        else if b.toNat = ASN1_CONTEXT 0 ∨ b.toNat = ASN1_CONTEXT 1 ∨ b.toNat = ASN1_CONTEXT 2
          then unwrapTargAt (b :: rest)
        else .ok (.fail none) := by
  rw [unwrapBlobAt, if_neg (by omega)]
  by_cases h7 : 7 < (b :: rest).length
  · rw [if_pos h7, rawCheck_eq h7, ok_bind]
    dsimp only
    by_cases hraw : (b :: rest).take 8 = rawMagic
    · rw [if_pos (decide_eq_true hraw), if_pos ⟨h7, hraw⟩]
    · rw [if_neg (by rw [decide_eq_false hraw]; decide), if_neg (c := _ ∧ _) fun h => hraw h.2]
      rfl
  · rw [if_neg h7, ok_bind, if_neg (c := _ ∧ _) fun h => h7 h.1]
    rfl

theorem unwrapBlob_cons {b : UInt8} {rest : Bytes} (h : 7 ≤ (b :: rest).length) :
    unwrapBlob (b :: rest) []
      = if 7 < (b :: rest).length ∧ (b :: rest).take 8 = rawMagic then
          { ret := toInt32 (b :: rest).length, token := some 0 }
        else if b.toNat = asnGssapi then unwrapGssapi (b :: rest) [] true
        else if b.toNat = ASN1_CONTEXT 0 ∨ b.toNat = ASN1_CONTEXT 1 ∨ b.toNat = ASN1_CONTEXT 2
          then unwrapTarg (b :: rest)
        else .fail none := by
  rw [unwrapBlob, if_neg (by omega)]
  rfl

/-! ## Tokens inside the blob -/

/-- What is returned claims octets of the blob only. -/
def Unwrapped.Within (blob : Bytes) (u : Unwrapped) : Prop :=
  ∀ t, u.token = some t → 0 ≤ u.ret → t + u.ret.toNat ≤ blob.length

/-- A length that is more than the octets behind it. -/
def Overlong (r : Nat × Asn1Ber.Decoder) : Prop := (r.2.src.length : Int) < toInt32 r.1

/-- The octets of a token in a response. -/
def responseToken (d : Asn1Ber.Decoder) : Option (Nat × Asn1Ber.Decoder) :=
  typelen d >>= fun r =>
    if r.1.1 = ASN1_CONTEXT 2 then requireTypeandlen r.2 asnOCTET_STRING 8 else none

/-- The decoder behind an element of a response that is not a token. -/
def passedOver (d : Asn1Ber.Decoder) : Option Asn1Ber.Decoder :=
  typelen d >>= fun r =>
    if r.1.1 = ASN1_CONTEXT 0 then (uint32FromBer r.2).map Prod.snd
    else if r.1.1 = ASN1_CONTEXT 1 then (oidFromBer r.2).map Prod.snd
    else if r.1.1 = ASN1_CONTEXT 2 then none
    else some r.2

/-- Among the elements of a response, of which there are `n` octets, the first token is longer
than what is left of the blob. -/
inductive OverlongToken : Asn1Ber.Decoder → Int → Prop
  | here {d : Asn1Ber.Decoder} {n : Int} {r : Nat × Asn1Ber.Decoder} (hn : 2 < n)
      (ht : responseToken d = some r) (hr : Overlong r) : OverlongToken d n
  | behind {d e : Asn1Ber.Decoder} {n : Int} (hn : 2 < n) (he : passedOver d = some e)
      (hrest : OverlongToken e (n - (e.srcTail - d.srcTail))) : OverlongToken d n

theorem Unwrapped.within_of_none {u : Unwrapped} (h : u.token = none) : u.Within blob := by
  intro t ht
  rw [h] at ht
  cases ht

theorem Unwrapped.within_token {k j : Nat} (mechs : Option Nat) (hj : j ≤ blob.length) :
    Unwrapped.Within blob ⟨toInt32 k, some j, mechs⟩ ↔ ¬ Overlong (k, decoderAt blob j) := by
  have hleft : (decoderAt blob j).src.length = blob.length - j := List.length_drop
  constructor
  · intro h hlong
    simp only [Overlong, hleft] at hlong
    have hin := h j rfl (by dsimp only; omega)
    dsimp only at hin
    omega
  · intro h t ht hret
    cases ht
    simp only [Overlong, hleft] at h
    dsimp only at hret ⊢
    omega

theorem overlongToken_iff (hn : 2 < n) :
    OverlongToken d n ↔ (∃ r, responseToken d = some r ∧ Overlong r)
      ∨ ∃ e, passedOver d = some e ∧ OverlongToken e (n - (e.srcTail - d.srcTail)) := by
  constructor
  · rintro (⟨-, ht, hr⟩ | ⟨-, he, hrest⟩)
    · exact .inl ⟨_, ht, hr⟩
    · exact .inr ⟨_, he, hrest⟩
  · rintro (⟨r, ht, hr⟩ | ⟨e, he, hrest⟩)
    · exact .here hn ht hr
    · exact .behind hn he hrest

theorem targLoop_within_iff {mechs : Option Nat} (htail : tail ≤ blob.length)
    (h : blob.length - tail < turns) :
    (targLoop turns (decoderAt blob tail) n mechs).Within blob
      ↔ ¬ OverlongToken (decoderAt blob tail) n := by
  induction turns generalizing tail n mechs with
  | zero => omega
  | succ turns ih =>
    by_cases hn : n ≤ 2
    · rw [targLoop, if_pos hn]
      refine iff_of_true (Unwrapped.within_of_none rfl) ?_
      rintro (⟨hn', -, -⟩ | ⟨hn', -, -⟩) <;> omega
    rw [targLoop, if_neg hn, overlongToken_iff (by omega)]
    rcases typelenAt_follows tail htail with ⟨-, hf⟩ | ⟨⟨t, len⟩, i, -, hf, hi, hle⟩
    · rw [typelen_none hf, responseToken, passedOver, hf]
      exact iff_of_true (Unwrapped.within_of_none rfl) (by simp)
    rw [typelen_some hf, responseToken, passedOver, hf]
    simp only [Option.bind_eq_bind, Option.bind_some]
    by_cases h0 : t = ASN1_CONTEXT 0
    · have h2 : t ≠ ASN1_CONTEXT 2 := by
        rw [h0]
        decide
      simp only [if_pos h0, if_neg h2]
      rcases uint32At_follows i hle with ⟨-, hf⟩ | ⟨val, j, -, hf, hj, hle⟩
      · rw [hf]
        exact iff_of_true (Unwrapped.within_of_none rfl) (by simp)
      · rw [hf]
        exact (ih hle (by omega)).trans (by simp)
    simp only [if_neg h0]
    by_cases h1 : t = ASN1_CONTEXT 1
    · have h2 : t ≠ ASN1_CONTEXT 2 := by
        rw [h1]
        decide
      simp only [if_pos h1, if_neg h2]
      rcases oidAt_follows i hle with ⟨-, hf⟩ | ⟨oid, j, -, hf, hj, hle⟩
      · rw [hf]
        exact iff_of_true (Unwrapped.within_of_none rfl) (by simp)
      · rw [hf]
        exact (ih hle (by omega)).trans (by simp)
    simp only [if_neg h1]
    by_cases h2 : t = ASN1_CONTEXT 2
    · simp only [if_pos h2]
      rcases requireTypeandlenAt_follows asnOCTET_STRING 8 i hle with
        ⟨-, hf⟩ | ⟨k, j, -, hf, hj, hle⟩
      · dsimp only at hf
        rw [hf]
        exact iff_of_true (Unwrapped.within_of_none rfl) (by simp)
      · dsimp only at hf
        rw [hf]
        exact (Unwrapped.within_token mechs hle).trans (by simp)
    · simp only [if_neg h2]
      exact (ih hle (by omega)).trans (by simp)

/-! ## The whole -/

/-- A GSS-API blob that ends with its mechanism types. -/
def EndsWithMechs (blob : Bytes) : Prop := ∃ d, MechsEnd blob d ∧ d.src = []

/-- A blob whose token claims more octets than are left behind its length. -/
def ClaimsTooMuch (blob : Bytes) : Prop :=
  (IsResponse blob ∧ ∃ n d, responseFront (decoderAt blob 0) = some (n, d)
    ∧ OverlongToken d (toInt32 n))
  ∨ ∃ d r, MechsEnd blob d ∧ d.src.head? = some (UInt8.ofNat (ASN1_CONTEXT 2))
    ∧ initialToken d = some r ∧ Overlong r

/-- The reads of `smb2_spnego_unwrap_blob` are inside the blob, its loops end, and so does inside
the blob what it returns. -/
def StaysInside (blob : Bytes) : Prop := ∃ u, unwrapBlobAt blob = .ok u ∧ u.Within blob

theorem unwrapGssapi_within_iff (h : IsGssapi blob) :
    (unwrapGssapi blob [] true).Within blob ↔ ¬ ∃ d r, MechsEnd blob d
      ∧ d.src.head? = some (UInt8.ofNat (ASN1_CONTEXT 2)) ∧ initialToken d = some r
      ∧ Overlong r := by
  simp only [mechsEnd_iff h]
  rw [unwrapGssapi]
  rcases gssapiMechsAt_run blob with ⟨-, hf⟩ | ⟨m, j, -, hf, hle⟩
  · rw [hf]
    exact iff_of_true (Unwrapped.within_of_none rfl) (by simp)
  rw [hf]
  dsimp only
  rw [if_neg (by decide), List.append_nil]
  by_cases hhead : (decoderAt blob j).src.head? = some (UInt8.ofNat (ASN1_CONTEXT 2))
  · rw [if_pos ⟨by have := h.1; omega, hhead⟩]
    rcases initialToken_follows j hle with ⟨-, hf⟩ | ⟨k, i, -, hf, -, hle⟩
    · have hf' := hf
      rw [initialToken] at hf'
      rw [hf']
      exact iff_of_true (Unwrapped.within_of_none rfl) (by simp [hf])
    · have hf' := hf
      rw [initialToken] at hf'
      rw [hf']
      exact (Unwrapped.within_token (some m) hle).trans (by simp [hf, hhead])
  · rw [if_neg fun h => hhead h.2]
    exact iff_of_true (Unwrapped.within_of_none rfl) (by simp [hhead])

theorem unwrapTarg_within_iff (blob : Bytes) :
    (unwrapTarg blob).Within blob ↔ ¬ ∃ n d, responseFront (decoderAt blob 0) = some (n, d)
      ∧ OverlongToken d (toInt32 n) := by
  rw [unwrapTarg]
  have hstart : decoderAt blob 0 = ⟨blob, 0⟩ := rfl
  rcases @responseFront_follows blob 0 (Nat.zero_le _) with ⟨-, hf⟩ | ⟨k, j, -, hf, -, hle⟩
  · have hf' := hf
    rw [responseFront, hstart] at hf'
    rw [hf']
    exact iff_of_true (Unwrapped.within_of_none rfl) (by simp [hf])
  · have hlen : (decoderAt blob j).src.length = blob.length - j := List.length_drop
    have hf' := hf
    rw [responseFront, hstart] at hf'
    rw [hf']
    exact (targLoop_within_iff hle (by omega)).trans (by simp [hf])

theorem IsGssapi.not_response (h : IsGssapi blob) : ¬ IsResponse blob := by
  rintro ⟨-, b', hb', hcode'⟩
  obtain ⟨-, b, hb, hcode⟩ := h
  rw [hb] at hb'
  cases hb'
  rw [hcode] at hcode'
  revert hcode'
  decide

theorem IsResponse.not_endsWithMechs (h : IsResponse blob) : ¬ EndsWithMechs blob :=
  fun ⟨_, hend, _⟩ => hend.1.not_response h

/-- Which unwrapper a blob gets. -/
theorem unwrapBlob_cases (blob : Bytes) :
    (¬ IsGssapi blob ∧ ¬ IsResponse blob ∧ unwrapBlobAt blob = .ok (unwrapBlob blob [])
        ∧ (unwrapBlob blob []).Within blob)
      ∨ (IsGssapi blob ∧ unwrapBlobAt blob = unwrapGssapiAt blob
        ∧ unwrapBlob blob [] = unwrapGssapi blob [] true)
      ∨ (IsResponse blob ∧ unwrapBlobAt blob = .ok (unwrapBlob blob [])
        ∧ unwrapBlob blob [] = unwrapTarg blob) := by
  by_cases hlen : blob.length < 7
  · refine .inl ⟨fun h => by have := h.1; omega, fun h => by have := h.1; omega, ?_, ?_⟩
    · rw [unwrapBlobAt, unwrapBlob, if_pos hlen, if_pos hlen]
    · rw [unwrapBlob, if_pos hlen]
      exact Unwrapped.within_of_none rfl
  obtain ⟨b, rest, rfl⟩ : ∃ b rest, blob = b :: rest := by
    cases blob with
    | nil => simp at hlen
    | cons b rest => exact ⟨b, rest, rfl⟩
  have hseven : 7 ≤ (b :: rest).length := by omega
  have hhead : ∀ p : UInt8 → Prop, (∃ c, (b :: rest).head? = some c ∧ p c) ↔ p b := by simp
  rw [IsGssapi, IsResponse, hhead, hhead, unwrapBlobAt_cons hseven, unwrapBlob_cons hseven]
  by_cases hraw : 7 < (b :: rest).length ∧ (b :: rest).take 8 = rawMagic
  · have hb : b = 0x4E := by
      have h := hraw.2
      rw [List.take_succ_cons, rawMagic] at h
      exact (List.cons.inj h).1
    rw [if_pos hraw, if_pos hraw]
    refine .inl ⟨?_, ?_, rfl, ?_⟩
    · rw [hb]
      exact fun h => absurd h.2 (by decide)
    · rw [hb]
      exact fun h => absurd h.2 (by decide)
    · intro t ht hret
      cases ht
      have hle := toInt32_le (b :: rest).length
      dsimp only at hret ⊢
      omega
  rw [if_neg hraw, if_neg hraw]
  by_cases hg : b.toNat = asnGssapi
  · rw [if_pos hg, if_pos hg]
    exact .inr (.inl ⟨⟨hseven, hg⟩, rfl, rfl⟩)
  rw [if_neg hg, if_neg hg]
  by_cases hr : b.toNat = ASN1_CONTEXT 0 ∨ b.toNat = ASN1_CONTEXT 1 ∨ b.toNat = ASN1_CONTEXT 2
  · rw [if_pos hr, if_pos hr, unwrapTargAt_eq]
    exact .inr (.inr ⟨⟨hseven, hr⟩, rfl, rfl⟩)
  · rw [if_neg hr, if_neg hr]
    exact .inl ⟨fun h => hg h.2, fun h => hr h.2, rfl, Unwrapped.within_of_none rfl⟩

/-- **The one read that leaves the blob.**  The octet behind the mechanism types is fetched
without a look at `src_count`; every other read, and every loop, is that of the decoder. -/
theorem unwrapBlobAt_eq (blob : Bytes) :
    (EndsWithMechs blob → unwrapBlobAt blob = .error .read)
      ∧ (¬ EndsWithMechs blob → unwrapBlobAt blob = .ok (unwrapBlob blob [])) := by
  rcases unwrapBlob_cases blob with ⟨hg, -, heq, -⟩ | ⟨hg, heq, heq'⟩ | ⟨hr, heq, -⟩
  · exact ⟨fun ⟨d, hend, _⟩ => absurd hend.1 hg, fun _ => heq⟩
  · obtain ⟨hout, hin⟩ := @unwrapGssapiAt_eq blob (by have := hg.1; omega)
    rw [heq, heq']
    constructor
    · rintro ⟨d, hend, hd⟩
      obtain ⟨m, hm⟩ := (mechsEnd_iff hg d).mp hend
      exact hout m d hm hd
    · intro hends
      exact hin fun m d hm hd => hends ⟨d, (mechsEnd_iff hg d).mpr ⟨m, hm⟩, hd⟩
  · exact ⟨fun hends => absurd hends hr.not_endsWithMechs, fun _ => heq⟩

theorem unwrapBlob_within_iff (blob : Bytes) :
    (unwrapBlob blob []).Within blob ↔ ¬ ClaimsTooMuch blob := by
  rw [ClaimsTooMuch, not_or]
  rcases unwrapBlob_cases blob with ⟨hg, hr, -, hin⟩ | ⟨hg, -, heq⟩ | ⟨hr, -, heq⟩
  · exact iff_of_true hin ⟨fun h => hr h.1, fun ⟨d, _, hend, _⟩ => hg hend.1⟩
  · rw [heq, unwrapGssapi_within_iff hg]
    exact (and_iff_right fun h => hg.not_response h.1).symm
  · rw [heq, unwrapTarg_within_iff]
    have hno : ¬ ∃ d r, MechsEnd blob d ∧ d.src.head? = some (UInt8.ofNat (ASN1_CONTEXT 2))
        ∧ initialToken d = some r ∧ Overlong r :=
      fun ⟨d, _, hend, _⟩ => hend.1.not_response hr
    rw [and_iff_left hno, and_iff_right hr]

/-- **What is read and returned lies inside the blob** unless a GSS-API blob ends with its
mechanism types, or a token claims more octets than are left. -/
theorem unwrapping_stays_inside_iff (blob : Bytes) :
    StaysInside blob ↔ ¬ EndsWithMechs blob ∧ ¬ ClaimsTooMuch blob := by
  obtain ⟨hout, hin⟩ := unwrapBlobAt_eq blob
  by_cases hends : EndsWithMechs blob
  · refine iff_of_false ?_ fun h => h.1 hends
    rintro ⟨u, hu, -⟩
    rw [hout hends] at hu
    cases hu
  · rw [and_iff_right hends, ← unwrapBlob_within_iff]
    constructor
    · rintro ⟨u, hu, hwithin⟩
      rw [hin hends] at hu
      cases hu
      exact hwithin
    · exact fun h => ⟨_, hin hends, h⟩

/-- A `NegTokenInit` with two mechanisms and no token. -/
def mechsOnly : Bytes :=
  [0x60, 0x27] ++ oidTlv oidGssMechSpnego ++ [0xA0, 0x1D, 0x30, 0x1B, 0xA0, 0x19, 0x30, 0x17]
    ++ oidTlv oidSpnegoMechNtlmssp ++ oidTlv oidSpnegoMechMsKrb5

/-- A response whose token claims 127 octets, and has eight. -/
def tokenCut : Bytes :=
  [0xA1, 0x0E, 0x30, 0x0C, 0xA2, 0x0A, 0x04, 0x7F] ++ rawMagic

/-- The octet behind the first blob is looked at, and 119 octets behind the second are returned. -/
theorem unwrapping_leaves_the_blob : ¬ StaysInside mechsOnly ∧ ¬ StaysInside tokenCut := by
  have hmechs : unwrapBlobAt mechsOnly = .error .read := by decide
  have htoken : unwrapBlobAt tokenCut = .ok ⟨127, some 8, none⟩ := by decide
  constructor
  · rintro ⟨u, hu, -⟩
    rw [hmechs] at hu
    cases hu
  · rintro ⟨u, hu, hwithin⟩
    rw [htoken] at hu
    cases hu
    exact absurd (hwithin 8 rfl (by decide)) (by decide)

end

end Libsmb2.Spnego
