import Libsmb2.Unicode

/-!
# The passes of the conversions

`unicode.c` with its two passes over each string, the `int`s that they count in, the buffers
that they size and fill, and the pointer into the UTF-8 string.  A pointer is what is left of
the object, its terminator included, so that nothing can be read behind it.  What C leaves open
is a `Misuse`.

The code points are Lean's `Char`, which are the Unicode scalar values, with Lean's own
encoding (`String.utf8EncodeChar`).

* `smb2Utf8ToUtf16_iff` — the conversion to UTF-16 accepts exactly what is well formed and
  yields its encoding, exactly for strings of so many code units as the `int`s can count;
* `smb2Utf16ToUtf8_iff` — the conversion to UTF-8 fills what it allocates with the encoding of
  the units, and reverses the other conversion, exactly for so many octets;
* `long_string_is_not_converted`, `long_units_are_not_converted` — strings that are longer.
-/

set_option autoImplicit false

namespace Libsmb2

open Util

/-! ## The standards -/

/-- The UTF-16 of a code point. -/
def utf16EncodeChar (c : Char) : List Nat :=
  if c.toNat < 0x10000 then [c.toNat]
  else [0xd800 + (c.toNat - 0x10000) / 1024, 0xdc00 + (c.toNat - 0x10000) % 1024]

/-- The UTF-8 of a text. -/
def utf8Encode (cs : List Char) : Bytes := cs.flatMap String.utf8EncodeChar

/-- The UTF-16 of a text. -/
def utf16Encode (cs : List Char) : List Nat := cs.flatMap utf16EncodeChar

/-- The octets are the UTF-8 of a text. -/
def WellFormed (bs : Bytes) : Prop := ∃ cs, bs = utf8Encode cs

def isLead (u : Nat) : Prop := 0xd800 ≤ u ∧ u < 0xdc00

def isTrail (u : Nat) : Prop := 0xdc00 ≤ u ∧ u < 0xe000

instance (u : Nat) : Decidable (isLead u) := inferInstanceAs (Decidable (_ ∧ _))

instance (u : Nat) : Decidable (isTrail u) := inferInstanceAs (Decidable (_ ∧ _))

/-- The text that code units are.  A unit that is ill formed is the replacement character. -/
def utf16Decode : List Nat → List Char
  | [] => []
  | [u] => if isLead u ∨ isTrail u then ['\uFFFD'] else [Char.ofNat u]
  | u :: v :: us =>
    if isLead u ∧ isTrail v then
      Char.ofNat (0x10000 + (u - 0xd800) * 1024 + (v - 0xdc00)) :: utf16Decode us
    else (if isLead u ∨ isTrail u then '\uFFFD' else Char.ofNat u) :: utf16Decode (v :: us)

/-! ## UTF-8 to UTF-16 -/

/-- What C does not define. -/
inductive Misuse
  /-- A read behind the terminator. -/
  | overread
  /-- An `int` overflows. -/
  | overflow
  /-- A write behind the buffer. -/
  | overrun
  /-- A loop that never ends. -/
  | endless
  deriving DecidableEq, Repr

/-- The loop over the octets that follow the first one of a sequence. -/
def followAt : Nat → Nat → Bytes → Except Misuse (Option Nat × Bytes)
  | 0, cp, u => .ok (some cp, u)
  | _ + 1, _, [] => .error .overread
  | k + 1, cp, c :: u =>
    if l1 c.toNat = 1 then followAt k (cp <<< 6 ||| (c.toNat &&& 0x3f)) u else .ok (none, u)

/-- `validate_utf8_cp`: what it stores through `ret`, `none` for -1, and the pointer behind what
it has read. -/
def validateUtf8CpAt : Bytes → Except Misuse (Option (List Nat) × Bytes)
  | [] => .error .overread
  | c :: u =>
    let l := l1 c.toNat
    if l = 0 then .ok (some [c.toNat &&& 0x7f], u)
    else if l = 2 ∨ l = 3 ∨ l = 4 then
      match followAt (l - 1) (c.toNat &&& (0x7f >>> l)) u with
      | .error e => .error e
      | .ok (none, u) => .ok (none, u)
      | .ok (some cp, u) => if overlong l cp then .ok (none, u) else .ok (codeUnits cp, u)
    else .ok (none, u)

/-- The loop of `validate_utf8_str`; `none` is -1. -/
def validateUtf8Loop : Nat → Nat → Bytes → Except Misuse (Option Nat)
  | _, _, [] => .error .overread
  | 0, i, c :: _ => if c = 0 then .ok (some i) else .error .endless
  | fuel + 1, i, c :: u =>
    if c = 0 then .ok (some i)
    else match validateUtf8CpAt (c :: u) with
      | .error e => .error e
      | .ok (none, _) => .ok none
      | .ok (some us, u) =>
        if 2 ^ 31 ≤ i + us.length then .error .overflow
        else validateUtf8Loop fuel (i + us.length) u

/-- `validate_utf8_str`. -/
def validateUtf8Str (utf8 : Bytes) : Except Misuse (Option Nat) :=
  validateUtf8Loop utf8.length 0 utf8

/-- `struct smb2_utf16`: the length, and the octets of `val`. -/
structure Utf16 where
  len : Nat
  val : Bytes
  deriving DecidableEq, Repr

/-- The loop of `smb2_utf8_to_utf16`, which fills a buffer for `len` code units. -/
def fillUtf16 (len : Nat) : Nat → Nat → Bytes → Bytes → Except Misuse Bytes
  | 0, i, _, val => if i < len then .error .endless else .ok val
  | fuel + 1, i, u, val =>
    if i < len then
      match validateUtf8CpAt u with
      | .error e => .error e
      | .ok (none, u) => fillUtf16 len fuel i u val
      | .ok (some us, u) =>
        if len < i + us.length then .error .overrun
        else fillUtf16 len fuel (i + us.length) u (val ++ utf16Octets us)
    else .ok val

/-- `smb2_utf8_to_utf16`.  `memory` says whether `malloc` succeeds. -/
def smb2Utf8ToUtf16 (memory : Bool) (utf8 : Bytes) : Except Misuse (Option Utf16) :=
  match validateUtf8Str utf8 with
  | .error e => .error e
  | .ok none => .ok none
  | .ok (some len) =>
    -- `2 * len` is a product of `int`s
    if 2 ^ 31 ≤ 2 * len then .error .overflow
    else if memory then (fillUtf16 len utf8.length 0 utf8 []).map fun val => some ⟨len, val⟩
    else .ok none

/-! ## UTF-16 to UTF-8 -/

/-- An addition to `length`, and the loop from there on. -/
def utf16Step (length k : Nat) (next : Nat → Except Misuse Nat) : Except Misuse Nat :=
  if 2 ^ 31 ≤ length + k then .error .overflow else next (length + k)

/-- The loop of `utf16_size`. -/
def utf16SizeFrom : List Nat → Nat → Except Misuse Nat
  | [], length => .ok length
  | code :: us, length =>
    if code < 0x80 then utf16Step length 1 (utf16SizeFrom us)
    else if code < 0x800 then utf16Step length 2 (utf16SizeFrom us)
    else if code < 0xd800 ∨ (0xe000 ≤ code ∧ code < 0x10000) then
      utf16Step length 3 (utf16SizeFrom us)
    else if code < 0xdc00 then
      match us with
      | [] => utf16Step length 3 .ok
      | trail :: us' =>
        if 0xdc00 ≤ trail ∧ trail < 0xe000 then
          let cp := 0x10000 + (code &&& 0x3ff) <<< 10 + (trail &&& 0x3ff)
          utf16Step length (if cp < 0x10000 then 3 else 4) (utf16SizeFrom us')
        else utf16Step length 3 (utf16SizeFrom (trail :: us'))
    else utf16Step length 3 (utf16SizeFrom us)

/-- `utf16_size`. -/
def utf16Size (us : List Nat) : Except Misuse Nat := utf16SizeFrom us 0

/-- `smb2_utf16_to_utf8`: the buffer that is returned, of which `fresh` is what it holds
before. -/
def smb2Utf16ToUtf8 (memory : Bool) (fresh : Nat → UInt8) (us : List Nat) :
    Except Misuse (Option Bytes) :=
  match utf16Size us with
  | .error e => .error e
  | .ok size =>
    if 2 ^ 31 ≤ 1 + size then .error .overflow
    else if memory then
      -- the terminator is stored before the loop writes
      let str := patch ((List.range (1 + size)).map fresh) size [0]
      let written := utf16ToUtf8 us
      if 1 + size < written.length then .error .overrun else .ok (some (patch str 0 written))
    else .ok none

/-! ## Code points -/

theorem utf8EncodeChar_eq (c : Char) : String.utf8EncodeChar c = utf8Octets c.toNat := by
  have hmax : c.toNat < 0x110000 := by
    have h := c.valid
    unfold UInt32.isValidChar Nat.isValidChar at h
    show c.val.toNat < 0x110000
    omega
  have hd : c.toNat >>> 6 = c.toNat / 64 := Nat.shiftRight_eq_div_pow _ 6
  have hd' : c.toNat >>> 12 = c.toNat / 4096 := Nat.shiftRight_eq_div_pow _ 12
  have hd'' : c.toNat >>> 18 = c.toNat / 262144 := Nat.shiftRight_eq_div_pow _ 18
  have hcode : c.val.toNat = c.toNat := rfl
  have hlow : c.toNat % 0x40 + 0x80 = 128 + c.toNat % 64 := Nat.add_comm _ _
  have hmid : c.toNat / 64 % 0x40 + 0x80 = 128 + c.toNat / 64 % 64 := Nat.add_comm _ _
  have hhigh : c.toNat / 4096 % 0x40 + 0x80 = 128 + c.toNat / 4096 % 64 := Nat.add_comm _ _
  unfold String.utf8EncodeChar utf8Octets
  simp only [hcode, hlow, hmid, hhigh]
  by_cases h1 : c.toNat < 0x80
  · rw [if_pos (by omega), if_pos h1]
  · rw [if_neg (by omega), if_neg h1]
    by_cases h2 : c.toNat < 0x800
    · have hlead : c.toNat / 64 % 0x20 + 0xc0 = 192 + c.toNat / 64 := by omega
      rw [if_pos (by omega), if_pos h2, twoOctets, hd, or_c0 (by omega), and_3f, or_80 (by omega),
        hlead]
    · rw [if_neg (by omega), if_neg h2]
      by_cases h3 : c.toNat < 0x10000
      · have hlead : c.toNat / 4096 % 0x10 + 0xe0 = 224 + c.toNat / 4096 := by omega
        rw [if_pos (by omega), if_pos h3, threeOctets, hd, hd', or_e0 (by omega), and_3f, and_3f,
          or_80 (by omega), or_80 (by omega), hlead]
      · have hlead : c.toNat / 262144 % 0x08 + 0xf0 = 240 + c.toNat / 262144 := by omega
        rw [if_neg (by omega), if_neg h3, fourOctets, hd, hd', hd'', or_f0 (by omega), and_3f,
          and_3f, and_3f, or_80 (by omega), or_80 (by omega), or_80 (by omega), hlead]

theorem charToNat_scalar (c : Char) :
    c.toNat < 0xd800 ∨ (0xe000 ≤ c.toNat ∧ c.toNat < 0x110000) := by
  have h := c.valid
  unfold UInt32.isValidChar Nat.isValidChar at h
  have hcode : c.toNat = c.val.toNat := rfl
  omega

theorem codeUnits_char (c : Char) : codeUnits c.toNat = some (utf16EncodeChar c) := by
  have hscalar := charToNat_scalar c
  unfold codeUnits utf16EncodeChar
  by_cases hone : c.toNat < 0x10000
  · rw [if_pos (by omega), if_pos hone]
  · have hd : (c.toNat - 0x10000) >>> 10 = (c.toNat - 0x10000) / 1024 :=
      Nat.shiftRight_eq_div_pow _ 10
    rw [if_neg (by omega), if_neg (by omega), if_pos (by omega), if_neg hone, hd,
      or_d800 (by omega), and_3ff, or_dc00 (by omega)]

/-- A scalar value is a character. -/
theorem toNat_charOfNat {cp : Nat} (h : cp < 0xd800 ∨ (0xe000 ≤ cp ∧ cp < 0x110000)) :
    (Char.ofNat cp).toNat = cp := by
  have hvalid : cp.isValidChar := by
    unfold Nat.isValidChar
    omega
  unfold Char.ofNat
  rw [dif_pos hvalid]
  rfl

theorem codeUnits_isChar {cp : Nat} {us : List Nat} (h : codeUnits cp = some us) :
    ∃ c : Char, c.toNat = cp ∧ us = utf16EncodeChar c := by
  have hscalar : cp < 0xd800 ∨ (0xe000 ≤ cp ∧ cp < 0x110000) := by
    rcases codeUnits_scalar h with ⟨_, hone⟩ | ⟨hlo, hhi, _⟩
    · omega
    · omega
  have hcp := toNat_charOfNat hscalar
  refine ⟨Char.ofNat cp, hcp, ?_⟩
  have hchar := codeUnits_char (Char.ofNat cp)
  rw [hcp, h] at hchar
  exact Option.some.inj hchar

/-- To transcode is to encode one text in both ways. -/
theorem transcodes_iff {bs : Bytes} {us : List Nat} :
    Transcodes bs us ↔ ∃ cs, bs = utf8Encode cs ∧ us = utf16Encode cs := by
  constructor
  · intro h
    induction h with
    | nil => exact ⟨[], rfl, rfl⟩
    | cons hunits _ ih =>
      obtain ⟨cs, rfl, rfl⟩ := ih
      obtain ⟨c, rfl, rfl⟩ := codeUnits_isChar hunits
      refine ⟨c :: cs, ?_, rfl⟩
      rw [← utf8EncodeChar_eq]
      rfl
  · rintro ⟨cs, rfl, rfl⟩
    induction cs with
    | nil => exact .nil
    | cons c cs ih =>
      show Transcodes (String.utf8EncodeChar c ++ utf8Encode cs) (utf16EncodeChar c ++ utf16Encode cs)
      rw [utf8EncodeChar_eq]
      exact .cons (codeUnits_char c) ih

/-! ## The first pass over UTF-8 -/

/-- At the terminator the loop of `validate_utf8_cp` stops. -/
theorem followAt_terminated (k cp : Nat) (bs : Bytes) :
    match continuation k cp bs with
    | some (cp', rest) => followAt k cp (bs ++ [0]) = .ok (some cp', rest ++ [0])
    | none => ∃ u, followAt k cp (bs ++ [0]) = .ok (none, u) := by
  induction k generalizing cp bs with
  | zero => rfl
  | succ k ih =>
    cases bs with
    | nil =>
      have hl : l1 (0 : UInt8).toNat ≠ 1 := by decide
      exact ⟨[], if_neg hl⟩
    | cons c bs =>
      by_cases hl : l1 c.toNat = 1
      · have hcont : continuation (k + 1) cp (c :: bs) =
            continuation k (cp <<< 6 ||| (c.toNat &&& 0x3f)) bs := if_pos hl
        have hfollow : followAt (k + 1) cp (c :: bs ++ [0]) =
            followAt k (cp <<< 6 ||| (c.toNat &&& 0x3f)) (bs ++ [0]) := if_pos hl
        rw [hcont, hfollow]
        exact ih _ bs
      · have hcont : continuation (k + 1) cp (c :: bs) = none := if_neg hl
        rw [hcont]
        exact ⟨bs ++ [0], by rw [List.cons_append, followAt, if_neg hl]⟩

/-- `validate_utf8_cp` reads no further than the terminator. -/
theorem validateUtf8CpAt_terminated {bs : Bytes} (h : bs ≠ []) :
    match validateUtf8Cp bs with
    | some (us, rest) => validateUtf8CpAt (bs ++ [0]) = .ok (some us, rest ++ [0])
    | none => ∃ u, validateUtf8CpAt (bs ++ [0]) = .ok (none, u) := by
  cases bs with
  | nil => exact absurd rfl h
  | cons c bs =>
    have hfollow := followAt_terminated (l1 c.toNat - 1) (c.toNat &&& (0x7f >>> l1 c.toNat)) bs
    rw [List.cons_append]
    simp only [validateUtf8Cp, validateUtf8CpAt]
    by_cases h0 : l1 c.toNat = 0
    · simp only [if_pos h0]
    · simp only [if_neg h0]
      by_cases hl : l1 c.toNat = 2 ∨ l1 c.toNat = 3 ∨ l1 c.toNat = 4
      · simp only [if_pos hl]
        cases hc : continuation (l1 c.toNat - 1) (c.toNat &&& (0x7f >>> l1 c.toNat)) bs with
        | none =>
          rw [hc] at hfollow
          obtain ⟨u, hu⟩ := hfollow
          exact ⟨u, by rw [hu]⟩
        | some x =>
          obtain ⟨cp, rest⟩ := x
          rw [hc] at hfollow
          have hfollow : followAt _ _ (bs ++ [0]) = .ok (some cp, rest ++ [0]) := hfollow
          rw [hfollow]
          simp only
          by_cases ho : overlong (l1 c.toNat) cp = true
          · simp only [if_pos ho]
            exact ⟨rest ++ [0], rfl⟩
          · simp only [if_neg ho]
            cases codeUnits cp with
            | none => exact ⟨rest ++ [0], rfl⟩
            | some us => rfl
      · simp only [if_neg hl]
        exact ⟨bs ++ [0], rfl⟩

/-- More fuel than octets does not matter. -/
theorem utf8Units_fuel {fuel : Nat} {bs : Bytes} (h : bs.length ≤ fuel) :
    utf8Units fuel bs = utf8ToUtf16 bs := by
  cases hu : utf8ToUtf16 bs with
  | some us => exact (utf8ToUtf16_eq_some.mp hu).units h
  | none =>
    cases hf : utf8Units fuel bs with
    | none => rfl
    | some us =>
      rw [utf8ToUtf16_eq_some.mpr (utf8Units_transcodes hf)] at hu
      cases hu

/-- The first sequence of a string, and the others. -/
theorem utf8ToUtf16_cons {bs rest : Bytes} {us : List Nat} (h : validateUtf8Cp bs = some (us, rest)) :
    utf8ToUtf16 bs = (utf8ToUtf16 rest).map (us ++ ·) ∧ rest.length < bs.length := by
  obtain ⟨cp, _, hsplit⟩ := validateUtf8Cp_cases h
  have hlt : rest.length < bs.length := by
    have hpos := utf8Octets_ne_nil cp
    rw [hsplit, List.length_append]
    omega
  refine ⟨?_, hlt⟩
  cases bs with
  | nil => cases h
  | cons c bs =>
    have hle : rest.length ≤ bs.length := by
      rw [List.length_cons] at hlt
      omega
    show utf8Units (bs.length + 1) (c :: bs) = _
    rw [utf8Units, h]
    simp only [utf8Units_fuel hle]

theorem utf8ToUtf16_bad {bs : Bytes} (h0 : bs ≠ []) (h : validateUtf8Cp bs = none) :
    utf8ToUtf16 bs = none := by
  cases bs with
  | nil => exact absurd rfl h0
  | cons c bs =>
    show utf8Units (bs.length + 1) (c :: bs) = none
    rw [utf8Units, h]

section
variable {bs rest : Bytes} {us : List Nat}

theorem validateUtf8Loop_end (fuel i : Nat) : validateUtf8Loop fuel i [0] = .ok (some i) := by
  cases fuel with
  | zero => exact if_pos rfl
  | succ fuel => exact if_pos rfl

/-- One turn of the loop of `validate_utf8_str`. -/
theorem validateUtf8Loop_cons (hnul : 0 ∉ bs) (h0 : bs ≠ []) (fuel i : Nat) :
    validateUtf8Loop (fuel + 1) i (bs ++ [0]) =
      match validateUtf8Cp bs with
      | none => .ok none
      | some (us, rest) =>
        if 2 ^ 31 ≤ i + us.length then .error .overflow
        else validateUtf8Loop fuel (i + us.length) (rest ++ [0]) := by
  have hat := validateUtf8CpAt_terminated h0
  cases bs with
  | nil => exact absurd rfl h0
  | cons c bs =>
    have hc : c ≠ 0 := fun he => hnul (by simp [he])
    rw [List.cons_append, validateUtf8Loop, if_neg hc]
    cases hcp : validateUtf8Cp (c :: bs) with
    | none =>
      rw [hcp] at hat
      obtain ⟨u, hu⟩ := hat
      rw [List.cons_append] at hu
      rw [hu]
    | some x =>
      obtain ⟨us, rest⟩ := x
      rw [hcp] at hat
      have hu : validateUtf8CpAt (c :: (bs ++ [0])) = .ok (some us, rest ++ [0]) := hat
      rw [hu]

/-- A string in which every well-formed prefix can be counted is counted. -/
theorem validateUtf8Loop_counts {fuel i : Nat} (hnul : 0 ∉ bs) (hfuel : bs.length ≤ fuel)
    (hcount : ∀ as us, Transcodes as us → as <+: bs → i + us.length < 2 ^ 31) :
    validateUtf8Loop fuel i (bs ++ [0]) =
      .ok ((utf8ToUtf16 bs).map fun us => i + us.length) := by
  induction fuel generalizing bs i with
  | zero =>
    have hnil : bs = [] := List.eq_nil_of_length_eq_zero (by omega)
    subst hnil
    exact validateUtf8Loop_end 0 i
  | succ fuel ih =>
    by_cases h0 : bs = []
    · subst h0
      exact validateUtf8Loop_end _ i
    · rw [validateUtf8Loop_cons hnul h0]
      cases hcp : validateUtf8Cp bs with
      | none =>
        rw [utf8ToUtf16_bad h0 hcp]
        rfl
      | some x =>
        obtain ⟨us, rest⟩ := x
        obtain ⟨hunits, hlt⟩ := utf8ToUtf16_cons hcp
        obtain ⟨cp, hcode, hsplit⟩ := validateUtf8Cp_cases hcp
        have hgrow : ∀ as vs, Transcodes as vs → as <+: rest → i + us.length + vs.length < 2 ^ 31 := by
          intro as vs has hpre
          have hlong := hcount _ _ (.cons hcode has) (by
            rw [hsplit]
            exact (List.prefix_append_right_inj _).mpr hpre)
          rw [List.length_append] at hlong
          omega
        have hone := hgrow [] [] .nil List.nil_prefix
        have hnul' : 0 ∉ rest := fun hmem => hnul (by rw [hsplit]; simp [hmem])
        simp only
        rw [if_neg (by rw [List.length_nil] at hone; omega), ih hnul' (by omega) hgrow, hunits,
          Option.map_map]
        congr 2
        funext vs
        simp only [Function.comp, List.length_append]
        omega

/-- A well-formed prefix of too many code units overflows the counter. -/
theorem validateUtf8Loop_overflows {as : Bytes} {fuel i : Nat} (hnul : 0 ∉ bs)
    (hfuel : bs.length ≤ fuel) (has : Transcodes as us) (hpre : as <+: bs)
    (hi : i < 2 ^ 31) (hlong : 2 ^ 31 ≤ i + us.length) :
    validateUtf8Loop fuel i (bs ++ [0]) = .error .overflow := by
  induction has generalizing bs fuel i with
  | nil =>
    rw [List.length_nil] at hlong
    omega
  | @cons cp us vs as hcode _ ih =>
    obtain ⟨rest, rfl⟩ := hpre
    have hpos := utf8Octets_ne_nil cp
    simp only [List.length_append] at hfuel
    obtain ⟨fuel, rfl⟩ : ∃ n, fuel = n + 1 := ⟨fuel - 1, by omega⟩
    have h0 : utf8Octets cp ++ as ++ rest ≠ [] := by
      intro he
      have hlen := congrArg List.length he
      simp only [List.length_append, List.length_nil] at hlen
      omega
    have hcp := validateUtf8Cp_utf8Octets hcode (as ++ rest)
    rw [← List.append_assoc] at hcp
    rw [validateUtf8Loop_cons hnul h0, hcp]
    simp only
    split
    · rfl
    · rw [List.length_append] at hlong
      refine ih (fun hmem => hnul ?_) ?_ (List.prefix_append as rest) (by omega) (by omega)
      · rw [List.append_assoc]
        exact List.mem_append_right _ hmem
      · rw [List.length_append]
        omega

/-- The second pass fills the buffer that the first one has counted. -/
theorem fillUtf16_transcodes {len fuel i : Nat} {val : Bytes} (h : Transcodes bs us)
    (hfuel : bs.length ≤ fuel) (hlen : i + us.length = len) :
    fillUtf16 len fuel i (bs ++ [0]) val = .ok (val ++ utf16Octets us) := by
  induction h generalizing fuel i val with
  | nil =>
    have hstop : ¬ i < len := by
      rw [List.length_nil] at hlen
      omega
    have hval : val ++ utf16Octets [] = val := List.append_nil val
    rw [hval]
    cases fuel with
    | zero => exact if_neg hstop
    | succ fuel => exact if_neg hstop
  | @cons cp us vs as hcode hrest ih =>
    have hpos := utf8Octets_ne_nil cp
    have hunits : 0 < us.length := by
      rcases codeUnits_scalar hcode with ⟨rfl, _⟩ | ⟨_, _, rfl⟩
      · exact Nat.one_pos
      · exact Nat.two_pos
    simp only [List.length_append] at hfuel hlen
    obtain ⟨fuel, rfl⟩ : ∃ n, fuel = n + 1 := ⟨fuel - 1, by omega⟩
    have h0 : utf8Octets cp ++ as ≠ [] := by
      intro he
      have hnone := congrArg List.length he
      simp only [List.length_append, List.length_nil] at hnone
      omega
    have hat := validateUtf8CpAt_terminated h0
    rw [validateUtf8Cp_utf8Octets hcode as] at hat
    have hat : validateUtf8CpAt (utf8Octets cp ++ as ++ [0]) = .ok (some us, as ++ [0]) := hat
    have hoctets : val ++ utf16Octets (us ++ vs) = val ++ utf16Octets us ++ utf16Octets vs := by
      simp [utf16Octets]
    rw [fillUtf16, if_pos (by omega), hat, hoctets]
    simp only
    rw [if_neg (by omega)]
    exact ih (by omega) (by omega)

end

/-! ## The conversion to UTF-16 -/

/-- What the conversion has to do: nothing that C leaves open; a result only for well-formed
strings, and for those if there is memory; and then the encoding, of as many units as the first
pass counts. -/
def Converts (s : CString) : Prop :=
  ∀ memory, ∃ r, smb2Utf8ToUtf16 memory (s.octets ++ [0]) = .ok r ∧
    match r with
    | none => memory = true → ¬ WellFormed s.octets
    | some u => ∃ cs, s.octets = utf8Encode cs ∧ u.val = utf16Octets (utf16Encode cs) ∧
        u.len = (utf16Encode cs).length ∧ validateUtf8Str (s.octets ++ [0]) = .ok (some u.len)

/-- An `int` can count the code units of each well-formed prefix, and the octets of them all. -/
def Countable (s : CString) : Prop :=
  (∀ cs, utf8Encode cs <+: s.octets → (utf16Encode cs).length < 2 ^ 31) ∧
    ∀ cs, s.octets = utf8Encode cs → (utf16Encode cs).length < 2 ^ 30

theorem smb2Utf8ToUtf16_countable (s : CString) (memory : Bool)
    (h : ∀ cs, utf8Encode cs <+: s.octets → (utf16Encode cs).length < 2 ^ 31) :
    smb2Utf8ToUtf16 memory (s.octets ++ [0]) =
      match utf8ToUtf16 s.octets with
      | none => .ok none
      | some us =>
        if 2 ^ 31 ≤ 2 * us.length then .error .overflow
        else .ok (if memory then some ⟨us.length, utf16Octets us⟩ else none) := by
  have hfuel : s.octets.length ≤ (s.octets ++ [0]).length := by simp
  have hcount := validateUtf8Loop_counts s.terminated hfuel (i := 0) (fun as us has hpre => by
    obtain ⟨cs, rfl, rfl⟩ := transcodes_iff.mp has
    rw [Nat.zero_add]
    exact h cs hpre)
  unfold smb2Utf8ToUtf16 validateUtf8Str
  rw [hcount]
  cases hu : utf8ToUtf16 s.octets with
  | none => rfl
  | some us =>
    simp only [Option.map_some, Nat.zero_add]
    split
    · rfl
    · cases memory with
      | false => rfl
      | true =>
        rw [if_pos rfl, if_pos rfl,
          fillUtf16_transcodes (utf8ToUtf16_eq_some.mp hu) hfuel (Nat.zero_add _)]
        rfl

theorem wellFormed_iff {bs : Bytes} : WellFormed bs ↔ ∃ us, utf8ToUtf16 bs = some us := by
  constructor
  · rintro ⟨cs, rfl⟩
    exact ⟨_, utf8ToUtf16_eq_some.mpr (transcodes_iff.mpr ⟨cs, rfl, rfl⟩)⟩
  · rintro ⟨us, hus⟩
    obtain ⟨cs, hcs, _⟩ := transcodes_iff.mp (utf8ToUtf16_eq_some.mp hus)
    exact ⟨cs, hcs⟩

theorem smb2Utf8ToUtf16_overflows {s : CString} {cs : List Char} (hpre : utf8Encode cs <+: s.octets)
    (hlong : 2 ^ 31 ≤ (utf16Encode cs).length) (memory : Bool) :
    smb2Utf8ToUtf16 memory (s.octets ++ [0]) = .error .overflow := by
  have hfuel : s.octets.length ≤ (s.octets ++ [0]).length := by simp
  unfold smb2Utf8ToUtf16 validateUtf8Str
  rw [validateUtf8Loop_overflows s.terminated hfuel (transcodes_iff.mpr ⟨cs, rfl, rfl⟩) hpre
    (by decide) (by omega)]

/-- **The conversion accepts exactly the well-formed strings, stays in its buffers and yields
their UTF-16, exactly for the strings whose code units it can count.** -/
theorem smb2Utf8ToUtf16_iff (s : CString) : Converts s ↔ Countable s := by
  constructor
  · intro h
    obtain ⟨r, hr, _⟩ := h true
    have hpre : ∀ cs, utf8Encode cs <+: s.octets → (utf16Encode cs).length < 2 ^ 31 := by
      intro cs hcs
      by_contra hlong
      rw [smb2Utf8ToUtf16_overflows hcs (by omega)] at hr
      cases hr
    refine ⟨hpre, ?_⟩
    intro cs hcs
    by_contra hlong
    have hunits : utf8ToUtf16 s.octets = some (utf16Encode cs) :=
      utf8ToUtf16_eq_some.mpr (transcodes_iff.mpr ⟨cs, hcs, rfl⟩)
    rw [smb2Utf8ToUtf16_countable s true hpre, hunits] at hr
    simp only at hr
    rw [if_pos (by omega)] at hr
    cases hr
  · rintro ⟨hpre, hall⟩ memory
    have hcall := smb2Utf8ToUtf16_countable s memory hpre
    cases hu : utf8ToUtf16 s.octets with
    | none =>
      rw [hu] at hcall
      refine ⟨none, hcall, fun _ hw => ?_⟩
      obtain ⟨us, hus⟩ := wellFormed_iff.mp hw
      rw [hu] at hus
      cases hus
    | some us =>
      obtain ⟨cs, hcs, rfl⟩ := transcodes_iff.mp (utf8ToUtf16_eq_some.mp hu)
      have hlen := hall cs hcs
      rw [hu] at hcall
      simp only at hcall
      rw [if_neg (by omega)] at hcall
      refine ⟨_, hcall, ?_⟩
      cases memory with
      | false => exact fun h => by cases h
      | true =>
        have hfuel : s.octets.length ≤ (s.octets ++ [0]).length := by simp
        have hcount := validateUtf8Loop_counts s.terminated hfuel (i := 0) (fun as vs has has' => by
          obtain ⟨ds, rfl, rfl⟩ := transcodes_iff.mp has
          rw [Nat.zero_add]
          exact hpre ds has')
        refine ⟨cs, hcs, rfl, rfl, ?_⟩
        rw [validateUtf8Str, hcount, hu]
        simp

/-- A string of one letter. -/
def letters (n : Nat) : CString where
  octets := List.replicate n 97
  terminated h := absurd (List.eq_of_mem_replicate h) (by decide)

theorem letters_octets (n : Nat) : (letters n).octets = utf8Encode (List.replicate n 'a') := by
  induction n with
  | zero => rfl
  | succ n ih =>
    show 97 :: (letters n).octets = String.utf8EncodeChar 'a' ++ utf8Encode (List.replicate n 'a')
    rw [ih]
    rfl

theorem letters_units (n : Nat) : (utf16Encode (List.replicate n 'a')).length = n := by
  induction n with
  | zero => rfl
  | succ n ih =>
    show (utf16EncodeChar 'a' ++ utf16Encode (List.replicate n 'a')).length = n + 1
    rw [List.length_append, ih]
    exact Nat.add_comm 1 n

/-- The size of the buffer for 2^30 letters overflows. -/
theorem long_string_is_not_converted : ¬ Converts (letters (2 ^ 30)) := by
  intro h
  obtain ⟨r, hr, _⟩ := h true
  have hunits : utf8ToUtf16 (letters (2 ^ 30)).octets =
      some (utf16Encode (List.replicate (2 ^ 30) 'a')) :=
    utf8ToUtf16_eq_some.mpr (transcodes_iff.mpr ⟨_, letters_octets _, rfl⟩)
  have hshort : ∀ cs, utf8Encode cs <+: (letters (2 ^ 30)).octets →
      (utf16Encode cs).length < 2 ^ 31 := by
    intro cs hpre
    have hle := (transcodes_iff.mpr ⟨cs, rfl, rfl⟩).length.1
    have hlen := hpre.length_le
    have hall : (letters (2 ^ 30)).octets.length = 2 ^ 30 := List.length_replicate
    omega
  rw [smb2Utf8ToUtf16_countable _ true hshort, hunits] at hr
  simp only [letters_units] at hr
  rw [if_pos (by omega)] at hr
  cases hr

/-! ## The conversion to UTF-8 -/

/-- A unit, with what stands behind it, by how it is decoded. -/
theorem utf16Decode_cons (u : Nat) (us : List Nat) :
    (∃ v vs, us = v :: vs ∧ isLead u ∧ isTrail v ∧
      utf16Decode (u :: us) =
        Char.ofNat (0x10000 + (u - 0xd800) * 1024 + (v - 0xdc00)) :: utf16Decode vs) ∨
      ((∀ v vs, us = v :: vs → ¬ (isLead u ∧ isTrail v)) ∧ utf16Decode (u :: us) =
        (if isLead u ∨ isTrail u then '\uFFFD' else Char.ofNat u) :: utf16Decode us) := by
  cases us with
  | nil =>
    refine Or.inr ⟨fun v vs h => (nomatch h), ?_⟩
    show (if isLead u ∨ isTrail u then ['\uFFFD'] else [Char.ofNat u]) = _
    split <;> rfl
  | cons v vs =>
    rw [utf16Decode]
    by_cases hpair : isLead u ∧ isTrail v
    · rw [if_pos hpair]
      exact Or.inl ⟨v, vs, rfl, hpair.1, hpair.2, rfl⟩
    · rw [if_neg hpair]
      refine Or.inr ⟨?_, rfl⟩
      intro v' vs' h
      cases h
      exact hpair

theorem utf8Encode_cons (c : Char) (cs : List Char) :
    utf8Encode (c :: cs) = utf8Octets c.toNat ++ utf8Encode cs := by
  show String.utf8EncodeChar c ++ utf8Encode cs = _
  rw [utf8EncodeChar_eq]

/-- A unit that is neither part of a pair nor a character is replaced. -/
theorem utf16ToUtf8_ill {u : Nat} {us : List Nat}
    (hu : ¬ (u < 0xd800 ∨ (0xe000 ≤ u ∧ u < 0x10000)))
    (hno : ∀ v vs, us = v :: vs → ¬ (isLead u ∧ isTrail v)) :
    utf16ToUtf8 (u :: us) = replacementChar ++ utf16ToUtf8 us := by
  rw [utf16ToUtf8.eq_def]
  simp only
  rw [if_neg (by omega), if_neg (by omega), if_neg hu]
  by_cases hlead : u < 0xdc00
  · rw [if_pos hlead]
    cases us with
    | nil => simp [utf16ToUtf8]
    | cons v vs =>
      have htrail : ¬ (0xdc00 ≤ v ∧ v < 0xe000) := fun hv => hno v vs rfl ⟨⟨by omega, hlead⟩, hv⟩
      simp only
      rw [if_neg htrail]
  · rw [if_neg hlead]

/-- **The loop of `smb2_utf16_to_utf8` writes the text that the units are.** -/
theorem utf16ToUtf8_eq {us : List Nat} (h : ∀ u ∈ us, u < 65536) :
    utf16ToUtf8 us = utf8Encode (utf16Decode us) := by
  induction hn : us.length using Nat.strong_induction_on generalizing us with
  | _ n ih =>
    cases us with
    | nil => rfl
    | cons u us =>
      have hu := h u (by simp)
      rw [List.length_cons] at hn
      rcases utf16Decode_cons u us with ⟨v, vs, rfl, hlead, htrail, hdec⟩ | ⟨hno, hdec⟩
      · have hrest := ih vs.length (by rw [List.length_cons] at hn; omega)
          (fun x hx => h x (by simp [hx])) rfl
        unfold isLead at hlead
        unfold isTrail at htrail
        have hcp : 0x10000 + (u &&& 0x3ff) <<< 10 + (v &&& 0x3ff) =
            0x10000 + (u - 0xd800) * 1024 + (v - 0xdc00) := by
          rw [and_3ff, and_3ff, Nat.shiftLeft_eq]
          omega
        have hfour : utf8Octets (0x10000 + (u - 0xd800) * 1024 + (v - 0xdc00)) =
            fourOctets (0x10000 + (u - 0xd800) * 1024 + (v - 0xdc00)) := by
          rw [utf8Octets, if_neg (by omega), if_neg (by omega), if_neg (by omega)]
        rw [hdec, utf8Encode_cons, toNat_charOfNat (by omega), utf16ToUtf8_pair vs hlead htrail,
          hcp, hrest, hfour]
      · have hrest := ih us.length (by omega) (fun x hx => h x (by simp [hx])) rfl
        rw [hdec, utf8Encode_cons, ← hrest]
        by_cases hill : isLead u ∨ isTrail u
        · have hfffd : utf8Octets ('\uFFFD' : Char).toNat = replacementChar := by decide
          have hplane : ¬ (u < 0xd800 ∨ (0xe000 ≤ u ∧ u < 0x10000)) := by
            unfold isLead isTrail at hill
            omega
          rw [if_pos hill, hfffd, utf16ToUtf8_ill hplane hno]
        · have hplane : u < 0xd800 ∨ (0xe000 ≤ u ∧ u < 0x10000) := by
            unfold isLead isTrail at hill
            omega
          rw [if_neg hill, toNat_charOfNat (by omega), utf16ToUtf8_plane us hplane, utf8Octets]
          congr 1
          rw [if_pos (by omega : u < 0x10000)]

/-- What is written for some units, as a sum that may overflow. -/
def SizeSpec (us : List Nat) (next : Nat → Except Misuse Nat) : Prop :=
  ∀ length, length < 2 ^ 31 → next length =
    if 2 ^ 31 ≤ length + (utf16ToUtf8 us).length then .error .overflow
    else .ok (length + (utf16ToUtf8 us).length)

theorem SizeSpec.step {us rest : List Nat} {next : Nat → Except Misuse Nat} {k : Nat}
    (h : SizeSpec rest next) (hlen : (utf16ToUtf8 us).length = k + (utf16ToUtf8 rest).length) :
    SizeSpec us fun length => utf16Step length k next := by
  intro length hlt
  show utf16Step length k next = _
  unfold utf16Step
  rw [hlen, ← Nat.add_assoc]
  by_cases hover : 2 ^ 31 ≤ length + k
  · rw [if_pos hover, if_pos (by omega)]
  · rw [if_neg hover, h (length + k) (by omega)]

theorem SizeSpec.nil : SizeSpec [] .ok := by
  intro length hlt
  show Except.ok length = _
  rw [if_neg (by simpa [utf16ToUtf8] using hlt)]
  simp [utf16ToUtf8]

theorem utf16SizeFrom_plane {u : Nat} (us : List Nat)
    (h : u < 0xd800 ∨ (0xe000 ≤ u ∧ u < 0x10000)) (length : Nat) :
    utf16SizeFrom (u :: us) length =
      utf16Step length (if u < 0x80 then 1 else if u < 0x800 then 2 else 3) (utf16SizeFrom us) := by
  rw [utf16SizeFrom.eq_def]
  by_cases h1 : u < 0x80
  · simp only [if_pos h1]
  · by_cases h2 : u < 0x800
    · simp only [if_neg h1, if_pos h2]
    · simp only [if_neg h1, if_neg h2, if_pos h]

theorem utf16SizeFrom_pair {u v : Nat} (us : List Nat) (hu : isLead u) (hv : isTrail v)
    (length : Nat) :
    utf16SizeFrom (u :: v :: us) length = utf16Step length 4 (utf16SizeFrom us) := by
  unfold isLead at hu
  unfold isTrail at hv
  have hone : ¬ (u < 0xd800 ∨ (0xe000 ≤ u ∧ u < 0x10000)) := by omega
  rw [utf16SizeFrom.eq_def]
  simp only
  rw [if_neg (by omega), if_neg (by omega), if_neg hone, if_pos hu.2, if_pos hv,
    if_neg (by omega)]

theorem utf16SizeFrom_ill {u : Nat} {us : List Nat}
    (hu : ¬ (u < 0xd800 ∨ (0xe000 ≤ u ∧ u < 0x10000)))
    (hno : ∀ v vs, us = v :: vs → ¬ (isLead u ∧ isTrail v)) (length : Nat) :
    utf16SizeFrom (u :: us) length = utf16Step length 3 (utf16SizeFrom us) := by
  rw [utf16SizeFrom.eq_def]
  simp only
  rw [if_neg (by omega), if_neg (by omega), if_neg hu]
  by_cases hlead : u < 0xdc00
  · rw [if_pos hlead]
    cases us with
    | nil => rfl
    | cons v vs =>
      have htrail : ¬ (0xdc00 ≤ v ∧ v < 0xe000) := fun hv => hno v vs rfl ⟨⟨by omega, hlead⟩, hv⟩
      simp only
      rw [if_neg htrail]
  · rw [if_neg hlead]

/-- **The first pass counts what the second one writes.** -/
theorem utf16SizeFrom_spec (us : List Nat) : SizeSpec us (utf16SizeFrom us) := by
  induction hn : us.length using Nat.strong_induction_on generalizing us with
  | _ n ih =>
    cases us with
    | nil => exact SizeSpec.nil
    | cons u us =>
      rw [List.length_cons] at hn
      have hrest := ih us.length (by omega) us rfl
      by_cases hplane : u < 0xd800 ∨ (0xe000 ≤ u ∧ u < 0x10000)
      · rw [funext (utf16SizeFrom_plane us hplane)]
        refine hrest.step ?_
        rw [utf16ToUtf8_plane us hplane, List.length_append]
        congr 1
        split
        · rfl
        · split <;> rfl
      by_cases hpair : ∃ v vs, us = v :: vs ∧ isLead u ∧ isTrail v
      · obtain ⟨v, vs, rfl, hlead, htrail⟩ := hpair
        have hvs := ih vs.length (by rw [List.length_cons] at hn; omega) vs rfl
        rw [funext (utf16SizeFrom_pair vs hlead htrail)]
        refine hvs.step ?_
        rw [utf16ToUtf8_pair vs hlead htrail, List.length_append]
        rfl
      · have hno : ∀ v vs, us = v :: vs → ¬ (isLead u ∧ isTrail v) :=
          fun v vs he hboth => hpair ⟨v, vs, he, hboth⟩
        rw [funext (utf16SizeFrom_ill hplane hno)]
        refine hrest.step ?_
        rw [utf16ToUtf8_ill hplane hno, List.length_append]
        rfl

/-- The conversion, with what it writes. -/
theorem smb2Utf16ToUtf8_eq (memory : Bool) (fresh : Nat → UInt8) (us : List Nat) :
    smb2Utf16ToUtf8 memory fresh us =
      if 2 ^ 31 ≤ 1 + (utf16ToUtf8 us).length then .error .overflow
      else .ok (if memory then some (utf16ToUtf8 us ++ [0]) else none) := by
  have hsize := utf16SizeFrom_spec us 0 (by decide)
  rw [Nat.zero_add] at hsize
  unfold smb2Utf16ToUtf8 utf16Size
  rw [hsize]
  by_cases hover : 2 ^ 31 ≤ (utf16ToUtf8 us).length
  · rw [if_pos hover, if_pos (by omega)]
  · rw [if_neg hover]
    simp only
    by_cases hone : 2 ^ 31 ≤ 1 + (utf16ToUtf8 us).length
    · rw [if_pos hone, if_pos hone]
    · rw [if_neg hone, if_neg hone]
      cases memory with
      | false => rfl
      | true =>
        have hbase : ((List.range (1 + (utf16ToUtf8 us).length)).map fresh).length =
            (utf16ToUtf8 us).length + 1 := by
          rw [List.length_map, List.length_range, Nat.add_comm]
        have hstr : patch ((List.range (1 + (utf16ToUtf8 us).length)).map fresh)
            (utf16ToUtf8 us).length [0] =
              ((List.range (1 + (utf16ToUtf8 us).length)).map fresh).take (utf16ToUtf8 us).length ++
                [0] := by
          rw [patch, List.drop_of_length_le (by rw [hbase]; simp), List.append_nil]
        have htake : (((List.range (1 + (utf16ToUtf8 us).length)).map fresh).take
            (utf16ToUtf8 us).length).length = (utf16ToUtf8 us).length := by
          rw [List.length_take, hbase]
          omega
        rw [if_pos rfl, if_neg (by omega), if_pos rfl, hstr, patch, Nat.zero_add,
          List.drop_left' htake]
        rfl

/-! ## There and back -/

/-- The 16-bit units of a string. -/
def unitsOf (us : List UInt16) : List Nat := us.map UInt16.toNat

/-- The octets of the text that the units are. -/
def textOf (us : List UInt16) : Bytes := utf8Encode (utf16Decode (unitsOf us))

/-- What the conversion to UTF-8 has to do: the second pass fills what the first one has counted
with the text of the units, and the terminator is behind it. -/
def Fills (us : List UInt16) : Prop :=
  ∀ memory fresh,
    smb2Utf16ToUtf8 memory fresh (unitsOf us) =
        .ok (if memory then some (textOf us ++ [0]) else none) ∧
      utf16Size (unitsOf us) = .ok (textOf us).length

/-- The string comes back from UTF-16. -/
def TextReturns (s : CString) : Prop :=
  ∀ fresh, ∃ u, smb2Utf8ToUtf16 true (s.octets ++ [0]) = .ok (some u) ∧
    smb2Utf16ToUtf8 true fresh (utf16Units u.val) = .ok (some (s.octets ++ [0]))

theorem unitsOf_lt (us : List UInt16) : ∀ u ∈ unitsOf us, u < 65536 := by
  intro u hu
  obtain ⟨v, _, rfl⟩ := List.mem_map.mp hu
  exact v.toNat_lt

theorem fills_iff (us : List UInt16) : Fills us ↔ 1 + (textOf us).length < 2 ^ 31 := by
  have htext : utf16ToUtf8 (unitsOf us) = textOf us := utf16ToUtf8_eq (unitsOf_lt us)
  constructor
  · intro h
    obtain ⟨hcall, _⟩ := h true fun _ => 0
    by_contra hlong
    rw [smb2Utf16ToUtf8_eq, htext, if_pos (by omega)] at hcall
    cases hcall
  · intro hlen memory fresh
    have hsize := utf16SizeFrom_spec (unitsOf us) 0 (by decide)
    rw [htext, Nat.zero_add, if_neg (by omega)] at hsize
    refine ⟨?_, hsize⟩
    rw [smb2Utf16ToUtf8_eq, htext, if_neg (by omega)]

/-- A prefix has no more code units than the string. -/
theorem Transcodes.prefix_le {as bs : Bytes} {us vs : List Nat} (has : Transcodes as us)
    (hbs : Transcodes bs vs) (hpre : as <+: bs) : us.length ≤ vs.length := by
  induction has generalizing bs vs with
  | nil => exact Nat.zero_le _
  | @cons cp us ws as hcode _ ih =>
    obtain ⟨rest, rfl⟩ := hpre
    have hcp := validateUtf8Cp_utf8Octets hcode (as ++ rest)
    rw [← List.append_assoc] at hcp
    obtain ⟨hunits, _⟩ := utf8ToUtf16_cons hcp
    rw [utf8ToUtf16_eq_some.mpr hbs] at hunits
    obtain ⟨xs, hxs, rfl⟩ := Option.map_eq_some_iff.mp hunits.symm
    have hle := ih (utf8ToUtf16_eq_some.mp hxs) (List.prefix_append as rest)
    rw [List.length_append, List.length_append]
    omega

theorem textReturns_iff {s : CString} {cs : List Char} (hs : s.octets = utf8Encode cs) :
    TextReturns s ↔ (utf16Encode cs).length < 2 ^ 30 ∧ 1 + s.octets.length < 2 ^ 31 := by
  have hall : Transcodes s.octets (utf16Encode cs) := transcodes_iff.mpr ⟨cs, hs, rfl⟩
  have hunits := utf8ToUtf16_eq_some.mpr hall
  have hback : utf16ToUtf8 (utf16Units (utf16Octets (utf16Encode cs))) = s.octets := by
    rw [utf16Units_utf16Octets hall.lt, utf16ToUtf8_utf8ToUtf16 hunits]
  -- the way to UTF-16, for a string that can be counted
  have hthere (hshort : (utf16Encode cs).length < 2 ^ 31) :
      smb2Utf8ToUtf16 true (s.octets ++ [0]) =
        if 2 ^ 31 ≤ 2 * (utf16Encode cs).length then .error .overflow
        else .ok (some ⟨(utf16Encode cs).length, utf16Octets (utf16Encode cs)⟩) := by
    rw [smb2Utf8ToUtf16_countable s true, hunits]
    · simp only [if_true]
    · intro ds hpre
      have hle := (transcodes_iff.mpr ⟨ds, rfl, rfl⟩).prefix_le hall hpre
      omega
  constructor
  · intro h
    obtain ⟨u, hto, hfrom⟩ := h fun _ => 0
    have hshort : (utf16Encode cs).length < 2 ^ 31 := by
      by_contra hlong
      have hpre : utf8Encode cs <+: s.octets := by rw [hs]
      rw [smb2Utf8ToUtf16_overflows hpre (by omega)] at hto
      cases hto
    rw [hthere hshort] at hto
    by_cases hover : 2 ^ 31 ≤ 2 * (utf16Encode cs).length
    · rw [if_pos hover] at hto
      cases hto
    · rw [if_neg hover] at hto
      cases hto
      refine ⟨by omega, ?_⟩
      by_contra hlong
      rw [smb2Utf16ToUtf8_eq, hback, if_pos (by omega)] at hfrom
      cases hfrom
  · rintro ⟨hfew, hlen⟩ fresh
    have hto := hthere (by omega)
    rw [if_neg (by omega)] at hto
    refine ⟨_, hto, ?_⟩
    rw [smb2Utf16ToUtf8_eq, hback, if_neg (by omega)]
    rfl

/-- **The conversion to UTF-8 fills what it allocates with the text of the units, exactly if an
`int` can count its octets and the terminator; and a well-formed string comes back from UTF-16,
exactly if both conversions can count it.** -/
theorem smb2Utf16ToUtf8_iff (us : List UInt16) (s : CString) :
    (Fills us ↔ 1 + (textOf us).length < 2 ^ 31) ∧
      ∀ cs, s.octets = utf8Encode cs →
        (TextReturns s ↔ (utf16Encode cs).length < 2 ^ 30 ∧ 1 + s.octets.length < 2 ^ 31) :=
  ⟨fills_iff us, fun _ hs => textReturns_iff hs⟩

/-- The counter of `utf16_size` overflows for 2^31 letters. -/
theorem long_units_are_not_converted : ¬ Fills (List.replicate (2 ^ 31) 97) := by
  intro h
  have hshort := (fills_iff (List.replicate (2 ^ 31) 97)).mp h
  have htext (n : Nat) : (textOf (List.replicate n 97)).length = n := by
    have hone : utf16ToUtf8 (unitsOf (List.replicate n 97)) = List.replicate n 97 := by
      induction n with
      | zero => rfl
      | succ n ih =>
        show utf16ToUtf8 (97 :: unitsOf (List.replicate n 97)) = 97 :: List.replicate n 97
        rw [utf16ToUtf8_ascii _ (by decide), ih]
        rfl
    rw [textOf, ← utf16ToUtf8_eq (unitsOf_lt _), hone, List.length_replicate]
  rw [htext] at hshort
  omega

end Libsmb2
