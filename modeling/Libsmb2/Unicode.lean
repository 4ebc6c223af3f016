import Mathlib.Data.List.TakeWhile
import Libsmb2.Util.Bytes

/-!
# UTF-8 and UTF-16

The conversions of `unicode.c`.  A C string is the list of its octets without the terminator
(`CString`); a UTF-16 string is the list of its code units, in host order.

* `utf16ToUtf8_utf8ToUtf16` — what `smb2_utf8_to_utf16` accepts comes back unchanged from
  `smb2_utf16_to_utf8`.
-/

set_option autoImplicit false

namespace Libsmb2

open Util

/-- A C string: its octets up to the terminator. -/
structure CString where
  octets : Bytes
  terminated : 0 ∉ octets
  deriving DecidableEq, Repr

/-- The string at the start of a buffer. -/
def CString.ofBytes (bs : Bytes) : CString where
  octets := bs.takeWhile (· != 0)
  terminated h := by
    have hall : (bs.takeWhile (· != 0)).all (· != 0) = true := List.all_takeWhile
    have hne := List.all_eq_true.mp hall 0 h
    simp at hne

/-- The number of leading 1 bits of an octet. -/
def l1 (c : Nat) : Nat := ([7, 6, 5, 4, 3, 2, 1, 0].takeWhile fun i => c.testBit i).length

/-- The loop over the octets that follow the first one of a sequence. -/
def continuation : Nat → Nat → Bytes → Option (Nat × Bytes)
  | 0, cp, bs => some (cp, bs)
  | _ + 1, _, [] => none
  | k + 1, cp, c :: bs =>
    if l1 c.toNat = 1 then continuation k (cp <<< 6 ||| (c.toNat &&& 0x3f)) bs else none

/-- A sequence of this length could have been shorter. -/
def overlong (l cp : Nat) : Bool :=
  match l with
  | 2 => cp < 0x80
  | 3 => cp < 0x800
  | 4 => cp < 0x10000
  | _ => false

/-- The code units of a code point, if it is one. -/
def codeUnits (cp : Nat) : Option (List Nat) :=
  if cp < 0xd800 ∨ (0xe000 ≤ cp ∧ cp < 0x10000) then some [cp]
  else if cp < 0xe000 then none
  else if cp < 0x110000 then
    some [0xd800 ||| ((cp - 0x10000) >>> 10), 0xdc00 ||| ((cp - 0x10000) &&& 0x3ff)]
  else none

/-- `validate_utf8_cp`: the code units of the first code point, and what follows it. -/
def validateUtf8Cp : Bytes → Option (List Nat × Bytes)
  | [] => none
  | c :: bs =>
    let l := l1 c.toNat
    if l = 0 then some ([c.toNat &&& 0x7f], bs)
    else if l = 2 ∨ l = 3 ∨ l = 4 then
      match continuation (l - 1) (c.toNat &&& (0x7f >>> l)) bs with
      | none => none
      | some (cp, rest) =>
        if overlong l cp then none else (codeUnits cp).map fun us => (us, rest)
    else none

/-- The loops of `smb2_utf8_to_utf16`; the fuel is the length of the string. -/
def utf8Units : Nat → Bytes → Option (List Nat)
  | _, [] => some []
  | 0, _ :: _ => none
  | fuel + 1, c :: bs =>
    match validateUtf8Cp (c :: bs) with
    | none => none
    | some (us, rest) => (utf8Units fuel rest).map fun vs => us ++ vs

/-- `smb2_utf8_to_utf16`. -/
def utf8ToUtf16 (bs : Bytes) : Option (List Nat) := utf8Units bs.length bs

/-- The octets of a UTF-16LE string. -/
def utf16Octets (us : List Nat) : Bytes := us.flatMap fun u => le 2 u

/-- The code units of a UTF-16LE buffer. -/
def utf16Units : Bytes → List Nat
  | a :: b :: bs => fromLe [a, b] :: utf16Units bs
  | _ => []

def twoOctets (code : Nat) : Bytes :=
  [.ofNat (0xc0 ||| code >>> 6), .ofNat (0x80 ||| (code &&& 0x3f))]

def threeOctets (code : Nat) : Bytes :=
  [.ofNat (0xe0 ||| code >>> 12), .ofNat (0x80 ||| (code >>> 6 &&& 0x3f)),
    .ofNat (0x80 ||| (code &&& 0x3f))]

def fourOctets (code : Nat) : Bytes :=
  [.ofNat (0xf0 ||| code >>> 18), .ofNat (0x80 ||| (code >>> 12 &&& 0x3f)),
    .ofNat (0x80 ||| (code >>> 6 &&& 0x3f)), .ofNat (0x80 ||| (code &&& 0x3f))]

/-- The octets of the replacement character. -/
def replacementChar : Bytes := [0xef, 0xbf, 0xbd]

/-- `smb2_utf16_to_utf8`. -/
def utf16ToUtf8 : List Nat → Bytes
  | [] => []
  | code :: us =>
    if code < 0x80 then .ofNat code :: utf16ToUtf8 us
    else if code < 0x800 then twoOctets code ++ utf16ToUtf8 us
    else if code < 0xd800 ∨ (0xe000 ≤ code ∧ code < 0x10000) then
      threeOctets code ++ utf16ToUtf8 us
    else if code < 0xdc00 then
      match us with
      | [] => replacementChar
      | trail :: us' =>
        if 0xdc00 ≤ trail ∧ trail < 0xe000 then
          let cp := 0x10000 + (code &&& 0x3ff) <<< 10 + (trail &&& 0x3ff)
          (if cp < 0x10000 then threeOctets cp else fourOctets cp) ++ utf16ToUtf8 us'
        else replacementChar ++ utf16ToUtf8 (trail :: us')
    else replacementChar ++ utf16ToUtf8 us

/-! ## Bits as sums -/

theorem or_eq_add {a b i : Nat} (hb : b < 2 ^ i) : a <<< i ||| b = a * 2 ^ i + b := by
  rw [← Nat.shiftLeft_add_eq_or_of_lt hb, Nat.shiftLeft_eq]

theorem and_3f (n : Nat) : n &&& 0x3f = n % 64 := Nat.and_two_pow_sub_one_eq_mod n 6

theorem mask_2 (n : Nat) : n &&& (0x7f >>> 2) = n % 32 := Nat.and_two_pow_sub_one_eq_mod n 5

theorem mask_3 (n : Nat) : n &&& (0x7f >>> 3) = n % 16 := Nat.and_two_pow_sub_one_eq_mod n 4

theorem mask_4 (n : Nat) : n &&& (0x7f >>> 4) = n % 8 := Nat.and_two_pow_sub_one_eq_mod n 3

theorem and_3ff (n : Nat) : n &&& 0x3ff = n % 1024 := Nat.and_two_pow_sub_one_eq_mod n 10

theorem or_80 {n : Nat} (h : n < 64) : 0x80 ||| n = 128 + n := or_eq_add (a := 2) (i := 6) h

theorem or_c0 {n : Nat} (h : n < 32) : 0xc0 ||| n = 192 + n := or_eq_add (a := 6) (i := 5) h

theorem or_e0 {n : Nat} (h : n < 16) : 0xe0 ||| n = 224 + n := or_eq_add (a := 14) (i := 4) h

theorem or_f0 {n : Nat} (h : n < 8) : 0xf0 ||| n = 240 + n := or_eq_add (a := 30) (i := 3) h

theorem or_d800 {n : Nat} (h : n < 1024) : 0xd800 ||| n = 0xd800 + n :=
  or_eq_add (a := 54) (i := 10) h

theorem or_dc00 {n : Nat} (h : n < 1024) : 0xdc00 ||| n = 0xdc00 + n :=
  or_eq_add (a := 55) (i := 10) h

theorem l1_cases (c : Nat) (h : c < 256) :
    (l1 c = 0 ↔ c < 128) ∧ (l1 c = 1 ↔ 128 ≤ c ∧ c < 192) ∧ (l1 c = 2 ↔ 192 ≤ c ∧ c < 224) ∧
      (l1 c = 3 ↔ 224 ≤ c ∧ c < 240) ∧ (l1 c = 4 ↔ 240 ≤ c ∧ c < 248) := by
  revert c
  decide +kernel

theorem octet_eq {n : Nat} {c : UInt8} (h : n = c.toNat) : UInt8.ofNat n = c := by
  rw [h, UInt8.ofNat_toNat]

theorem toNat_octet {n : Nat} (h : n < 256) : (UInt8.ofNat n).toNat = n := by
  simp [Nat.mod_eq_of_lt h]

variable {bs rest as : Bytes}

/-- An octet that continues a sequence carries six bits. -/
theorem continuation_step {k cp cp' : Nat}
    (h : continuation (k + 1) cp bs = some (cp', rest)) :
    ∃ c cs, bs = c :: cs ∧ 128 ≤ c.toNat ∧ c.toNat < 192 ∧
      continuation k (cp * 64 + (c.toNat - 128)) cs = some (cp', rest) := by
  cases bs with
  | nil => cases h
  | cons c cs =>
    simp only [continuation] at h
    split at h
    · rename_i hl
      obtain ⟨hlo, hhi⟩ := (l1_cases c.toNat c.toNat_lt).2.1.mp hl
      refine ⟨c, cs, rfl, hlo, hhi, ?_⟩
      have hbits : cp <<< 6 ||| (c.toNat &&& 0x3f) = cp * 64 + (c.toNat - 128) := by
        rw [and_3f, or_eq_add (by omega)]
        omega
      rw [← hbits]
      exact h
    · cases h

theorem continuation_end {cp cp' : Nat}
    (h : continuation 0 cp bs = some (cp', rest)) : cp' = cp ∧ rest = bs := by
  have hpair := Prod.mk.inj (Option.some.inj h)
  exact ⟨hpair.1.symm, hpair.2.symm⟩

theorem continuation_octet {k cp x : Nat} (rest : Bytes) (hx : x < 64) :
    continuation (k + 1) cp (.ofNat (0x80 ||| x) :: rest) = continuation k (cp * 64 + x) rest := by
  have hoct : (UInt8.ofNat (0x80 ||| x)).toNat = 128 + x := by
    rw [or_80 hx, toNat_octet (by omega)]
  have hl : l1 (128 + x) = 1 := (l1_cases _ (by omega)).2.1.mpr (by omega)
  simp only [continuation, hoct]
  rw [if_pos hl, and_3f, or_eq_add (by omega)]
  congr 1
  omega

/-! ## Code points -/

/-- The UTF-8 sequence of a code point. -/
def utf8Octets (cp : Nat) : Bytes :=
  if cp < 0x80 then [.ofNat cp] else if cp < 0x800 then twoOctets cp
  else if cp < 0x10000 then threeOctets cp else fourOctets cp

theorem codeUnits_scalar {cp : Nat} {us : List Nat} (h : codeUnits cp = some us) :
    (us = [cp] ∧ (cp < 0xd800 ∨ (0xe000 ≤ cp ∧ cp < 0x10000))) ∨
      (0x10000 ≤ cp ∧ cp < 0x110000 ∧
        us = [0xd800 + (cp - 0x10000) / 1024, 0xdc00 + (cp - 0x10000) % 1024]) := by
  unfold codeUnits at h
  split at h
  · rename_i hone
    cases h
    exact .inl ⟨rfl, hone⟩
  · split at h
    · cases h
    · split at h
      · rename_i hnot hlow hhigh
        cases h
        have hd : (cp - 0x10000) >>> 10 = (cp - 0x10000) / 1024 := Nat.shiftRight_eq_div_pow _ 10
        refine .inr ⟨by omega, hhigh, ?_⟩
        rw [hd, or_d800 (by omega), and_3ff, or_dc00 (by omega)]
      · cases h

theorem twoOctets_eq {n : Nat} {c₀ c₁ : UInt8} (h₀ : 192 ≤ c₀.toNat ∧ c₀.toNat < 224)
    (h₁ : 128 ≤ c₁.toNat ∧ c₁.toNat < 192)
    (hn : n = (c₀.toNat - 192) * 64 + (c₁.toNat - 128)) : twoOctets n = [c₀, c₁] := by
  have hd : n >>> 6 = n / 64 := Nat.shiftRight_eq_div_pow n 6
  unfold twoOctets
  rw [and_3f, hd, or_c0 (by omega), or_80 (by omega), octet_eq (c := c₀) (by omega),
    octet_eq (c := c₁) (by omega)]

theorem threeOctets_eq {n : Nat} {c₀ c₁ c₂ : UInt8} (h₀ : 224 ≤ c₀.toNat ∧ c₀.toNat < 240)
    (h₁ : 128 ≤ c₁.toNat ∧ c₁.toNat < 192) (h₂ : 128 ≤ c₂.toNat ∧ c₂.toNat < 192)
    (hn : n = ((c₀.toNat - 224) * 64 + (c₁.toNat - 128)) * 64 + (c₂.toNat - 128)) :
    threeOctets n = [c₀, c₁, c₂] := by
  have hd : n >>> 6 = n / 64 := Nat.shiftRight_eq_div_pow n 6
  have hd' : n >>> 12 = n / 4096 := Nat.shiftRight_eq_div_pow n 12
  unfold threeOctets
  rw [and_3f, and_3f, hd, hd', or_e0 (by omega), or_80 (by omega), or_80 (by omega),
    octet_eq (c := c₀) (by omega), octet_eq (c := c₁) (by omega), octet_eq (c := c₂) (by omega)]

theorem fourOctets_eq {n : Nat} {c₀ c₁ c₂ c₃ : UInt8} (h₀ : 240 ≤ c₀.toNat ∧ c₀.toNat < 248)
    (h₁ : 128 ≤ c₁.toNat ∧ c₁.toNat < 192) (h₂ : 128 ≤ c₂.toNat ∧ c₂.toNat < 192)
    (h₃ : 128 ≤ c₃.toNat ∧ c₃.toNat < 192)
    (hn : n = (((c₀.toNat - 240) * 64 + (c₁.toNat - 128)) * 64 + (c₂.toNat - 128)) * 64 +
      (c₃.toNat - 128)) : fourOctets n = [c₀, c₁, c₂, c₃] := by
  have hd : n >>> 6 = n / 64 := Nat.shiftRight_eq_div_pow n 6
  have hd' : n >>> 12 = n / 4096 := Nat.shiftRight_eq_div_pow n 12
  have hd'' : n >>> 18 = n / 262144 := Nat.shiftRight_eq_div_pow n 18
  unfold fourOctets
  rw [and_3f, and_3f, and_3f, hd, hd', hd'', or_f0 (by omega), or_80 (by omega), or_80 (by omega),
    or_80 (by omega), octet_eq (c := c₀) (by omega), octet_eq (c := c₁) (by omega),
    octet_eq (c := c₂) (by omega), octet_eq (c := c₃) (by omega)]

theorem utf16ToUtf8_ascii {code : Nat} (us : List Nat) (h : code < 0x80) :
    utf16ToUtf8 (code :: us) = .ofNat code :: utf16ToUtf8 us := by
  rw [utf16ToUtf8.eq_def]
  exact if_pos h

/-- A code unit that stands for itself. -/
theorem utf16ToUtf8_plane {code : Nat} (us : List Nat)
    (h : code < 0xd800 ∨ (0xe000 ≤ code ∧ code < 0x10000)) : utf16ToUtf8 (code :: us) =
      (if code < 0x80 then [.ofNat code] else if code < 0x800 then twoOctets code
        else threeOctets code) ++ utf16ToUtf8 us := by
  rw [utf16ToUtf8.eq_def]
  by_cases h₁ : code < 0x80
  · simp only [h₁, if_true, List.cons_append, List.nil_append]
  · by_cases h₂ : code < 0x800
    · simp only [h₁, h₂, if_true, if_false]
    · simp only [h₁, h₂, h, if_true, if_false]

/-- A surrogate pair. -/
theorem utf16ToUtf8_pair {lead trail : Nat} (us : List Nat) (hl : 0xd800 ≤ lead ∧ lead < 0xdc00)
    (ht : 0xdc00 ≤ trail ∧ trail < 0xe000) : utf16ToUtf8 (lead :: trail :: us) =
      fourOctets (0x10000 + (lead &&& 0x3ff) <<< 10 + (trail &&& 0x3ff)) ++ utf16ToUtf8 us := by
  have hone : ¬(lead < 0xd800 ∨ (0xe000 ≤ lead ∧ lead < 0x10000)) := by omega
  rw [utf16ToUtf8.eq_def]
  simp only
  rw [if_neg (by omega), if_neg (by omega), if_neg hone, if_pos hl.2, if_pos ht,
    if_neg (by omega)]

/-- The code units of a code point, read back. -/
theorem utf16ToUtf8_codeUnits {cp : Nat} {us : List Nat} (h : codeUnits cp = some us)
    (more : List Nat) : utf16ToUtf8 (us ++ more) = utf8Octets cp ++ utf16ToUtf8 more := by
  unfold utf8Octets
  rcases codeUnits_scalar h with ⟨rfl, hone⟩ | ⟨hlo, hhi, rfl⟩
  · rw [List.singleton_append, utf16ToUtf8_plane more hone, if_pos (by omega : cp < 0x10000)]
  · have hback : 0x10000 + (0xd800 + (cp - 0x10000) / 1024 &&& 0x3ff) <<< 10 +
        (0xdc00 + (cp - 0x10000) % 1024 &&& 0x3ff) = cp := by
      rw [and_3ff, and_3ff, Nat.shiftLeft_eq]
      omega
    rw [List.cons_append, List.singleton_append, utf16ToUtf8_pair more (by omega) (by omega),
      hback, if_neg (by omega), if_neg (by omega), if_neg (by omega)]

/-- `validate_utf8_cp` accepts nothing but the sequence of a code point. -/
theorem validateUtf8Cp_cases {us : List Nat}
    (h : validateUtf8Cp bs = some (us, rest)) :
    ∃ cp, codeUnits cp = some us ∧ bs = utf8Octets cp ++ rest := by
  cases bs with
  | nil => cases h
  | cons c₀ bs =>
    obtain ⟨h0, _, h2, h3, h4⟩ := l1_cases c₀.toNat c₀.toNat_lt
    simp only [validateUtf8Cp] at h
    by_cases hl : l1 c₀.toNat = 0
    · have hc := h0.mp hl
      have hand : c₀.toNat &&& 0x7f = c₀.toNat := by
        have hmod : c₀.toNat &&& 0x7f = c₀.toNat % 128 :=
          Nat.and_two_pow_sub_one_eq_mod c₀.toNat 7
        omega
      rw [if_pos hl, hand] at h
      cases h
      refine ⟨c₀.toNat, if_pos (by omega), ?_⟩
      rw [utf8Octets, if_pos hc, UInt8.ofNat_toNat]
      rfl
    · rw [if_neg hl] at h
      split at h
      · rename_i hlong
        split at h
        · cases h
        · rename_i cp rest' hcont
          split at h
          · cases h
          · rename_i hover
            obtain ⟨us', hunits, he⟩ := Option.map_eq_some_iff.mp h
            cases he
            refine ⟨cp, hunits, ?_⟩
            rcases hlong with hl2 | hl3 | hl4
            · rw [hl2] at hcont hover
              obtain ⟨c₁, cs₁, rfl, hlo, hhi, hcont⟩ := continuation_step hcont
              obtain ⟨hcp, rfl⟩ := continuation_end hcont
              have hlead := h2.mp hl2
              rw [mask_2] at hcp
              simp only [overlong, decide_eq_true_eq] at hover
              rw [utf8Octets, if_neg (by omega), if_pos (by omega),
                twoOctets_eq hlead ⟨hlo, hhi⟩ (by omega)]
              rfl
            · rw [hl3] at hcont hover
              obtain ⟨c₁, cs₁, rfl, hlo, hhi, hcont⟩ := continuation_step hcont
              obtain ⟨c₂, cs₂, rfl, hlo', hhi', hcont⟩ := continuation_step hcont
              obtain ⟨hcp, rfl⟩ := continuation_end hcont
              have hlead := h3.mp hl3
              rw [mask_3] at hcp
              simp only [overlong, decide_eq_true_eq] at hover
              rw [utf8Octets, if_neg (by omega), if_neg (by omega), if_pos (by omega),
                threeOctets_eq hlead ⟨hlo, hhi⟩ ⟨hlo', hhi'⟩ (by omega)]
              rfl
            · rw [hl4] at hcont hover
              obtain ⟨c₁, cs₁, rfl, hlo, hhi, hcont⟩ := continuation_step hcont
              obtain ⟨c₂, cs₂, rfl, hlo', hhi', hcont⟩ := continuation_step hcont
              obtain ⟨c₃, cs₃, rfl, hlo'', hhi'', hcont⟩ := continuation_step hcont
              obtain ⟨hcp, rfl⟩ := continuation_end hcont
              have hlead := h4.mp hl4
              rw [mask_4] at hcp
              simp only [overlong, decide_eq_true_eq] at hover
              rw [utf8Octets, if_neg (by omega), if_neg (by omega), if_neg (by omega),
                fourOctets_eq hlead ⟨hlo, hhi⟩ ⟨hlo', hhi'⟩ ⟨hlo'', hhi''⟩ (by omega)]
              rfl
      · cases h

/-- The first octet of a sequence of `l` octets gives `lead` to the code point. -/
theorem validateUtf8Cp_lead {c : UInt8} {lead : Nat} (l cp : Nat) {us : List Nat}
    (hl : l1 c.toNat = l) (hlong : l = 2 ∨ l = 3 ∨ l = 4)
    (hlead : c.toNat &&& (0x7f >>> l) = lead)
    (hcont : continuation (l - 1) lead bs = some (cp, rest)) (hover : overlong l cp = false)
    (hunits : codeUnits cp = some us) : validateUtf8Cp (c :: bs) = some (us, rest) := by
  have hzero : ¬l = 0 := by omega
  simp only [validateUtf8Cp, hl, hzero, hlong, if_false, if_true, hlead, hcont, hover, hunits]
  rfl

/-- `validate_utf8_cp` accepts the sequence of every code point. -/
theorem validateUtf8Cp_utf8Octets {cp : Nat} {us : List Nat} (h : codeUnits cp = some us)
    (rest : Bytes) : validateUtf8Cp (utf8Octets cp ++ rest) = some (us, rest) := by
  have hscalar : cp < 0x110000 := by
    rcases codeUnits_scalar h with ⟨_, hone⟩ | ⟨_, hhi, _⟩
    · omega
    · exact hhi
  have hd : cp >>> 6 = cp / 64 := Nat.shiftRight_eq_div_pow cp 6
  have hd' : cp >>> 12 = cp / 4096 := Nat.shiftRight_eq_div_pow cp 12
  have hd'' : cp >>> 18 = cp / 262144 := Nat.shiftRight_eq_div_pow cp 18
  unfold utf8Octets
  by_cases h₁ : cp < 0x80
  · have hus : us = [cp] := by
      rcases codeUnits_scalar h with ⟨rfl, _⟩ | ⟨hlo, _⟩
      · rfl
      · omega
    have hoct : (UInt8.ofNat cp).toNat = cp := toNat_octet (by omega)
    have hl : l1 cp = 0 := (l1_cases cp (by omega)).1.mpr h₁
    have hand : cp &&& 0x7f = cp % 128 := Nat.and_two_pow_sub_one_eq_mod cp 7
    rw [if_pos h₁, hus, List.singleton_append]
    simp only [validateUtf8Cp, hoct, hl, if_true, hand, Nat.mod_eq_of_lt h₁]
  · by_cases h₂ : cp < 0x800
    · have hoct : (UInt8.ofNat (0xc0 ||| cp >>> 6)).toNat = 192 + cp / 64 := by
        rw [hd, or_c0 (by omega), toNat_octet (by omega)]
      have hl : l1 (192 + cp / 64) = 2 := (l1_cases _ (by omega)).2.2.1.mpr (by omega)
      rw [if_neg h₁, if_pos h₂]
      refine validateUtf8Cp_lead 2 cp (by rw [hoct, hl]) (.inl rfl) rfl ?_ ?_ h
      · rw [and_3f, hoct, mask_2]
        show continuation (0 + 1) _ (_ :: rest) = _
        rw [continuation_octet rest (by omega)]
        have hcp : (192 + cp / 64) % 32 * 64 + cp % 64 = cp := by omega
        rw [hcp]
        rfl
      · simpa [overlong] using h₁
    · by_cases h₃ : cp < 0x10000
      · have hoct : (UInt8.ofNat (0xe0 ||| cp >>> 12)).toNat = 224 + cp / 4096 := by
          rw [hd', or_e0 (by omega), toNat_octet (by omega)]
        have hl : l1 (224 + cp / 4096) = 3 := (l1_cases _ (by omega)).2.2.2.1.mpr (by omega)
        rw [if_neg h₁, if_neg h₂, if_pos h₃]
        refine validateUtf8Cp_lead 3 cp (by rw [hoct, hl]) (.inr (.inl rfl)) rfl
          ?_ ?_ h
        · rw [and_3f, and_3f, hoct, mask_3, hd]
          show continuation (1 + 1) _ (_ :: _ :: rest) = _
          rw [continuation_octet _ (by omega), continuation_octet rest (by omega)]
          have hcp : ((224 + cp / 4096) % 16 * 64 + cp / 64 % 64) * 64 + cp % 64 = cp := by omega
          rw [hcp]
          rfl
        · simpa [overlong] using h₂
      · have hoct : (UInt8.ofNat (0xf0 ||| cp >>> 18)).toNat = 240 + cp / 262144 := by
          rw [hd'', or_f0 (by omega), toNat_octet (by omega)]
        have hl : l1 (240 + cp / 262144) = 4 := (l1_cases _ (by omega)).2.2.2.2.mpr (by omega)
        rw [if_neg h₁, if_neg h₂, if_neg h₃]
        refine validateUtf8Cp_lead 4 cp (by rw [hoct, hl]) (.inr (.inr rfl)) rfl
          ?_ ?_ h
        · rw [and_3f, and_3f, and_3f, hoct, mask_4, hd, hd']
          show continuation (2 + 1) _ (_ :: _ :: _ :: rest) = _
          rw [continuation_octet _ (by omega), continuation_octet _ (by omega),
            continuation_octet rest (by omega)]
          have hcp : (((240 + cp / 262144) % 8 * 64 + cp / 4096 % 64) * 64 + cp / 64 % 64) * 64 +
              cp % 64 = cp := by omega
          rw [hcp]
          rfl
        · simpa [overlong] using h₃

/-! ## Strings -/

/-- `bs` is the UTF-8 and `us` the UTF-16 of one sequence of code points. -/
inductive Transcodes : Bytes → List Nat → Prop
  | nil : Transcodes [] []
  | cons {cp : Nat} {us vs : List Nat} {bs : Bytes} : codeUnits cp = some us → Transcodes bs vs →
      Transcodes (utf8Octets cp ++ bs) (us ++ vs)

theorem utf8Octets_ne_nil (cp : Nat) : 0 < (utf8Octets cp).length := by
  unfold utf8Octets
  split
  · exact Nat.one_pos
  · split
    · exact Nat.two_pos
    · split
      · exact Nat.succ_pos 2
      · exact Nat.succ_pos 3

theorem utf8Units_transcodes {fuel : Nat} {us : List Nat}
    (h : utf8Units fuel bs = some us) : Transcodes bs us := by
  induction fuel generalizing bs us with
  | zero =>
    cases bs with
    | nil =>
      cases h
      exact .nil
    | cons c bs => cases h
  | succ fuel ih =>
    cases bs with
    | nil =>
      cases h
      exact .nil
    | cons c bs =>
      simp only [utf8Units] at h
      split at h
      · cases h
      · rename_i vs rest hcp
        obtain ⟨ws, hws, rfl⟩ := Option.map_eq_some_iff.mp h
        obtain ⟨cp, hunits, hsplit⟩ := validateUtf8Cp_cases hcp
        rw [hsplit]
        exact .cons hunits (ih hws)

theorem Transcodes.units {us : List Nat} (h : Transcodes bs us) {fuel : Nat}
    (hfuel : bs.length ≤ fuel) : utf8Units fuel bs = some us := by
  induction h generalizing fuel with
  | nil => cases fuel <;> rfl
  | @cons cp us vs bs hunits hrest ih =>
    have hpos := utf8Octets_ne_nil cp
    rw [List.length_append] at hfuel
    obtain ⟨fuel, rfl⟩ : ∃ n, fuel = n + 1 := ⟨fuel - 1, by omega⟩
    have hcp := validateUtf8Cp_utf8Octets hunits bs
    have ih : utf8Units fuel bs = some vs := ih (by omega)
    cases hbs : utf8Octets cp ++ bs with
    | nil =>
      have hlen := congrArg List.length hbs
      rw [List.length_append, List.length_nil] at hlen
      omega
    | cons c rest =>
      rw [hbs] at hcp
      simp only [utf8Units, hcp, ih, Option.map_some]

/-- `smb2_utf8_to_utf16` transcodes, and accepts whatever can be. -/
theorem utf8ToUtf16_eq_some {us : List Nat} :
    utf8ToUtf16 bs = some us ↔ Transcodes bs us :=
  ⟨utf8Units_transcodes, fun h => h.units (Nat.le_refl _)⟩

/-- **A valid UTF-8 string survives the way to UTF-16 and back.** -/
theorem utf16ToUtf8_utf8ToUtf16 {us : List Nat} (h : utf8ToUtf16 bs = some us) :
    utf16ToUtf8 us = bs := by
  induction utf8ToUtf16_eq_some.mp h with
  | nil => rfl
  | cons hunits hrest ih =>
    rw [utf16ToUtf8_codeUnits hunits, ih (utf8ToUtf16_eq_some.mpr hrest)]

theorem codeUnits_lt {cp : Nat} {us : List Nat} (h : codeUnits cp = some us) :
    ∀ u ∈ us, u < 65536 := by
  rcases codeUnits_scalar h with ⟨rfl, hone⟩ | ⟨hlo, hhi, rfl⟩
  · intro u hu
    rw [List.mem_singleton.mp hu]
    omega
  · intro u hu
    simp only [List.mem_cons, List.not_mem_nil, or_false] at hu
    omega

/-- A code unit has two octets. -/
theorem Transcodes.lt {us : List Nat} (h : Transcodes bs us) : ∀ u ∈ us, u < 65536 := by
  induction h with
  | nil => simp
  | cons hunits _ ih =>
    intro u hu
    rcases List.mem_append.mp hu with hu | hu
    · exact codeUnits_lt hunits u hu
    · exact ih u hu

@[simp] theorem length_utf16Octets (us : List Nat) : (utf16Octets us).length = 2 * us.length := by
  induction us with
  | nil => rfl
  | cons u us ih =>
    simp only [utf16Octets, List.flatMap_cons, List.length_append, length_le,
      List.length_cons] at ih ⊢
    omega

theorem utf16Units_utf16Octets {us : List Nat} (h : ∀ u ∈ us, u < 65536) :
    utf16Units (utf16Octets us) = us := by
  induction us with
  | nil => rfl
  | cons u us ih =>
    have hu : fromLe (le 2 u) = u := by
      rw [fromLe_le]
      exact Nat.mod_eq_of_lt (h u List.mem_cons_self)
    have ih := ih fun v hv => h v (List.mem_cons_of_mem u hv)
    show fromLe (le 2 u) :: utf16Units (utf16Octets us) = u :: us
    rw [hu, ih]

/-! ## Letters and lengths -/

/-- `toupper` in the "C" locale. -/
def toupper (c : UInt8) : UInt8 := if 97 ≤ c.toNat ∧ c.toNat ≤ 122 then c - 32 else c

theorem toupper_ascii {c : UInt8} (h : c.toNat < 128) : (toupper c).toNat < 128 := by
  unfold toupper
  split
  · have hle : (32 : UInt8) ≤ c := by
      rw [UInt8.le_iff_toNat_le]
      show 32 ≤ c.toNat
      omega
    rw [UInt8.toNat_sub_of_le c 32 hle]
    omega
  · exact h

theorem toupper_high {c : UInt8} (h : 128 ≤ c.toNat) : toupper c = c := by
  unfold toupper
  rw [if_neg (by omega)]

/-- The octets of a code point past ASCII have their highest bit set. -/
theorem utf8Octets_high {cp : Nat} {us : List Nat} (h : codeUnits cp = some us) (hcp : 0x80 ≤ cp) :
    ∀ c ∈ utf8Octets cp, 128 ≤ c.toNat := by
  have hscalar : cp < 0x110000 := by
    rcases codeUnits_scalar h with ⟨_, hone⟩ | ⟨_, hhi, _⟩
    · omega
    · exact hhi
  have hd : cp >>> 6 = cp / 64 := Nat.shiftRight_eq_div_pow cp 6
  have hd' : cp >>> 12 = cp / 4096 := Nat.shiftRight_eq_div_pow cp 12
  have hd'' : cp >>> 18 = cp / 262144 := Nat.shiftRight_eq_div_pow cp 18
  have hcont : ∀ x, 128 ≤ (UInt8.ofNat (0x80 ||| (x &&& 0x3f))).toNat := by
    intro x
    rw [and_3f, or_80 (by omega), toNat_octet (by omega)]
    omega
  intro c hc
  unfold utf8Octets at hc
  rw [if_neg (by omega)] at hc
  split at hc
  · rcases List.mem_cons.mp hc with rfl | hc
    · rw [hd, or_c0 (by omega), toNat_octet (by omega)]
      omega
    · rw [List.mem_singleton.mp hc]
      exact hcont cp
  · split at hc
    · rcases List.mem_cons.mp hc with rfl | hc
      · rw [hd', or_e0 (by omega), toNat_octet (by omega)]
        omega
      · rcases List.mem_cons.mp hc with rfl | hc
        · exact hcont _
        · rw [List.mem_singleton.mp hc]
          exact hcont cp
    · rcases List.mem_cons.mp hc with rfl | hc
      · rw [hd'', or_f0 (by omega), toNat_octet (by omega)]
        omega
      · rcases List.mem_cons.mp hc with rfl | hc
        · exact hcont _
        · rcases List.mem_cons.mp hc with rfl | hc
          · exact hcont _
          · rw [List.mem_singleton.mp hc]
            exact hcont cp

/-- Upper case has as many code units. -/
theorem Transcodes.upper {us : List Nat} (h : Transcodes bs us) :
    ∃ vs, Transcodes (bs.map toupper) vs ∧ vs.length = us.length := by
  induction h with
  | nil => exact ⟨[], .nil, rfl⟩
  | @cons cp us ws bs hunits _ ih =>
    obtain ⟨vs, hvs, hlen⟩ := ih
    rw [List.map_append]
    by_cases hcp : cp < 0x80
    · -- an ASCII letter becomes another
      have hus : us = [cp] := by
        rcases codeUnits_scalar hunits with ⟨rfl, _⟩ | ⟨hlo, _⟩
        · rfl
        · omega
      have hlow : (toupper (.ofNat cp)).toNat < 128 :=
        toupper_ascii (by rw [toNat_octet (by omega)]; exact hcp)
      have hup : (utf8Octets cp).map toupper = utf8Octets (toupper (.ofNat cp)).toNat := by
        rw [utf8Octets, if_pos hcp, utf8Octets, if_pos hlow, UInt8.ofNat_toNat]
        rfl
      have hone : codeUnits (toupper (.ofNat cp)).toNat = some [(toupper (.ofNat cp)).toNat] :=
        if_pos (by omega)
      refine ⟨_, hup ▸ Transcodes.cons hone hvs, ?_⟩
      simp only [hus, List.length_append, List.length_singleton, hlen]
    · have hup : (utf8Octets cp).map toupper = utf8Octets cp := by
        refine (List.map_congr_left fun c hc => ?_).trans (List.map_id _)
        exact toupper_high (utf8Octets_high hunits (by omega) c hc)
      refine ⟨_, hup.symm ▸ Transcodes.cons hunits hvs, ?_⟩
      rw [List.length_append, List.length_append, hlen]

/-- A string has no more code units than octets, and as many just when it is ASCII. -/
theorem Transcodes.length {us : List Nat} (h : Transcodes bs us) :
    us.length ≤ bs.length ∧ (us.length = bs.length ↔ ∀ c ∈ bs, c.toNat < 128) := by
  induction h with
  | nil => simp
  | @cons cp us ws bs hunits _ ih =>
    obtain ⟨hle, hiff⟩ := ih
    simp only [List.length_append, List.forall_mem_append]
    by_cases hcp : cp < 0x80
    · have hus : us = [cp] := by
        rcases codeUnits_scalar hunits with ⟨rfl, _⟩ | ⟨hlo, _⟩
        · rfl
        · omega
      have hoct : utf8Octets cp = [.ofNat cp] := if_pos hcp
      have hlow : ∀ c ∈ utf8Octets cp, c.toNat < 128 := by
        intro c hc
        rw [hoct] at hc
        rw [List.mem_singleton.mp hc, toNat_octet (by omega)]
        exact hcp
      rw [← hiff, hus, hoct]
      rw [hoct] at hlow
      refine ⟨by simpa using hle, ?_⟩
      simp only [List.length_singleton]
      constructor
      · intro he
        exact ⟨fun c hc => hlow c hc, by omega⟩
      · intro he
        omega
    · have hshort : us.length < (utf8Octets cp).length := by
        rcases codeUnits_scalar hunits with ⟨rfl, hone⟩ | ⟨hlo, hhi, rfl⟩
        · unfold utf8Octets
          rw [if_neg hcp]
          split
          · exact Nat.lt_add_one 1
          · rw [if_pos (by omega)]
            exact Nat.lt_of_sub_eq_succ rfl
        · unfold utf8Octets
          rw [if_neg hcp, if_neg (by omega), if_neg (by omega)]
          exact Nat.lt_of_sub_eq_succ rfl
      have hpos := utf8Octets_ne_nil cp
      refine ⟨by omega, ?_⟩
      constructor
      · intro he
        omega
      · rintro ⟨hlow, _⟩
        obtain ⟨c, hc⟩ := List.exists_mem_of_length_pos hpos
        have h₁ := hlow c hc
        have h₂ := utf8Octets_high hunits (by omega) c hc
        omega

theorem Transcodes.append {us vs : List Nat} (ha : Transcodes as us)
    (hb : Transcodes bs vs) : Transcodes (as ++ bs) (us ++ vs) := by
  induction ha with
  | nil => exact hb
  | cons hunits _ ih =>
    rw [List.append_assoc, List.append_assoc]
    exact .cons hunits ih

/-- What follows ASCII octets in a valid string is valid. -/
theorem Transcodes.of_ascii {us : List Nat} (has : ∀ c ∈ as, c.toNat < 128)
    (h : Transcodes (as ++ bs) us) : ∃ vs, Transcodes bs vs := by
  induction as generalizing us with
  | nil => exact ⟨us, h⟩
  | cons c as ih =>
    have hc := has c List.mem_cons_self
    generalize hsplit : c :: as ++ bs = cs at h
    cases h with
    | nil => cases hsplit
    | @cons cp vs ws rest hunits hrest =>
      by_cases hcp : cp < 0x80
      · have hoct : utf8Octets cp = [.ofNat cp] := if_pos hcp
        rw [hoct, List.cons_append, List.singleton_append] at hsplit
        obtain ⟨_, htail⟩ := List.cons.inj hsplit
        exact ih (fun d hd => has d (List.mem_cons_of_mem c hd)) (htail ▸ hrest)
      · have hhigh := utf8Octets_high hunits (Nat.le_of_not_lt hcp)
        cases hoct : utf8Octets cp with
        | nil =>
          have hpos := utf8Octets_ne_nil cp
          rw [hoct] at hpos
          exact absurd hpos (Nat.lt_irrefl 0)
        | cons d ds =>
          rw [hoct, List.cons_append, List.cons_append] at hsplit
          obtain ⟨rfl, _⟩ := List.cons.inj hsplit
          have hd := hhigh c (by rw [hoct]; exact List.mem_cons_self)
          omega

theorem Transcodes.octets_nil (h : Transcodes bs []) : bs = [] := by
  rw [← utf16ToUtf8_utf8ToUtf16 (utf8ToUtf16_eq_some.mpr h)]
  rfl

theorem CString.ext_octets {s s' : CString} (h : s.octets = s'.octets) : s = s' := by
  cases s
  cases h
  rfl

theorem CString.ofBytes_octets (s : CString) : (CString.ofBytes s.octets).octets = s.octets := by
  unfold CString.ofBytes
  refine List.takeWhile_eq_self_iff.mpr fun c hc => ?_
  have hne : c ≠ 0 := fun hzero => s.terminated (hzero ▸ hc)
  simpa using hne

/-- An octet with the high bit is not zero. -/
theorem octet_ne_zero {lead : Nat} (h : lead.testBit 7 = true) (n : Nat) :
    0 ≠ UInt8.ofNat (lead ||| n) := by
  intro hzero
  have hmod : (lead ||| n) % 2 ^ 8 = 0 := (congrArg UInt8.toNat hzero).symm
  have hbit : ((lead ||| n) % 2 ^ 8).testBit 7 = true := by
    rw [Nat.testBit_mod_two_pow, Nat.testBit_or, h]
    rfl
  rw [hmod] at hbit
  cases hbit

theorem zero_notMem_twoOctets (code : Nat) : 0 ∉ twoOctets code := by
  simp only [twoOctets, List.mem_cons, List.not_mem_nil, or_false, not_or]
  exact ⟨octet_ne_zero rfl _, octet_ne_zero rfl _⟩

theorem zero_notMem_threeOctets (code : Nat) : 0 ∉ threeOctets code := by
  simp only [threeOctets, List.mem_cons, List.not_mem_nil, or_false, not_or]
  exact ⟨octet_ne_zero rfl _, octet_ne_zero rfl _, octet_ne_zero rfl _⟩

theorem zero_notMem_fourOctets (code : Nat) : 0 ∉ fourOctets code := by
  simp only [fourOctets, List.mem_cons, List.not_mem_nil, or_false, not_or]
  exact ⟨octet_ne_zero rfl _, octet_ne_zero rfl _, octet_ne_zero rfl _, octet_ne_zero rfl _⟩

/-- Only a code unit that is zero has an octet that is. -/
theorem zero_mem_of_utf16ToUtf8 {us : List Nat} (h : 0 ∈ utf16ToUtf8 us) : 0 ∈ us := by
  fun_induction utf16ToUtf8 us with
  | case1 => cases h
  | case2 code us hsmall ih =>
    rcases List.mem_cons.mp h with hcode | hrest
    · have hmod : 0 = code % 256 := congrArg UInt8.toNat hcode
      have hzero : 0 = code := by omega
      rw [← hzero]
      exact List.mem_cons_self
    · exact List.mem_cons_of_mem _ (ih hrest)
  | case3 code us _ _ ih =>
    rcases List.mem_append.mp h with hcode | hrest
    · exact absurd hcode (zero_notMem_twoOctets code)
    · exact List.mem_cons_of_mem _ (ih hrest)
  | case4 code us _ _ _ ih =>
    rcases List.mem_append.mp h with hcode | hrest
    · exact absurd hcode (zero_notMem_threeOctets code)
    · exact List.mem_cons_of_mem _ (ih hrest)
  | case5 => exact absurd h (by decide)
  | case6 code _ _ _ _ trail us' _ cp ih =>
    rcases List.mem_append.mp h with hcode | hrest
    · split at hcode
      · exact absurd hcode (zero_notMem_threeOctets cp)
      · exact absurd hcode (zero_notMem_fourOctets cp)
    · exact List.mem_cons_of_mem _ (List.mem_cons_of_mem _ (ih hrest))
  | case7 code _ _ _ _ trail us' _ ih =>
    rcases List.mem_append.mp h with hcode | hrest
    · exact absurd hcode (by decide)
    · exact List.mem_cons_of_mem _ (ih hrest)
  | case8 code us _ _ _ _ ih =>
    rcases List.mem_append.mp h with hcode | hrest
    · exact absurd hcode (by decide)
    · exact List.mem_cons_of_mem _ (ih hrest)

/-- A text without a zero is a string as it stands. -/
theorem CString.ofBytes_utf16ToUtf8 {us : List Nat} (h : 0 ∉ us) :
    (CString.ofBytes (utf16ToUtf8 us)).octets = utf16ToUtf8 us :=
  CString.ofBytes_octets ⟨utf16ToUtf8 us, fun hzero => h (zero_mem_of_utf16ToUtf8 hzero)⟩

end Libsmb2
