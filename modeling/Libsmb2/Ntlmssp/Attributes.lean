import Libsmb2.Ntlmssp

/-!
# The attributes of a target info

`ntlm_decode_challenge_message` copies the target info attribute by attribute, and puts the name
of the server before its end.  Buffers are split where they are read and written.

* `transcodeInfo_attributes`, `transcodeInfo_end` — the rounds over a well-formed list;
* `transcodeInfo_lacks`, `transcodeInfo_breaks`, `transcodeInfo_ends`, `transcodeInfo_copies` — a
  round, whatever is found at the input offset.
-/

set_option autoImplicit false

namespace Libsmb2.Ntlm

open Util

/-! ## Reads and writes of buffers in pieces -/

theorem pure_eq_ok {α : Type} (a : α) : (pure a : Except Stop α) = .ok a := rfl

theorem fetch_of_eq {buf a b c : Bytes} {off n : Nat} (hbuf : buf = a ++ (b ++ c))
    (hoff : off = a.length) (hn : n = b.length) : fetch buf off n = .ok b := by
  subst hbuf hoff hn
  unfold fetch
  rw [if_pos (by simp only [List.length_append]; omega)]
  simp [slice]

theorem fetch_head {head rest : Bytes} {off n : Nat} (h : off + n ≤ head.length) :
    fetch (head ++ rest) off n = .ok (slice head off n) := by
  unfold fetch
  rw [if_pos (by simp only [List.length_append]; omega), slice_append_left h]

theorem store_head {head rest new : Bytes} {off : Nat} (h : off + new.length ≤ head.length) :
    store (head ++ rest) off new = .ok (patch head off new ++ rest) := by
  unfold store
  rw [if_pos (by simp only [List.length_append]; omega), patch_append h]

theorem fetch_ok {buf : Bytes} {off n : Nat} (h : off + n ≤ buf.length) :
    fetch buf off n = .ok (slice buf off n) := if_pos h

theorem fetch_overread {buf : Bytes} {off n : Nat} (h : ¬off + n ≤ buf.length) :
    fetch buf off n = .error .overread := if_neg h

/-- What is written where the output ends so far. -/
theorem store_end {w t new : Bytes} {off : Nat} (hoff : off = w.length)
    (h : new.length ≤ t.length) :
    store (w ++ t) off new = .ok (w ++ new ++ t.drop new.length) := by
  subst hoff
  unfold store patch
  rw [if_pos (by simp only [List.length_append]; omega)]
  simp [List.drop_append]

theorem patch_skip {x y new : Bytes} {off : Nat} (h : x.length ≤ off) :
    patch (x ++ y) off new = x ++ patch y (off - x.length) new := by
  have hdrop : off + new.length - x.length = off - x.length + new.length := by omega
  simp only [patch, List.take_append, List.drop_append, List.take_of_length_le h, hdrop,
    List.drop_of_length_le (show x.length ≤ off + new.length by omega), List.nil_append,
    List.append_assoc]

theorem patch_skip_le {k n off : Nat} {y new : Bytes} (h : k ≤ off) :
    patch (le k n ++ y) off new = le k n ++ patch y (off - k) new := by
  have hlen := length_le k n
  rw [patch_skip (by omega), hlen]

theorem patch_here_le {k n m : Nat} {y : Bytes} : patch (le k n ++ y) 0 (le k m) = le k m ++ y := by
  simp [patch]

/-! ## Fields -/

theorem le_four {n : Nat} (h : n < 65536) : le 4 n = le 2 n ++ le 2 0 := by
  have h₁ : n / 256 / 256 = 0 := by omega
  show UInt8.ofNat n :: UInt8.ofNat (n / 256) :: UInt8.ofNat (n / 256 / 256) ::
    UInt8.ofNat (n / 256 / 256 / 256) :: [] = _
  rw [h₁]
  rfl

theorem lengths_eq {n : Nat} (h : n < 65536) : lengths n = le 2 n ++ le 2 n := by
  have hor : n <<< 16 ||| n = n * 65536 + n := or_eq_add h
  have h₂ : (n * 65536 + n) / 256 / 256 = n := by omega
  unfold lengths
  rw [hor]
  show UInt8.ofNat (n * 65536 + n) :: UInt8.ofNat ((n * 65536 + n) / 256) ::
    UInt8.ofNat ((n * 65536 + n) / 256 / 256) ::
    UInt8.ofNat ((n * 65536 + n) / 256 / 256 / 256) :: [] = _
  rw [h₂]
  have h₀ : UInt8.ofNat (n * 65536 + n) = UInt8.ofNat n := by
    apply UInt8.toNat_inj.mp
    simp only [UInt8.toNat_ofNat']
    omega
  have h₁ : UInt8.ofNat ((n * 65536 + n) / 256) = UInt8.ofNat (n / 256) := by
    have hdiv : (n * 65536 + n) / 256 = n * 256 + n / 256 := by omega
    apply UInt8.toNat_inj.mp
    simp only [UInt8.toNat_ofNat', hdiv]
    omega
  rw [h₀, h₁]
  rfl

theorem fromLe_two {n : Nat} (h : n < 65536) : fromLe (le 2 n) = n := by
  rw [fromLe_le]
  exact Nat.mod_eq_of_lt h

theorem fromLe_four {n : Nat} (h : n < 4294967296) : fromLe (le 4 n) = n := by
  rw [fromLe_le]
  exact Nat.mod_eq_of_lt h

/-- The second of the two lengths is what is read. -/
theorem fromLe_lengths {n : Nat} (h : n < 65536) : fromLe (lengths n) >>> 16 = n := by
  unfold lengths
  have hor : n <<< 16 ||| n = n * 65536 + n := or_eq_add h
  rw [hor, fromLe_four (by omega), Nat.shiftRight_eq_div_pow]
  omega
/-- The UTF-8 form of a UTF-16 name. -/
def utf8Name (name : Bytes) : CString := CString.ofBytes (utf16ToUtf8 (utf16Units name))

/-! ## The target info -/

/-- A list of attributes, without its end. -/
def attributes (as : List (Nat × Bytes)) : Bytes := as.flatMap fun a => attr a.1 a.2.length a.2

/-- The attribute is not taken for the end of the list. -/
structure IsAttribute (a : Nat × Bytes) : Prop where
  code_pos : 0 < a.1
  code_lt : a.1 < 65536
  value_lt : a.2.length < 65536

/-- The target name that the client inserts. -/
def spnAttribute : Option (List Nat) → Bytes
  | none => []
  | some us => attr 9 (2 * us.length % 65536) ((utf16Octets us).take (2 * us.length % 65536))

theorem length_attr (code n : Nat) (val : Bytes) : (attr code n val).length = 4 + val.length := by
  simp only [attr, List.length_append, length_le]

theorem attributes_cons (a : Nat × Bytes) (as : List (Nat × Bytes)) :
    attributes (a :: as) = attr a.1 a.2.length a.2 ++ attributes as := List.flatMap_cons

/-- What is written at the output offset. -/
theorem Transcoder.put_end (w : Bytes) {rest new : Bytes} (inoff inlen infolen : Nat)
    (h : new.length ≤ rest.length) :
    Transcoder.put ⟨w ++ rest, inoff, inlen, w.length, infolen⟩ new =
      .ok ⟨w ++ new ++ rest.drop new.length, inoff, inlen, w.length + new.length, infolen⟩ := by
  unfold Transcoder.put
  rw [store_end rfl h]
  rfl

theorem Transcoder.put_overwrites (w : Bytes) {rest new : Bytes} (inoff inlen infolen : Nat)
    (h : rest.length < new.length) :
    Transcoder.put ⟨w ++ rest, inoff, inlen, w.length, infolen⟩ new = .error .overwrite := by
  unfold Transcoder.put store
  rw [if_neg (by simp only [List.length_append]; omega)]
  rfl

theorem length_spnAttribute_some (us : List Nat) :
    (spnAttribute (some us)).length = 4 + 2 * us.length % 65536 := by
  rw [spnAttribute, length_attr, List.length_take, length_utf16Octets]
  omega

theorem insertTargetName_eq {spn : Option (List Nat)} {w rest : Bytes} {inoff inlen infolen : Nat}
    (hroom : (spnAttribute spn).length ≤ rest.length) (hinfolen : infolen < 65536) :
    insertTargetName spn ⟨w ++ rest, inoff, inlen, w.length, infolen⟩ =
      .ok ⟨w ++ spnAttribute spn ++ rest.drop (spnAttribute spn).length, inoff, inlen,
        w.length + (spnAttribute spn).length, (infolen + (spnAttribute spn).length) % 65536⟩ := by
  cases spn with
  | none =>
    have hnil : spnAttribute none = [] := rfl
    simp only [hnil, List.append_nil, List.length_nil, List.drop_zero, Nat.add_zero,
      Nat.mod_eq_of_lt hinfolen]
    rfl
  | some us =>
    have hlen := length_spnAttribute_some us
    have hput := Transcoder.put_end w inoff inlen infolen hroom
    have hsum : (infolen + 4 + 2 * us.length % 65536) % 65536 =
        (infolen + (spnAttribute (some us)).length) % 65536 := by rw [hlen, Nat.add_assoc]
    unfold insertTargetName
    simp only
    change (Transcoder.put _ (spnAttribute (some us)) >>= _) = _
    rw [hput, ok_bind, pure_eq_ok]
    simp only [hsum]

theorem insertTargetName_overwrites {spn : Option (List Nat)} {w rest : Bytes}
    {inoff inlen infolen : Nat} (hroom : rest.length < (spnAttribute spn).length) :
    insertTargetName spn ⟨w ++ rest, inoff, inlen, w.length, infolen⟩ = .error .overwrite := by
  cases spn with
  | none => exact absurd hroom (Nat.not_lt_zero _)
  | some us =>
    unfold insertTargetName
    simp only
    change (Transcoder.put _ (spnAttribute (some us)) >>= _) = _
    rw [Transcoder.put_overwrites _ _ _ _ hroom]
    rfl

/-! ## A round -/

/-- The code of the attribute at `off`. -/
def attrCode (buf : Bytes) (off : Nat) : Nat := fromLe (slice buf off 2)

/-- The length that the attribute at `off` gives for its value. -/
def attrLen (buf : Bytes) (off : Nat) : Nat := fromLe (slice buf (off + 2) 2)

/-- The loop breaks off at an attribute that is longer than what is left. -/
def Breaks (buf : Bytes) (room inoff inlen outoff : Nat) : Prop :=
  inlen < attrLen buf inoff ∨ room < outoff + attrLen buf inoff

variable {spn : Option (List Nat)} {buf w rest : Bytes} {inoff inlen infolen fuel : Nat}

theorem transcodeInfo_done {t : Transcoder} (h : t.inlen = 0) :
    transcodeInfo spn buf (fuel + 1) t = .ok t := by
  rw [transcodeInfo, if_pos h]

/-- The attribute's head is not all in the message. -/
theorem transcodeInfo_lacks {t : Transcoder} (hmore : t.inlen ≠ 0)
    (hin : buf.length < t.inoff + 4) :
    transcodeInfo spn buf (fuel + 1) t = .error .overread := by
  rw [transcodeInfo, if_neg hmore]
  by_cases hcode : t.inoff + 2 ≤ buf.length
  · rw [fetch_ok hcode, ok_bind, fetch_overread (by omega)]
    rfl
  · rw [fetch_overread hcode]
    rfl

/-- A round, once the attribute's head is read. -/
theorem transcodeInfo_round {t : Transcoder} (hmore : t.inlen ≠ 0)
    (hin : t.inoff + 4 ≤ buf.length) :
    transcodeInfo spn buf (fuel + 1) t =
      if t.inlen < attrLen buf t.inoff ∨ t.out.length < t.outoff + attrLen buf t.inoff then .ok t
      else if attrCode buf t.inoff = 0 then
        insertTargetName spn t >>= fun t => t.put (le 4 0) >>= fun t =>
          transcodeInfo spn buf fuel (t.advance 0)
      else
        fetch buf (t.inoff + 4) (attrLen buf t.inoff) >>= fun val =>
          t.put (attr (attrCode buf t.inoff) (attrLen buf t.inoff) val) >>= fun t' =>
            transcodeInfo spn buf fuel (t'.advance (attrLen buf t.inoff)) := by
  rw [transcodeInfo, if_neg hmore, fetch_ok (by omega), ok_bind, fetch_ok (by omega), ok_bind]
  rfl

theorem transcodeInfo_breaks {t : Transcoder} (hmore : t.inlen ≠ 0)
    (hin : t.inoff + 4 ≤ buf.length) (hbreak : Breaks buf t.out.length t.inoff t.inlen t.outoff) :
    transcodeInfo spn buf (fuel + 1) t = .ok t := by
  rw [transcodeInfo_round hmore hin]
  exact if_pos hbreak

/-- The end of the list, up to what is written for it. -/
theorem transcodeInfo_ends (hmore : inlen ≠ 0) (hin : inoff + 4 ≤ buf.length)
    (hgoes : ¬Breaks buf (w.length + rest.length) inoff inlen w.length)
    (hcode : attrCode buf inoff = 0) :
    transcodeInfo spn buf (fuel + 1) ⟨w ++ rest, inoff, inlen, w.length, infolen⟩ =
      (insertTargetName spn ⟨w ++ rest, inoff, inlen, w.length, infolen⟩ >>= fun t =>
        t.put (le 4 0) >>= fun t => transcodeInfo spn buf fuel (t.advance 0)) := by
  rw [transcodeInfo_round hmore hin, List.length_append]
  unfold Breaks at hgoes
  rw [if_neg hgoes, if_pos hcode]

/-- The end of the list is written, the name of the server before it. -/
theorem transcodeInfo_ends_fits (hmore : inlen ≠ 0) (hin : inoff + 4 ≤ buf.length)
    (hgoes : ¬Breaks buf (w.length + rest.length) inoff inlen w.length)
    (hcode : attrCode buf inoff = 0) (hfits : (spnAttribute spn).length + 4 ≤ rest.length)
    (hinfolen : infolen < 65536) :
    transcodeInfo spn buf (fuel + 1) ⟨w ++ rest, inoff, inlen, w.length, infolen⟩ =
      transcodeInfo spn buf fuel ⟨w ++ (spnAttribute spn ++ le 4 0) ++
          rest.drop ((spnAttribute spn).length + 4), (inoff + 4) % 4294967296,
        (inlen + 131072 - 4) % 65536, w.length + ((spnAttribute spn).length + 4),
        (infolen + ((spnAttribute spn).length + 4)) % 65536⟩ := by
  have hleft : (le 4 0).length ≤ (rest.drop (spnAttribute spn).length).length := by
    rw [List.length_drop, length_le]
    omega
  have hsum : ((infolen + (spnAttribute spn).length) % 65536 + 4) % 65536 =
      (infolen + ((spnAttribute spn).length + 4)) % 65536 := by omega
  rw [transcodeInfo_ends hmore hin hgoes hcode, insertTargetName_eq (by omega) hinfolen, ok_bind,
    ← List.length_append, Transcoder.put_end _ _ _ _ hleft, ok_bind]
  simp only [Transcoder.advance, Nat.add_zero, List.length_append, length_le, List.append_assoc,
    List.drop_drop, Nat.add_assoc, hsum]

/-- There is no room for the end of the list, or none for the name before it. -/
theorem transcodeInfo_ends_overwrites (hmore : inlen ≠ 0) (hin : inoff + 4 ≤ buf.length)
    (hgoes : ¬Breaks buf (w.length + rest.length) inoff inlen w.length)
    (hcode : attrCode buf inoff = 0) (hfits : rest.length < (spnAttribute spn).length + 4)
    (hinfolen : infolen < 65536) :
    transcodeInfo spn buf (fuel + 1) ⟨w ++ rest, inoff, inlen, w.length, infolen⟩ =
      .error .overwrite := by
  rw [transcodeInfo_ends hmore hin hgoes hcode]
  by_cases hspn : (spnAttribute spn).length ≤ rest.length
  · have hleft : (rest.drop (spnAttribute spn).length).length < (le 4 0).length := by
      rw [List.length_drop, length_le]
      omega
    rw [insertTargetName_eq hspn hinfolen, ok_bind, ← List.length_append,
      Transcoder.put_overwrites _ _ _ _ hleft]
    rfl
  · rw [insertTargetName_overwrites (by omega)]
    rfl

/-- An attribute is copied. -/
theorem transcodeInfo_copies (hmore : inlen ≠ 0)
    (hin : inoff + 4 + attrLen buf inoff ≤ buf.length)
    (hgoes : ¬Breaks buf (w.length + rest.length) inoff inlen w.length)
    (hcode : attrCode buf inoff ≠ 0) (hfits : 4 + attrLen buf inoff ≤ rest.length) :
    transcodeInfo spn buf (fuel + 1) ⟨w ++ rest, inoff, inlen, w.length, infolen⟩ =
      transcodeInfo spn buf fuel ⟨w ++ attr (attrCode buf inoff) (attrLen buf inoff)
            (slice buf (inoff + 4) (attrLen buf inoff)) ++ rest.drop (4 + attrLen buf inoff),
        (inoff + 4 + attrLen buf inoff) % 4294967296,
        (inlen + 131072 - (4 + attrLen buf inoff)) % 65536, w.length + (4 + attrLen buf inoff),
        (infolen + 4 + attrLen buf inoff) % 65536⟩ := by
  have hval : (slice buf (inoff + 4) (attrLen buf inoff)).length = attrLen buf inoff := by
    rw [length_slice]
    omega
  have hlen : (attr (attrCode buf inoff) (attrLen buf inoff)
      (slice buf (inoff + 4) (attrLen buf inoff))).length = 4 + attrLen buf inoff := by
    rw [length_attr, hval]
  have hput := Transcoder.put_end w inoff inlen infolen (hlen.trans_le hfits)
  have hhead : inoff + 4 ≤ buf.length := by omega
  unfold Breaks at hgoes
  rw [transcodeInfo_round hmore hhead, List.length_append, if_neg hgoes, if_neg hcode,
    fetch_ok hin, ok_bind, hput, ok_bind, hlen]
  rfl

/-- The attribute's value is not all in the message. -/
theorem transcodeInfo_copies_overreads (hmore : inlen ≠ 0) (hin : inoff + 4 ≤ buf.length)
    (hgoes : ¬Breaks buf (w.length + rest.length) inoff inlen w.length)
    (hcode : attrCode buf inoff ≠ 0) (hval : buf.length < inoff + 4 + attrLen buf inoff) :
    transcodeInfo spn buf (fuel + 1) ⟨w ++ rest, inoff, inlen, w.length, infolen⟩ =
      .error .overread := by
  have hnot : ¬inoff + 4 + attrLen buf inoff ≤ buf.length := by omega
  unfold Breaks at hgoes
  rw [transcodeInfo_round hmore hin, List.length_append, if_neg hgoes, if_neg hcode,
    fetch_overread hnot]
  rfl

/-- There is no room for the attribute. -/
theorem transcodeInfo_copies_overwrites (hmore : inlen ≠ 0)
    (hin : inoff + 4 + attrLen buf inoff ≤ buf.length)
    (hgoes : ¬Breaks buf (w.length + rest.length) inoff inlen w.length)
    (hcode : attrCode buf inoff ≠ 0) (hfits : rest.length < 4 + attrLen buf inoff) :
    transcodeInfo spn buf (fuel + 1) ⟨w ++ rest, inoff, inlen, w.length, infolen⟩ =
      .error .overwrite := by
  have hval : (slice buf (inoff + 4) (attrLen buf inoff)).length = attrLen buf inoff := by
    rw [length_slice]
    omega
  have hhead : inoff + 4 ≤ buf.length := by omega
  unfold Breaks at hgoes
  rw [transcodeInfo_round hmore hhead, List.length_append, if_neg hgoes,
    if_neg hcode, fetch_ok hin, ok_bind,
    Transcoder.put_overwrites _ _ _ _ (by rw [length_attr, hval]; exact hfits)]
  rfl

/-! ## A list of attributes -/

/-- The head of an attribute where it stands. -/
theorem attr_at (pre tail : Bytes) {a : Nat × Bytes} (ha : IsAttribute a) :
    attrCode (pre ++ (attr a.1 a.2.length a.2 ++ tail)) pre.length = a.1 ∧
      attrLen (pre ++ (attr a.1 a.2.length a.2 ++ tail)) pre.length = a.2.length ∧
      slice (pre ++ (attr a.1 a.2.length a.2 ++ tail)) (pre.length + 4) a.2.length = a.2 := by
  have hskip : ∀ k n, slice (pre ++ (attr a.1 a.2.length a.2 ++ tail)) (pre.length + k) n =
      slice (le 2 a.1 ++ (le 2 a.2.length ++ (a.2 ++ tail))) k n := by
    intro k n
    rw [slice_append_right (Nat.le_add_right _ _), Nat.add_sub_cancel_left]
    simp only [attr, List.append_assoc]
  refine ⟨?_, ?_, ?_⟩
  · unfold attrCode
    rw [show pre.length = pre.length + 0 from rfl, hskip, slice_here_le, fromLe_two ha.code_lt]
  · unfold attrLen
    rw [hskip, slice_skip_le (by omega), slice_here_le, fromLe_two ha.value_lt]
  · rw [hskip, slice_skip_le (by omega), slice_skip_le (by omega), slice_append_left (by omega),
      slice_zero (Nat.le_refl _)]

/-- A round of the loop, for an attribute that is not the last one. -/
theorem transcodeInfo_attribute {a : Nat × Bytes} {pre tail : Bytes} (ha : IsAttribute a)
    (hin : 4 + a.2.length ≤ inlen) (hinlen : inlen < 65536) (hroom : 4 + a.2.length ≤ rest.length)
    (hpre : pre.length + 4 + a.2.length < 4294967296) :
    transcodeInfo spn (pre ++ (attr a.1 a.2.length a.2 ++ tail)) (fuel + 1)
        ⟨w ++ rest, pre.length, inlen, w.length, infolen⟩ =
      transcodeInfo spn (pre ++ (attr a.1 a.2.length a.2 ++ tail)) fuel
        ⟨w ++ attr a.1 a.2.length a.2 ++ rest.drop (4 + a.2.length), pre.length + 4 + a.2.length,
          inlen - (4 + a.2.length), w.length + (4 + a.2.length),
          (infolen + 4 + a.2.length) % 65536⟩ := by
  obtain ⟨hcode, hlen, hval⟩ := attr_at pre tail ha
  have hpos : a.1 ≠ 0 := Nat.ne_of_gt ha.code_pos
  have hinlen' : (inlen + 131072 - (4 + a.2.length)) % 65536 = inlen - (4 + a.2.length) := by omega
  have hbuf : pre.length + 4 + a.2.length ≤
      (pre ++ (attr a.1 a.2.length a.2 ++ tail)).length := by
    simp only [List.length_append, length_attr]
    omega
  have hgoes : ¬Breaks (pre ++ (attr a.1 a.2.length a.2 ++ tail)) (w.length + rest.length)
      pre.length inlen w.length := by
    unfold Breaks
    rw [hlen]
    omega
  rw [transcodeInfo_copies (by omega) (by rw [hlen]; exact hbuf) hgoes (by rw [hcode]; exact hpos)
    (by rw [hlen]; exact hroom), hlen, hcode, hval, Nat.mod_eq_of_lt hpre, hinlen']

/-- The rounds for the attributes before the end. -/
theorem transcodeInfo_attributes {as : List (Nat × Bytes)}
    (has : ∀ a ∈ as, IsAttribute a) {tail : Bytes} (fuel : Nat) :
    ∀ {pre w rest : Bytes} {inlen infolen : Nat}, (attributes as).length ≤ inlen →
      inlen < 65536 → (attributes as).length ≤ rest.length →
      pre.length + (attributes as).length < 4294967296 → infolen < 65536 →
    transcodeInfo spn (pre ++ (attributes as ++ tail)) (fuel + as.length)
        ⟨w ++ rest, pre.length, inlen, w.length, infolen⟩ =
      transcodeInfo spn (pre ++ (attributes as ++ tail)) fuel
        ⟨w ++ attributes as ++ rest.drop (attributes as).length,
          pre.length + (attributes as).length, inlen - (attributes as).length,
          w.length + (attributes as).length, (infolen + (attributes as).length) % 65536⟩ := by
  induction as with
  | nil =>
    intro pre w rest inlen infolen _ _ _ _ hinfolen
    have hnil : attributes [] = [] := rfl
    simp only [hnil, List.length_nil, Nat.add_zero, List.append_nil, List.drop_zero, Nat.sub_zero,
      Nat.mod_eq_of_lt hinfolen]
  | cons a as ih =>
    intro pre w rest inlen infolen hin hinlen hroom hpre _
    have hlen : (attributes (a :: as)).length = 4 + a.2.length + (attributes as).length := by
      rw [attributes_cons, List.length_append, length_attr]
    have hattr : (attr a.1 a.2.length a.2).length = 4 + a.2.length := length_attr _ _ _
    have hbuf : pre ++ (attributes (a :: as) ++ tail) =
        pre ++ (attr a.1 a.2.length a.2 ++ (attributes as ++ tail)) := by
      rw [attributes_cons, List.append_assoc]
    have hbuf' : pre ++ (attr a.1 a.2.length a.2 ++ (attributes as ++ tail)) =
        (pre ++ attr a.1 a.2.length a.2) ++ (attributes as ++ tail) := by
      rw [List.append_assoc]
    have hpre' : (pre ++ attr a.1 a.2.length a.2).length = pre.length + 4 + a.2.length := by
      rw [List.length_append, hattr, Nat.add_assoc]
    have hw : (w ++ attr a.1 a.2.length a.2).length = w.length + (4 + a.2.length) := by
      rw [List.length_append, hattr]
    have ha := has a List.mem_cons_self
    rw [hbuf, List.length_cons, ← Nat.add_assoc,
      transcodeInfo_attribute ha (by omega) hinlen (by omega) (by omega), hbuf', ← hpre', ← hw,
      ih (fun b hb => has b (List.mem_cons_of_mem a hb)) (by omega) (by omega)
        (by rw [List.length_drop]; omega) (by omega) (Nat.mod_lt _ (by omega)), hpre', hw]
    congr 2
    · rw [attributes_cons, List.append_assoc, List.append_assoc, List.drop_drop]
      simp only [List.length_append, List.append_assoc, hattr]
    · omega
    · omega
    · omega
    · omega

/-- The end of the list where it stands. -/
theorem end_at {off inlen' room outoff : Nat} (hend : slice buf off 4 = le 4 0)
    (hroom : outoff ≤ room) :
    attrCode buf off = 0 ∧ ¬Breaks buf room off inlen' outoff := by
  have hlen : attrLen buf off = 0 := by
    unfold attrLen
    rw [← slice_slice (show 2 + 2 ≤ 4 by decide), hend]
    rfl
  refine ⟨?_, ?_⟩
  · have hcode : slice buf off 2 = slice (slice buf off 4) 0 2 :=
      (slice_slice (show 0 + 2 ≤ 4 by decide)).symm
    unfold attrCode
    rw [hcode, hend]
    rfl
  · unfold Breaks
    rw [hlen]
    omega

/-- The rounds for the end of the list, when there is room for what they write. -/
theorem transcodeInfo_end (hin : inoff + 4 ≤ buf.length) (hend : slice buf inoff 4 = le 4 0)
    (hroom : (spnAttribute spn).length + 4 ≤ rest.length) (hinfolen : infolen < 65536)
    (hinoff : inoff + 4 < 4294967296) :
    transcodeInfo spn buf (fuel + 2) ⟨w ++ rest, inoff, 4, w.length, infolen⟩ =
      .ok ⟨w ++ (spnAttribute spn ++ le 4 0) ++ rest.drop ((spnAttribute spn).length + 4),
        inoff + 4, 0, w.length + ((spnAttribute spn).length + 4),
        (infolen + ((spnAttribute spn).length + 4)) % 65536⟩ := by
  obtain ⟨hcode, hgoes⟩ := end_at hend (Nat.le_add_right w.length rest.length)
  rw [transcodeInfo_ends_fits (by decide) hin hgoes hcode hroom hinfolen,
    transcodeInfo_done rfl, Nat.mod_eq_of_lt hinoff]

/-- The end marker at the end of a buffer. -/
theorem slice_end (pre : Bytes) :
    pre.length + 4 ≤ (pre ++ le 4 0).length ∧ slice (pre ++ le 4 0) pre.length 4 = le 4 0 := by
  refine ⟨?_, ?_⟩
  · rw [List.length_append, length_le]
  · rw [slice_append_right (Nat.le_refl _), Nat.sub_self]
    rfl

end Libsmb2.Ntlm
