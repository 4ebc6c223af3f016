import Libsmb2.QueryInfo.Encoders
import Libsmb2.QueryInfo.StreamList

/-!
# Where the streams of a list are put

What of a block the stream encoder writes, read off the list: each stream is put where the padding
behind the one before ends, by what its `stream_name_length` says, and its name is copied as long as
it is.  The two need not agree, and the places are counted modulo 2^32.

* `encodeStreams_of_valid` — what the encoder stores, stream by stream;
* `placedStores_fit_iff` — when all of that is in the block;
* `placed_cover_iff` — when there is no gap before an end.
-/

set_option autoImplicit false

namespace Libsmb2.QueryInfo

open Util

/-! ## Places -/

/-- How long the name is that is copied. -/
def StreamInfo.nameLength (fs : StreamInfo) : Nat := (fs.nameOctets.getD []).length

/-- A stream where it is put, and where the padding behind it ends; behind the last of a list there
is none. -/
structure PlacedStream where
  info : StreamInfo
  off : Nat
  next : Nat

namespace PlacedStream

/-- Where the name ends. -/
def nameEnd (p : PlacedStream) : Nat := p.off + 24 + p.info.nameLength

/-- The octet is in the fields, the name or the padding. -/
def Has (p : PlacedStream) (i : Nat) : Prop :=
  (p.off ≤ i ∧ i < p.nameEnd) ∨ (p.info.stop p.off ≤ i ∧ i < p.next)

/-- The fields do not reach 2^32, and the name ends in the block. -/
def InBlock (size : Nat) (p : PlacedStream) : Prop :=
  p.off + 24 < 2 ^ 32 ∧ (p.info.nameLength = 0 ∨ p.nameEnd ≤ size)

/-- What is stored for it. -/
def stores (size : Nat) (p : PlacedStream) : List Store :=
  streamStores size p.off p.next p.info (p.info.nameOctets.getD []) ++
    (List.range' (p.info.stop p.off) (p.next - p.info.stop p.off)).flatMap (setAt size · [0])

end PlacedStream

/-- A further stream is put there: the offset is not zero, and there is room for its fields. -/
def Follows (size next : Nat) : Prop := next ≠ 0 ∧ (next + 24) % 2 ^ 32 ≤ size

instance (size next : Nat) : Decidable (Follows size next) := inferInstanceAs (Decidable (_ ∧ _))

/-- The streams that are put into the block, the first of them at `off`. -/
def placed (size off : Nat) (fs : StreamInfo) : List StreamInfo → List PlacedStream
  | [] => [⟨fs, off, 0⟩]
  | next :: rest =>
    let padded := padTo64 (fs.stop off)
    ⟨fs, off, padded⟩ :: if Follows size padded then placed size padded next rest else []

/-- Where they end. -/
def placedEnd (size off : Nat) (fs : StreamInfo) : List StreamInfo → Nat
  | [] => fs.stop off
  | next :: rest =>
    let padded := padTo64 (fs.stop off)
    if Follows size padded then placedEnd size padded next rest else max (fs.stop off) padded

/-- Before `n` there is no gap: what is behind a name is in a stream. -/
def NoGap (streams : List PlacedStream) (n : Nat) : Prop :=
  ∀ p ∈ streams, p.nameEnd < n → ∃ q ∈ streams, q.Has p.nameEnd

/-- A list is put into the block, and no gap is sent; of a list without an end nothing is, but for
what the application says that there is. -/
structure StreamsStay (passthrough : Bool) (requested length size : Nat) (first : StreamInfo)
    (rest : List StreamInfo) : Prop where
  named : ∀ p ∈ placed size 0 first rest, p.info.nameOctets ≠ none
  inBlock : ∀ p ∈ placed size 0 first rest, p.InBlock size
  sent :
    if placedEnd size 0 first rest = 0 then length ≤ requested ∧ (passthrough = true → length ≤ size)
    else padTo64 (min (placedEnd size 0 first rest) requested) ≤ size ∧
      NoGap (placed size 0 first rest) (padTo64 (min (placedEnd size 0 first rest) requested))

section
variable {size off : Nat} {fs : StreamInfo} {rest : List StreamInfo} {p : PlacedStream}

theorem stop_lt (fs : StreamInfo) (off : Nat) : fs.stop off < 2 ^ 32 := Nat.mod_lt _ (by decide)

/-- An offset that is not padded to zero is padded upwards. -/
theorem le_padTo64_of_ne {stop : Nat} (hstop : stop < 2 ^ 32) (h : padTo64 stop ≠ 0) :
    stop ≤ padTo64 stop := by
  unfold padTo64 at *
  omega

theorem padTo64_le_paddedEnd {n stop : Nat} (h : n ≤ stop) : padTo64 n ≤ paddedEnd stop :=
  (Nat.mod_le _ _).trans (Nat.mul_le_mul_right 8 (Nat.div_le_div_right (Nat.add_le_add_right h 7)))

theorem placed_head : ∃ p ∈ placed size off fs rest, p.off = off := by
  cases rest with
  | nil => exact ⟨_, List.mem_cons_self, rfl⟩
  | cons next rest => exact ⟨_, List.mem_cons_self, rfl⟩

/-- **What the encoder stores**, if the names are valid. -/
theorem encodeStreams_of_valid (h : ∀ p ∈ placed size off fs rest, p.info.nameOctets ≠ none) :
    encodeStreams size off fs rest =
      ⟨(placed size off fs rest).flatMap (PlacedStream.stores size),
        some (placedEnd size off fs rest)⟩ := by
  induction rest generalizing off fs with
  | nil =>
    obtain ⟨name, hname⟩ := Option.ne_none_iff_exists'.mp (h _ List.mem_cons_self)
    replace hname : fs.nameOctets = some name := hname
    rw [encodeStreams, hname]
    simp [placed, placedEnd, PlacedStream.stores, streamStores, hname]
  | cons next rest ih =>
    obtain ⟨name, hname⟩ := Option.ne_none_iff_exists'.mp (h _ List.mem_cons_self)
    replace hname : fs.nameOctets = some name := hname
    rw [placed] at h
    rw [encodeStreams, placed, placedEnd, hname]
    simp only
    by_cases hpadded : padTo64 (fs.stop off) = 0
    · have hnot : ¬ Follows size (padTo64 (fs.stop off)) := fun h => h.1 hpadded
      rw [if_neg (fun h => h.1 hpadded), if_neg hnot, if_neg hnot]
      simp [PlacedStream.stores, streamStores, hname]
    · rw [Nat.max_eq_right (le_padTo64_of_ne (stop_lt fs off) hpadded)]
      by_cases hfollows : Follows size (padTo64 (fs.stop off))
      · simp only [if_pos hfollows] at h
        have hlater := ih fun p hp => h p (List.mem_cons_of_mem _ hp)
        rw [if_pos (show _ ∧ _ from hfollows), if_pos hfollows, if_pos hfollows, hlater]
        simp [PlacedStream.stores, streamStores, hname]
      · rw [if_neg (show ¬ (_ ∧ _) from hfollows), if_neg hfollows, if_neg hfollows]
        simp [PlacedStream.stores, streamStores, hname]

/-- A name that is not valid makes the encoder fail. -/
theorem encodeStreams_of_invalid (hp : p ∈ placed size off fs rest)
    (hnone : p.info.nameOctets = none) : (encodeStreams size off fs rest).ret = none := by
  induction rest generalizing off fs with
  | nil =>
    obtain rfl := List.mem_singleton.mp hp
    replace hnone : fs.nameOctets = none := hnone
    rw [encodeStreams, hnone]
  | cons next rest ih =>
    rw [encodeStreams]
    cases hname : fs.nameOctets with
    | none => rfl
    | some name =>
      rw [placed] at hp
      rcases List.mem_cons.mp hp with rfl | hp
      · replace hnone : fs.nameOctets = none := hnone
        rw [hname] at hnone
        cases hnone
      · split at hp
        · rename_i hfollows
          simp only
          rw [Nat.max_eq_right (le_padTo64_of_ne (stop_lt fs off) hfollows.1),
            if_pos (show _ ∧ _ from hfollows)]
          exact ih hp
        · cases hp

/-- Where a stream may be put: at a multiple of eight, with room for its fields modulo 2^32. -/
structure PlacedStream.Aligned (size : Nat) (p : PlacedStream) : Prop where
  off : p.off % 8 = 0
  room : p.off = 0 ∨ (p.off + 24) % 2 ^ 32 ≤ size
  next : p.next % 8 = 0
  short : p.off < 2 ^ 32 ∧ p.next < 2 ^ 32

theorem placed_aligned (hoff : off % 8 = 0) (hshort : off < 2 ^ 32)
    (hroom : off = 0 ∨ (off + 24) % 2 ^ 32 ≤ size) (hp : p ∈ placed size off fs rest) :
    p.Aligned size := by
  have hlt (stop : Nat) : padTo64 stop < 2 ^ 32 := Nat.mod_lt _ (by decide)
  induction rest generalizing off fs with
  | nil =>
    obtain rfl := List.mem_singleton.mp hp
    exact ⟨hoff, hroom, rfl, hshort, Nat.two_pow_pos 32⟩
  | cons next rest ih =>
    rw [placed] at hp
    rcases List.mem_cons.mp hp with rfl | hp
    · exact ⟨hoff, hroom, padTo64_mod _, hshort, hlt _⟩
    · split at hp
      · rename_i hfollows
        exact ih (padTo64_mod _) (hlt _) (.inr hfollows.2) hp
      · cases hp

/-- Behind the padding is the next stream, or the end. -/
theorem placed_next (hp : p ∈ placed size off fs rest) :
    p.next = 0 ∨ (∃ q ∈ placed size off fs rest, q.off = p.next) ∨
      placedEnd size off fs rest = max (p.info.stop p.off) p.next := by
  induction rest generalizing off fs with
  | nil =>
    obtain rfl := List.mem_singleton.mp hp
    exact .inl rfl
  | cons next rest ih =>
    rw [placed] at hp ⊢
    rw [placedEnd]
    by_cases hfollows : Follows size (padTo64 (fs.stop off))
    · rw [if_pos hfollows] at hp ⊢
      rw [if_pos hfollows]
      rcases List.mem_cons.mp hp with rfl | hp
      · obtain ⟨q, hq, hoff⟩ : ∃ q ∈ placed size (padTo64 (fs.stop off)) next rest,
            q.off = padTo64 (fs.stop off) := placed_head
        exact .inr (.inl ⟨q, List.mem_cons_of_mem _ hq, hoff⟩)
      · rcases ih hp with hzero | ⟨q, hq, hoff⟩ | hend
        · exact .inl hzero
        · exact .inr (.inl ⟨q, List.mem_cons_of_mem _ hq, hoff⟩)
        · exact .inr (.inr hend)
    · rw [if_neg hfollows] at hp ⊢
      rw [if_neg hfollows]
      obtain rfl := List.mem_singleton.mp hp
      exact .inr (.inr rfl)

end

/-! ## What is in the block -/

section
variable {size : Nat} {p : PlacedStream} {st : Store} {i : Nat}

/-- A field that ends at 2^32 is copied to far behind the block. -/
theorem setAt_far {off w : Nat} (n : Nat) (hoff : off + w = 2 ^ 32) (hpos : 0 < w) (hw : w ≤ 8)
    (hsize : size < 2 ^ 31) : ∃ st ∈ setAt size off (le w n), ¬ st.Fits size := by
  have hlen : (le w n).length = w := length_le w n
  refine ⟨.copy (2 ^ 64 - 2 ^ 32 + off) (le w n), ?_, ?_⟩
  · unfold setAt
    simp only
    rw [Nat.mod_eq_of_lt (by omega), if_neg (by omega), if_neg (by omega)]
    exact List.mem_singleton_self _
  · rintro (hnil | hin)
    · rw [hnil, List.length_nil] at hlen
      omega
    · omega

theorem fits_setAt {off : Nat} {bs : Bytes} (hoff : off + bs.length < 2 ^ 32)
    (hst : st ∈ setAt size off bs) : st.Fits size := by
  rw [setAt_eq hoff] at hst
  split_ifs at hst
  · obtain rfl := List.mem_singleton.mp hst
    trivial
  · cases hst

namespace PlacedStream

/-- The stores for a stream, each of its own kind. -/
theorem mem_stores : st ∈ p.stores size ↔
    st ∈ setAt size (p.off + 8) (le 8 p.info.streamSize.toNat) ∨
    st ∈ setAt size (p.off + 4) (le 4 p.info.doubled) ∨
    st ∈ setAt size (p.off + 16) (le 8 p.info.streamAllocationSize.toNat) ∨
    st = .copy ((p.off + 24) % 2 ^ 32) (p.info.nameOctets.getD []) ∨
    st ∈ setAt size p.off (le 4 p.next) ∨
    ∃ o, p.info.stop p.off ≤ o ∧ o < p.next ∧ st ∈ setAt size o [0] := by
  simp only [stores, streamStores, StreamInfo.fields, List.mem_append, List.mem_singleton,
    List.mem_flatMap, List.mem_range'_1, or_assoc]
  have hpadding : (∃ o, (p.info.stop p.off ≤ o ∧
      o < p.info.stop p.off + (p.next - p.info.stop p.off)) ∧ st ∈ setAt size o [0]) ↔
      ∃ o, p.info.stop p.off ≤ o ∧ o < p.next ∧ st ∈ setAt size o [0] := by
    refine exists_congr fun o => ?_
    rw [and_assoc]
    refine and_congr_right fun hlow => and_congr_left fun _ => ?_
    omega
  rw [hpadding]

theorem stores_fit_iff (h : p.Aligned size) (hsize : size < 2 ^ 31) :
    (∀ st ∈ p.stores size, st.Fits size) ↔ p.InBlock size := by
  obtain ⟨hoff, hroom, hnext, hshort⟩ := h
  constructor
  · intro hfits
    have hlow : p.off + 24 < 2 ^ 32 := by
      by_contra hhigh
      -- one of the fields ends at 2^32
      obtain hplace | hplace | hplace :
          p.off + 16 + 8 = 2 ^ 32 ∨ p.off + 8 + 8 = 2 ^ 32 ∨ p.off + 4 + 4 = 2 ^ 32 := by omega
      · obtain ⟨st, hst, hnot⟩ := setAt_far p.info.streamAllocationSize.toNat hplace (by decide)
          (by decide) hsize
        exact hnot (hfits st (mem_stores.mpr (.inr (.inr (.inl hst)))))
      · obtain ⟨st, hst, hnot⟩ := setAt_far p.info.streamSize.toNat hplace (by decide) (by decide)
          hsize
        exact hnot (hfits st (mem_stores.mpr (.inl hst)))
      · obtain ⟨st, hst, hnot⟩ := setAt_far p.info.doubled hplace (by decide) (by decide) hsize
        exact hnot (hfits st (mem_stores.mpr (.inr (.inl hst))))
    refine ⟨hlow, ?_⟩
    rcases hfits _ (mem_stores.mpr (.inr (.inr (.inr (.inl rfl))))) with hnil | hin
    · exact .inl (congrArg List.length hnil)
    · rw [Nat.mod_eq_of_lt hlow] at hin
      exact .inr hin
  · rintro ⟨hlow, hname⟩ st hst
    rcases mem_stores.mp hst with hst | hst | hst | rfl | hst | ⟨o, hstop, ho, hst⟩
    · exact fits_setAt (by simp; omega) hst
    · exact fits_setAt (by simp; omega) hst
    · exact fits_setAt (by simp; omega) hst
    · rw [Nat.mod_eq_of_lt hlow]
      exact hname.imp_left List.eq_nil_of_length_eq_zero
    · exact fits_setAt (by simp; omega) hst
    · exact fits_setAt (by simp; omega) hst

/-- Of what is sent, the stores have what the stream has. -/
theorem stores_cover_iff (h : p.Aligned size) (hin : p.InBlock size) (hsize : size < 2 ^ 31)
    {n : Nat} (hn : n % 8 = 0) (hroom : n ≤ size) (hi : i < n) :
    (∃ st ∈ p.stores size, st.Covers size i) ↔ p.Has i := by
  obtain ⟨hoff, -, hnext, -, hshort⟩ := h
  obtain ⟨hlow, hname⟩ := hin
  have hlen : (p.info.nameOctets.getD []).length = p.info.nameLength := rfl
  have hend : p.nameEnd = p.off + 24 + p.info.nameLength := rfl
  constructor
  · rintro ⟨st, hst, hfrom, hto, -⟩
    rcases mem_stores.mp hst with hst | hst | hst | rfl | hst | ⟨o, hstop, ho, hst⟩
    · have hat := mem_setAt (by simp; omega) hst
      rw [length_le] at hat
      exact .inl ⟨by omega, by omega⟩
    · have hat := mem_setAt (by simp; omega) hst
      rw [length_le] at hat
      exact .inl ⟨by omega, by omega⟩
    · have hat := mem_setAt (by simp; omega) hst
      rw [length_le] at hat
      exact .inl ⟨by omega, by omega⟩
    · rw [Nat.mod_eq_of_lt hlow] at hfrom hto
      simp only [Store.off, Store.stop, Store.bytes] at hfrom hto
      exact .inl ⟨by omega, by omega⟩
    · have hat := mem_setAt (by simp; omega) hst
      rw [length_le] at hat
      exact .inl ⟨by omega, by omega⟩
    · have hat := mem_setAt (by simp; omega) hst
      rw [List.length_singleton] at hat
      exact .inr ⟨by omega, by omega⟩
  · have hset (o : Nat) (bs : Bytes) (ho : o + bs.length < 2 ^ 32) (hfrom : o ≤ i)
        (hto : i < o + bs.length) (hfit : o + bs.length ≤ size) :
        ∃ st ∈ setAt size o bs, st.Covers size i := by
      rw [setAt_eq ho, if_pos (by omega)]
      exact ⟨_, List.mem_singleton_self _, hfrom, hto, hfit⟩
    rintro (⟨hfrom, hto⟩ | ⟨hfrom, hto⟩)
    · by_cases hcopied : p.off + 24 ≤ i
      · refine ⟨_, mem_stores.mpr (.inr (.inr (.inr (.inl rfl)))), ?_⟩
        rw [Nat.mod_eq_of_lt hlow]
        refine ⟨hcopied, hto, ?_⟩
        show p.nameEnd ≤ size
        omega
      -- no field crosses a multiple of eight
      obtain hfield | hfield | hfield | hfield : i < p.off + 4 ∨ (p.off + 4 ≤ i ∧ i < p.off + 8) ∨
          (p.off + 8 ≤ i ∧ i < p.off + 16) ∨ p.off + 16 ≤ i := by omega
      · obtain ⟨st, hst, hcovers⟩ := hset p.off (le 4 p.next) (by simp; omega) hfrom
          (by simpa using hfield) (by simp; omega)
        exact ⟨st, mem_stores.mpr (.inr (.inr (.inr (.inr (.inl hst))))), hcovers⟩
      · obtain ⟨st, hst, hcovers⟩ := hset (p.off + 4) (le 4 p.info.doubled) (by simp; omega)
          hfield.1 (by simp; omega) (by simp; omega)
        exact ⟨st, mem_stores.mpr (.inr (.inl hst)), hcovers⟩
      · obtain ⟨st, hst, hcovers⟩ := hset (p.off + 8) (le 8 p.info.streamSize.toNat)
          (by simp; omega) hfield.1 (by simp; omega) (by simp; omega)
        exact ⟨st, mem_stores.mpr (.inl hst), hcovers⟩
      · obtain ⟨st, hst, hcovers⟩ := hset (p.off + 16) (le 8 p.info.streamAllocationSize.toNat)
          (by simp; omega) hfield (by simp; omega) (by simp; omega)
        exact ⟨st, mem_stores.mpr (.inr (.inr (.inl hst))), hcovers⟩
    · obtain ⟨st, hst, hcovers⟩ := hset i [0] (by simp; omega) le_rfl (by simp) (by simp; omega)
      exact ⟨st, mem_stores.mpr (.inr (.inr (.inr (.inr (.inr ⟨i, hfrom, hto, hst⟩))))), hcovers⟩

end PlacedStream

end

/-! ## Lists in the block -/

section
variable {size : Nat} {first : StreamInfo} {rest : List StreamInfo}

theorem aligned_of_mem {p : PlacedStream} (hp : p ∈ placed size 0 first rest) : p.Aligned size :=
  placed_aligned rfl (by decide) (.inl rfl) hp

theorem placedStores_fit_iff (hsize : size < 2 ^ 31) :
    (∀ st ∈ (placed size 0 first rest).flatMap (PlacedStream.stores size), st.Fits size) ↔
      ∀ p ∈ placed size 0 first rest, p.InBlock size := by
  constructor
  · intro h p hp
    exact (PlacedStream.stores_fit_iff (aligned_of_mem hp) hsize).mp fun st hst =>
      h st (List.mem_flatMap.mpr ⟨p, hp, hst⟩)
  · intro h st hst
    obtain ⟨p, hp, hst⟩ := List.mem_flatMap.mp hst
    exact (PlacedStream.stores_fit_iff (aligned_of_mem hp) hsize).mpr (h p hp) st hst

/-- Up to a multiple of eight that is not behind the end, all is in a stream if what is behind each
name is. -/
theorem placed_has_iff {n : Nat} (hn : n ≤ paddedEnd (placedEnd size 0 first rest)) :
    (∀ i < n, ∃ p ∈ placed size 0 first rest, p.Has i) ↔ NoGap (placed size 0 first rest) n := by
  constructor
  · intro h p _ hp
    exact h _ hp
  intro h i
  induction i with
  | zero =>
    intro _
    obtain ⟨p, hp, hoff⟩ : ∃ p ∈ placed size 0 first rest, p.off = 0 := placed_head
    refine ⟨p, hp, .inl ⟨by omega, ?_⟩⟩
    unfold PlacedStream.nameEnd
    omega
  | succ i ih =>
    intro hi
    obtain ⟨p, hp, hhas⟩ := ih (by omega)
    rcases hhas with ⟨hfrom, hto⟩ | ⟨hfrom, hto⟩
    · by_cases hend : i + 1 = p.nameEnd
      · rw [hend] at hi ⊢
        exact h p hp hi
      · exact ⟨p, hp, .inl ⟨by omega, by omega⟩⟩
    · by_cases hend : i + 1 = p.next
      · have haligned := aligned_of_mem hp
        have hnext := haligned.next
        have hshort := haligned.short
        rcases placed_next hp with hzero | ⟨q, hq, hoff⟩ | hlast
        · omega
        · refine ⟨q, hq, .inl ⟨by omega, ?_⟩⟩
          unfold PlacedStream.nameEnd
          omega
        · -- the padding ends the list at a multiple of eight
          rw [hlast, Nat.max_eq_right (by omega)] at hn
          unfold paddedEnd at hn
          omega
      · exact ⟨p, hp, .inr ⟨by omega, by omega⟩⟩

/-- **What is sent was written exactly if there is no gap in it.** -/
theorem placed_cover_iff {n : Nat} (hin : ∀ p ∈ placed size 0 first rest, p.InBlock size)
    (hsize : size < 2 ^ 31) (hmod : n % 8 = 0) (hroom : n ≤ size)
    (hn : n ≤ paddedEnd (placedEnd size 0 first rest)) :
    (∀ i < n, ∃ st ∈ (placed size 0 first rest).flatMap (PlacedStream.stores size),
      st.Covers size i) ↔ NoGap (placed size 0 first rest) n := by
  rw [← placed_has_iff hn]
  refine forall₂_congr fun i hi => ?_
  constructor
  · rintro ⟨st, hst, hcovers⟩
    obtain ⟨p, hp, hst⟩ := List.mem_flatMap.mp hst
    exact ⟨p, hp, (PlacedStream.stores_cover_iff (aligned_of_mem hp) (hin p hp) hsize hmod hroom
      hi).mp ⟨st, hst, hcovers⟩⟩
  · rintro ⟨p, hp, hhas⟩
    obtain ⟨st, hst, hcovers⟩ := (PlacedStream.stores_cover_iff (aligned_of_mem hp) (hin p hp) hsize
      hmod hroom hi).mpr hhas
    exact ⟨st, List.mem_flatMap.mpr ⟨p, hp, hst⟩, hcovers⟩

end

/-! ## Lists that fit -/

section
variable {size off : Nat} {fs : StreamInfo} {rest : List StreamInfo}

/-- The name of a stream is as long as the stream is said to be. -/
theorem StreamInfo.Named.nameLength_eq (h : fs.Named) :
    fs.nameOctets ≠ none ∧ 24 + fs.nameLength = fs.extent := by
  obtain ⟨name, hname, hlen⟩ := h
  refine ⟨Option.ne_none_iff_exists'.mpr ⟨name, hname⟩, ?_⟩
  unfold StreamInfo.nameLength StreamInfo.extent
  rw [hname, Option.getD_some, hlen]

/-- A stream of a list that fits: its name ends where it does itself, in the block, and where no
padding follows is the end. -/
structure PlacedStream.Tight (total : Nat) (p : PlacedStream) : Prop where
  named : p.info.nameOctets ≠ none
  ends : p.info.stop p.off = p.nameEnd
  inside : p.nameEnd ≤ total
  last : p.next < p.nameEnd → p.nameEnd = total

theorem StreamsFit.placed_tight (h : StreamsFit size off fs rest) :
    placedEnd size off fs rest = streamsEnd off fs rest ∧
      ∀ p ∈ placed size off fs rest, p.Tight (streamsEnd off fs rest) := by
  obtain ⟨hnamed, hlength⟩ := (h.named fs List.mem_cons_self).nameLength_eq
  have hend (next : Nat) : (⟨fs, off, next⟩ : PlacedStream).nameEnd = off + fs.extent := by
    show off + 24 + fs.nameLength = off + fs.extent
    omega
  induction rest generalizing off fs with
  | nil =>
    refine ⟨h.stop_eq, fun p hp => ?_⟩
    obtain rfl := List.mem_singleton.mp hp
    exact ⟨hnamed, h.stop_eq.trans (hend 0).symm, (hend 0).le, fun _ => hend 0⟩
  | cons next rest ih =>
    obtain ⟨hnamed', hlength'⟩ := (h.tail.named next List.mem_cons_self).nameLength_eq
    have hpadded : padTo64 (fs.stop off) = paddedEnd (off + fs.extent) := by
      rw [h.stop_eq, h.padTo64_eq]
    have hfollows : Follows size (paddedEnd (off + fs.extent)) := h.goes_on
    have hlater := ih h.tail hnamed' hlength' fun n => by
      show paddedEnd (off + fs.extent) + 24 + next.nameLength = _
      omega
    have hle := le_paddedEnd (off + fs.extent)
    have htail : paddedEnd (off + fs.extent) + next.extent ≤
        streamsEnd (paddedEnd (off + fs.extent)) next rest := le_streamsEnd
    rw [placed, placedEnd, streamsEnd, hpadded, if_pos hfollows, if_pos hfollows]
    refine ⟨hlater.1, fun p hp => ?_⟩
    rcases List.mem_cons.mp hp with rfl | hp
    · refine ⟨hnamed, h.stop_eq.trans (hend _).symm, ?_, fun hlt => ?_⟩
      · rw [hend]
        omega
      · rw [hend] at hlt
        exact absurd hle (Nat.not_le.mpr hlt)
    · exact hlater.2 p hp

/-- **A list that fits stays in its block**, as long as no padding behind its end is sent. -/
theorem StreamsFit.stay {passthrough : Bool} {requested length : Nat}
    (h : StreamsFit size 0 fs rest)
    (hpadded : padTo64 (min (streamsEnd 0 fs rest) requested) ≤ streamsEnd 0 fs rest) :
    StreamsStay passthrough requested length size fs rest := by
  obtain ⟨hend, htight⟩ := h.placed_tight
  have hin := h.inside
  have hshort := h.short
  have hpos : 0 < streamsEnd 0 fs rest := by
    have hfirst : 0 + fs.extent ≤ streamsEnd 0 fs rest := le_streamsEnd
    unfold StreamInfo.extent at hfirst
    omega
  refine ⟨fun p hp => (htight p hp).named, fun p hp => ?_, ?_⟩
  · obtain ⟨-, -, hinside, -⟩ := htight p hp
    refine ⟨?_, .inr (by omega)⟩
    unfold PlacedStream.nameEnd at hinside
    omega
  rw [hend, if_neg (by omega)]
  refine ⟨by omega, fun p hp hlt => ?_⟩
  obtain ⟨-, hstop, -, hlast⟩ := htight p hp
  by_cases hpadding : p.nameEnd < p.next
  · exact ⟨p, hp, .inr ⟨hstop.le, hpadding⟩⟩
  by_cases hbefore : p.next < p.nameEnd
  · have hbehind := hlast hbefore
    omega
  -- the next stream begins where the name ends
  have hnext : p.next = p.nameEnd := by omega
  rcases placed_next hp with hzero | ⟨q, hq, hoff⟩ | hbehind
  · have hsome : 24 ≤ p.nameEnd := by
      unfold PlacedStream.nameEnd
      omega
    omega
  · refine ⟨q, hq, .inl ⟨by omega, ?_⟩⟩
    unfold PlacedStream.nameEnd at *
    omega
  · rw [hend, hstop, hnext, max_self] at hbehind
    omega

end

end Libsmb2.QueryInfo
