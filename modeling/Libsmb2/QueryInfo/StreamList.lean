import Libsmb2.QueryInfo.Encode
import Libsmb2.QueryInfo.Streams

/-!
# Streams that come back

What `smb2_decode_file_stream_info` makes of what `smb2_encode_file_stream_info` has written.  The
encoder puts the place of the next stream into a stream, where the decoder expects how far it is to
the next; and it doubles the length of each name in the list of its caller.

* `encodeStreams_at` — a list that fits is found in the block, each stream where it begins;
* `short_lists_are_decoded` — one stream or two are decoded as they were;
* `streams_come_back_iff` — when a list is decoded as it was and left as it was.
-/

set_option autoImplicit false

namespace Libsmb2.QueryInfo

open Util

/-! ## Lists -/

namespace StreamInfo

/-- The name in UTF-8, of which there is nothing without one. -/
def text (fs : StreamInfo) : Bytes :=
  match fs.streamName with
  | none => []
  | some name => name.octets

/-- The name and the two sizes. -/
def content (fs : StreamInfo) : Bytes × Nat × Nat :=
  (fs.text, fs.streamSize.toNat, fs.streamAllocationSize.toNat)

/-- What the encoder leaves of a stream of its caller. -/
def encoded (fs : StreamInfo) : StreamInfo :=
  { fs with streamNameLength := fs.streamNameLength * 2 }

/-- The name is valid UTF-8, and `stream_name_length` is the number of its UTF-16 units. -/
def Named (fs : StreamInfo) : Prop :=
  ∃ name, fs.nameOctets = some name ∧ name.length = 2 * fs.streamNameLength.toNat

/-- How many octets a stream takes. -/
def extent (fs : StreamInfo) : Nat := 24 + 2 * fs.streamNameLength.toNat

end StreamInfo

namespace StreamEntry

def text (e : StreamEntry) : Bytes :=
  match e.streamName with
  | none => []
  | some name => name.octets

def content (e : StreamEntry) : Bytes × Nat × Nat :=
  (e.text, e.streamSize, e.streamAllocationSize)

end StreamEntry

/-- The place behind one that is padded to eight octets. -/
def paddedEnd (stop : Nat) : Nat := (stop + 7) / 8 * 8

/-- Where a list ends whose first stream is at `off`. -/
def streamsEnd (off : Nat) (fs : StreamInfo) : List StreamInfo → Nat
  | [] => off + fs.extent
  | next :: rest => streamsEnd (paddedEnd (off + fs.extent)) next rest

/-- The list of the caller after the loop of `smb2_encode_file_stream_info`. -/
def encodedList (size offset : Nat) (fs : StreamInfo) : List StreamInfo → List StreamInfo
  | [] => [fs.encoded]
  | next :: rest =>
    match fs.nameOctets with
    | none => fs.encoded :: next :: rest
    | some _ =>
      let padded := padTo64 (fs.stop offset)
      let offset := max (fs.stop offset) padded
      if padded ≠ 0 ∧ (offset + 24) % 2 ^ 32 ≤ size then
        fs.encoded :: encodedList size offset next rest
      else fs.encoded :: next :: rest

/-- From `off` on the list fits a block. -/
structure StreamsFit (size off : Nat) (fs : StreamInfo) (rest : List StreamInfo) : Prop where
  named : ∀ s ∈ fs :: rest, s.Named
  inside : streamsEnd off fs rest ≤ size
  short : size < 2 ^ 32

/-- What is written is decoded with the same names and sizes in the same order, whatever else is in
the block and on the stack. -/
def StreamsDecoded (size : Nat) (fs : StreamInfo) (rest : List StreamInfo) : Prop :=
  ∃ total block, (encodeStreams size 0 fs rest).ret = some total ∧
    runStores (.fresh size) (encodeStreams size 0 fs rest).stores = .ok block ∧
    ∀ fill junk, ∃ offsets entries,
      decodeFileStreamInfo (.whole (block.octets fill total)) (fun _ => true) junk =
        .ok (offsets, some entries) ∧
      entries.map StreamEntry.content = (fs :: rest).map StreamInfo.content

/-- A list comes back, and the caller has it as before. -/
def StreamsComeBack (size : Nat) (fs : StreamInfo) (rest : List StreamInfo) : Prop :=
  StreamsDecoded size fs rest ∧ encodedList size 0 fs rest = fs :: rest

/-! ## What is stored for one stream -/

/-- The stores for one stream, with what is stored for the next. -/
def streamStores (size off inc : Nat) (fs : StreamInfo) (name : Bytes) : List Store :=
  fs.fields size off ++ [.copy ((off + 24) % 2 ^ 32) name] ++ setAt size off (le 4 inc)

/-- The zeros up to the next stream. -/
def paddingStores (size stop : Nat) : List Store :=
  (List.range' stop (paddedEnd stop - stop)).flatMap (setAt size · [0])

section
variable {size off inc : Nat} {fs next : StreamInfo} {rest : List StreamInfo} {name : Bytes}
  {st : Store}

theorem le_paddedEnd (stop : Nat) : stop ≤ paddedEnd stop := by
  unfold paddedEnd
  omega

theorem le_streamsEnd : off + fs.extent ≤ streamsEnd off fs rest := by
  induction rest generalizing off fs with
  | nil => exact le_refl _
  | cons next rest ih =>
    have hpadded := le_paddedEnd (off + fs.extent)
    have hnext : paddedEnd (off + fs.extent) + next.extent ≤
        streamsEnd (paddedEnd (off + fs.extent)) next rest := ih
    rw [streamsEnd]
    omega

namespace StreamsFit

theorem extent_le (h : StreamsFit size off fs rest) : off + fs.extent ≤ size :=
  le_streamsEnd.trans h.inside

theorem tail (h : StreamsFit size off fs (next :: rest)) :
    StreamsFit size (paddedEnd (off + fs.extent)) next rest :=
  ⟨fun s hs => h.named s (List.mem_cons_of_mem fs hs), h.inside, h.short⟩

theorem stop_eq (h : StreamsFit size off fs rest) : fs.stop off = off + fs.extent := by
  have hextent := h.extent_le
  have hshort := h.short
  unfold StreamInfo.stop StreamInfo.doubled StreamInfo.extent at *
  omega

theorem padTo64_eq (h : StreamsFit size off fs (next :: rest)) :
    padTo64 (off + fs.extent) = paddedEnd (off + fs.extent) := by
  have hnext := h.tail.extent_le
  have hshort := h.short
  exact Nat.mod_eq_of_lt (show paddedEnd (off + fs.extent) < 2 ^ 32 by omega)

/-- The loop goes on to the end of a list that fits. -/
theorem goes_on (h : StreamsFit size off fs (next :: rest)) :
    paddedEnd (off + fs.extent) ≠ 0 ∧ (paddedEnd (off + fs.extent) + 24) % 2 ^ 32 ≤ size := by
  have hnext := h.tail.extent_le
  have hshort := h.short
  have hpadded := le_paddedEnd (off + fs.extent)
  unfold StreamInfo.extent at *
  omega

end StreamsFit

/-- A field in the block is stored if its place is an `int`. -/
theorem setAt_eq {bs : Bytes} (h : off + bs.length < 2 ^ 32) :
    setAt size off bs = if off < 2 ^ 31 then [.set off bs] else [] := by
  unfold setAt
  simp only
  rw [Nat.mod_eq_of_lt (by omega)]
  split_ifs with hlow hnear
  · rfl
  · rfl
  · exact absurd (.inl h) hnear

theorem mem_setAt {bs : Bytes} (h : off + bs.length < 2 ^ 32) (hst : st ∈ setAt size off bs) :
    st.off = off ∧ st.stop = off + bs.length := by
  rw [setAt_eq h] at hst
  split_ifs at hst
  · obtain rfl := List.mem_singleton.mp hst
    exact ⟨rfl, rfl⟩
  · cases hst

/-- The stores for a stream lie between its beginning and its end. -/
theorem mem_streamStores (hstop : off + fs.extent < 2 ^ 32)
    (hname : name.length = 2 * fs.streamNameLength.toNat)
    (hst : st ∈ streamStores size off inc fs name) :
    off ≤ st.off ∧ st.stop ≤ off + fs.extent := by
  unfold StreamInfo.extent at *
  simp only [streamStores, StreamInfo.fields, List.append_assoc, List.mem_append,
    List.mem_singleton] at hst
  rcases hst with hsize | hlength | halloc | rfl | hnext
  · have hin := mem_setAt (by simp; omega) hsize
    rw [length_le] at hin
    omega
  · have hin := mem_setAt (by simp; omega) hlength
    rw [length_le] at hin
    omega
  · have hin := mem_setAt (by simp; omega) halloc
    rw [length_le] at hin
    omega
  · rw [Nat.mod_eq_of_lt (by omega)]
    simp only [Store.off, Store.stop, Store.bytes, hname]
    omega
  · have hin := mem_setAt (by simp; omega) hnext
    rw [length_le] at hin
    omega

/-- The padding lies behind the stream. -/
theorem mem_paddingStores {stop : Nat} (hpadded : paddedEnd stop < 2 ^ 32)
    (hst : st ∈ paddingStores size stop) : stop ≤ st.off ∧ st.stop ≤ paddedEnd stop := by
  obtain ⟨o, ho, hst⟩ := List.mem_flatMap.mp hst
  rw [List.mem_range'_1] at ho
  have hin := mem_setAt (by simp; omega) hst
  rw [List.length_singleton] at hin
  omega

/-! ## What is stored for a list -/

theorem encodeStreams_last (h : StreamsFit size off fs []) (hname : fs.nameOctets = some name) :
    encodeStreams size off fs [] =
      ⟨streamStores size off 0 fs name, some (off + fs.extent)⟩ := by
  rw [encodeStreams, hname, h.stop_eq]
  rfl

theorem encodeStreams_next (h : StreamsFit size off fs (next :: rest))
    (hname : fs.nameOctets = some name) :
    encodeStreams size off fs (next :: rest) =
      ⟨streamStores size off (paddedEnd (off + fs.extent)) fs name ++
          (paddingStores size (off + fs.extent) ++
            (encodeStreams size (paddedEnd (off + fs.extent)) next rest).stores),
        (encodeStreams size (paddedEnd (off + fs.extent)) next rest).ret⟩ := by
  rw [encodeStreams, hname]
  simp only [h.stop_eq, h.padTo64_eq, Nat.max_eq_right (le_paddedEnd (off + fs.extent))]
  rw [if_pos h.goes_on]
  simp only [streamStores, paddingStores, List.append_assoc]

/-- The encoder returns where the list ends. -/
theorem encodeStreams_ret (h : StreamsFit size off fs rest) :
    (encodeStreams size off fs rest).ret = some (streamsEnd off fs rest) := by
  induction rest generalizing off fs with
  | nil =>
    obtain ⟨name, hname, -⟩ := h.named fs List.mem_cons_self
    rw [encodeStreams_last h hname]
    rfl
  | cons next rest ih =>
    obtain ⟨name, hname, -⟩ := h.named fs List.mem_cons_self
    rw [encodeStreams_next h hname]
    exact ih h.tail

/-- Nothing is stored before the list or behind the block. -/
theorem mem_encodeStreams (h : StreamsFit size off fs rest)
    (hst : st ∈ (encodeStreams size off fs rest).stores) : off ≤ st.off ∧ st.stop ≤ size := by
  induction rest generalizing off fs with
  | nil =>
    obtain ⟨name, hname, hlen⟩ := h.named fs List.mem_cons_self
    have hextent := h.extent_le
    have hshort := h.short
    rw [encodeStreams_last h hname] at hst
    have hin := mem_streamStores (by omega) hlen hst
    omega
  | cons next rest ih =>
    obtain ⟨name, hname, hlen⟩ := h.named fs List.mem_cons_self
    have hextent := h.extent_le
    have hnext := h.tail.extent_le
    have hshort := h.short
    have hpadded := le_paddedEnd (off + fs.extent)
    rw [encodeStreams_next h hname] at hst
    rcases List.mem_append.mp hst with hst | hst
    · have hin := mem_streamStores (by omega) hlen hst
      omega
    rcases List.mem_append.mp hst with hst | hst
    · have hin := mem_paddingStores (by omega) hst
      omega
    · have hin := ih h.tail hst
      omega

/-- A list that fits is stored in its block. -/
theorem encodeStreams_fits (h : StreamsFit size off fs rest)
    (hst : st ∈ (encodeStreams size off fs rest).stores) : st.Fits size := by
  have hin := mem_encodeStreams h hst
  cases st with
  | set o bs => trivial
  | copy o bs => exact .inr hin.2

/-- Every stream of a list that fits has its length doubled. -/
theorem encodedList_eq (h : StreamsFit size off fs rest) :
    encodedList size off fs rest = (fs :: rest).map StreamInfo.encoded := by
  induction rest generalizing off fs with
  | nil => rfl
  | cons next rest ih =>
    obtain ⟨name, hname, -⟩ := h.named fs List.mem_cons_self
    rw [encodedList, hname]
    simp only [h.stop_eq, h.padTo64_eq, Nat.max_eq_right (le_paddedEnd (off + fs.extent))]
    rw [if_pos h.goes_on, ih h.tail]
    rfl

/-! ## What is found in the block -/

/-- A stream at `off`, with what is stored for the next. -/
structure StreamAt (vec : Bytes) (off : Nat) (fs : StreamInfo) (inc : Nat) : Prop where
  next : slice vec off 4 = le 4 inc
  nameLength : slice vec (off + 4) 4 = le 4 fs.doubled
  streamSize : slice vec (off + 8) 8 = le 8 fs.streamSize.toNat
  allocationSize : slice vec (off + 16) 8 = le 8 fs.streamAllocationSize.toNat
  name : ∀ name, fs.nameOctets = some name → slice vec (off + 24) name.length = name

/-- The streams of a list, as far as their places are `int`s. -/
def StreamsAt (vec : Bytes) (off : Nat) (fs : StreamInfo) : List StreamInfo → Prop
  | [] => off + 24 < 2 ^ 31 → StreamAt vec off fs 0
  | next :: rest =>
    (off + 24 < 2 ^ 31 → StreamAt vec off fs (paddedEnd (off + fs.extent))) ∧
      StreamsAt vec (paddedEnd (off + fs.extent)) next rest

/-- The stores for one stream, if its place is an `int`. -/
theorem streamStores_eq (hint : off + 24 < 2 ^ 31) :
    streamStores size off inc fs name = [
      .set (off + 8) (le 8 fs.streamSize.toNat), .set (off + 4) (le 4 fs.doubled),
      .set (off + 16) (le 8 fs.streamAllocationSize.toNat), .copy (off + 24) name,
      .set off (le 4 inc)] := by
  unfold streamStores StreamInfo.fields
  rw [setAt_eq (by simp; omega), setAt_eq (by simp; omega), setAt_eq (by simp; omega),
    setAt_eq (by simp; omega), if_pos (by omega), if_pos (by omega), if_pos (by omega),
    if_pos (by omega), Nat.mod_eq_of_lt (by omega)]
  rfl

/-- **A stream is found where it was stored**, if nothing of what follows is stored before its
end. -/
theorem streamAt_stores {b : Block} {later : List Store} {n : Nat} (hint : off + 24 < 2 ^ 31)
    (hname : fs.nameOctets = some name) (hlen : name.length = 2 * fs.streamNameLength.toNat)
    (hsize : off + fs.extent ≤ b.size) (hshort : b.size < 2 ^ 32) (hn : off + fs.extent ≤ n)
    (hlater : ∀ st ∈ later, off + fs.extent ≤ st.off) (fill : Nat → UInt8) :
    StreamAt (((streamStores size off inc fs name ++ later).foldl Store.apply b).octets fill n)
      off fs inc := by
  unfold StreamInfo.extent at *
  have hapart : (streamStores size off inc fs name).Pairwise Store.Apart := by
    rw [streamStores_eq hint]
    simp [Store.Apart, Store.off, Store.stop, Store.bytes]
  have hread : ∀ st ∈ streamStores size off inc fs name,
      slice (((streamStores size off inc fs name ++ later).foldl Store.apply b).octets fill n)
        st.off st.bytes.length = st.bytes := by
    intro st hst
    have hin := mem_streamStores (by unfold StreamInfo.extent; omega) hlen hst
    unfold StreamInfo.extent at hin
    refine slice_octets_append hapart hst (fun st' hst' => ?_) (by omega) (by omega) fill
    have hbehind := hlater st' hst'
    exact .inl (by omega)
  generalize ((streamStores size off inc fs name ++ later).foldl Store.apply b).octets fill n = vec
    at hread ⊢
  rw [streamStores_eq hint] at hread
  constructor
  · simpa [Store.off, Store.bytes] using hread (.set off (le 4 inc)) (by simp)
  · simpa [Store.off, Store.bytes] using hread (.set (off + 4) (le 4 fs.doubled)) (by simp)
  · simpa [Store.off, Store.bytes] using
      hread (.set (off + 8) (le 8 fs.streamSize.toNat)) (by simp)
  · simpa [Store.off, Store.bytes] using
      hread (.set (off + 16) (le 8 fs.streamAllocationSize.toNat)) (by simp)
  · intro name' hname'
    rw [hname] at hname'
    obtain rfl := Option.some.inj hname'
    exact hread (.copy (off + 24) name) (by simp)

/-- **A list that fits is found in the block**, each stream where it begins. -/
theorem encodeStreams_at {b : Block} {n : Nat} (h : StreamsFit size off fs rest)
    (hsize : b.size = size) (hn : streamsEnd off fs rest ≤ n) (fill : Nat → UInt8) :
    StreamsAt (((encodeStreams size off fs rest).stores.foldl Store.apply b).octets fill n) off fs
      rest := by
  obtain ⟨name, hname, hlen⟩ := h.named fs List.mem_cons_self
  have hextent := h.extent_le
  have hshort := h.short
  induction rest generalizing off fs b name with
  | nil =>
    intro hint
    rw [encodeStreams_last h hname]
    have hat : StreamAt (((streamStores size off 0 fs name ++ []).foldl Store.apply b).octets fill n)
        off fs 0 := streamAt_stores hint hname hlen (by omega) (by omega) hn (by simp) fill
    rwa [List.append_nil] at hat
  | cons next rest ih =>
    have hnext := h.tail.extent_le
    have hpadded := le_paddedEnd (off + fs.extent)
    have hend : off + fs.extent ≤ streamsEnd off fs (next :: rest) := le_streamsEnd
    rw [encodeStreams_next h hname]
    refine ⟨fun hint => streamAt_stores hint hname hlen (by omega) (by omega) (by omega) ?_ fill, ?_⟩
    · intro st hst
      rcases List.mem_append.mp hst with hst | hst
      · exact (mem_paddingStores (by omega) hst).1
      · exact hpadded.trans (mem_encodeStreams h.tail hst).1
    · obtain ⟨name', hname', hlen'⟩ := h.tail.named next List.mem_cons_self
      rw [List.foldl_append, List.foldl_append]
      exact ih h.tail (by rw [size_foldl_apply, size_foldl_apply, hsize]) hn name' hname' hlen'
        hnext

/-! ## What is decoded -/

/-- The units of a name are those of its text. -/
theorem text_of_nameOctets (h : fs.nameOctets = some name) :
    utf16ToUtf8 (utf16Units name) = fs.text := by
  unfold StreamInfo.nameOctets at h
  unfold StreamInfo.text
  cases hstream : fs.streamName with
  | none =>
    rw [hstream] at h
    obtain rfl := Option.some.inj h
    rfl
  | some text =>
    rw [hstream] at h
    obtain ⟨us, hus, rfl⟩ := Option.map_eq_some_iff.mp h
    have hlt : ∀ u ∈ us, u < 65536 := (utf8ToUtf16_eq_some.mp hus).lt
    rw [utf16Units_utf16Octets hlt, utf16ToUtf8_utf8ToUtf16 hus]

theorem ofBytes_text (fs : StreamInfo) : (CString.ofBytes fs.text).octets = fs.text := by
  unfold StreamInfo.text
  cases fs.streamName with
  | none => rfl
  | some text => exact CString.ofBytes_octets text

/-- A number of a stream that is read. -/
theorem getAt_stored {vec : Bytes} {n place value old : Nat} {offset : Int}
    (hslice : slice vec place n = le n value) (hvalue : value < 256 ^ n)
    (hin : place + n ≤ vec.length) (hvec : vec.length < 2 ^ 31) (hoffset : offset = place) :
    (Window.whole vec).getAt n offset old = .ok value := by
  rw [hoffset, Window.getAt_natCast (by omega), Window.get_of_le
    (by rw [Window.whole_len]; omega) (by rw [Window.whole_octets]; omega), Window.whole_octets,
    hslice, fromLe_le, Nat.mod_eq_of_lt hvalue]

/-- The length of a name that is stored is taken as it is, where the name lies in the buffer. -/
theorem streamNameLen_stored {vec : Bytes} {n : Nat} (hin : off + 24 + n ≤ vec.length)
    (hvec : vec.length < 2 ^ 31) : streamNameLen (Window.whole vec).len off n = n := by
  have hself : toInt32 n = n := toInt32_of_lt (by omega)
  unfold streamNameLen
  rw [hself, toInt32_self (by omega) (by omega), if_neg (by rw [Window.whole_len]; omega)]

/-- **A stream that is found is decoded**, with what is stored for the next. -/
theorem decodeStreamAt_found {vec : Bytes} {index old : Nat} (h : StreamAt vec off fs inc)
    (hnamed : fs.Named) (hin : off + fs.extent ≤ vec.length) (hvec : vec.length < 2 ^ 31)
    (hinc : inc < 2 ^ 32) :
    ∃ e, decodeStreamAt (.whole vec) true index old off = .ok (inc, some e) ∧
      e.content = fs.content := by
  obtain ⟨name, hname, hlen⟩ := hnamed
  unfold StreamInfo.extent at hin
  have hdoubled : fs.doubled = 2 * fs.streamNameLength.toNat := by
    unfold StreamInfo.doubled
    omega
  have hlength := h.nameLength
  rw [hdoubled] at hlength
  have hnext : (Window.whole vec).getAt 4 off old = .ok inc :=
    getAt_stored h.next (by omega) (by omega) hvec rfl
  have hnameLength : (Window.whole vec).getAt 4 ((off : Int) + 4) 0 =
      .ok (2 * fs.streamNameLength.toNat) :=
    getAt_stored hlength (by omega) (by omega) hvec rfl
  have hstreamSize : (Window.whole vec).getAt 8 ((off : Int) + 8) 0 = .ok fs.streamSize.toNat :=
    getAt_stored h.streamSize fs.streamSize.toNat_lt (by omega) hvec rfl
  have halloc : (Window.whole vec).getAt 8 ((off : Int) + 16) 0 =
      .ok fs.streamAllocationSize.toNat :=
    getAt_stored h.allocationSize fs.streamAllocationSize.toNat_lt (by omega) hvec rfl
  have hnameLen : streamNameLen (Window.whole vec).len off (2 * fs.streamNameLength.toNat) =
      (2 * fs.streamNameLength.toNat : Nat) := streamNameLen_stored (by omega) hvec
  unfold decodeStreamAt
  rw [hnext, ok_bind, hnameLength, ok_bind, hstreamSize, ok_bind, halloc, ok_bind]
  dsimp only
  rw [hnameLen]
  by_cases hempty : fs.streamNameLength.toNat = 0
  · rw [if_pos (by omega)]
    refine ⟨_, rfl, ?_⟩
    obtain rfl : name = [] := List.eq_nil_of_length_eq_zero (by omega)
    have htext : fs.text = [] := (text_of_nameOctets hname).symm
    simp only [StreamEntry.content, StreamEntry.text, StreamInfo.content, htext]
  · have hcount : ((2 * fs.streamNameLength.toNat : Nat) : Int).toNat / 2 * 2 = name.length := by
      rw [Int.toNat_natCast]
      omega
    have hread : (Window.whole vec).read ((off : Int) + 24).toNat
        (((2 * fs.streamNameLength.toNat : Nat) : Int).toNat / 2 * 2) = .ok name := by
      rw [hcount]
      exact Window.read_of_slice (h.name name hname) rfl
    rw [if_neg (by omega), hread, ok_bind, if_pos rfl, text_of_nameOctets hname]
    refine ⟨_, rfl, ?_⟩
    simp only [StreamEntry.content, StreamEntry.text, StreamInfo.content, ofBytes_text]

/-- What is sent of a list that fits. -/
theorem streamsDecoded_iff (h : StreamsFit size 0 fs rest) :
    StreamsDecoded size fs rest ↔ ∀ fill junk, ∃ offsets entries,
      decodeFileStreamInfo (.whole (((encodeStreams size 0 fs rest).stores.foldl Store.apply
        (.fresh size)).octets fill (streamsEnd 0 fs rest))) (fun _ => true) junk =
          .ok (offsets, some entries) ∧
        entries.map StreamEntry.content = (fs :: rest).map StreamInfo.content := by
  have hrun : runStores (.fresh size) (encodeStreams size 0 fs rest).stores =
      .ok ((encodeStreams size 0 fs rest).stores.foldl Store.apply (.fresh size)) :=
    runStores_eq fun st hst => encodeStreams_fits h hst
  unfold StreamsDecoded
  rw [encodeStreams_ret h, hrun]
  constructor
  · rintro ⟨total, block, htotal, hblock, hdecoded⟩
    obtain rfl := Option.some.inj htotal
    obtain rfl := Except.ok.inj hblock
    exact hdecoded
  · intro hdecoded
    exact ⟨_, _, rfl, rfl, hdecoded⟩

/-- **One stream or two are decoded as they were**, with whatever names. -/
theorem short_lists_are_decoded (h : StreamsFit size 0 fs rest)
    (hint : streamsEnd 0 fs rest < 2 ^ 31) (hshort : rest.length ≤ 1) :
    StreamsDecoded size fs rest := by
  refine (streamsDecoded_iff h).mpr fun fill junk => ?_
  have hat := encodeStreams_at (b := .fresh size) h rfl (le_refl _) fill
  have hlen := Block.length_octets ((encodeStreams size 0 fs rest).stores.foldl Store.apply
    (.fresh size)) fill (streamsEnd 0 fs rest)
  have hfirst := h.named fs List.mem_cons_self
  have hextent : 0 + fs.extent ≤ streamsEnd 0 fs rest := le_streamsEnd
  have hpos : 24 ≤ fs.extent := Nat.le_add_right 24 _
  generalize ((encodeStreams size 0 fs rest).stores.foldl Store.apply (.fresh size)).octets fill
    (streamsEnd 0 fs rest) = vec at hat hlen ⊢
  unfold decodeFileStreamInfo
  rw [Window.whole_len, hlen]
  match rest, hshort with
  | [], _ =>
    obtain ⟨e, hround, hcontent⟩ : ∃ e, decodeStreamAt (.whole vec) true 0 junk.toNat (0 : Nat) =
        .ok (0, some e) ∧ e.content = fs.content :=
      decodeStreamAt_found (hat (by omega)) hfirst (by omega) (by omega) (by omega)
    refine ⟨[0], [e], ?_, by simp [hcontent]⟩
    rw [Nat.add_comm]
    exact decodeStreams_last hround (by simp)
  | [next], _ =>
    have hsecond := h.named next (List.mem_cons_of_mem fs List.mem_cons_self)
    have hpadded := le_paddedEnd (0 + fs.extent)
    have hnext : 24 ≤ next.extent := Nat.le_add_right 24 _
    have hend : streamsEnd 0 fs [next] = paddedEnd (0 + fs.extent) + next.extent := rfl
    obtain ⟨hat, hat'⟩ := hat
    generalize paddedEnd (0 + fs.extent) = p at *
    obtain ⟨e, hround, hcontent⟩ : ∃ e, decodeStreamAt (.whole vec) true 0 junk.toNat (0 : Nat) =
        .ok (p, some e) ∧ e.content = fs.content :=
      decodeStreamAt_found (hat (by omega)) hfirst (by omega) (by omega) (by omega)
    obtain ⟨e', hround', hcontent'⟩ : ∃ e, decodeStreamAt (.whole vec) true 1 p p =
        .ok (0, some e) ∧ e.content = next.content :=
      decodeStreamAt_found (hat' (by omega)) hsecond (by omega) (by omega) (by omega)
    have hplace : toInt32 ((0 : Nat) + (p : Int)) = p := by
      rw [Nat.cast_zero, zero_add]
      exact toInt32_of_lt (by omega)
    have hgoes : GoesOn (Window.whole vec).len (toInt32 ((0 : Nat) + (p : Int))) := by
      rw [hplace, Window.whole_len, goesOn_iff (by omega) (by omega) (by omega)]
      omega
    obtain ⟨room, hroom⟩ : ∃ room, 1 + streamsEnd 0 fs [next] / 24 = room + 1 + 1 :=
      ⟨streamsEnd 0 fs [next] / 24 - 1, by omega⟩
    refine ⟨[0, p], [e, e'], ?_, by simp [hcontent, hcontent']⟩
    have hrest : decodeStreams (.whole vec) (fun _ => true) (room + 1) 1 p
        (toInt32 ((0 : Nat) + (p : Int))) = .ok ([(p : Int)], some [e']) := by
      rw [hplace]
      exact decodeStreams_last hround' (by simp)
    rw [hroom]
    exact decodeStreams_next hround (by omega) hgoes hrest

/-! ## Streams without names -/

theorem paddedEnd_of_mod (hmod : off % 8 = 0) : paddedEnd (off + 24) = off + 24 := by
  unfold paddedEnd
  omega

theorem extent_of_empty (h : fs.streamNameLength = 0) : fs.extent = 24 := by
  unfold StreamInfo.extent
  rw [h]
  rfl

theorem streamsEnd_of_empty (hempty : ∀ s ∈ fs :: rest, s.streamNameLength = 0)
    (hmod : off % 8 = 0) : streamsEnd off fs rest = off + 24 * (rest.length + 1) := by
  induction rest generalizing off fs with
  | nil =>
    rw [streamsEnd, extent_of_empty (hempty fs List.mem_cons_self)]
    rfl
  | cons next rest ih =>
    rw [streamsEnd, extent_of_empty (hempty fs List.mem_cons_self), paddedEnd_of_mod hmod,
      ih (fun s hs => hempty s (List.mem_cons_of_mem fs hs)) (by omega), List.length_cons]
    omega

/-- In each stream is the place of the next. -/
theorem increment_of_empty {vec : Bytes} {i : Nat} (h : StreamsAt vec off fs rest)
    (hempty : ∀ s ∈ fs :: rest, s.streamNameLength = 0) (hmod : off % 8 = 0)
    (hi : i ≤ rest.length) (hint : off + 24 * i + 24 < 2 ^ 31) :
    increment vec (off + 24 * i) = if i = rest.length then 0 else off + 24 * (i + 1) := by
  induction rest generalizing off fs i with
  | nil =>
    obtain rfl : i = 0 := by simpa using hi
    have hat : StreamAt vec off fs 0 := h (by omega)
    exact congrArg fromLe hat.next
  | cons next rest ih =>
    obtain ⟨hat, hrest⟩ := h
    rw [extent_of_empty (hempty fs List.mem_cons_self), paddedEnd_of_mod hmod] at hat hrest
    cases i with
    | zero =>
      rw [if_neg (by simp), Nat.mul_zero, Nat.add_zero, increment, (hat (by omega)).next, fromLe_le,
        Nat.mod_eq_of_lt (by omega)]
    | succ i =>
      have hlater := ih hrest (fun s hs => hempty s (List.mem_cons_of_mem fs hs)) (by omega)
        (i := i) (by simpa using hi) (by omega)
      have hplace : off + 24 * (i + 1) = off + 24 + 24 * i := by omega
      rw [hplace, hlater, List.length_cons]
      split_ifs <;> omega

/-- **The decoder skips streams.**  From the second on each increment is taken for twice of what it
is, so that of three streams or more some are left out. -/
theorem offsets_of_empty {vec : Bytes} {n room index old i : Nat} {alloc : Nat → Bool}
    {offsets : List Int} {entries : Option (List StreamEntry)} (hlen : vec.length = 24 * n)
    (hshort : 24 * n < 2 ^ 32)
    (hinc : ∀ i < n, 24 * i + 24 < 2 ^ 31 →
      increment vec (24 * i) = if i + 1 = n then 0 else 24 * (i + 1))
    (hi : i < n) (hint : 24 * i + 24 < 2 ^ 31)
    (h : decodeStreams (.whole vec) alloc room index old (24 * i : Nat) = .ok (offsets, entries)) :
    offsets.length + i ≤ n ∧ (3 ≤ n → i + 1 < n → offsets.length + i + 1 ≤ n) := by
  induction room generalizing index old i offsets entries with
  | zero => cases h
  | succ room ih =>
    obtain ⟨nextOffset, entry, hround, hrest⟩ := decodeStreams_cases h
    obtain ⟨entry', hinside, -⟩ : ∃ entry, decodeStreamAt (.whole vec) (alloc index) index old
        (24 * i : Nat) = .ok (increment vec (24 * i), entry) ∧ (alloc index = true → entry.isSome) :=
      decodeStreamAt_inside hint (by omega) (by omega)
    rw [hinside] at hround
    obtain ⟨rfl, rfl⟩ := Prod.mk.inj (Except.ok.inj hround)
    rcases hrest with ⟨rfl, -, -⟩ | ⟨hnext, hgoes, first, rest, later, hrun, rfl, -⟩
    · simp only [List.length_singleton]
      omega
    · have hnotlast : i + 1 ≠ n := by
        intro hlast
        rw [hinc i hi hint, if_pos hlast] at hnext
        exact hnext rfl
      rw [hinc i hi hint, if_neg hnotlast] at hgoes hrun
      have hrange := toInt32_range ((24 * i : Nat) + (24 * (i + 1) : Nat) : Int)
      rw [Window.whole_len, hlen, goesOn_iff (by omega) hrange.1 hrange.2] at hgoes
      have hplace : toInt32 ((24 * i : Nat) + (24 * (i + 1) : Nat) : Int) =
          (24 * (2 * i + 1) : Nat) := by
        unfold toInt32 at hgoes ⊢
        dsimp only at hgoes ⊢
        omega
      rw [hplace] at hgoes hrun
      have hlater := ih (by omega) (by omega) hrun
      rw [List.length_cons]
      omega

/-- Three streams or more are not decoded as they were. -/
theorem not_streamsDecoded_of_empty (h : StreamsFit size 0 fs rest)
    (hempty : ∀ s ∈ fs :: rest, s.streamNameLength = 0) (hthree : 2 ≤ rest.length) :
    ¬ StreamsDecoded size fs rest := by
  intro hdecoded
  obtain ⟨offsets, entries, hrun, hcontent⟩ :=
    (streamsDecoded_iff h).mp hdecoded (fun _ => 0) 0
  have hat := encodeStreams_at (b := .fresh size) h rfl (le_refl _) (fun _ => 0)
  have hlen := Block.length_octets ((encodeStreams size 0 fs rest).stores.foldl Store.apply
    (.fresh size)) (fun _ => 0) (streamsEnd 0 fs rest)
  generalize ((encodeStreams size 0 fs rest).stores.foldl Store.apply (.fresh size)).octets
    (fun _ => 0) (streamsEnd 0 fs rest) = vec at hat hlen hrun
  have hend : streamsEnd 0 fs rest = 24 * (rest.length + 1) := by
    rw [streamsEnd_of_empty hempty (by omega), Nat.zero_add]
  have hinside := h.inside
  have hshort := h.short
  have hinc : ∀ i < rest.length + 1, 24 * i + 24 < 2 ^ 31 →
      increment vec (24 * i) = if i + 1 = rest.length + 1 then 0 else 24 * (i + 1) := by
    intro i hi hint
    have hplace := increment_of_empty (i := i) hat hempty (by omega) (by omega) (by omega)
    rw [Nat.zero_add, Nat.zero_add] at hplace
    rw [hplace]
    simp
  have hcount := (offsets_of_empty (i := 0) (by omega) (by omega) hinc (by omega) (by omega)
    hrun).2 (by omega) (by omega)
  have hentries : entries.length = offsets.length := decodeStreams_length hrun
  have hall := congrArg List.length hcontent
  rw [List.length_map, List.length_map, List.length_cons] at hall
  omega

/-- The length of a name is left as it was if there is no name. -/
theorem encoded_eq_iff (fs : StreamInfo) : fs.encoded = fs ↔ fs.streamNameLength = 0 := by
  have hlt := fs.streamNameLength.toNat_lt
  constructor
  · intro h
    have hlength : fs.streamNameLength * 2 = fs.streamNameLength :=
      congrArg StreamInfo.streamNameLength h
    have hmod := congrArg UInt32.toNat hlength
    rw [UInt32.toNat_mul] at hmod
    apply UInt32.toNat_inj.mp
    simp at hmod ⊢
    omega
  · intro h
    unfold StreamInfo.encoded
    rw [h]
    cases fs
    simp_all

/-- **Stream lists.**  A list that fits is decoded as it was, and left as it was, exactly if it has
no more than two streams and none of them has a name. -/
theorem streams_come_back_iff (h : StreamsFit size 0 fs rest) :
    StreamsComeBack size fs rest ↔
      rest.length ≤ 1 ∧ ∀ s ∈ fs :: rest, s.streamNameLength = 0 := by
  have hleft : encodedList size 0 fs rest = fs :: rest ↔
      ∀ s ∈ fs :: rest, s.streamNameLength = 0 := by
    have hsame : (fs :: rest).map StreamInfo.encoded = (fs :: rest).map id ↔
        ∀ s ∈ fs :: rest, s.encoded = id s := List.map_inj_left
    rw [List.map_id] at hsame
    rw [encodedList_eq h, hsame]
    exact forall₂_congr fun s _ => encoded_eq_iff s
  unfold StreamsComeBack
  rw [hleft]
  constructor
  · rintro ⟨hdecoded, hempty⟩
    refine ⟨?_, hempty⟩
    by_contra hlong
    exact not_streamsDecoded_of_empty h hempty (by omega) hdecoded
  · rintro ⟨hshort, hempty⟩
    refine ⟨short_lists_are_decoded h ?_ hshort, hempty⟩
    rw [streamsEnd_of_empty hempty (by omega)]
    omega

end

/-! ## Lists that come back, and lists that do not -/

/-- The main stream of a file, without its name. -/
def mainStream : StreamInfo := ⟨0, 5, 4096, none⟩

/-- A stream with a name of one letter. -/
def letterStream : StreamInfo := ⟨1, 5, 4096, some (CString.ofBytes [97])⟩

theorem mainStreams_fit {size : Nat} {rest : List StreamInfo} (hmain : ∀ s ∈ rest, s = mainStream)
    (hsize : 24 * (rest.length + 1) ≤ size) (hshort : size < 2 ^ 32) :
    StreamsFit size 0 mainStream rest := by
  have hall : ∀ s ∈ mainStream :: rest, s = mainStream := by simpa using hmain
  refine ⟨fun s hs => ?_, ?_, hshort⟩
  · rw [hall s hs]
    exact ⟨[], rfl, rfl⟩
  · rw [streamsEnd_of_empty (fun s hs => by rw [hall s hs]; rfl) (by omega)]
    omega

/-- Two streams without names. -/
theorem two_streams_come_back : StreamsComeBack 48 mainStream [mainStream] :=
  (streams_come_back_iff (mainStreams_fit (by simp) (by simp) (by simp))).mpr
    ⟨by simp, by simp [mainStream]⟩

/-- The length of a name is doubled for the caller, and of three streams only two are decoded. -/
theorem streams_are_lost :
    (StreamsFit 26 0 letterStream [] ∧ ¬ StreamsComeBack 26 letterStream []) ∧
      StreamsFit 72 0 mainStream [mainStream, mainStream] ∧
        ¬ StreamsComeBack 72 mainStream [mainStream, mainStream] := by
  have hfits : StreamsFit 72 0 mainStream [mainStream, mainStream] :=
    mainStreams_fit (by simp) (by simp) (by simp)
  refine ⟨⟨⟨?_, by simp [streamsEnd, StreamInfo.extent, letterStream], by simp⟩, ?_⟩, hfits, ?_⟩
  · intro s hs
    rw [List.mem_singleton.mp hs]
    exact ⟨[97, 0], rfl, rfl⟩
  · rintro ⟨-, hleft⟩
    have hempty := (encoded_eq_iff letterStream).mp (List.cons.inj hleft).1
    simp [letterStream] at hempty
  · rintro ⟨hdecoded, -⟩
    exact not_streamsDecoded_of_empty hfits (by simp [mainStream]) (by simp) hdecoded

end Libsmb2.QueryInfo
