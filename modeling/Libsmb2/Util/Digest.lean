import Libsmb2.Util.Bytes

/-!
# Hashing in blocks

A hash that compresses a text block by block, and a buffer into which the octets of a text are
copied as they come.  Nothing here knows about SMB.

* `run_append`, `rest_append` — a text in two parts;
* `Buffers.copy`, `Buffers.fill` — octets that leave room in the buffer, and octets that fill it;
* `Buffers.digest_short`, `Buffers.digest_long` — the padding in one block and in two;
* `hmacOf` — HMAC over a hash.
-/

set_option autoImplicit false

namespace Libsmb2.Util

variable {ys b buf' new trailer : Bytes}

section
variable {buf : Bytes}

/-- A patch of the whole buffer. -/
theorem patch_all (h : new.length = buf.length) : patch buf 0 new = new := by
  rw [patch, List.take_zero, List.nil_append, List.drop_of_length_le (by omega), List.append_nil]

/-- A patch that goes on where one ended. -/
theorem patch_next {new new' : Bytes} {off p : Nat} (hp : off + new.length = p)
    (h : p + new'.length ≤ buf.length) :
    patch (patch buf off new) p new' = patch buf off (new ++ new') := by
  subst hp
  exact patch_behind h

theorem patch_mark {mark : UInt8} {off n : Nat} (h : off + 1 + n ≤ buf.length) :
    patch (patch buf off [mark]) (off + 1) (zeros n) = patch buf off ([mark] ++ zeros n) :=
  patch_next rfl (by rw [length_zeros]; exact h)

end

/-- A compression function on blocks of `size` octets, and the state it starts from. -/
structure BlockHash (σ : Type) where
  size : Nat
  size_pos : 0 < size
  init : σ
  compress : σ → Bytes → σ

namespace BlockHash

variable {σ : Type} (H : BlockHash σ)

/-- The first `k` blocks of a text, one after another. -/
def absorb : Nat → σ → Bytes → σ
  | 0, s, _ => s
  | k + 1, s, xs => absorb k (H.compress s (xs.take H.size)) (xs.drop H.size)

/-- The state after the whole blocks of a text. -/
def run (s : σ) (xs : Bytes) : σ := H.absorb (xs.length / H.size) s xs

/-- The octets behind the whole blocks of a text. -/
def rest (xs : Bytes) : Bytes := xs.drop (H.size * (xs.length / H.size))

/-- A mark, the fewest zeros that complete a block, and a trailer. -/
def padding (mark : UInt8) (trailer : Bytes) (len : Nat) : Bytes :=
  mark :: zeros ((H.size - (len + 1 + trailer.length) % H.size) % H.size) ++ trailer

/-- The state after a text and its padding. -/
def digest (mark : UInt8) (trailer text : Bytes) : σ :=
  H.run H.init (text ++ H.padding mark trailer text.length)

@[simp] theorem length_rest (xs : Bytes) : (H.rest xs).length = xs.length % H.size := by
  have h := Nat.div_add_mod xs.length H.size
  rw [rest, List.length_drop]
  omega

section
variable {H} {xs : Bytes}

theorem run_short (s : σ) (h : xs.length < H.size) : H.run s xs = s := by
  rw [run, Nat.div_eq_of_lt h]
  rfl

theorem rest_short (h : xs.length < H.size) : H.rest xs = xs := by
  rw [rest, Nat.div_eq_of_lt h, Nat.mul_zero, List.drop_zero]

theorem run_nil (s : σ) : H.run s [] = s := run_short s H.size_pos

theorem rest_nil : H.rest [] = [] := rest_short H.size_pos

theorem length_block (h : b.length = H.size) (ys : Bytes) :
    (b ++ ys).length / H.size = ys.length / H.size + 1 := by
  rw [List.length_append, h, Nat.add_div_left _ H.size_pos]

theorem run_block (s : σ) (h : b.length = H.size) (ys : Bytes) :
    H.run s (b ++ ys) = H.run (H.compress s b) ys := by
  rw [run, length_block h, absorb, List.take_left' h, List.drop_left' h, run]

theorem rest_block (h : b.length = H.size) (ys : Bytes) :
    H.rest (b ++ ys) = H.rest ys := by
  rw [rest, length_block h, Nat.mul_add_one, Nat.add_comm, ← List.drop_drop,
    List.drop_left' h, rest]

/-- A text is short, or begins with a block. -/
theorem short_or_block (xs : Bytes) :
    xs.length < H.size ∨ ∃ b ys, xs = b ++ ys ∧ b.length = H.size := by
  rcases Nat.lt_or_ge xs.length H.size with h | h
  · exact .inl h
  · exact .inr ⟨xs.take H.size, xs.drop H.size, (List.take_append_drop _ _).symm,
      List.length_take_of_le h⟩

/-- **A text in two parts**: what is left of the first one goes before the second. -/
theorem run_append (s : σ) (xs ys : Bytes) :
    H.run s (xs ++ ys) = H.run (H.run s xs) (H.rest xs ++ ys) := by
  induction hn : xs.length using Nat.strong_induction_on generalizing s xs with
  | _ n ih =>
    rcases short_or_block (H := H) xs with h | ⟨b, zs, rfl, hb⟩
    · rw [run_short s h, rest_short h]
    · have hlt : zs.length < n := by
        have hpos := H.size_pos
        rw [← hn, List.length_append]
        omega
      rw [List.append_assoc, run_block s hb, run_block s hb, rest_block hb]
      exact ih zs.length hlt _ zs rfl

theorem rest_append (xs ys : Bytes) : H.rest (xs ++ ys) = H.rest (H.rest xs ++ ys) := by
  induction hn : xs.length using Nat.strong_induction_on generalizing xs with
  | _ n ih =>
    rcases short_or_block (H := H) xs with h | ⟨b, zs, rfl, hb⟩
    · rw [rest_short h]
    · have hlt : zs.length < n := by
        have hpos := H.size_pos
        rw [← hn, List.length_append]
        omega
      rw [List.append_assoc, rest_block hb, rest_block hb]
      exact ih zs.length hlt zs rfl

end

/-! ## A buffer of one block -/

/-- A state and a buffer that stand for a text: the state is the one after its whole blocks, and
the buffer begins with the rest. -/
structure Buffers (text : Bytes) (s : σ) (buf : Bytes) : Prop where
  state : s = H.run H.init text
  length : buf.length = H.size
  take : buf.take (text.length % H.size) = H.rest text

section
variable {H} {text buf : Bytes} {s : σ}

theorem Buffers.start (h : buf.length = H.size) : H.Buffers [] H.init buf where
  state := (run_nil _).symm
  length := h
  take := by
    rw [rest_nil, List.length_nil, Nat.zero_mod, List.take_zero]

theorem Buffers.off_lt (_ : H.Buffers text s buf) : text.length % H.size < H.size :=
  Nat.mod_lt _ H.size_pos

/-- Where the next octet goes, behind octets that leave room and behind octets that do not. -/
theorem off_copy (hys : text.length % H.size + ys.length < H.size) :
    (text ++ ys).length % H.size = text.length % H.size + ys.length := by
  rw [List.length_append, Nat.add_mod, Nat.mod_eq_of_lt (show ys.length < H.size by omega),
    Nat.mod_eq_of_lt hys]

theorem off_fill (hys : text.length % H.size + ys.length = H.size) :
    (text ++ ys).length % H.size = 0 := by
  rw [List.length_append, ← Nat.mod_add_mod, hys, Nat.mod_self]

/-- Octets that leave room in the buffer. -/
theorem Buffers.copy (h : H.Buffers text s buf) (ys : Bytes)
    (hys : text.length % H.size + ys.length < H.size) :
    H.Buffers (text ++ ys) s (patch buf (text.length % H.size) ys) := by
  have hlen := h.length
  have hshort : (H.rest text ++ ys).length < H.size := by
    rw [List.length_append, length_rest]
    exact hys
  refine ⟨?_, ?_, ?_⟩
  · rw [run_append, run_short _ hshort]
    exact h.state
  · rw [length_patch (by omega)]
    exact hlen
  · rw [rest_append, rest_short hshort, off_copy hys, patch, ← h.take]
    exact List.take_left' (by rw [List.length_append, List.length_take]; omega)

/-- Octets that fill the buffer complete a block. -/
theorem Buffers.filled (h : H.Buffers text s buf)
    (hys : text.length % H.size + ys.length = H.size) :
    patch buf (text.length % H.size) ys = H.rest text ++ ys := by
  have hlen := h.length
  rw [patch, h.take, List.drop_of_length_le (by omega), List.append_nil]

/-- Once they are compressed it does not matter what the buffer holds. -/
theorem Buffers.fill (h : H.Buffers text s buf) (ys : Bytes)
    (hys : text.length % H.size + ys.length = H.size)
    (hbuf : buf'.length = H.size) :
    H.Buffers (text ++ ys) (H.compress s (patch buf (text.length % H.size) ys)) buf' := by
  have hblock : (H.rest text ++ ys).length = H.size := by
    rw [List.length_append, length_rest]
    exact hys
  have hrest : H.rest (text ++ ys) = [] := by
    rw [rest_append, ← List.append_nil (H.rest text ++ ys), rest_block hblock, rest_nil]
  refine ⟨?_, hbuf, ?_⟩
  · rw [run_append, ← List.append_nil (H.rest text ++ ys), run_block _ hblock,
      run_nil, h.filled hys, ← h.state]
  · rw [off_fill hys, hrest, List.take_zero]

/-! ## The end of a text -/

theorem padding_short {mark : UInt8} {len : Nat}
    (h : len % H.size + 1 + trailer.length ≤ H.size) :
    H.padding mark trailer len =
      mark :: zeros (H.size - (len % H.size + 1 + trailer.length)) ++ trailer := by
  have hmod : (len + 1 + trailer.length) % H.size = (len % H.size + 1 + trailer.length) % H.size := by
    rw [Nat.add_assoc, Nat.add_assoc, Nat.mod_add_mod]
  rw [padding, hmod]
  rcases Nat.lt_or_eq_of_le h with hlt | heq
  · rw [Nat.mod_eq_of_lt hlt, Nat.mod_eq_of_lt (by omega)]
  · rw [heq, Nat.mod_self, Nat.sub_zero, Nat.mod_self, Nat.sub_self]

theorem padding_long {mark : UInt8} {len : Nat}
    (h : H.size < len % H.size + 1 + trailer.length) (ht : trailer.length < H.size) :
    H.padding mark trailer len = (mark :: zeros (H.size - (len % H.size + 1))) ++
      (zeros (H.size - trailer.length) ++ trailer) := by
  have hlt := Nat.mod_lt len H.size_pos
  have hmod : (len + 1 + trailer.length) % H.size =
      len % H.size + 1 + trailer.length - H.size := by
    rw [Nat.add_assoc, ← Nat.mod_add_mod, ← Nat.add_assoc, Nat.mod_eq_sub_mod (Nat.le_of_lt h)]
    exact Nat.mod_eq_of_lt (by omega)
  have hcount : (H.size - (len % H.size + 1 + trailer.length - H.size)) % H.size =
      (H.size - (len % H.size + 1)) + (H.size - trailer.length) := by
    rw [Nat.mod_eq_of_lt (by omega)]
    omega
  have hzeros : zeros ((H.size - (len % H.size + 1)) + (H.size - trailer.length)) =
      zeros (H.size - (len % H.size + 1)) ++ zeros (H.size - trailer.length) :=
    List.replicate_add _ _ _
  rw [padding, hmod, hcount, hzeros]
  simp only [List.cons_append, List.append_assoc]

/-- **The padding in the last block of the text**: the mark, the zeros and the trailer are copied
into the buffer. -/
theorem Buffers.digest_short (h : H.Buffers text s buf) (mark : UInt8) (trailer : Bytes)
    (hroom : text.length % H.size + 1 + trailer.length ≤ H.size) :
    H.digest mark trailer text = H.compress s (patch
      (patch (patch buf (text.length % H.size) [mark]) (text.length % H.size + 1)
        (zeros (H.size - trailer.length - (text.length % H.size + 1))))
      (H.size - trailer.length) trailer) := by
  have hbuf := h.length
  have hzeros : H.size - (text.length % H.size + 1 + trailer.length) =
      H.size - trailer.length - (text.length % H.size + 1) := by omega
  have hlast : text.length % H.size +
      ([mark] ++ zeros (H.size - trailer.length - (text.length % H.size + 1))).length =
        H.size - trailer.length := by
    rw [List.length_append, List.length_singleton, length_zeros]
    omega
  have hfull := h.fill (H.padding mark trailer text.length) (by
    rw [padding_short hroom]
    simp only [List.length_append, List.length_cons, length_zeros]
    omega) h.length
  rw [digest, ← hfull.state, padding_short hroom, hzeros,
    patch_mark (by omega), patch_next hlast (by omega)]
  rfl

/-- **The padding in two blocks**: there is no room for the trailer in the last block of the
text.  What the second block was in does not matter. -/
theorem Buffers.digest_long (h : H.Buffers text s buf) (mark : UInt8) (trailer : Bytes)
    (hroom : H.size < text.length % H.size + 1 + trailer.length)
    (ht : trailer.length < H.size) (hbuf' : buf'.length = H.size) :
    H.digest mark trailer text = H.compress
      (H.compress s (patch (patch buf (text.length % H.size) [mark]) (text.length % H.size + 1)
        (zeros (H.size - (text.length % H.size + 1)))))
      (patch (patch buf' 0 (zeros (H.size - trailer.length))) (H.size - trailer.length)
        trailer) := by
  have hlt := h.off_lt
  have hbuf := h.length
  have hzeros : (zeros (H.size - trailer.length)).length = H.size - trailer.length :=
    length_zeros _
  have hlast : (zeros (H.size - trailer.length) ++ trailer).length = H.size := by
    rw [List.length_append, hzeros]
    omega
  have hmarked : ([mark] ++ zeros (H.size - (text.length % H.size + 1))).length =
      H.size - text.length % H.size := by
    rw [List.length_append, List.length_singleton, length_zeros]
    omega
  have hfirst := h.fill ([mark] ++ zeros (H.size - (text.length % H.size + 1))) (by omega) hlast
  have hoff : (text ++ ([mark] ++ zeros (H.size - (text.length % H.size + 1)))).length % H.size =
      0 := off_fill (by omega)
  have hsecond := hfirst.fill (zeros (H.size - trailer.length) ++ trailer)
    (by rw [hoff, hlast, Nat.zero_add]) hlast
  rw [hoff, patch_all (by rw [hlast])] at hsecond
  rw [digest, padding_long hroom ht, ← List.append_assoc,
    patch_mark (by omega),
    patch_next (by rw [hzeros, Nat.zero_add]) (by omega), patch_all (by rw [hlast, hbuf'])]
  exact hsecond.state.symm

end

end BlockHash

/-! ## HMAC -/

/-- A key under a mask, filled up to a block. -/
def padKey (mask : UInt8) (blockSize : Nat) (key : Bytes) : Bytes :=
  key.map (· ^^^ mask) ++ List.replicate (blockSize - key.length) mask

/-- HMAC over a hash with blocks of this size.  A longer key is hashed first. -/
def hmacOf (hash : Bytes → Bytes) (blockSize : Nat) (key text : Bytes) : Bytes :=
  let key := if blockSize < key.length then hash key else key
  hash (padKey 0x5c blockSize key ++ hash (padKey 0x36 blockSize key ++ text))

theorem length_padKey (mask : UInt8) {blockSize : Nat} {key : Bytes} (h : key.length ≤ blockSize) :
    (padKey mask blockSize key).length = blockSize := by
  rw [padKey, List.length_append, List.length_map, List.length_replicate]
  omega

end Libsmb2.Util
