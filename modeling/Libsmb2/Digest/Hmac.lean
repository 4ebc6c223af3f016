import Libsmb2.Digest.Sha

/-!
# HMAC

`hmac.c` over `usha.c`, which takes a text in pieces.  The functions of `hmac.c` join the codes of
the hash with `||`, so that all they tell is 0 or 1.

* `hmacReset_opens`, `hmacInputs_stands`, `hmacResult_eq` — the beginning, the pieces of a text
  and the end;
* `hmacInputs_answers` — what each piece is answered by;
* `hmac_chunks` — **however a text is cut up, the result is the HMAC of the whole text**, or an
  error if the hash cannot count its bits.
-/

set_option autoImplicit false

namespace Libsmb2.Digest

open Util

/-! ## The hashes by their names -/

/-- `SHAversion`, as far as it is compiled in. -/
inductive ShaVersion
  | SHA384
  | SHA512
  | SHA256
  deriving DecidableEq, Repr

namespace ShaVersion

/-- `USHABlockSize`. -/
def blockSize : ShaVersion → Nat
  | SHA256 => 64
  | SHA384 => 128
  | SHA512 => 128

/-- `USHAHashSize`. -/
def hashSize : ShaVersion → Nat
  | SHA256 => 32
  | SHA384 => 48
  | SHA512 => 64

def hash : ShaVersion → Bytes → Bytes
  | SHA256 => sha256
  | SHA384 => sha384
  | SHA512 => sha512

/-- How many bits of a text can be counted. -/
def limit : ShaVersion → Nat
  | SHA256 => 2 ^ (8 * 4) * 2 ^ (8 * 4)
  | SHA384 => 2 ^ (8 * 8) * 2 ^ (8 * 8)
  | SHA512 => 2 ^ (8 * 8) * 2 ^ (8 * 8)

def hmac (which : ShaVersion) (key text : Bytes) : Bytes :=
  hmacOf which.hash which.blockSize key text

end ShaVersion

/-- `USHAContext`.  The members of its union are kept apart here; only the one of its version is
looked at. -/
structure UshaContext where
  whichSha : ShaVersion
  sha256Context : ShaContext 4
  sha512Context : ShaContext 8

/-- `USHAReset`. -/
def ushaReset (ctx : UshaContext) (whichSha : ShaVersion) : UshaContext × ShaCode :=
  match whichSha with
  | .SHA256 =>
    ({ ctx with whichSha := .SHA256, sha256Context := sha256Reset ctx.sha256Context }, .shaSuccess)
  | .SHA384 =>
    ({ ctx with whichSha := .SHA384, sha512Context := sha384Reset ctx.sha512Context }, .shaSuccess)
  | .SHA512 =>
    ({ ctx with whichSha := .SHA512, sha512Context := sha512Reset ctx.sha512Context }, .shaSuccess)

/-- `USHAInput`. -/
def ushaInput (ctx : UshaContext) (bytes : Bytes) : UshaContext × ShaCode :=
  match ctx.whichSha with
  | .SHA256 =>
    let (c, code) := sha256Input ctx.sha256Context bytes
    ({ ctx with sha256Context := c }, code)
  | .SHA384 =>
    let (c, code) := sha384Input ctx.sha512Context bytes
    ({ ctx with sha512Context := c }, code)
  | .SHA512 =>
    let (c, code) := sha512Input ctx.sha512Context bytes
    ({ ctx with sha512Context := c }, code)

/-- `USHAResult`. -/
def ushaResult (ctx : UshaContext) : UshaContext × ShaCode × Option Bytes :=
  match ctx.whichSha with
  | .SHA256 =>
    let (c, code, digest) := sha256Result ctx.sha256Context
    ({ ctx with sha256Context := c }, code, digest)
  | .SHA384 =>
    let (c, code, digest) := sha384Result ctx.sha512Context
    ({ ctx with sha512Context := c }, code, digest)
  | .SHA512 =>
    let (c, code, digest) := sha512Result ctx.sha512Context
    ({ ctx with sha512Context := c }, code, digest)

/-! ## HMAC over them -/

/-- `HMACContext`. -/
structure HmacContext where
  whichSha : ShaVersion
  hashSize : Nat
  blockSize : Nat
  shaContext : UshaContext
  kOpad : Bytes

/-- What `||` makes of two codes. -/
def ShaCode.or (code code' : ShaCode) : ShaCode :=
  if code ≠ .shaSuccess ∨ code' ≠ .shaSuccess then .shaNull else .shaSuccess

/-- The key that `hmacReset` goes on with: its hash if it is longer than a block. -/
def hmacKey (memory : UshaContext) (whichSha : ShaVersion) (key : Bytes) :
    Except ShaCode Bytes :=
  if whichSha.blockSize < key.length then
    let (tctx, reset) := ushaReset memory whichSha
    if reset ≠ .shaSuccess then .error .shaNull
    else
      let (tctx, input) := ushaInput tctx key
      if input ≠ .shaSuccess then .error .shaNull
      else
        let (_, code, tempkey) := ushaResult tctx
        if code ≠ .shaSuccess then .error .shaNull else .ok (tempkey.getD [])
  else .ok key

/-- `hmacReset`; its second context is in the memory of the first. -/
def hmacReset (ctx : HmacContext) (whichSha : ShaVersion) (key : Bytes) : HmacContext × ShaCode :=
  let ctx := { ctx with
    blockSize := whichSha.blockSize
    hashSize := whichSha.hashSize
    whichSha := whichSha }
  match hmacKey ctx.shaContext whichSha key with
  | .error code => (ctx, code)
  | .ok key =>
    let ctx := { ctx with kOpad := padKey 0x5c whichSha.blockSize key }
    let (sha, reset) := ushaReset ctx.shaContext whichSha
    if reset ≠ .shaSuccess then ({ ctx with shaContext := sha }, .shaNull)
    else
      let (sha, input) := ushaInput sha (padKey 0x36 whichSha.blockSize key)
      ({ ctx with shaContext := sha }, reset.or input)

/-- `hmacInput`. -/
def hmacInput (ctx : HmacContext) (text : Bytes) : HmacContext × ShaCode :=
  let (sha, code) := ushaInput ctx.shaContext text
  ({ ctx with shaContext := sha }, code)

/-- `hmacResult`, with what it leaves in the digest. -/
def hmacResult (ctx : HmacContext) : HmacContext × ShaCode × Option Bytes :=
  -- the first pass uses the digest as a temporary buffer
  let (sha, code, digest) := ushaResult ctx.shaContext
  if code ≠ .shaSuccess then ({ ctx with shaContext := sha }, .shaNull, digest)
  else
    let (sha, code) := ushaReset sha ctx.whichSha
    if code ≠ .shaSuccess then ({ ctx with shaContext := sha }, .shaNull, digest)
    else
      let (sha, code) := ushaInput sha (ctx.kOpad.take ctx.blockSize)
      if code ≠ .shaSuccess then ({ ctx with shaContext := sha }, .shaNull, digest)
      else
        let (sha, code) := ushaInput sha ((digest.getD []).take ctx.hashSize)
        if code ≠ .shaSuccess then ({ ctx with shaContext := sha }, .shaNull, digest)
        else
          let (sha, code, final) := ushaResult sha
          if code ≠ .shaSuccess then ({ ctx with shaContext := sha }, .shaNull, digest)
          else ({ ctx with shaContext := sha }, .shaSuccess, final)

/-- `hmacInput` for one piece of a text after the other. -/
def hmacInputs : Machine HmacContext Bytes ShaCode := ⟨hmacInput⟩

/-- What the pieces of a text are answered by, the first of them behind `n` octets: if the hash can
count no more of these, any that is not empty is refused. -/
def ShaVersion.inputCodes (which : ShaVersion) (n : Nat) : List Bytes → List ShaCode
  | [] => []
  | c :: chunks =>
    (if 8 * n < which.limit ∨ c = [] then .shaSuccess else .shaNull) ::
      which.inputCodes (n + c.length) chunks

/-! ## What a context stands for -/

/-- The memory of a context. -/
structure UshaContext.WellFormed (ctx : UshaContext) : Prop where
  sha256 : ctx.sha256Context.messageBlock.length = 64
  sha512 : ctx.sha512Context.messageBlock.length = 128

/-- The member of this version stands for a text. -/
def UshaContext.Taking (ctx : UshaContext) : ShaVersion → Bytes → Prop
  | .SHA256, text => ctx.sha256Context.Holds sha256Family SHA256_H0 text
  | .SHA384, text => ctx.sha512Context.Holds sha512Family SHA384_H0 text
  | .SHA512, text => ctx.sha512Context.Holds sha512Family SHA512_H0 text

/-- The member of this version has lost its text. -/
def UshaContext.Lost (ctx : UshaContext) : ShaVersion → Prop
  | .SHA256 => ctx.sha256Context.Spoiled false .shaNull
  | .SHA384 => ctx.sha512Context.Spoiled false .shaNull
  | .SHA512 => ctx.sha512Context.Spoiled false .shaNull

/-- A text of this version that can be counted. -/
structure UshaContext.Holds (ctx : UshaContext) (which : ShaVersion) (text : Bytes) : Prop where
  version : ctx.whichSha = which
  wellFormed : ctx.WellFormed
  taking : ctx.Taking which text

section
variable {ctx : UshaContext} {which : ShaVersion} {text message : Bytes}

theorem ShaVersion.length_hash (which : ShaVersion) (text : Bytes) :
    (which.hash text).length = which.hashSize := by
  cases which <;>
    exact List.length_take_of_le (by simp [ShaWords.length_octets])

/-- A context has room for what it has counted. -/
theorem UshaContext.Holds.counted (h : ctx.Holds which text) : 8 * text.length < which.limit := by
  have hbound : ∀ {b : Nat} {V : ShaFamily b} {H0 : ShaWords b} {c : ShaContext b},
      c.Holds V H0 text → 8 * text.length < 2 ^ (8 * b) * 2 ^ (8 * b) := by
    intro b V H0 c hc
    have hloop := inputLoop_stands hc []
    by_contra hover
    rw [List.length_nil, Nat.add_zero, if_neg hover] at hloop
    have hcode : c.corrupted = .shaNull := hloop.2.1
    exact absurd (hc.corrupted.symm.trans hcode) (by decide)
  obtain ⟨-, -, htaking⟩ := h
  cases which with
  | SHA256 => exact hbound htaking
  | SHA384 => exact hbound htaking
  | SHA512 => exact hbound htaking

theorem ushaReset_holds (h : ctx.WellFormed) (which : ShaVersion) :
    (ushaReset ctx which).1.Holds which [] ∧ (ushaReset ctx which).2 = .shaSuccess := by
  cases which with
  | SHA256 => exact ⟨⟨rfl, ⟨h.sha256, h.sha512⟩, reset_holds h.sha256⟩, rfl⟩
  | SHA384 => exact ⟨⟨rfl, ⟨h.sha256, h.sha512⟩, reset_holds h.sha512⟩, rfl⟩
  | SHA512 => exact ⟨⟨rfl, ⟨h.sha256, h.sha512⟩, reset_holds h.sha512⟩, rfl⟩

theorem ushaInput_fits (h : ctx.Holds which text) (message : Bytes)
    (hfit : 8 * (text.length + message.length) < which.limit) :
    (ushaInput ctx message).1.Holds which (text ++ message) ∧
      (ushaInput ctx message).2 = .shaSuccess := by
  obtain ⟨hversion, hwell, htaking⟩ := h
  unfold ushaInput
  rw [hversion]
  cases which with
  | SHA256 =>
    obtain ⟨hholds, hcode⟩ := input_fits htaking hfit
    exact ⟨⟨rfl, ⟨hholds.buffers.length, hwell.sha512⟩, hholds⟩, hcode⟩
  | SHA384 =>
    obtain ⟨hholds, hcode⟩ := input_fits htaking hfit
    exact ⟨⟨rfl, ⟨hwell.sha256, hholds.buffers.length⟩, hholds⟩, hcode⟩
  | SHA512 =>
    obtain ⟨hholds, hcode⟩ := input_fits htaking hfit
    exact ⟨⟨rfl, ⟨hwell.sha256, hholds.buffers.length⟩, hholds⟩, hcode⟩

theorem ushaInput_over (h : ctx.Holds which text) (message : Bytes)
    (hover : ¬ 8 * (text.length + message.length) < which.limit) :
    ((ushaInput ctx message).1.whichSha = which ∧ (ushaInput ctx message).1.Lost which) ∧
      (ushaInput ctx message).2 = .shaSuccess := by
  obtain ⟨hversion, -, htaking⟩ := h
  unfold ushaInput
  rw [hversion]
  cases which with
  | SHA256 => exact ⟨⟨rfl, (input_over htaking hover).1⟩, (input_over htaking hover).2⟩
  | SHA384 => exact ⟨⟨rfl, (input_over htaking hover).1⟩, (input_over htaking hover).2⟩
  | SHA512 => exact ⟨⟨rfl, (input_over htaking hover).1⟩, (input_over htaking hover).2⟩

theorem ushaInput_lost (hversion : ctx.whichSha = which) (h : ctx.Lost which) (message : Bytes) :
    ushaInput ctx message = (ctx, if message = [] then .shaSuccess else .shaNull) := by
  obtain ⟨version, c256, c512⟩ := ctx
  subst hversion
  unfold ushaInput
  cases version with
  | SHA256 =>
    dsimp only [sha256Input]
    rw [input_stays_spoiled h message]
  | SHA384 =>
    dsimp only [sha384Input]
    rw [input_stays_spoiled h message]
  | SHA512 =>
    dsimp only [sha512Input]
    rw [input_stays_spoiled h message]

theorem ushaResult_holds (h : ctx.Holds which text) :
    (ushaResult ctx).1.WellFormed ∧ (ushaResult ctx).2.1 = .shaSuccess ∧
      (ushaResult ctx).2.2 = some (which.hash text) := by
  obtain ⟨hversion, hwell, htaking⟩ := h
  unfold ushaResult
  rw [hversion]
  cases which with
  | SHA256 =>
    dsimp only [sha256Result]
    rw [resultN_taking htaking]
    exact ⟨⟨length_zeros _, hwell.sha512⟩, rfl, rfl⟩
  | SHA384 =>
    dsimp only [sha384Result]
    rw [resultN_taking htaking]
    exact ⟨⟨hwell.sha256, length_zeros _⟩, rfl, rfl⟩
  | SHA512 =>
    dsimp only [sha512Result]
    rw [resultN_taking htaking]
    exact ⟨⟨hwell.sha256, length_zeros _⟩, rfl, rfl⟩

theorem ushaResult_lost (hversion : ctx.whichSha = which) (h : ctx.Lost which) :
    (ushaResult ctx).2.1 = .shaNull ∧ (ushaResult ctx).2.2 = none := by
  unfold ushaResult
  rw [hversion]
  cases which with
  | SHA256 =>
    dsimp only [sha256Result]
    rw [resultN_spoiled h]
    exact ⟨rfl, rfl⟩
  | SHA384 =>
    dsimp only [sha384Result]
    rw [resultN_spoiled h]
    exact ⟨rfl, rfl⟩
  | SHA512 =>
    dsimp only [sha512Result]
    rw [resultN_spoiled h]
    exact ⟨rfl, rfl⟩

/-- A whole text at once. -/
theorem usha_text (h : ctx.WellFormed) (which : ShaVersion) (text : Bytes)
    (hfit : 8 * text.length < which.limit) :
    (ushaInput (ushaReset ctx which).1 text).1.Holds which text ∧
      (ushaInput (ushaReset ctx which).1 text).2 = .shaSuccess := by
  have hinput := ushaInput_fits (ushaReset_holds h which).1 text
    (by rwa [List.length_nil, Nat.zero_add])
  rwa [List.nil_append] at hinput

end

/-- The key that goes into the pads. -/
def ShaVersion.shortKey (which : ShaVersion) (key : Bytes) : Bytes :=
  if which.blockSize < key.length then which.hash key else key

/-- The context is at this place of a text. -/
structure HmacContext.Takes (ctx : HmacContext) (which : ShaVersion) (key text : Bytes) :
    Prop where
  version : ctx.whichSha = which
  hashSize : ctx.hashSize = which.hashSize
  blockSize : ctx.blockSize = which.blockSize
  kOpad : ctx.kOpad = padKey 0x5c which.blockSize (which.shortKey key)
  inner : ctx.shaContext.Holds which
    (padKey 0x36 which.blockSize (which.shortKey key) ++ text)

section
variable {ctx : HmacContext} {memory : UshaContext} {which : ShaVersion} {key text : Bytes}

theorem ShaVersion.length_shortKey (which : ShaVersion) (key : Bytes) :
    (which.shortKey key).length ≤ which.blockSize := by
  unfold ShaVersion.shortKey
  split
  · rw [which.length_hash]
    cases which <;> decide
  · omega

theorem ShaVersion.blocks_lt (which : ShaVersion) :
    8 * (which.blockSize + which.hashSize) < which.limit := by
  cases which <;> decide

theorem hmacKey_ok (h : memory.WellFormed) (hkey : 8 * key.length < which.limit) :
    hmacKey memory which key = .ok (which.shortKey key) := by
  unfold hmacKey ShaVersion.shortKey
  split
  · obtain ⟨hholds, hinput⟩ := usha_text h which key hkey
    obtain ⟨-, hcode, hdigest⟩ := ushaResult_holds hholds
    dsimp only
    rw [(ushaReset_holds h which).2, hinput, hcode, hdigest]
    rfl
  · rfl

theorem hmacKey_error (h : memory.WellFormed) (hkey : ¬ 8 * key.length < which.limit) :
    hmacKey memory which key = .error .shaNull := by
  have hlong : which.blockSize < key.length := by
    have hlt := which.blocks_lt
    omega
  have hreset := ushaReset_holds h which
  obtain ⟨⟨hversion, hlost⟩, hinput⟩ := ushaInput_over hreset.1 key
    (by rwa [List.length_nil, Nat.zero_add])
  unfold hmacKey
  dsimp only
  rw [if_pos hlong, hreset.2, hinput, (ushaResult_lost hversion hlost).1]
  rfl

/-- **The beginning**: the inner hash has taken the inner pad. -/
theorem hmacReset_opens (h : ctx.shaContext.WellFormed) (hkey : 8 * key.length < which.limit) :
    (hmacReset ctx which key).1.Takes which key [] ∧
      (hmacReset ctx which key).2 = .shaSuccess := by
  have hreset := ushaReset_holds h which
  have hpad := length_padKey 0x36 (which.length_shortKey key)
  obtain ⟨hholds, hinput⟩ := usha_text h which (padKey 0x36 which.blockSize (which.shortKey key))
    (by have hlt := which.blocks_lt; omega)
  unfold hmacReset
  dsimp only
  rw [hmacKey_ok h hkey]
  dsimp only
  rw [hreset.2, hinput]
  exact ⟨⟨rfl, rfl, rfl, rfl, by rw [List.append_nil]; exact hholds⟩, rfl⟩

/-- The hash can count what it has been given. -/
theorem HmacContext.Takes.counted (h : ctx.Takes which key text) :
    8 * (which.blockSize + text.length) < which.limit := by
  have hpad := length_padKey 0x36 (which.length_shortKey key)
  have hcounted := h.inner.counted
  rwa [List.length_append, hpad] at hcounted

/-- One piece of a text. -/
theorem hmacInput_takes (h : ctx.Takes which key text) (message : Bytes)
    (hfit : 8 * (which.blockSize + text.length + message.length) < which.limit) :
    (hmacInput ctx message).1.Takes which key (text ++ message) ∧
      (hmacInput ctx message).2 = .shaSuccess := by
  have hpad := length_padKey 0x36 (which.length_shortKey key)
  have hinput := ushaInput_fits h.inner message (by
    rw [List.length_append, hpad]
    exact hfit)
  rw [List.append_assoc] at hinput
  exact ⟨⟨h.version, h.hashSize, h.blockSize, h.kOpad, hinput.1⟩, hinput.2⟩

/-- A piece behind which the hash can count no more. -/
theorem hmacInput_over (h : ctx.Takes which key text) (message : Bytes)
    (hover : ¬ 8 * (which.blockSize + text.length + message.length) < which.limit) :
    ((hmacInput ctx message).1.shaContext.whichSha = which ∧
      (hmacInput ctx message).1.shaContext.Lost which) ∧
      (hmacInput ctx message).2 = .shaSuccess := by
  have hpad := length_padKey 0x36 (which.length_shortKey key)
  exact ushaInput_over h.inner message (by rwa [List.length_append, hpad])

theorem hmacInput_lost (hversion : ctx.shaContext.whichSha = which)
    (h : ctx.shaContext.Lost which) (message : Bytes) :
    hmacInput ctx message = (ctx, if message = [] then .shaSuccess else .shaNull) := by
  unfold hmacInput
  rw [ushaInput_lost hversion h message]

theorem hmacInputs_lost (hversion : ctx.shaContext.whichSha = which)
    (h : ctx.shaContext.Lost which) (chunks : List Bytes) : hmacInputs.state ctx chunks = ctx := by
  induction chunks with
  | nil => rfl
  | cons c chunks ih =>
    have hsame : (hmacInputs.step ctx c).1 = ctx := congrArg Prod.fst (hmacInput_lost hversion h c)
    unfold Machine.state at ih ⊢
    rw [List.foldl_cons, hsame, ih]

/-- **The pieces of a text**, if the hash can count them, and if not. -/
theorem hmacInputs_stands (h : ctx.Takes which key text) (chunks : List Bytes) :
    if 8 * (which.blockSize + (text ++ chunks.flatten).length) < which.limit
    then (hmacInputs.state ctx chunks).Takes which key (text ++ chunks.flatten)
    else (hmacInputs.state ctx chunks).shaContext.whichSha = which ∧
      (hmacInputs.state ctx chunks).shaContext.Lost which := by
  induction chunks generalizing ctx text with
  | nil =>
    rw [List.flatten_nil, List.append_nil, if_pos h.counted]
    exact h
  | cons c chunks ih =>
    have hstep : hmacInputs.state ctx (c :: chunks) =
        hmacInputs.state (hmacInput ctx c).1 chunks := rfl
    rw [hstep, List.flatten_cons, ← List.append_assoc]
    by_cases hfit : 8 * (which.blockSize + text.length + c.length) < which.limit
    · exact ih (hmacInput_takes h c hfit).1
    · obtain ⟨hlost, -⟩ := hmacInput_over h c hfit
      rw [if_neg (by rw [List.length_append, List.length_append]; omega),
        hmacInputs_lost hlost.1 hlost.2]
      exact hlost

theorem hmacInputs_answers_lost (hversion : ctx.shaContext.whichSha = which)
    (h : ctx.shaContext.Lost which) {n : Nat} (hover : ¬ 8 * n < which.limit)
    (chunks : List Bytes) : hmacInputs.answers ctx chunks = which.inputCodes n chunks := by
  induction chunks generalizing n with
  | nil => rfl
  | cons c chunks ih =>
    have hstep : hmacInputs.step ctx c = (ctx, if c = [] then .shaSuccess else .shaNull) :=
      hmacInput_lost hversion h c
    have hlater := ih (show ¬ 8 * (n + c.length) < which.limit by omega)
    rw [Machine.answers, hstep, hlater, ShaVersion.inputCodes]
    simp only [hover, false_or]

/-- **What each piece is answered by.**  The one behind which the hash can count no more is not
refused yet. -/
theorem hmacInputs_answers (h : ctx.Takes which key text) (chunks : List Bytes) :
    hmacInputs.answers ctx chunks = which.inputCodes (which.blockSize + text.length) chunks := by
  induction chunks generalizing ctx text with
  | nil => rfl
  | cons c chunks ih =>
    have hstep : hmacInputs.step ctx c = hmacInput ctx c := rfl
    rw [Machine.answers, ShaVersion.inputCodes, if_pos (.inl h.counted), hstep]
    by_cases hfit : 8 * (which.blockSize + text.length + c.length) < which.limit
    · obtain ⟨htakes, hcode⟩ := hmacInput_takes h c hfit
      rw [hcode, ih htakes, List.length_append, Nat.add_assoc]
    · obtain ⟨⟨hversion, hlost⟩, hcode⟩ := hmacInput_over h c hfit
      rw [hcode, hmacInputs_answers_lost hversion hlost hfit]

/-- **The end**: the outer hash over the inner one. -/
theorem hmacResult_eq (h : ctx.Takes which key text) :
    (hmacResult ctx).2 = (.shaSuccess, some (which.hmac key text)) := by
  have hlt := which.blocks_lt
  have hpad := length_padKey 0x5c (which.length_shortKey key)
  obtain ⟨hwell, hcode, hdigest⟩ := ushaResult_holds h.inner
  have hreset := ushaReset_holds hwell which
  have hopad : ctx.kOpad.take ctx.blockSize =
      padKey 0x5c which.blockSize (which.shortKey key) := by
    rw [h.kOpad, h.blockSize, List.take_of_length_le (Nat.le_of_eq hpad)]
  have hinner : ((some (which.hash (padKey 0x36 which.blockSize (which.shortKey key) ++
      text))).getD []).take ctx.hashSize =
      which.hash (padKey 0x36 which.blockSize (which.shortKey key) ++ text) := by
    rw [h.hashSize]
    exact List.take_of_length_le (Nat.le_of_eq (which.length_hash _))
  have hfirst := usha_text hwell which (padKey 0x5c which.blockSize (which.shortKey key))
    (by omega)
  have hsecond := ushaInput_fits hfirst.1
    (which.hash (padKey 0x36 which.blockSize (which.shortKey key) ++ text)) (by
      rw [hpad, which.length_hash]
      exact hlt)
  obtain ⟨-, hfinal, houter⟩ := ushaResult_holds hsecond.1
  unfold hmacResult
  dsimp only
  rw [h.version, hcode, hdigest, hopad, hinner, hreset.2, hfirst.2, hsecond.2, hfinal, houter]
  rfl

theorem hmacResult_lost (hversion : ctx.shaContext.whichSha = which)
    (h : ctx.shaContext.Lost which) : (hmacResult ctx).2 = (.shaNull, none) := by
  obtain ⟨hcode, hdigest⟩ := ushaResult_lost hversion h
  unfold hmacResult
  dsimp only
  rw [hcode, hdigest]
  rfl

end

/-- **However a text is cut up, the result is the HMAC of the whole text**, unless the hash
cannot count the bits of the text behind the pad: then there is none, and what comes behind the
piece with which the text became too long is refused.  A key that it cannot count is refused at
once. -/
theorem hmac_chunks {ctx : HmacContext} (h : ctx.shaContext.WellFormed) (which : ShaVersion)
    (key : Bytes) (chunks : List Bytes) :
    (8 * key.length < which.limit →
      (hmacReset ctx which key).2 = .shaSuccess ∧
      hmacInputs.answers (hmacReset ctx which key).1 chunks =
        which.inputCodes which.blockSize chunks ∧
      (hmacResult (hmacInputs.state (hmacReset ctx which key).1 chunks)).2 =
        if 8 * (which.blockSize + chunks.flatten.length) < which.limit
        then (.shaSuccess, some (which.hmac key chunks.flatten)) else (.shaNull, none)) ∧
    (¬ 8 * key.length < which.limit → (hmacReset ctx which key).2 = .shaNull) := by
  constructor
  · intro hkey
    obtain ⟨htakes, hcode⟩ := hmacReset_opens h hkey
    refine ⟨hcode, hmacInputs_answers htakes chunks, ?_⟩
    have hstands := hmacInputs_stands htakes chunks
    rw [List.nil_append] at hstands
    split at hstands
    · rename_i hfit
      rw [if_pos hfit, hmacResult_eq hstands]
    · rename_i hover
      rw [if_neg hover, hmacResult_lost hstands.1 hstands.2]
  · intro hkey
    unfold hmacReset
    dsimp only
    rw [hmacKey_error h hkey]

/-- A context that has been used for something else. -/
def usedHmacContext : HmacContext :=
  ⟨.SHA512, 64, 128, ⟨.SHA512, usedContext, ⟨SHA512_H0, 3, 5, 17, List.replicate 128 7, true,
    .shaStateError⟩⟩, List.replicate 128 9⟩

/-- The key "Jefe". -/
def jefe : Bytes := [0x4a, 0x65, 0x66, 0x65]

/-- A text in two pieces. -/
theorem jefe_chunks :
    (hmacReset usedHmacContext .SHA256 jefe).2 = .shaSuccess ∧
      hmacInputs.answers (hmacReset usedHmacContext .SHA256 jefe).1 [[0x77, 0x68], [0x61, 0x74]] =
        [.shaSuccess, .shaSuccess] ∧
      (hmacResult (hmacInputs.state (hmacReset usedHmacContext .SHA256 jefe).1
        [[0x77, 0x68], [0x61, 0x74]])).2 =
        (.shaSuccess, some (ShaVersion.SHA256.hmac jefe [0x77, 0x68, 0x61, 0x74])) :=
  have hused : usedHmacContext.shaContext.WellFormed := ⟨rfl, rfl⟩
  (hmac_chunks hused .SHA256 jefe [[0x77, 0x68], [0x61, 0x74]]).1 (by decide)

end Libsmb2.Digest
