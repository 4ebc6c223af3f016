import Libsmb2.Context
import Libsmb2.Unicode
import Libsmb2.Util.CStr

/-!
# URLs

`smb2_parse_url` and `smb2_parse_args` of `init.c`.  What follows the scheme is copied to a buffer
and cut into pieces there, the arguments first.  A `;` or an `@` belongs to the authority if more of
the string is left behind it than behind the first `/`.

* `parseArgsLoop_standsAt`, `parseLocation_standsAt` — what is made of the strings in the buffer,
  and `parseUrl_eq`, of a URL, as functions of strings;
* `inside_parseUrl_iff` — the argument that is read through a null pointer.

No allocation fails here.
-/

set_option autoImplicit false

namespace Libsmb2.Url

open Util Util.CStr

/-! ## The context -/

/-- `enum smb2_sec`. -/
inductive Mechanism
  | undefined
  | ntlmssp
  | krb5
  deriving DecidableEq, Repr

/-- The fields of a context that the arguments set. -/
structure Fields where
  sealing : Bool
  sign : Bool
  ndr : Nat
  endianness : Nat
  sec : Mechanism
  useCachedCreds : Bool
  version : Version
  timeout : Int
  deriving DecidableEq, Repr

/-- The octets of a text. -/
def ascii (s : String) : Bytes := s.toList.map fun c => UInt8.ofNat c.toNat

/-- Why a URL is refused. -/
inductive UrlError
  | scheme
  | tooLong
  | unknownArgument (args : Bytes)
  | unknownSec (value : Bytes)
  | unknownVers (value : Bytes)
  | sealVersion
  | format
  deriving DecidableEq, Repr

/-- The text of `smb2_set_error`. -/
def UrlError.text : UrlError → Bytes
  | .scheme => ascii "URL does not start with 'smb://'"
  | .tooLong => ascii "URL is too long"
  | .unknownArgument args => ascii "Unknown argument: " ++ args
  | .unknownSec value => ascii "Unknown sec= argument: " ++ value
  | .unknownVers value => ascii "Unknown vers= argument: " ++ value
  | .sealVersion => ascii "Can only use seal with SMB3"
  | .format => ascii "Wrong URL format"

/-! ## Arguments -/

/-- `isspace`. -/
def isSpace (b : UInt8) : Bool := b = 0x20 || (0x09 ≤ b && b ≤ 0x0d)

def isDigit (b : UInt8) : Bool := 0x30 ≤ b && b ≤ 0x39

/-- The number that decimal digits stand for. -/
def decimal (ds : Bytes) : Nat := ds.foldl (fun n d => n * 10 + (d.toNat - 0x30)) 0

/-- The digits that a string begins with. -/
def digits (s : Bytes) : Nat := decimal (s.takeWhile isDigit)

/-- `strtol` with base 10, where a `long` has 64 bits. -/
def strtol (s : Bytes) : Int :=
  match s.dropWhile isSpace with
  | 0x2d :: s => max (-(digits s : Int)) (-2 ^ 63)
  | 0x2b :: s => min (digits s : Int) (2 ^ 63 - 1)
  | s => min (digits s : Int) (2 ^ 63 - 1)

/-- The mechanism of a `sec=` argument. -/
def parseSec (value : Bytes) (f : Fields) : Fields × Option UrlError :=
  if value = ascii "krb5" then ({ f with sec := .krb5 }, none)
  else if value = ascii "krb5cc" then ({ f with sec := .krb5, useCachedCreds := true }, none)
  else if value = ascii "ntlmssp" then ({ f with sec := .ntlmssp }, none)
  else (f, some (.unknownSec value))

/-- The version of a `vers=` argument. -/
def parseVers (value : Bytes) (f : Fields) : Fields × Option UrlError :=
  if value = ascii "2" then ({ f with version := .any2 }, none)
  else if value = ascii "3" then ({ f with version := .any3 }, none)
  else if value = ascii "2.02" then ({ f with version := .dialect 0x0202 }, none)
  else if value = ascii "2.10" then ({ f with version := .dialect 0x0210 }, none)
  else if value = ascii "3.0" ∨ value = ascii "3.00" then
    ({ f with version := .dialect 0x0300 }, none)
  else if value = ascii "3.02" then ({ f with version := .dialect 0x0302 }, none)
  else if value = ascii "3.1.1" then ({ f with version := .dialect 0x0311 }, none)
  else (f, some (.unknownVers value))

/-- A value is read; without one the pointer is null. -/
def withValue (value : Option Bytes) (parse : Bytes → Fields × Option UrlError) :
    Except Overrun (Fields × Option UrlError) :=
  match value with
  | none => .error .read
  | some value => .ok (parse value)

/-- One turn of the loop of `smb2_parse_args`, once the argument and its value are cut. -/
def parseArg (args : Bytes) (value : Option Bytes) (f : Fields) :
    Except Overrun (Fields × Option UrlError) :=
  if args = ascii "seal" then .ok ({ f with sealing := true }, none)
  else if args = ascii "sign" then .ok ({ f with sign := true }, none)
  else if args = ascii "ndr3264" then .ok ({ f with ndr := 0 }, none)
  else if args = ascii "ndr32" then .ok ({ f with ndr := 1 }, none)
  else if args = ascii "ndr64" then .ok ({ f with ndr := 2 }, none)
  else if args = ascii "le" then .ok ({ f with endianness := 0 }, none)
  else if args = ascii "be" then .ok ({ f with endianness := 1 }, none)
  else if args = ascii "sec" then withValue value fun v => parseSec v f
  else if args = ascii "vers" then withValue value fun v => parseVers v f
  else if args = ascii "timeout" then
    withValue value fun v => ({ f with timeout := toInt32 (strtol v) }, none)
  else .ok (f, some (.unknownArgument args))

/-- What `smb2_parse_args` does at last: SMB2 has no encryption. -/
def sealCheck (f : Fields) : Fields × Option UrlError :=
  if f.sealing then
    match f.version with
    | .any => ({ f with version := .any3 }, none)
    | .any3 => (f, none)
    | .any2 => (f, some .sealVersion)
    | .dialect d =>
      if d ∈ [0x0300, 0x0302, 0x0311] then (f, none) else (f, some .sealVersion)
  else (f, none)

def amp : UInt8 := 0x26
def equals : UInt8 := 0x3d
def slash : UInt8 := 0x2f
def semicolon : UInt8 := 0x3b
def atSign : UInt8 := 0x40
def question : UInt8 := 0x3f

/-- The loop of `smb2_parse_args`, in at most so many turns: each moves on in the buffer. -/
def parseArgsLoop : Nat → Bytes → Nat → Fields →
    Except Overrun (Bytes × Fields × Option UrlError)
  | 0, _, _, _ => .error .read
  | fuel + 1, str, args, f => do
    let c ← byteAt str args
    if c = 0 then .ok (str, f, none)
    else do
      let (str, next) ← cutAt str args amp
      let (str, value) ← cutAt str args equals
      let name ← stringAt str args
      let value ← value.mapM (stringAt str)
      let (f, failed) ← parseArg name value f
      match failed, next with
      | some e, _ => .ok (str, f, some e)
      | none, none => .ok (str, f, none)
      | none, some next => parseArgsLoop fuel str next f

/-- `smb2_parse_args`. -/
def parseArgs (str : Bytes) (args : Nat) (f : Fields) :
    Except Overrun (Bytes × Fields × Option UrlError) := do
  let (str, f, failed) ← parseArgsLoop (str.length - args) str args f
  match failed with
  | some e => .ok (str, f, some e)
  | none => .ok (str, sealCheck f)

/-! ## Components -/

/-- `struct smb2_url`. -/
structure SmbUrl where
  domain : Option Bytes
  user : Option Bytes
  server : Option Bytes
  share : Option Bytes
  path : Option Bytes
  deriving DecidableEq, Repr

/-- The domain or the user: what comes before an octet with more behind it than the shared folder
has. -/
def takePrefix (str : Bytes) (ptr : Nat) (c : UInt8) (lenSharedFolder : Nat) :
    Except Overrun (Bytes × Option Bytes × Nat) := do
  match ← strchr str ptr c with
  | none => .ok (str, none, ptr)
  | some tmp => do
    let behind ← stringAt str tmp
    if lenSharedFolder < behind.length then do
      let str := str.set tmp 0
      let name ← stringAt str ptr
      .ok (str, some name, tmp + 1)
    else .ok (str, none, ptr)

/-- `smb2_parse_url` behind the arguments. -/
def parseLocation (str : Bytes) : Except Overrun (Except UrlError SmbUrl) := do
  match ← strchr str 0 slash with
  | none => .ok (.error .format)
  | some sharedFolder => do
    let lenSharedFolder := (← stringAt str sharedFolder).length
    let (str, domain, ptr) ← takePrefix str 0 semicolon lenSharedFolder
    let (str, user, ptr) ← takePrefix str ptr atSign lenSharedFolder
    let (str, behind) ← cutAt str ptr slash
    let (server, ptr) ← match behind with
      | none => .ok (none, ptr)
      | some behind => (stringAt str ptr).map fun server => (some server, behind)
    let (str, behind) ← cutAt str ptr slash
    let share ← stringAt str ptr
    let path ← behind.mapM (stringAt str)
    .ok (.ok ⟨domain, user, server, some share, path⟩)

def MAX_URL_SIZE : Nat := 1024

/-- `strncpy` of a string to a buffer of `n` octets. -/
def strncpy (s : Bytes) (n : Nat) : Bytes := s.take n ++ zeros (n - s.length)

/-- `smb2_parse_url`. -/
def parseUrl (f : Fields) (url : CString) : Except Overrun (Fields × Except UrlError SmbUrl) :=
  if url.octets.take 6 ≠ ascii "smb://" then .ok (f, .error .scheme)
  else if MAX_URL_SIZE ≤ (url.octets.drop 6).length then .ok (f, .error .tooLong)
  else do
    let (str, args) ← cutAt (strncpy (url.octets.drop 6) MAX_URL_SIZE) 0 question
    match args with
    | none => (parseLocation str).map fun r => (f, r)
    | some args => do
      let (str, f, failed) ← parseArgs str args f
      match failed with
      | some e => .ok (f, .error e)
      | none => (parseLocation str).map fun r => (f, r)

/-! ## Strings -/

/-- An argument and its value, if it has one. -/
def nameValue (s : Bytes) : Bytes × Option Bytes :=
  match split equals s with
  | none => (s, none)
  | some (name, value) => (name, some value)

/-- What is made of an argument. -/
def parsePart (s : Bytes) (f : Fields) : Except Overrun (Fields × Option UrlError) :=
  parseArg (nameValue s).1 (nameValue s).2 f

/-- What is made of the arguments one after another; an empty one at the end is left. -/
def parseParts : List Bytes → Fields → Except Overrun (Fields × Option UrlError)
  | [], f => .ok (f, none)
  | s :: ss, f =>
    if s = [] ∧ ss = [] then .ok (f, none)
    else do
      let (f, failed) ← parsePart s f
      match failed with
      | some e => .ok (f, some e)
      | none => parseParts ss f

/-- What is made of everything behind the `?`. -/
def parseQuery (s : Bytes) (f : Fields) : Except Overrun (Fields × Option UrlError) := do
  let (f, failed) ← parseParts (s.splitOn amp) f
  match failed with
  | some e => .ok (f, some e)
  | none => .ok (sealCheck f)

/-- What comes before an octet, if it is there, and what is left. -/
def cutPrefix (c : UInt8) (s : Bytes) : Option Bytes × Bytes :=
  match split c s with
  | none => (none, s)
  | some (name, rest) => (some name, rest)

/-- The components of what stands before the `?`. -/
def location (s : Bytes) : Except UrlError SmbUrl :=
  match split slash s with
  | none => .error .format
  | some (authority, folder) =>
    let (domain, rest) := cutPrefix semicolon authority
    let (user, server) := cutPrefix atSign rest
    match split slash folder with
    | none => .ok ⟨domain, user, some server, some folder, none⟩
    | some (share, path) => .ok ⟨domain, user, some server, some share, some path⟩

/-! ## The loop over the arguments -/

section
variable {str s : Bytes} {p : Nat} {f : Fields}

/-- An argument and its value are cut and read. -/
theorem cutAt_equals (h : StandsAt str p s) :
    ∃ str' value, cutAt str p equals = .ok (str', value) ∧
      stringAt str' p = .ok (nameValue s).1 ∧
      value.mapM (stringAt str') = .ok (nameValue s).2 ∧
      str'.take p = str.take p ∧ ∀ q, p + s.length < q → str'.drop q = str.drop q := by
  cases hs : split equals s with
  | none =>
    refine ⟨str, none, h.cutAt_none (by decide) hs, ?_, ?_, rfl, fun q hq => rfl⟩
    · rw [h.stringAt, nameValue, hs]
    · rw [nameValue, hs]
      rfl
  | some r =>
    obtain ⟨name, value⟩ := r
    obtain ⟨hcut, hparted⟩ := h.cutAt_some (by decide) hs
    refine ⟨_, _, hcut, ?_, ?_, hparted.take_eq, fun q hq => ?_⟩
    · rw [hparted.before.stringAt, nameValue, hs]
    · rw [nameValue, hs, Option.mapM_some, hparted.behind.stringAt]
      rfl
    · have hlen := congrArg List.length (split_eq_some hs).1
      rw [List.length_append, List.length_cons] at hlen
      rw [List.drop_set, if_pos (by omega)]

/-- **What the loop makes of the arguments**: nothing before them changes. -/
theorem parseArgsLoop_standsAt {fuel : Nat} (h : StandsAt str p s) (hfuel : s.length < fuel) :
    ∃ str', str'.take p = str.take p ∧
      parseArgsLoop fuel str p f = (parseParts (s.splitOn amp) f).map fun r => (str', r) := by
  induction fuel generalizing str s p f with
  | zero => omega
  | succ fuel ih =>
    cases s with
    | nil =>
      refine ⟨str, rfl, ?_⟩
      rw [parseArgsLoop, h.byteAt]
      rfl
    | cons x s =>
      have hx : ¬ x = 0 := fun hzero => h.noZero (hzero ▸ List.mem_cons_self)
      have hnext : (x :: s).splitOn amp ≠ [] := List.splitOn_ne_nil amp (x :: s)
      rw [parseArgsLoop, h.byteAt, ok_bind, List.headD_cons, if_neg hx]
      cases hs : split amp (x :: s) with
      | none =>
        obtain ⟨str', value, hcut, hname, hvalue, htake, -⟩ := cutAt_equals h
        refine ⟨str', htake, ?_⟩
        rw [h.cutAt_none (by decide) hs, ok_bind]
        dsimp only
        rw [hcut, ok_bind]
        dsimp only
        rw [hname, ok_bind, hvalue, ok_bind, List.splitOn_eq_singleton (split_eq_none hs),
          parseParts, if_neg (by simp), parsePart]
        cases parseArg (nameValue (x :: s)).1 (nameValue (x :: s)).2 f with
        | error e => rfl
        | ok r =>
          obtain ⟨f', failed⟩ := r
          cases failed <;> rfl
      | some r =>
        obtain ⟨a, b⟩ := r
        obtain ⟨hsplit, hamp⟩ := split_eq_some hs
        have hlen : (x :: s).length = a.length + (b.length + 1) := by
          rw [hsplit, List.length_append, List.length_cons]
        obtain ⟨hfirst, hparted⟩ := h.cutAt_some (by decide) hs
        obtain ⟨str₁, value, hcut, hname, hvalue, htake, hdrop⟩ := cutAt_equals hparted.before
        have hbehind := hparted.behind.of_drop (hdrop (p + a.length + 1) (by omega))
        rw [hfirst, ok_bind]
        dsimp only
        rw [hcut, ok_bind]
        dsimp only
        rw [hname, ok_bind, hvalue, ok_bind, hsplit,
          List.splitOn_append_cons_self_of_not_mem hamp, parseParts,
          if_neg (fun hnone => List.splitOn_ne_nil amp b hnone.2), parsePart]
        cases parseArg (nameValue a).1 (nameValue a).2 f with
        | error e => exact ⟨str, rfl, rfl⟩
        | ok r =>
          obtain ⟨f', failed⟩ := r
          cases failed with
          | some e => exact ⟨str₁, htake.trans hparted.take_eq, rfl⟩
          | none =>
            obtain ⟨str', hsame, hloop⟩ := ih (f := f') hbehind (by omega)
            refine ⟨str', ?_, hloop⟩
            have hcongr := congrArg (List.take p) hsame
            rw [List.take_take, List.take_take, Nat.min_eq_left (by omega)] at hcongr
            exact hcongr.trans (htake.trans hparted.take_eq)

/-- **What is made of everything behind the `?`.** -/
theorem parseArgs_standsAt (h : StandsAt str p s) :
    ∃ str', str'.take p = str.take p ∧
      parseArgs str p f = (parseQuery s f).map fun r => (str', r) := by
  have hlen := h.length_lt
  obtain ⟨str', hsame, hloop⟩ := parseArgsLoop_standsAt (f := f) h
    (show s.length < str.length - p by omega)
  refine ⟨str', hsame, ?_⟩
  rw [parseArgs, hloop, parseQuery]
  cases parseParts (s.splitOn amp) f with
  | error e => rfl
  | ok r =>
    obtain ⟨f', failed⟩ := r
    cases failed <;> rfl

/-! ## The components in the buffer -/

/-- An octet that is not in the authority is behind it. -/
theorem le_length_of_split {c d : UInt8} {a rest x y : Bytes} (hne : c ≠ d) (hc : c ∉ a)
    (hs : split c (a ++ d :: rest) = some (x, y)) : (c :: y).length ≤ (d :: rest).length := by
  obtain ⟨hsplit, -⟩ := split_eq_some hs
  rcases List.append_eq_append_iff.mp hsplit with ⟨l, hx, hrest⟩ | ⟨l, ha, hrest⟩
  · rw [hrest, List.length_append]
    exact Nat.le_add_left _ _
  · cases l with
    | nil =>
      rw [List.nil_append] at hrest
      exact absurd (List.cons.inj hrest).1 hne
    | cons z l =>
      rw [List.cons_append] at hrest
      refine absurd ?_ hc
      rw [ha, (List.cons.inj hrest).1]
      simp

/-- **The domain or the user is taken** from the authority, and from nowhere else. -/
theorem takePrefix_standsAt {c : UInt8} {authority folder : Bytes} (hc : c ≠ 0) (hne : c ≠ slash)
    (h : StandsAt str p (authority ++ slash :: folder)) :
    ∃ str' p', takePrefix str p c (slash :: folder).length =
        .ok (str', (cutPrefix c authority).1, p') ∧
      StandsAt str' p' ((cutPrefix c authority).2 ++ slash :: folder) := by
  unfold takePrefix
  rw [h.strchr_eq hc, ok_bind]
  cases hs : split c authority with
  | some r =>
    obtain ⟨name, rest⟩ := r
    obtain ⟨hsplit, hname⟩ := split_eq_some hs
    have hall : authority ++ slash :: folder = name ++ c :: (rest ++ slash :: folder) := by
      rw [hsplit, List.append_assoc, List.cons_append]
    rw [hall] at h
    have hparted := h.set
    have hmore : (slash :: folder).length < (c :: (rest ++ slash :: folder)).length := by
      simp
    refine ⟨str.set (p + name.length) 0, p + name.length + 1, ?_, ?_⟩
    · rw [hall, split_append hname, cutPrefix, hs]
      simp only [Option.map_some]
      rw [h.behind.stringAt, ok_bind, if_pos hmore, hparted.before.stringAt, ok_bind]
    · rw [cutPrefix, hs]
      exact hparted.behind
  | none =>
    have hmem := split_eq_none hs
    refine ⟨str, p, ?_, by rw [cutPrefix, hs]; exact h⟩
    rw [cutPrefix, hs]
    cases hall : split c (authority ++ slash :: folder) with
    | none => rfl
    | some r =>
      obtain ⟨x, y⟩ := r
      have hle := le_length_of_split hne hmem hall
      have hbehind : StandsAt str (p + x.length) (c :: y) := by
        rw [(split_eq_some hall).1] at h
        exact h.behind
      simp only [Option.map_some]
      rw [hbehind.stringAt, ok_bind, if_neg (by omega)]

/-- What is left of the authority has no `/` either. -/
theorem not_mem_cutPrefix {c d : UInt8} (h : d ∉ s) : d ∉ (cutPrefix c s).2 := by
  unfold cutPrefix
  cases hs : split c s with
  | none => exact h
  | some r =>
    intro hmem
    refine h ?_
    rw [(split_eq_some hs).1]
    exact List.mem_append_right _ (List.mem_cons_of_mem c hmem)

/-- **What is made of what stands before the `?`.** -/
theorem parseLocation_standsAt (h : StandsAt str 0 s) : parseLocation str = .ok (location s) := by
  unfold parseLocation location
  rw [h.strchr_eq (by decide), ok_bind]
  cases hs : split slash s with
  | none => rfl
  | some r =>
    obtain ⟨authority, folder⟩ := r
    obtain ⟨hsplit, hslash⟩ := split_eq_some hs
    rw [hsplit] at h
    obtain ⟨str₁, p₁, hdomain, h₁⟩ := takePrefix_standsAt (c := semicolon) (by decide) (by decide) h
    obtain ⟨str₂, p₂, huser, h₂⟩ := takePrefix_standsAt (c := atSign) (by decide) (by decide) h₁
    have hserver := not_mem_cutPrefix (c := atSign) (not_mem_cutPrefix (c := semicolon) hslash)
    obtain ⟨hcut, hparted⟩ := h₂.cutAt_some (by decide) (split_append hserver)
    simp only [Option.map_some]
    rw [h.behind.stringAt, ok_bind, hdomain, ok_bind]
    dsimp only
    rw [huser, ok_bind]
    dsimp only
    rw [hcut, ok_bind]
    dsimp only
    rw [hparted.before.stringAt, Except.map, ok_bind]
    dsimp only
    cases hfolder : split slash folder with
    | none =>
      rw [hparted.behind.cutAt_none (by decide) hfolder, ok_bind]
      dsimp only
      rw [hparted.behind.stringAt]
      rfl
    | some r =>
      obtain ⟨hcut', hparted'⟩ := hparted.behind.cutAt_some (by decide) hfolder
      rw [hcut', ok_bind]
      dsimp only
      rw [hparted'.before.stringAt, ok_bind, Option.mapM_some, hparted'.behind.stringAt]
      rfl

end

/-! ## URLs -/

theorem strncpy_standsAt {s : Bytes} {n : Nat} (hzero : 0 ∉ s) (hlen : s.length < n) :
    StandsAt (strncpy s n) 0 s := by
  refine ⟨hzero, zeros (n - s.length - 1), ?_⟩
  have hzeros : zeros (n - s.length) = 0 :: zeros (n - s.length - 1) := by
    obtain ⟨k, hk⟩ : ∃ k, n - s.length = k + 1 := ⟨n - s.length - 1, by omega⟩
    rw [hk, zeros, List.replicate_succ]
    rfl
  rw [strncpy, List.take_of_length_le (by omega), List.drop_zero, hzeros]

/-- What is made of a string behind the scheme. -/
def parseRest (f : Fields) (s : Bytes) : Except Overrun (Fields × Except UrlError SmbUrl) :=
  match split question s with
  | none => .ok (f, location s)
  | some (s, query) =>
    (parseQuery query f).map fun r => (r.1, r.2.elim (location s) .error)

/-- **What is made of a URL**, as a string and not in a buffer. -/
theorem parseUrl_eq (f : Fields) (url : CString) : parseUrl f url =
    if url.octets.take 6 ≠ ascii "smb://" then .ok (f, .error .scheme)
    else if MAX_URL_SIZE ≤ (url.octets.drop 6).length then .ok (f, .error .tooLong)
    else parseRest f (url.octets.drop 6) := by
  unfold parseUrl
  split
  · rfl
  split
  · rfl
  · rename_i hlen
    have hzero : 0 ∉ url.octets.drop 6 := fun hmem => url.terminated (List.mem_of_mem_drop hmem)
    have h := strncpy_standsAt hzero (Nat.lt_of_not_le hlen)
    generalize url.octets.drop 6 = s at h
    unfold parseRest
    cases hs : split question s with
    | none =>
      rw [h.cutAt_none (by decide) hs, ok_bind]
      dsimp only
      rw [parseLocation_standsAt h]
      rfl
    | some r =>
      obtain ⟨s, query⟩ := r
      obtain ⟨hcut, hparted⟩ := h.cutAt_some (by decide) hs
      obtain ⟨str', hsame, hargs⟩ := parseArgs_standsAt (f := f) hparted.behind
      have hbefore := hparted.before.of_take hsame (by omega)
      rw [hcut, ok_bind]
      dsimp only
      rw [hargs]
      cases parseQuery query f with
      | error e => rfl
      | ok r =>
        obtain ⟨f', failed⟩ := r
        cases failed with
        | some e => rfl
        | none =>
          simp only [Except.map, ok_bind, parseLocation_standsAt hbefore]
          rfl

/-! ## Arguments without a value -/

/-- An argument that needs a value, and has none. -/
def Bare (s : Bytes) : Prop := s = ascii "sec" ∨ s = ascii "vers" ∨ s = ascii "timeout"

/-- The arguments before one that needs a value and has none are accepted, one after another. -/
def ComesToBare : List Bytes → Fields → Prop
  | [], _ => False
  | s :: ss, f => Bare s ∨ ∃ f', parsePart s f = .ok (f', none) ∧ ComesToBare ss f'

section
variable {s : Bytes} {f : Fields}

theorem nameValue_bare (h : Bare s) : nameValue s = (s, none) := by
  rcases h with rfl | rfl | rfl <;> decide

/-- Only a missing value is read outside the buffer. -/
theorem withValue_error {value : Option Bytes} {parse : Bytes → Fields × Option UrlError}
    {e : Overrun} (h : withValue value parse = .error e) : value = none := by
  cases value with
  | none => rfl
  | some v => cases h

/-- An argument that is accepted is not the one that is read outside the buffer. -/
theorem error_of_ite {α : Type} {c : Prop} [Decidable c] {a : α} {run : Except Overrun α}
    {e : Overrun} (h : (if c then .ok a else run) = .error e) : run = .error e := by
  by_cases hc : c
  · rw [if_pos hc] at h
    cases h
  · rwa [if_neg hc] at h

theorem parseArg_error {args : Bytes} {value : Option Bytes} {e : Overrun}
    (h : parseArg args value f = .error e) : value = none ∧ Bare args := by
  -- the arguments before `sec` need no value
  have h := error_of_ite (error_of_ite (error_of_ite (error_of_ite (error_of_ite (error_of_ite
    (error_of_ite h))))))
  by_cases hsec : args = ascii "sec"
  · rw [if_pos hsec] at h
    exact ⟨withValue_error h, .inl hsec⟩
  rw [if_neg hsec] at h
  by_cases hvers : args = ascii "vers"
  · rw [if_pos hvers] at h
    exact ⟨withValue_error h, .inr (.inl hvers)⟩
  rw [if_neg hvers] at h
  by_cases htimeout : args = ascii "timeout"
  · rw [if_pos htimeout] at h
    exact ⟨withValue_error h, .inr (.inr htimeout)⟩
  rw [if_neg htimeout] at h
  cases h

/-- An argument is read outside the buffer exactly if it needs a value and has none. -/
theorem parsePart_error_iff : (∃ e, parsePart s f = .error e) ↔ Bare s := by
  constructor
  · rintro ⟨e, h⟩
    obtain ⟨hvalue, hbare⟩ := parseArg_error h
    unfold nameValue at hvalue hbare
    cases hs : split equals s with
    | none =>
      rw [hs] at hbare
      exact hbare
    | some r =>
      rw [hs] at hvalue
      cases hvalue
  · intro h
    refine ⟨.read, ?_⟩
    rw [parsePart, nameValue_bare h]
    rcases h with rfl | rfl | rfl <;> rfl

/-- The arguments are parsed, or refused, unless one of them is reached that has no value. -/
theorem inside_parseParts_iff (ss : List Bytes) (f : Fields) :
    Inside (parseParts ss f) ↔ ¬ ComesToBare ss f := by
  induction ss generalizing f with
  | nil => exact iff_of_true ⟨_, rfl⟩ id
  | cons s ss ih =>
    unfold parseParts ComesToBare
    split
    · rename_i hend
      obtain ⟨rfl, rfl⟩ := hend
      refine iff_of_true ⟨_, rfl⟩ ?_
      rintro (hbare | ⟨f', -, hrest⟩)
      · exact absurd hbare (by unfold Bare; decide)
      · exact hrest
    · cases hpart : parsePart s f with
      | error e =>
        refine iff_of_false ?_ (not_not_intro (.inl (parsePart_error_iff.mp ⟨e, hpart⟩)))
        rintro ⟨r, hr⟩
        cases hr
      | ok r =>
        obtain ⟨f', failed⟩ := r
        have hbare : ¬ Bare s := by
          intro hbare
          obtain ⟨e, he⟩ := parsePart_error_iff.mpr hbare
          rw [hpart] at he
          cases he
        rw [ok_bind]
        cases failed with
        | some e =>
          refine iff_of_true ⟨_, rfl⟩ ?_
          rintro (h | ⟨f'', h, -⟩)
          · exact hbare h
          · cases h
        | none =>
          simp only [hbare, false_or]
          rw [ih f']
          simp

theorem inside_parseQuery_iff (s : Bytes) (f : Fields) :
    Inside (parseQuery s f) ↔ ¬ ComesToBare (s.splitOn amp) f := by
  rw [← inside_parseParts_iff, parseQuery, inside_bind_iff]
  constructor
  · rintro ⟨r, hr, -⟩
    exact ⟨r, hr⟩
  · rintro ⟨r, hr⟩
    refine ⟨r, hr, ?_⟩
    obtain ⟨f', failed⟩ := r
    cases failed <;> exact .ok _

end

/-- Among the arguments of a URL one is reached that needs a value and has none. -/
def UrlComesToBare (f : Fields) (url : CString) : Prop :=
  url.octets.take 6 = ascii "smb://" ∧ (url.octets.drop 6).length < MAX_URL_SIZE ∧
    ∃ place query, split question (url.octets.drop 6) = some (place, query) ∧
      ComesToBare (query.splitOn amp) f

/-- A URL is returned or refused unless such an argument is reached. -/
theorem inside_parseUrl_iff (f : Fields) (url : CString) :
    Inside (parseUrl f url) ↔ ¬ UrlComesToBare f url := by
  rw [parseUrl_eq]
  unfold UrlComesToBare
  split
  · rename_i hscheme
    exact iff_of_true ⟨_, rfl⟩ fun h => hscheme h.1
  split
  · rename_i hlen
    exact iff_of_true ⟨_, rfl⟩ fun h => absurd h.2.1 (Nat.not_lt_of_le hlen)
  rename_i hscheme hlen
  rw [not_not] at hscheme
  generalize url.octets.drop 6 = s at hlen
  unfold parseRest
  cases hs : split question s with
  | none =>
    refine iff_of_true ⟨_, rfl⟩ ?_
    rintro ⟨-, -, place, query, hnone, -⟩
    cases hnone
  | some r =>
    obtain ⟨place, query⟩ := r
    have hok : Inside ((parseQuery query f).map fun r =>
        (r.1, r.2.elim (location place) .error)) ↔ ¬ ComesToBare (query.splitOn amp) f :=
      inside_map_iff.trans (inside_parseQuery_iff query f)
    refine hok.trans (not_congr ⟨fun h => ?_, ?_⟩)
    · exact ⟨hscheme, Nat.lt_of_not_le hlen, place, query, rfl, h⟩
    · rintro ⟨-, -, place', query', hsame, h⟩
      cases hsame
      exact h

end Libsmb2.Url
