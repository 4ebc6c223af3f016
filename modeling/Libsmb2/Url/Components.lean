import Libsmb2.Url

/-!
# URLs with documented arguments

A URL is put together from its components and from arguments of the documentation, and parsed again.

* `parsePart_text` — a documented argument sets the field that it names;
* `Components.Allowed.location_eq` — the components are found, whatever octets the path has;
* `url_is_parsed` — what is parsed of such a URL, and of any other string.
-/

set_option autoImplicit false

namespace Libsmb2.Url

open Util Util.CStr

/-! ## Documented arguments -/

inductive SecArg
  | krb5
  | krb5cc
  | ntlmssp
  deriving DecidableEq, Repr

inductive VersArg
  | two
  | three
  | dialect0202
  | dialect0210
  | dialect0300
  | dialect0302
  | dialect0311
  deriving DecidableEq, Repr

/-- The arguments that the documentation lists, with their values. -/
inductive Arg
  | sealing
  | signing
  | ndr3264
  | ndr32
  | ndr64
  | littleEndian
  | bigEndian
  | sec (mech : SecArg)
  | vers (version : VersArg)
  | timeout (seconds : List (Fin 10))
  deriving DecidableEq, Repr

def SecArg.text : SecArg → Bytes
  | .krb5 => ascii "krb5"
  | .krb5cc => ascii "krb5cc"
  | .ntlmssp => ascii "ntlmssp"

def VersArg.text : VersArg → Bytes
  | .two => ascii "2"
  | .three => ascii "3"
  | .dialect0202 => ascii "2.02"
  | .dialect0210 => ascii "2.10"
  | .dialect0300 => ascii "3.00"
  | .dialect0302 => ascii "3.02"
  | .dialect0311 => ascii "3.1.1"

def VersArg.version : VersArg → Version
  | .two => .any2
  | .three => .any3
  | .dialect0202 => .dialect 0x0202
  | .dialect0210 => .dialect 0x0210
  | .dialect0300 => .dialect 0x0300
  | .dialect0302 => .dialect 0x0302
  | .dialect0311 => .dialect 0x0311

def digit (d : Fin 10) : UInt8 := UInt8.ofNat (0x30 + d.1)

/-- The number that digits stand for. -/
def number (ds : List (Fin 10)) : Nat := ds.foldl (fun n d => n * 10 + d.1) 0

def Arg.text : Arg → Bytes
  | .sealing => ascii "seal"
  | .signing => ascii "sign"
  | .ndr3264 => ascii "ndr3264"
  | .ndr32 => ascii "ndr32"
  | .ndr64 => ascii "ndr64"
  | .littleEndian => ascii "le"
  | .bigEndian => ascii "be"
  | .sec mech => ascii "sec=" ++ mech.text
  | .vers version => ascii "vers=" ++ version.text
  | .timeout seconds => ascii "timeout=" ++ seconds.map digit

/-- The field that an argument names.  A number of seconds is limited to a `long`, and converted to
an `int`. -/
def Arg.apply (f : Fields) : Arg → Fields
  | .sealing => { f with sealing := true }
  | .signing => { f with sign := true }
  | .ndr3264 => { f with ndr := 0 }
  | .ndr32 => { f with ndr := 1 }
  | .ndr64 => { f with ndr := 2 }
  | .littleEndian => { f with endianness := 0 }
  | .bigEndian => { f with endianness := 1 }
  | .sec .krb5 => { f with sec := .krb5 }
  | .sec .krb5cc => { f with sec := .krb5, useCachedCreds := true }
  | .sec .ntlmssp => { f with sec := .ntlmssp }
  | .vers version => { f with version := version.version }
  | .timeout seconds => { f with timeout := toInt32 (min (number seconds : Int) (2 ^ 63 - 1)) }

theorem isDigit_digit (d : Fin 10) : isDigit (digit d) = true := by
  revert d
  decide

theorem decimal_map_digit (ds : List (Fin 10)) : decimal (ds.map digit) = number ds := by
  have hdigit : ∀ d : Fin 10, (digit d).toNat - 0x30 = d.1 := by decide
  simp only [decimal, number, List.foldl_map, hdigit]

theorem digits_map_digit (ds : List (Fin 10)) : digits (ds.map digit) = number ds := by
  have hall : (ds.map digit).takeWhile isDigit = ds.map digit := by
    refine List.takeWhile_eq_self_iff.mpr fun b hb => ?_
    obtain ⟨d, -, rfl⟩ := List.mem_map.mp hb
    exact isDigit_digit d
  rw [digits, hall, decimal_map_digit]

/-- `strtol` reads a number of seconds. -/
theorem strtol_map_digit (ds : List (Fin 10)) :
    strtol (ds.map digit) = min (number ds : Int) (2 ^ 63 - 1) := by
  have hspace : (ds.map digit).dropWhile isSpace = ds.map digit := by
    cases ds with
    | nil => rfl
    | cons d ds =>
      have hnot : ∀ d : Fin 10, isSpace (digit d) = false := by decide
      rw [List.map_cons, List.dropWhile_cons_of_neg (by rw [hnot]; exact Bool.false_ne_true)]
  rw [strtol, hspace, ← digits_map_digit]
  split
  · rename_i hminus
    cases ds with
    | nil => cases hminus
    | cons d ds =>
      have hnot : ∀ d : Fin 10, digit d ≠ 0x2d := by decide
      exact absurd (List.cons.inj hminus).1 (hnot d)
  · rename_i hplus
    cases ds with
    | nil => cases hplus
    | cons d ds =>
      have hnot : ∀ d : Fin 10, digit d ≠ 0x2b := by decide
      exact absurd (List.cons.inj hplus).1 (hnot d)
  · rfl

/-- **A documented argument is accepted**, and sets the field that it names. -/
theorem parsePart_text (a : Arg) (f : Fields) : parsePart a.text f = .ok (a.apply f, none) := by
  cases a with
  | sec mech => cases mech <;> rfl
  | vers version => cases version <;> rfl
  | timeout seconds =>
    have hsplit : split equals (Arg.timeout seconds).text =
        some (ascii "timeout", seconds.map digit) :=
      split_append (a := ascii "timeout") (by decide)
    have harg : ∀ v, parseArg (ascii "timeout") (some v) f =
        .ok ({ f with timeout := toInt32 (strtol v) }, none) := fun v => rfl
    rw [parsePart, nameValue, hsplit, harg, strtol_map_digit]
    rfl
  | _ => rfl

theorem Arg.text_ne_nil (a : Arg) : a.text ≠ [] := by
  cases a with
  | sec mech => cases mech <;> decide
  | vers version => cases version <;> decide
  | timeout seconds => exact List.append_ne_nil_of_left_ne_nil (by decide) _
  | _ => decide

/-- No argument has a `&` in it. -/
theorem Arg.amp_not_mem (a : Arg) : amp ∉ a.text := by
  cases a with
  | sec mech => cases mech <;> decide
  | vers version => cases version <;> decide
  | timeout seconds =>
    have hnot : ∀ d : Fin 10, digit d ≠ amp := by decide
    intro hmem
    rcases List.mem_append.mp hmem with hmem | hmem
    · exact absurd hmem (by decide)
    · obtain ⟨d, -, hd⟩ := List.mem_map.mp hmem
      exact hnot d hd
  | _ => decide

/-- Documented arguments are accepted one after another. -/
theorem parseParts_map_text (args : List Arg) (f : Fields) :
    parseParts (args.map Arg.text) f = .ok (args.foldl Arg.apply f, none) := by
  induction args generalizing f with
  | nil => rfl
  | cons a args ih =>
    rw [List.map_cons, parseParts, if_neg (fun hend => a.text_ne_nil hend.1), parsePart_text,
      ok_bind]
    exact ih (a.apply f)

/-- What documented arguments make of the fields, if there are any. -/
theorem parseQuery_intercalate {args : List Arg} (hargs : args ≠ []) (f : Fields) :
    parseQuery ([amp].intercalate (args.map Arg.text)) f =
      .ok (sealCheck (args.foldl Arg.apply f)) := by
  have hparts : ([amp].intercalate (args.map Arg.text)).splitOn amp = args.map Arg.text := by
    refine List.splitOn_intercalate amp (fun s hs => ?_)
      (fun hnil => hargs (List.map_eq_nil_iff.mp hnil))
    obtain ⟨a, -, rfl⟩ := List.mem_map.mp hs
    exact a.amp_not_mem
  rw [parseQuery, hparts, parseParts_map_text]
  rfl

/-! ## URLs with documented arguments -/

/-- What a URL is put together from. -/
structure Components where
  domain : Option Bytes
  user : Option Bytes
  server : Bytes
  share : Bytes
  path : Option Bytes
  args : List Arg

namespace Components

/-- A domain or a user, and the octet behind it. -/
def before (c : UInt8) (name : Option Bytes) : Bytes := name.elim [] (· ++ [c])

/-- What stands in front of the share. -/
def authority (c : Components) : Bytes :=
  before semicolon c.domain ++ (before atSign c.user ++ c.server)

/-- What stands behind the server. -/
def folder (c : Components) : Bytes := c.share ++ c.path.elim [] (slash :: ·)

/-- The arguments behind a `?`. -/
def query (c : Components) : Bytes :=
  if c.args = [] then [] else question :: [amp].intercalate (c.args.map Arg.text)

/-- `smb://[<domain>;][<user>@]<server>/<share>[/path][?arg=val[&arg=val]*]`. -/
def text (c : Components) : Bytes :=
  ascii "smb://" ++ (c.authority ++ slash :: c.folder ++ c.query)

/-- The octets that would end a component are not in it. -/
structure Allowed (c : Components) : Prop where
  domain : ∀ d ∈ c.domain, semicolon ∉ d ∧ atSign ∉ d ∧ slash ∉ d ∧ question ∉ d
  user : ∀ u ∈ c.user, semicolon ∉ u ∧ atSign ∉ u ∧ slash ∉ u ∧ question ∉ u
  server : semicolon ∉ c.server ∧ atSign ∉ c.server ∧ slash ∉ c.server ∧ question ∉ c.server
  share : slash ∉ c.share ∧ question ∉ c.share
  path : ∀ p ∈ c.path, question ∉ p

/-- The components as they are returned. -/
def url (c : Components) : SmbUrl := ⟨c.domain, c.user, some c.server, some c.share, c.path⟩

/-- The fields that the arguments set, and what is returned: where they ask for encryption with a
version of SMB2 the URL is refused, and with any version it becomes any of SMB3. -/
def expected (c : Components) (f : Fields) : Fields × Except UrlError SmbUrl :=
  if c.args = [] then (f, .ok c.url)
  else
    let r := sealCheck (c.args.foldl Arg.apply f)
    (r.1, r.2.elim (.ok c.url) .error)

section
variable {c : Components} {x y : UInt8} {name : Option Bytes} {rest : Bytes}

/-- A component that is there is cut off. -/
theorem cutPrefix_before (hname : ∀ d ∈ name, x ∉ d) (hrest : x ∉ rest) :
    cutPrefix x (before x name ++ rest) = (name, rest) := by
  cases name with
  | none =>
    rw [before, Option.elim_none, List.nil_append, cutPrefix, split_of_not_mem hrest]
  | some d =>
    rw [before, Option.elim_some, List.append_assoc, List.singleton_append, cutPrefix,
      split_append (hname d rfl)]

theorem not_mem_before (hne : x ≠ y) (hname : ∀ d ∈ name, x ∉ d) (hrest : x ∉ rest) :
    x ∉ before y name ++ rest := by
  cases name with
  | none => exact hrest
  | some d =>
    simp only [before, Option.elim_some, List.mem_append, List.mem_singleton, not_or]
    exact ⟨⟨hname d rfl, hne⟩, hrest⟩

theorem Allowed.slash_not_mem (h : c.Allowed) : slash ∉ c.authority :=
  not_mem_before (by decide) (fun d hd => (h.domain d hd).2.2.1)
    (not_mem_before (by decide) (fun u hu => (h.user u hu).2.2.1) h.server.2.2.1)

theorem Allowed.question_not_mem (h : c.Allowed) : question ∉ c.authority ++ slash :: c.folder := by
  have hauthority : question ∉ c.authority :=
    not_mem_before (by decide) (fun d hd => (h.domain d hd).2.2.2)
      (not_mem_before (by decide) (fun u hu => (h.user u hu).2.2.2) h.server.2.2.2)
  have hfolder : question ∉ c.folder := by
    unfold folder
    cases hpath : c.path with
    | none =>
      rw [Option.elim_none, List.append_nil]
      exact h.share.2
    | some p =>
      simp only [Option.elim_some, List.mem_append, List.mem_cons, not_or]
      exact ⟨h.share.2, by decide, h.path p hpath⟩
  simp only [List.mem_append, List.mem_cons, not_or]
  exact ⟨hauthority, by decide, hfolder⟩

/-- **The components are found** wherever the octets that end them are in the path. -/
theorem Allowed.location_eq (h : c.Allowed) :
    location (c.authority ++ slash :: c.folder) = .ok c.url := by
  have hrest : semicolon ∉ before atSign c.user ++ c.server :=
    not_mem_before (by decide) (fun u hu => (h.user u hu).1) h.server.1
  have hdomain : cutPrefix semicolon c.authority = (c.domain, before atSign c.user ++ c.server) :=
    cutPrefix_before (fun d hd => (h.domain d hd).1) hrest
  have huser : cutPrefix atSign (before atSign c.user ++ c.server) = (c.user, c.server) :=
    cutPrefix_before (fun u hu => (h.user u hu).2.1) h.server.2.1
  rw [location, split_append h.slash_not_mem]
  simp only [hdomain, huser]
  unfold folder url
  cases c.path with
  | none =>
    rw [Option.elim_none, List.append_nil, split_of_not_mem h.share.1]
  | some p =>
    rw [Option.elim_some, split_append h.share.1]

/-- **A URL with documented arguments** is taken apart, and they are set. -/
theorem Allowed.parseUrl_eq (h : c.Allowed) {url : CString} (htext : url.octets = c.text)
    (hlen : (url.octets.drop 6).length < MAX_URL_SIZE) (f : Fields) :
    parseUrl f url = .ok (c.expected f) := by
  have hscheme : url.octets.take 6 = ascii "smb://" := by
    rw [htext]
    exact List.take_left' rfl
  have hbehind : url.octets.drop 6 = c.authority ++ slash :: c.folder ++ c.query := by
    rw [htext]
    exact List.drop_left' rfl
  rw [Url.parseUrl_eq, if_neg (not_not_intro hscheme), if_neg (Nat.not_le_of_lt hlen), hbehind,
    parseRest, query, expected]
  by_cases hargs : c.args = []
  · rw [if_pos hargs, if_pos hargs, List.append_nil, split_of_not_mem h.question_not_mem,
      h.location_eq]
  · rw [if_neg hargs, if_neg hargs, split_append h.question_not_mem]
    simp only [parseQuery_intercalate hargs, h.location_eq]
    rfl

end

end Components

/-- **What is parsed of a URL.**  One that is put together from its components and documented
arguments is taken apart into these, and the arguments set their fields one after another; if there
are any, encryption then makes any version one of SMB3, and a version of SMB2 is refused.  Every
other string is refused or a URL as long as no argument is reached that needs a value and has
none. -/
theorem url_is_parsed (f : Fields) (url : CString) :
    (∀ c : Components, c.Allowed → url.octets = c.text →
      (url.octets.drop 6).length < MAX_URL_SIZE → parseUrl f url = .ok (c.expected f)) ∧
    (¬ UrlComesToBare f url → ∃ r, parseUrl f url = .ok r) :=
  ⟨fun _ hc htext hlen => hc.parseUrl_eq htext hlen f, (inside_parseUrl_iff f url).mpr⟩

/-- A context that nothing has been set in. -/
def fresh : Fields where
  sealing := false
  sign := false
  ndr := 0
  endianness := 0
  sec := .undefined
  useCachedCreds := false
  version := .any
  timeout := 0

/-- `smb://home;me@nas/media/a;b@c/d?sec=ntlmssp&timeout=30`. -/
def media : Components where
  domain := some (ascii "home")
  user := some (ascii "me")
  server := ascii "nas"
  share := ascii "media"
  path := some (ascii "a;b@c/d")
  args := [.sec .ntlmssp, .timeout [3, 0]]

theorem media_allowed : media.Allowed := by
  constructor <;> simp [media, ascii, semicolon, atSign, slash, question]

def mediaUrl : CString := ⟨media.text, by decide⟩

theorem media_url_is_parsed :
    parseUrl fresh mediaUrl = .ok ({ fresh with sec := .ntlmssp, timeout := 30 }, .ok media.url) ∧
      ∃ r, parseUrl fresh mediaUrl = .ok r := by
  have hparsed : parseUrl fresh mediaUrl = .ok (media.expected fresh) :=
    (url_is_parsed fresh mediaUrl).1 media media_allowed rfl (by decide)
  exact ⟨hparsed, (url_is_parsed fresh mediaUrl).2 ((inside_parseUrl_iff _ _).mp ⟨_, hparsed⟩)⟩

/-- `smb://nas/media?seal&vers=2`. -/
def sealed : Components where
  domain := none
  user := none
  server := ascii "nas"
  share := ascii "media"
  path := none
  args := [.sealing, .vers .two]

theorem sealed_allowed : sealed.Allowed := by
  constructor <;> simp [sealed, ascii, semicolon, atSign, slash, question]

/-- Encryption and a version of SMB2 are documented, and refused. -/
theorem sealed_smb2_is_refused : (sealed.Allowed ∧ (sealed.text.drop 6).length < MAX_URL_SIZE) ∧
    parseUrl fresh ⟨sealed.text, by decide⟩ ≠
      .ok (sealed.args.foldl Arg.apply fresh, .ok sealed.url) := by
  refine ⟨⟨sealed_allowed, by decide⟩, fun hclaimed => ?_⟩
  rw [sealed_allowed.parseUrl_eq rfl (by decide)] at hclaimed
  have hresult : (sealed.expected fresh).2 = .ok sealed.url :=
    congrArg Prod.snd (Except.ok.inj hclaimed)
  cases hresult

end Libsmb2.Url
