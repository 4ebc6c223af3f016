import Libsmb2.Dcerpc.Strings

/-!
# The local security authority

`dcerpc-lsa.c`: the strings, the SIDs and the arrays of a LookupSids2.  A structure is laid out as
on a 64-bit machine: an `RPC_SID` has its revision at the offset 0, `SubAuthorityCount` at 1, the
identifier authority at 2 and the pointer `SubAuthority` at 8; a structure with `Entries` has the
pointer to them at 8.

As in the server service, what a coder below the top level points to is deferred (`lsaRun`).
-/

set_option autoImplicit false

namespace Libsmb2.Dcerpc

open Util

/-- The coders that a pointer names. -/
inductive Lsa
  | utf16
  | rpcSid
  | prpcSidArray
  | tnArray
  deriving DecidableEq, Repr

/-- A coder for each name. -/
abbrev LsaRun : Type := Lsa → Addr → Ndr Lsa Unit

def RPC_SID_SIZE : Nat := 16
def TRANSLATED_NAME_EX_SIZE : Nat := 24

/-! ## Strings -/

/-- `len` of a string with so many octets. -/
def unicodeLength (strlen : Nat) : Nat := strlen % 65536 * 2 % 65536

/-- `maxlen`. -/
def unicodeMaxLength (len : Nat) : Nat := (if len &&& 0x02 ≠ 0 then len + 2 else len) % 65536

section

variable (env : Env) (run : LsaRun)

/-- `len` and `maxlen` of the string in a field, which are not set when it is decoded. -/
def unicodeLengths (a : Addr) : Ndr Lsa (Nat × Nat) :=
  match env.direction with
  | .decode => pure (0, 0)
  | .encode => do
    match ← load a with
    | .text str =>
      let len := unicodeLength str.octets.length
      pure (len, unicodeMaxLength len)
    | _ => Run.fault .null

/-- The lengths of a string, in front of its pointer. -/
def unicodeHeaderCoder (a : Addr) : Ndr Lsa Unit := do
  Run.modify fun s => { s with offset := alignUp env.word s.offset }
  let (len, maxlen) ← unicodeLengths env a
  let _ ← ndrUint16Coder env len
  let _ ← ndrUint16Coder env maxlen
  pure ()

/-- `lsa_RPC_UNICODE_STRING_coder`. -/
def lsaRpcUnicodeStringCoder (a : Addr) : Ndr Lsa Unit := do
  unicodeHeaderCoder env a
  ndrPtrCoder env run (some a) .unique .utf16

/-! ## Arrays -/

/-- `if (dcerpc_pdu_direction(pdu) == DCERPC_DECODE)`. -/
def whenDecoding (x : Ndr Lsa Unit) : Ndr Lsa Unit :=
  match env.direction with
  | .decode => x
  | .encode => pure ()

/-- The array for the elements that are decoded, at a pointer; the size is a `size_t`. -/
def allocArray (count elemSize : Nat) (a : Addr) : Ndr Lsa Unit := do
  match ← smb2AllocData (count * elemSize % 2 ^ 64) with
  | none => do
    store a 8 (.num 0)
    Run.fail
  | some b => store a 8 (.ref b)

/-- The loop over the elements of the array behind a pointer. -/
def arrayElements (elemSize : Nat) (coder : Addr → Ndr Lsa Unit) (count : Nat) (a : Addr) :
    Ndr Lsa Unit :=
  match count with
  | 0 => pure ()
  | count + 1 => do
    match (← load a).toRef with
    | none => Run.fault .null
    | some p => elements elemSize coder (count + 1) p

/-- `lsa_RPC_SID_coder`. -/
def lsaRpcSidCoder (a : Addr) : Ndr Lsa Unit := do
  let subAuthorityCount ← load (a.add 1)
  let count ← ndrUint3264Coder env subAuthorityCount.toNat
  ndrUint8CoderAt env a
  ndrUint8CoderAt env (a.add 1)
  elements 1 (ndrUint8CoderAt env) 6 (a.add 2)
  whenDecoding env (allocArray count 4 (a.add 8))
  arrayElements 4 (ndrUint32CoderAt env) count (a.add 8)

/-- An `RPC_SID` for each of so many pointers. -/
def allocSids : Nat → Addr → Ndr Lsa Unit
  | 0, _ => pure ()
  | n + 1, p => do
    allocArray 1 RPC_SID_SIZE p
    allocSids n (p.add 8)

/-- `SidInfo`, and what it points to. -/
def allocSidInfo (count : Nat) (a : Addr) : Ndr Lsa Unit := do
  allocArray count 8 a
  match (← load a).toRef with
  | none => Run.fault .null
  | some p => allocSids count p

/-- `lsa_PRPC_SID_array_coder`. -/
def lsaPrpcSidArrayCoder (a : Addr) : Ndr Lsa Unit := do
  let entries ← load a
  let val ← ndrUint32Coder env entries.toNat
  whenDecoding env (allocSidInfo val (a.add 8))
  arrayElements 8 (fun p => do
    let sid ← load p
    ndrPtrCoder env run sid.toRef .unique .rpcSid) val (a.add 8)

/-- `lsa_TRANSLATED_NAME_EX_coder`. -/
def lsaTranslatedNameExCoder (a : Addr) : Ndr Lsa Unit := do
  ndrUint32CoderAt env a
  lsaRpcUnicodeStringCoder env run (a.add 8)
  ndrUint32CoderAt env (a.add 16)
  ndrUint32CoderAt env (a.add 20)

/-- `TN_array_coder`. -/
def tnArrayCoder (a : Addr) : Ndr Lsa Unit := do
  let entries ← load a
  let count ← ndrUint3264Coder env entries.toNat
  whenDecoding env (allocArray count TRANSLATED_NAME_EX_SIZE (a.add 8))
  arrayElements TRANSLATED_NAME_EX_SIZE (lsaTranslatedNameExCoder env run) count (a.add 8)

/-- The coders by their names. -/
def lsaCoder : LsaRun
  | .utf16, a => ndrUtf16Coder env a
  | .rpcSid, a => lsaRpcSidCoder env a
  | .prpcSidArray, a => lsaPrpcSidArrayCoder env run a
  | .tnArray, a => tnArrayCoder env run a

end

/-- The coders that a pointer names.  Below the top level nothing is followed. -/
def lsaRun (env : Env) : LsaRun := lsaCoder env fun _ _ => Run.fault .endless

end Libsmb2.Dcerpc
