import Libsmb2.Dcerpc.Strings

/-!
# The server service

`dcerpc-srvsvc.c`.  The coders of one kind for the levels 0, 1 and 2 differ in the fields of the
information about a share; a structure is laid out as on a 64-bit machine.

What a coder below the top level points to is deferred, and run when the pointer at the top level
has been coded; so two levels of coders are enough (`srvsvcRun`).
-/

set_option autoImplicit false

namespace Libsmb2.Dcerpc

open Util

/-! ## Structures -/

/-- The coders that a pointer names. -/
inductive Srvsvc
  | uint32
  | utf16z
  | shareInfo0Struct
  | shareInfo1Struct
  | shareInfo2Struct
  | shareInfo0Carray
  | shareInfo1Carray
  | shareInfo2Carray
  | shareInfo0Container
  | shareInfo1Container
  | shareInfo2Container
  | shareEnumStruct
  | shareEnumStructStruct
  | shareInfoStruct
  deriving DecidableEq, Repr

/-- A coder for each name. -/
abbrev SrvsvcRun : Type := Srvsvc → Addr → Ndr Srvsvc Unit

/-- A member of `SHARE_INFO_0`, `SHARE_INFO_1` or `SHARE_INFO_2`, with its offset. -/
inductive Field
  | string (off : Nat)
  | dword (off : Nat)
  deriving DecidableEq, Repr

def Field.off : Field → Nat
  | .string off => off
  | .dword off => off

def SHARE_INFO_0_SIZE : Nat := 8
def SHARE_INFO_1_SIZE : Nat := 24
def SHARE_INFO_2_SIZE : Nat := 56

def shareInfo0Fields : List Field := [.string 0]

def shareInfo1Fields : List Field := [.string 0, .dword 8, .string 16]

def shareInfo2Fields : List Field :=
  [.string 0, .dword 8, .string 16, .dword 24, .dword 28, .dword 32, .string 40, .string 48]

section

variable (env : Env) (run : SrvsvcRun)

def fieldCoder (a : Addr) : Field → Ndr Srvsvc Unit
  | .string off => ndrPtrCoder env run (some (a.add off)) .unique .utf16z
  | .dword off => ndrUint32CoderAt env (a.add off)

def fieldsCoder (a : Addr) : List Field → Ndr Srvsvc Unit
  | [] => pure ()
  | f :: fs => do
    fieldCoder env run a f
    fieldsCoder a fs

/-- `srvsvc_SHARE_INFO_0_coder` and `srvsvc_SHARE_INFO_0_STRUCT_coder`. -/
def srvsvcShareInfo0Coder (a : Addr) : Ndr Srvsvc Unit := fieldsCoder env run a shareInfo0Fields

/-- `srvsvc_SHARE_INFO_1_coder` and `srvsvc_SHARE_INFO_1_STRUCT_coder`. -/
def srvsvcShareInfo1Coder (a : Addr) : Ndr Srvsvc Unit := fieldsCoder env run a shareInfo1Fields

/-- `srvsvc_SHARE_INFO_2_coder` and `srvsvc_SHARE_INFO_2_STRUCT_coder`. -/
def srvsvcShareInfo2Coder (a : Addr) : Ndr Srvsvc Unit := fieldsCoder env run a shareInfo2Fields

/-- `srvsvc_SHARE_INFO_0_carray_coder`, and those of the other levels. -/
def sharesCoder (elemSize : Nat) (coder : Addr → Ndr Srvsvc Unit) (a : Addr) :
    Ndr Srvsvc Unit := do
  let s ← Run.get
  ndrCarrayCoder env s.sizeIs a elemSize coder

def srvsvcShareInfo0CarrayCoder (a : Addr) : Ndr Srvsvc Unit :=
  sharesCoder env SHARE_INFO_0_SIZE (srvsvcShareInfo0Coder env run) a

def srvsvcShareInfo1CarrayCoder (a : Addr) : Ndr Srvsvc Unit :=
  sharesCoder env SHARE_INFO_1_SIZE (srvsvcShareInfo1Coder env run) a

def srvsvcShareInfo2CarrayCoder (a : Addr) : Ndr Srvsvc Unit :=
  sharesCoder env SHARE_INFO_2_SIZE (srvsvcShareInfo2Coder env run) a

/-- `dcerpc_set_size_is` of a number of entries that is not zero. -/
def setSizeIs (entriesRead : Nat) : Ndr Srvsvc Unit :=
  Run.modify fun s => if entriesRead ≠ 0 then { s with sizeIs := toInt32 entriesRead } else s

/-- The array for the entries that are decoded, if there is none. -/
def allocEntries (entriesRead elemSize : Nat) (a : Addr) : Ndr Srvsvc Unit :=
  if env.direction = .decode ∧ entriesRead ≠ 0 then do
    let p ← load a
    if p.toRef = none then do
      match ← smb2AllocData (entriesRead * elemSize) with
      | none => Run.fail
      | some b => store a 8 (.ref b)
    else pure ()
  else pure ()

/-- `srvsvc_SHARE_INFO_0_CONTAINER_coder`, and those of the other levels: `EntriesRead` stands at
the offset 0, and the pointer to the entries at the offset 8. -/
def containerCoder (elemSize : Nat) (carray : Srvsvc) (a : Addr) : Ndr Srvsvc Unit := do
  ndrUint32CoderAt env a
  let entriesRead ← load a
  setSizeIs entriesRead.toNat
  allocEntries env entriesRead.toNat elemSize (a.add 8)
  let p ← load (a.add 8)
  ndrPtrCoder env run p.toRef .unique carray

def srvsvcShareInfo0ContainerCoder (a : Addr) : Ndr Srvsvc Unit :=
  containerCoder env run SHARE_INFO_0_SIZE .shareInfo0Carray a

def srvsvcShareInfo1ContainerCoder (a : Addr) : Ndr Srvsvc Unit :=
  containerCoder env run SHARE_INFO_1_SIZE .shareInfo1Carray a

def srvsvcShareInfo2ContainerCoder (a : Addr) : Ndr Srvsvc Unit :=
  containerCoder env run SHARE_INFO_2_SIZE .shareInfo2Carray a

/-- `srvsvc_SHARE_ENUM_UNION_coder`. -/
def srvsvcShareEnumUnionCoder (a : Addr) : Ndr Srvsvc Unit := do
  let s ← Run.get
  match s.switchIs with
  | 0 => ndrPtrCoder env run (some a) .unique .shareInfo0Container
  | 1 => ndrPtrCoder env run (some a) .unique .shareInfo1Container
  | 2 => ndrPtrCoder env run (some a) .unique .shareInfo2Container
  | _ => pure ()

/-- `srvsvc_SHARE_ENUM_STRUCT_coder` and `srvsvc_SHARE_ENUM_STRUCT_struct_coder`. -/
def srvsvcShareEnumStructCoder (a : Addr) : Ndr Srvsvc Unit := do
  ndrUint32CoderAt env a
  ndrUnionCoderAt env a (srvsvcShareEnumUnionCoder env run (a.add 8))

/-- `srvsvc_SHARE_INFO_coder`. -/
def srvsvcShareInfoCoder (a : Addr) : Ndr Srvsvc Unit := do
  let s ← Run.get
  match s.switchIs with
  | 0 => ndrPtrCoder env run (some a) .unique .shareInfo0Struct
  | 1 => ndrPtrCoder env run (some a) .unique .shareInfo1Struct
  | 2 => ndrPtrCoder env run (some a) .unique .shareInfo2Struct
  | _ => pure ()

/-- `srvsvc_SHARE_INFO_STRUCT_coder`. -/
def srvsvcShareInfoStructCoder (a : Addr) : Ndr Srvsvc Unit := do
  let s ← Run.get
  let _ ← ndrUnionCoder env (toUint64 s.switchIs % 4294967296) (srvsvcShareInfoCoder env run a)
  pure ()

/-- The coders by their names. -/
def srvsvcCoder : SrvsvcRun
  | .uint32, a => ndrUint32CoderAt env a
  | .utf16z, a => ndrUtf16zCoder env a
  | .shareInfo0Struct, a => srvsvcShareInfo0Coder env run a
  | .shareInfo1Struct, a => srvsvcShareInfo1Coder env run a
  | .shareInfo2Struct, a => srvsvcShareInfo2Coder env run a
  | .shareInfo0Carray, a => srvsvcShareInfo0CarrayCoder env run a
  | .shareInfo1Carray, a => srvsvcShareInfo1CarrayCoder env run a
  | .shareInfo2Carray, a => srvsvcShareInfo2CarrayCoder env run a
  | .shareInfo0Container, a => srvsvcShareInfo0ContainerCoder env run a
  | .shareInfo1Container, a => srvsvcShareInfo1ContainerCoder env run a
  | .shareInfo2Container, a => srvsvcShareInfo2ContainerCoder env run a
  | .shareEnumStruct, a => srvsvcShareEnumStructCoder env run a
  | .shareEnumStructStruct, a => srvsvcShareEnumStructCoder env run a
  | .shareInfoStruct, a => srvsvcShareInfoStructCoder env run a

end

/-- The coders that a pointer at the top level names.  Below it nothing is followed. -/
def srvsvcRun (env : Env) : SrvsvcRun := srvsvcCoder env fun _ _ => Run.fault .endless

/-! ## Requests and replies -/

section

variable (env : Env)

def setSwitchIs (level : Nat) : Ndr Srvsvc Unit :=
  Run.modify fun s => { s with switchIs := toInt32 level }

/-- `dcerpc_set_switch_is` of a level in a structure. -/
def setSwitchIsAt (a : Addr) : Ndr Srvsvc Unit := do
  let level ← load a
  setSwitchIs level.toNat

/-- A pointer at the top level. -/
def srvsvcPtr (a : Addr) (type : PtrType) (k : Srvsvc) : Ndr Srvsvc Unit :=
  ndrPtrCoder env (srvsvcRun env) (some a) type k

/-- `srvsvc_NetrShareAdd_req_coder`. -/
def srvsvcNetrShareAddReqCoder (a : Addr) : Ndr Srvsvc Unit := do
  srvsvcPtr env a .unique .utf16z
  ndrUint32CoderAt env (a.add 8)
  setSwitchIsAt (a.add 8)
  srvsvcPtr env (a.add 16) .ref .shareInfoStruct
  srvsvcPtr env (a.add 72) .unique .uint32

/-- `srvsvc_NetrShareAdd_rep_coder` and `srvsvc_NetrShareSetInfo_rep_coder`. -/
def srvsvcNetrShareAddRepCoder (a : Addr) : Ndr Srvsvc Unit := do
  srvsvcPtr env a .unique .uint32
  ndrUint32CoderAt env (a.add 4)

/-- `srvsvc_NetrShareEnum_req_coder`. -/
def srvsvcNetrShareEnumReqCoder (a : Addr) : Ndr Srvsvc Unit := do
  srvsvcPtr env a .unique .utf16z
  srvsvcPtr env (a.add 8) .ref .shareEnumStructStruct
  srvsvcPtr env (a.add 32) .ref .uint32
  srvsvcPtr env (a.add 36) .unique .uint32

/-- `srvsvc_NetrShareEnum_rep_coder`. -/
def srvsvcNetrShareEnumRepCoder (a : Addr) : Ndr Srvsvc Unit := do
  srvsvcPtr env a .ref .shareEnumStruct
  srvsvcPtr env (a.add 24) .ref .uint32
  srvsvcPtr env (a.add 28) .unique .uint32
  ndrUint32CoderAt env (a.add 32)

/-- `srvsvc_NetrShareGetInfo_req_coder`. -/
def srvsvcNetrShareGetInfoReqCoder (a : Addr) : Ndr Srvsvc Unit := do
  srvsvcPtr env a .unique .utf16z
  srvsvcPtr env (a.add 8) .ref .utf16z
  ndrUint32CoderAt env (a.add 16)
  setSwitchIsAt (a.add 16)

/-- `srvsvc_NetrShareGetInfo_rep_coder`, with the level of the request. -/
def srvsvcNetrShareGetInfoRepCoder (reqLevel : Nat) (a : Addr) : Ndr Srvsvc Unit := do
  setSwitchIs reqLevel
  srvsvcPtr env a .ref .shareInfoStruct
  ndrUint32CoderAt env (a.add 56)

/-- `srvsvc_NetrShareSetInfo_req_coder`. -/
def srvsvcNetrShareSetInfoReqCoder (a : Addr) : Ndr Srvsvc Unit := do
  srvsvcPtr env a .unique .utf16z
  srvsvcPtr env (a.add 8) .ref .utf16z
  ndrUint32CoderAt env (a.add 16)
  setSwitchIsAt (a.add 16)
  srvsvcPtr env (a.add 24) .ref .shareInfoStruct
  srvsvcPtr env (a.add 80) .unique .uint32

/-- `srvsvc_NetrShareDel_req_coder`. -/
def srvsvcNetrShareDelReqCoder (a : Addr) : Ndr Srvsvc Unit := do
  srvsvcPtr env a .unique .utf16z
  srvsvcPtr env (a.add 8) .ref .utf16z
  ndrUint32CoderAt env (a.add 16)

/-- `srvsvc_NetrShareDel_rep_coder`. -/
def srvsvcNetrShareDelRepCoder (a : Addr) : Ndr Srvsvc Unit := ndrUint32CoderAt env a

/-- `srvsvc_NetrShareCheck_req_coder`. -/
def srvsvcNetrShareCheckReqCoder (a : Addr) : Ndr Srvsvc Unit := do
  srvsvcPtr env a .unique .utf16z
  srvsvcPtr env (a.add 8) .ref .utf16z

/-- `srvsvc_NetrShareCheck_rep_coder`. -/
def srvsvcNetrShareCheckRepCoder (a : Addr) : Ndr Srvsvc Unit := do
  srvsvcPtr env a .ref .uint32
  ndrUint32CoderAt env (a.add 4)

end

end Libsmb2.Dcerpc
