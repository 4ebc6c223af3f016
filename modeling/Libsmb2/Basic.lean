import Libsmb2.Util.Bytes

/-!
# Protocol constants

Commands, statuses, header flags, dialects and the sizes of the fixed parts of requests
and replies, under the names of `smb2.h`, `libsmb2.h`, `smb2-errors.h` and
`libsmb2-private.h`.  A command read from the wire that no decoder knows is kept with its
code (`Command.unknown`), so that `Command.ofCode` loses nothing.
-/

set_option autoImplicit false

namespace Libsmb2

open Util

/-- `enum smb2_command`. -/
inductive Command
  | negotiate
  | sessionSetup
  | logoff
  | treeConnect
  | treeDisconnect
  | create
  | close
  | flush
  | read
  | write
  | lock
  | ioctl
  | cancel
  | echo
  | queryDirectory
  | changeNotify
  | queryInfo
  | setInfo
  | oplockBreak
  | smb1Negotiate
  | unknown (code : Nat)
  deriving DecidableEq, Repr

namespace Command

/-- The value of the command on the wire. -/
def code : Command → Nat
  | negotiate => 0
  | sessionSetup => 1
  | logoff => 2
  | treeConnect => 3
  | treeDisconnect => 4
  | create => 5
  | close => 6
  | flush => 7
  | read => 8
  | write => 9
  | lock => 10
  | ioctl => 11
  | cancel => 12
  | echo => 13
  | queryDirectory => 14
  | changeNotify => 15
  | queryInfo => 16
  | setInfo => 17
  | oplockBreak => 18
  | smb1Negotiate => 114
  | unknown n => n

def ofCode : Nat → Command
  | 0 => negotiate
  | 1 => sessionSetup
  | 2 => logoff
  | 3 => treeConnect
  | 4 => treeDisconnect
  | 5 => create
  | 6 => close
  | 7 => flush
  | 8 => read
  | 9 => write
  | 10 => lock
  | 11 => ioctl
  | 12 => cancel
  | 13 => echo
  | 14 => queryDirectory
  | 15 => changeNotify
  | 16 => queryInfo
  | 17 => setInfo
  | 18 => oplockBreak
  | 114 => smb1Negotiate
  | n => unknown n

end Command

/-! ## Statuses -/

def STATUS_SUCCESS : Nat := 0
def STATUS_SHUTDOWN : Nat := 0xffffffff
def STATUS_PENDING : Nat := 0x00000103
def STATUS_NO_MORE_FILES : Nat := 0x80000006
def STATUS_NOT_IMPLEMENTED : Nat := 0xC0000002
def STATUS_INVALID_PARAMETER : Nat := 0xC000000D
def STATUS_MORE_PROCESSING_REQUIRED : Nat := 0xC0000016
def STATUS_LOGON_FAILURE : Nat := 0xC000006D
def STATUS_IO_TIMEOUT : Nat := 0xC00000B5
def STATUS_NOT_SUPPORTED : Nat := 0xC00000BB
def STATUS_CANCELLED : Nat := 0xC0000120
def STATUS_STOPPED_ON_SYMLINK : Nat := 0x8000002D
def STATUS_SEVERITY_MASK : Nat := 0xc0000000
def STATUS_SEVERITY_WARNING : Nat := 0x80000000
def STATUS_SEVERITY_ERROR : Nat := 0xc0000000

/-! ## Header flags -/

def FLAGS_SERVER_TO_REDIR : Nat := 0x00000001
def FLAGS_ASYNC_COMMAND : Nat := 0x00000002
def FLAGS_RELATED_OPERATIONS : Nat := 0x00000004
def FLAGS_SIGNED : Nat := 0x00000008

/-! ## Dialects -/

def VERSION_0202 : Nat := 0x0202
def VERSION_0210 : Nat := 0x0210
def VERSION_WILDCARD : Nat := 0x02FF
def VERSION_0300 : Nat := 0x0300
def VERSION_0302 : Nat := 0x0302
def VERSION_0311 : Nat := 0x0311

/-! ## Negotiation and session setup -/

def NEGOTIATE_SIGNING_ENABLED : Nat := 0x0001
def NEGOTIATE_SIGNING_REQUIRED : Nat := 0x0002
def GLOBAL_CAP_LARGE_MTU : Nat := 0x00000004
def GLOBAL_CAP_ENCRYPTION : Nat := 0x00000040
def SESSION_FLAG_IS_ENCRYPT_DATA : Nat := 0x0004
def PREAUTH_INTEGRITY_CAP : Nat := 0x0001
def ENCRYPTION_CAP : Nat := 0x0002
def COMPRESSION_CAP : Nat := 0x0003
def NETNAME_NEGOTIATE_CONTEXT_ID : Nat := 0x0005
def TRANSPORT_CAP : Nat := 0x0006
def RDMA_TRANSFORM_CAP : Nat := 0x0007
def SIGNING_CAP : Nat := 0x0008
def ENCRYPTION_AES_128_CCM : Nat := 0x0001
def NEGOTIATE_MESSAGE : Nat := 1
def CHALLENGE_MESSAGE : Nat := 2
def AUTHENTICATION_MESSAGE : Nat := 3

/-! ## Sizes and limits -/

def SPL_SIZE : Nat := 4
def HEADER_SIZE : Nat := 64
def TRANSFORM_HEADER_SIZE : Nat := 52
def SIGNATURE_SIZE : Nat := 16
def KEY_SIZE : Nat := 16
def MAX_VECTORS : Nat := 256
def MAX_PDU_SIZE : Nat := 16 * 1024 * 1024
def MAX_CREDITS : Nat := 1024
def MAX_TREE_NESTING : Nat := 32
def ERROR_REPLY_SIZE : Nat := 9

/-- The `SMB2_*_REPLY_SIZE` that `smb2_get_fixed_reply_size` returns for a command. -/
def replySize : Command → Option Nat
  | .negotiate => some 65
  | .sessionSetup => some 9
  | .logoff => some 4
  | .treeConnect => some 16
  | .treeDisconnect => some 4
  | .create => some 89
  | .close => some 60
  | .flush => some 4
  | .read => some 17
  | .write => some 17
  | .lock => some 4
  | .echo => some 4
  | .queryDirectory => some 9
  | .changeNotify => some 9
  | .queryInfo => some 9
  | .setInfo => some 2
  | .ioctl => some 49
  | .oplockBreak => some 2
  | _ => none

/-- The `SMB2_*_REQUEST_SIZE` that `smb2_get_fixed_request_size` returns for a command. -/
def requestSize : Command → Option Nat
  | .negotiate => some 36
  | .sessionSetup => some 25
  | .logoff => some 4
  | .treeConnect => some 9
  | .treeDisconnect => some 4
  | .create => some 57
  | .close => some 24
  | .flush => some 24
  | .read => some 49
  | .write => some 49
  | .lock => some 48
  | .cancel => some 4
  | .echo => some 4
  | .queryDirectory => some 33
  | .changeNotify => some 32
  | .queryInfo => some 41
  | .setInfo => some 33
  | .ioctl => some 57
  | .oplockBreak => some 2
  | _ => none

end Libsmb2
