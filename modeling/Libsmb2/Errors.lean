import Mathlib.Data.List.Basic

/-!
# Error numbers

`nterror_to_errno` of `errors.c`, and the error numbers in it with the values that they have
on Linux.
-/

set_option autoImplicit false

namespace Libsmb2

def EPERM : Int := 1
def ENOENT : Int := 2
def EIO : Int := 5
def ENOEXEC : Int := 8
def EBADF : Int := 9
def EAGAIN : Int := 11
def ENOMEM : Int := 12
def EACCES : Int := 13
def EBUSY : Int := 16
def EEXIST : Int := 17
def EXDEV : Int := 18
def ENODEV : Int := 19
def ENOTDIR : Int := 20
def EINVAL : Int := 22
def EMFILE : Int := 24
def ETXTBSY : Int := 26
def ENOSPC : Int := 28
def EROFS : Int := 30
def EPIPE : Int := 32
def EDEADLK : Int := 35
def ENOTEMPTY : Int := 39
def ENODATA : Int := 61
def ENOLINK : Int := 67
def ENETRESET : Int := 102
def ETIMEDOUT : Int := 110
def ECONNREFUSED : Int := 111

/-- The cases of `nterror_to_errno`, in its order, without the statuses that mean no error and
those that `EIO` stands for. -/
def errnoCases : List (Int × List Nat) :=
  [ (EAGAIN, [0x00000103]),
    (1, [0xFFFFFFFF]),
    (ENOENT, [0xC000000F, 0xC000000E, 0xC00000CC, 0xC0000034, 0xC0000039, 0xC000003A,
      0xC000003B, 0xC000009B, 0xC0000056, 0xC00000FB, 0xC0000225]),
    (EBADF, [0x00060001, 0xC0000008, 0xC0000024, 0xC0000037, 0xC0000042, 0xC0000235]),
    (EAGAIN, [0xC0000016]),
    (EACCES, [0xC0000022, 0xC00000CA, 0xC000006E, 0xC000006F, 0xC0000071, 0xC0000072]),
    (EPERM, [0xC000001E, 0xC000001F, 0xC0000021, 0xC0000041, 0xC000004B, 0xC0000061,
      0xC00000BA, 0xC00000D5, 0xC000010A, 0xC0000121, 0xC0000123]),
    (ENOTEMPTY, [0xC0000101]),
    (ENODATA, [0x80000006]),
    (ECONNREFUSED, [0xC000006D]),
    (ENOTDIR, [0xC0000103]),
    (EINVAL, [0xC0000002, 0xC0000010, 0xC00000AF, 0xC000000D, 0xC00000BB, 0xC0000275]),
    (ENOLINK, [0x8000002D]),
    (EMFILE, [0xC000011F]),
    (ENOMEM, [0xC0000040, 0xC0000097, 0xC0000205]),
    (EXDEV, [0xC00000D4]),
    (ETXTBSY, [0xC0000043]),
    (EDEADLK, [0xC0000054, 0xC0000055]),
    (EEXIST, [0xC0000035]),
    (EPIPE, [0xC00000B0]),
    (EROFS, [0xC00000A2]),
    (ENODEV, [0xC0000013]),
    ( EIO, [0xC000003E, 0xC000003F, 0xC000009C, 0xC0000185]),
    (ENOSPC, [0xC000007F]),
    (ENETRESET, [0xC0000120, 0xC0000128, 0xC000026E, 0xC000020C, 0xC000020D, 0xC000023A,
      0xC0000241, 0xC00000C9, 0xC00000C3]),
    (ENOEXEC, [0xC0000257]),
    (ETIMEDOUT, [0xC00000B5]),
    (EBUSY, [0xC000009A])]

/-- `nterror_to_errno`. -/
def nterrorToErrno (status : Nat) : Int :=
  if status = 0 ∨ status = 0xC0000011 then 0
  else
    match errnoCases.find? fun c => status ∈ c.2 with
    | some c => c.1
    | none => EIO

@[simp] theorem nterrorToErrno_success : nterrorToErrno 0 = 0 := rfl

end Libsmb2
