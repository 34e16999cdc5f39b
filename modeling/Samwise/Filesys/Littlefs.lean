import Samwise.Lib.Interaction

/-!
# Samwise — littlefs as `filesys.c` calls it

The calls of `lib/littlefs-SSI/lfs.h` that `src/filesys/filesys.c` makes, with their
responses. A response carries what the call returns and what it puts into the caller's
memory, and nothing else: which responses littlefs gives to which calls is the subject of
other modules, and a result about all of them holds for every pattern of successes and
failures. File objects are named by their owner, a caller of `filesys_open_file_read` or the
function whose local variable they are.
-/

namespace Samwise

open Interaction

/-- A `lfs_file_t`: the one a caller passes to `filesys_open_file_read`, or the local
variable of a function. -/
inductive FileRef where
  | caller (n : Nat)
  | startFileWrite
  | writeBufferToMram
  | computeFileCrc
  | getFileInfo
deriving DecidableEq, Repr

/-- The flags of `lfs_file_opencfg` that are used: `LFS_O_RDONLY`,
`LFS_O_CREAT | LFS_O_WRONLY | LFS_O_TRUNC` and `LFS_O_WRONLY | LFS_O_APPEND`. -/
inductive OpenFlags where
  | rdonly
  | creatWronlyTrunc
  | wronlyAppend
deriving DecidableEq, Repr

/-- A call of littlefs. Paths are C strings without their terminator. The only attribute is
`FILESYS_CRC_ATTR`, and the only directory object is the local variable of
`filesys_list_files`. -/
inductive LfsCall where
  | mount
  | unmount
  | format
  | fsSize
  | fileOpencfg (file : FileRef) (path : List UInt8) (flags : OpenFlags)
  | fileClose (file : FileRef)
  | fileRead (file : FileRef) (size : UInt32)
  | fileWrite (file : FileRef) (data : List UInt8)
  | fileSize (file : FileRef)
  | fileSeek (file : FileRef) (off whence : Int32)
  | fileTell (file : FileRef)
  | getattr (path : List UInt8)
  | setattr (path : List UInt8) (value : UInt32)
  | remove (path : List UInt8)
  | dirOpen (path : List UInt8)
  | dirRead
  | dirClose
deriving DecidableEq

/-- What `lfs_file_read` returns: an error, or the bytes it put into the buffer, never more
than were asked for. -/
inductive ReadResult (size : Nat) where
  | failed (code : Int) (h : code < 0)
  | read (bytes : List UInt8) (h : bytes.length ≤ size)

/-- The returned `lfs_ssize_t`. -/
def ReadResult.code {size : Nat} : ReadResult size → Int
  | failed code _ => code
  | read bytes _ => bytes.length

/-- The buffer's new front. -/
def ReadResult.bytes {size : Nat} : ReadResult size → List UInt8
  | failed _ _ => []
  | read bytes _ => bytes

/-- What `lfs_getattr` returns, and the attribute where it found one. -/
structure AttrResult where
  code : Int
  value : UInt32

/-- `LFS_TYPE_REG`. -/
def lfsTypeReg : UInt8 := 1

/-- `struct lfs_info`: the type of a directory entry and its name. -/
structure LfsInfo where
  type : UInt8
  name : List UInt8
deriving DecidableEq

/-- What `lfs_dir_read` returns, and the entry where it found one. -/
structure DirResult where
  code : Int
  info : LfsInfo

/-- The type of the response to a call. -/
def LfsCall.Response : LfsCall → Type
  | .fileRead _ size => ReadResult size.toNat
  | .getattr _ => AttrResult
  | .dirRead => DirResult
  | _ => Int

/-- littlefs, as a component. -/
def littlefs : Signature := ⟨LfsCall, LfsCall.Response⟩

instance : DecidableEq littlefs.Call := inferInstanceAs (DecidableEq LfsCall)

/-- A call and its response. -/
abbrev LfsEvent := Event littlefs

/-- The number a call returned; negative for an error. -/
def LfsEvent.code : LfsEvent → Int
  | ⟨.fileRead _ _, r⟩ => ReadResult.code r
  | ⟨.getattr _, r⟩ => AttrResult.code r
  | ⟨.dirRead, r⟩ => DirResult.code r
  | ⟨.mount, r⟩ | ⟨.unmount, r⟩ | ⟨.format, r⟩ | ⟨.fsSize, r⟩ | ⟨.fileOpencfg _ _ _, r⟩
  | ⟨.fileClose _, r⟩ | ⟨.fileWrite _ _, r⟩ | ⟨.fileSize _, r⟩ | ⟨.fileSeek _ _ _, r⟩
  | ⟨.fileTell _, r⟩ | ⟨.setattr _ _, r⟩ | ⟨.remove _, r⟩ | ⟨.dirOpen _, r⟩ | ⟨.dirClose, r⟩ =>
    show Int from r

/-- The calls that neither write to a file nor make one, remove one or change its attribute.
Closing is among them: it commits only what was written before. -/
def LfsCall.inspects : LfsCall → Bool
  | .fsSize | .fileOpencfg _ _ .rdonly | .fileClose _ | .fileRead _ _ | .fileSize _
  | .fileSeek _ _ _ | .fileTell _ | .getattr _ | .dirOpen _ | .dirRead | .dirClose => true
  | _ => false

/-! ## The calls as programs -/

section Calls

variable {τ : Type}

/-- `lfs_mount`. -/
def lfsMount : Prog littlefs τ Int := .perform (S := littlefs) LfsCall.mount

/-- `lfs_unmount`. -/
def lfsUnmount : Prog littlefs τ Int := .perform (S := littlefs) LfsCall.unmount

/-- `lfs_format`. -/
def lfsFormat : Prog littlefs τ Int := .perform (S := littlefs) LfsCall.format

/-- `lfs_fs_size`. -/
def lfsFsSize : Prog littlefs τ Int := .perform (S := littlefs) LfsCall.fsSize

/-- `lfs_file_opencfg`, with `filesys_lfs_file_cfg`. -/
def lfsFileOpencfg (file : FileRef) (path : List UInt8) (flags : OpenFlags) :
    Prog littlefs τ Int :=
  .perform (S := littlefs) (LfsCall.fileOpencfg file path flags)

/-- `lfs_file_close`. -/
def lfsFileClose (file : FileRef) : Prog littlefs τ Int :=
  .perform (S := littlefs) (LfsCall.fileClose file)

/-- `lfs_file_read`. -/
def lfsFileRead (file : FileRef) (size : UInt32) : Prog littlefs τ (ReadResult size.toNat) :=
  .perform (S := littlefs) (LfsCall.fileRead file size)

/-- `lfs_file_write`. -/
def lfsFileWrite (file : FileRef) (data : List UInt8) : Prog littlefs τ Int :=
  .perform (S := littlefs) (LfsCall.fileWrite file data)

/-- `lfs_file_size`. -/
def lfsFileSize (file : FileRef) : Prog littlefs τ Int :=
  .perform (S := littlefs) (LfsCall.fileSize file)

/-- `lfs_file_seek`. -/
def lfsFileSeek (file : FileRef) (off whence : Int32) : Prog littlefs τ Int :=
  .perform (S := littlefs) (LfsCall.fileSeek file off whence)

/-- `lfs_file_tell`. -/
def lfsFileTell (file : FileRef) : Prog littlefs τ Int :=
  .perform (S := littlefs) (LfsCall.fileTell file)

/-- `lfs_getattr` of `FILESYS_CRC_ATTR`. -/
def lfsGetattr (path : List UInt8) : Prog littlefs τ AttrResult :=
  .perform (S := littlefs) (LfsCall.getattr path)

/-- `lfs_setattr` of `FILESYS_CRC_ATTR`. -/
def lfsSetattr (path : List UInt8) (value : UInt32) : Prog littlefs τ Int :=
  .perform (S := littlefs) (LfsCall.setattr path value)

/-- `lfs_remove`. -/
def lfsRemove (path : List UInt8) : Prog littlefs τ Int :=
  .perform (S := littlefs) (LfsCall.remove path)

/-- `lfs_dir_open`. -/
def lfsDirOpen (path : List UInt8) : Prog littlefs τ Int :=
  .perform (S := littlefs) (LfsCall.dirOpen path)

/-- `lfs_dir_read`. -/
def lfsDirRead : Prog littlefs τ DirResult := .perform (S := littlefs) LfsCall.dirRead

/-- `lfs_dir_close`. -/
def lfsDirClose : Prog littlefs τ Int := .perform (S := littlefs) LfsCall.dirClose

end Calls

end Samwise
