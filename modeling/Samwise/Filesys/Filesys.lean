import Samwise.Filesys.Littlefs
import Samwise.Lib.Memory
import Samwise.Packet.Packet
import Samwise.Utils.Crc32

/-!
# Samwise — the buffered filesystem

`src/filesys/filesys.c`, function by function: programs over the filesystem's part of the
slate and the static `lfs_mounted` that call littlefs. A function returns its
`filesys_error_t` together with what it stores through its out-parameters, first of them
`*lfs_error_code`. `filesys_buffer` is the memory behind the heap pointer; its first
`FILESYS_BUFFER_SIZE` bytes are the allocated ones. File names are C strings without their
terminator, except for the array that `filesys_start_file_write` copies. Logging is left out.
-/

namespace Samwise

open Interaction Memory

/-! ## Configuration (`config.h`, `filesys.h`) -/

/-- `FTP_DATA_PAYLOAD_SIZE`. -/
def ftpDataPayloadSize : Nat := packetDataSize - commandMnemonicSize - 2 - 2

/-- `FTP_NUM_PACKETS_PER_CYCLE`. -/
def ftpNumPacketsPerCycle : Nat := 5

/-- `FILESYS_BUFFER_SIZE`. -/
def filesysBufferSize : Nat := ftpDataPayloadSize * ftpNumPacketsPerCycle

@[simp] theorem filesysBufferSize_eq : filesysBufferSize = 1025 := rfl

/-- `FILESYS_READ_BUFFER_SIZE`. -/
def filesysReadBufferSize : UInt32 := 256

/-- `FILESYS_MAX_LOOP_LIST_FILES`. The macros have no parentheses around
`(1 << 16) - 2`, so the factor binds to the 2. -/
def filesysMaxLoopListFiles : Nat := (1 <<< 16) - 2 * 2

/-- `FILESYS_ROOT_DIR`, `"/"`. -/
def filesysRootDir : List UInt8 := [0x2F]

/-- What of `filesys_lfs_cfg` the code computes with: `FILESYS_BLOCK_SIZE` and
`FILESYS_BLOCK_COUNT`. -/
structure LfsConfig where
  blockSize : UInt32
  blockCount : UInt32

/-- `num_blocks_needed`: ceil(file_size / block_size), in unsigned 32-bit arithmetic. -/
def LfsConfig.numBlocksNeeded (cfg : LfsConfig) (fileSize : UInt32) : Int :=
  ((fileSize + cfg.blockSize - 1) / cfg.blockSize).toInt32.toInt

/-- `(lfs_ssize_t)filesys_lfs_cfg.block_count`. -/
def LfsConfig.numBlocks (cfg : LfsConfig) : Int := cfg.blockCount.toInt32.toInt

/-- The configuration for MRAM and for tests. -/
def mramConfig : LfsConfig := ⟨256, 2048⟩

/-- The configuration for flash. -/
def flashConfig : LfsConfig := ⟨4096, 768⟩

/-- `LFS_ERR_OK`. -/
def lfsErrOk : Int := 0

/-- `enum filesys_error`. -/
inductive FilesysError where
  | ok
  | errFileAlreadyWriting
  | errGetFsSize
  | errNotEnoughSpace
  | errOpenFile
  | errSetCrcAttr
  | errBufferDirty
  | errExceedBuffer
  | errCloseFile
  | errCrcCheck
  | errCrcMismatch
  | errNoFileWriting
  | errDeleteFile
  | errReformat
  | errMount
  | errMalloc
  | errWriteMram
  | errOpenDir
  | errReadDir
  | errCloseDir
  | errGetCrcAttr
  | errReadFile
  | errSeekFile
  | errFileSize
deriving DecidableEq, Repr

/-- The values of `enum filesys_error`: 0 and downwards, in order. -/
def FilesysError.code (e : FilesysError) : Int := -(e.ctorIdx : Int)

/-- `FILESYS_BUFFERED_FNAME_STR_T`. -/
abbrev FnameStr := Vector UInt8 3

/-- The slate's `filesys_…` fields and the static `lfs_mounted`. -/
structure FilesysVars where
  isWritingFile : Bool
  bufferIsDirty : Bool
  /-- `filesys_buffer` is not `NULL`. -/
  bufferAllocated : Bool
  buffer : Mem
  bufferedFnameStr : FnameStr
  bufferedFileLen : UInt32
  bufferedFileCrc : UInt32
  lfsMounted : Bool

/-- A function of `filesys.c`. -/
abbrev Filesys (α : Type) := Prog littlefs FilesysVars α

/-- `slate->filesys_buffered_fname_str` as a path. A name without a NUL is read as
its three bytes; the code reads on behind them. -/
def FilesysVars.path (v : FilesysVars) : List UInt8 := cString v.bufferedFnameStr.toList

/-! ## Opening and closing -/

/-- `*lfs_error_code` behind a call that returned `err`. -/
def errorCode (err : Int) : Int := if err < 0 then err else lfsErrOk

/-- `filesys_file_open`: the value of `*lfs_error_code`. -/
def filesysFileOpen (file : FileRef) (fname : List UInt8) (flags : OpenFlags) : Filesys Int := do
  let err ← lfsFileOpencfg file fname flags
  return errorCode err

/-- `filesys_file_close`: the value of `*lfs_error_code`. -/
def filesysFileClose (file : FileRef) : Filesys Int := do
  let err ← lfsFileClose file
  return errorCode err

/-! ## Mounting -/

/-- The buffer and the dirty flag after `filesys_clear_buffer`. -/
def FilesysVars.clearBuffer (v : FilesysVars) : FilesysVars :=
  { v with bufferIsDirty := false, buffer := fill v.buffer 0 filesysBufferSize 0 }

/-- `filesys_clear_buffer`. -/
def filesysClearBuffer : Filesys Unit := .modify FilesysVars.clearBuffer

/-- `filesys_initialize`. -/
def filesysInitialize : Filesys (FilesysError × Int) := do
  let err ← lfsMount
  if err < 0 then return (.errMount, err) else
  let v ← Prog.vars
  if v.bufferAllocated = false then return (.errMalloc, lfsErrOk) else
  .modify fun v => { v with isWritingFile := false }
  filesysClearBuffer
  .modify fun v => { v with lfsMounted := true }
  return (.ok, lfsErrOk)

/-- `filesys_reformat_initialize`. -/
def filesysReformatInitialize : Filesys (FilesysError × Int) := do
  let v ← Prog.vars
  Prog.when (v.lfsMounted = true) do
    let _ ← lfsUnmount
    .modify fun v => { v with lfsMounted := false }
  let err ← lfsFormat
  if err < 0 then return (.errReformat, err) else
  let (errInit, lfsErrorCode) ← filesysInitialize
  if errInit.code < 0 then return (errInit, lfsErrorCode) else
  return (.ok, lfsErrorCode)

/-! ## Writing -/

/-- The assignments at the end of `filesys_start_file_write`. -/
def FilesysVars.started (v : FilesysVars) (fileSize fileCrc : UInt32) : FilesysVars :=
  { v with
    isWritingFile := true
    bufferedFileLen := fileSize
    bufferedFileCrc := fileCrc
    bufferIsDirty := false }

/-- `filesys_start_file_write`. The last component is `*blocks_left_after_write`, where it
is written. -/
def filesysStartFileWrite (cfg : LfsConfig) (fnameStr : FnameStr) (fileSize fileCrc : UInt32) :
    Filesys (FilesysError × Int × Option Int) := do
  let v ← Prog.vars
  if v.isWritingFile = true then return (.errFileAlreadyWriting, lfsErrOk, none) else
  Prog.when (v.bufferIsDirty = true) filesysClearBuffer
  let fsSize ← lfsFsSize
  if fsSize < 0 then return (.errGetFsSize, fsSize, none) else
  let numBlocksNeeded := cfg.numBlocksNeeded fileSize
  let blocksLeft := cfg.numBlocks - fsSize - numBlocksNeeded
  if fsSize + numBlocksNeeded > cfg.numBlocks then
    return (.errNotEnoughSpace, lfsErrOk, some blocksLeft) else
  .modify fun v => { v with bufferedFnameStr := fnameStr }
  let v ← Prog.vars
  let openErr ← filesysFileOpen .startFileWrite v.path .creatWronlyTrunc
  if openErr < 0 then return (.errOpenFile, openErr, some blocksLeft) else
  let err ← lfsSetattr v.path fileCrc
  if err < 0 then
    let _ ← filesysFileClose .startFileWrite
    return (.errSetCrcAttr, err, some blocksLeft) else
  let closeErr ← filesysFileClose .startFileWrite
  if closeErr < 0 then return (.errCloseFile, closeErr, some blocksLeft) else
  .modify fun v => v.started fileSize fileCrc
  return (.ok, lfsErrOk, some blocksLeft)

/-- The assignments at the end of `filesys_write_data_to_buffer`. -/
def FilesysVars.written (v : FilesysVars) (data : Mem) (nBytes offset : UInt16) : FilesysVars :=
  { v with
    bufferIsDirty := true
    buffer := write v.buffer offset.toNat (read data 0 nBytes.toNat) }

/-- `filesys_write_data_to_buffer`; `data` is the memory behind the pointer. -/
def filesysWriteDataToBuffer (data : Mem) (nBytes offset : UInt16) :
    Filesys (FilesysError × Int) := do
  if offset.toNat + nBytes.toNat > filesysBufferSize then return (.errExceedBuffer, lfsErrOk) else
  let v ← Prog.vars
  if v.isWritingFile = false then return (.errNoFileWriting, lfsErrOk) else
  .modify fun v => v.written data nBytes offset
  return (.ok, lfsErrOk)

/-- `filesys_cancel_file_write`. -/
def filesysCancelFileWrite : Filesys (FilesysError × Int) := do
  let v ← Prog.vars
  if v.isWritingFile = false then return (.errNoFileWriting, lfsErrOk) else
  let err ← lfsRemove v.path
  if err < 0 then return (.errDeleteFile, err) else
  filesysClearBuffer
  .modify fun v => { v with isWritingFile := false }
  return (.ok, lfsErrOk)

/-- `filesys_write_buffer_to_mram`. The sizes asked for behind a failed write are only
logged. -/
def filesysWriteBufferToMram (nBytes : UInt16) : Filesys (FilesysError × Int) := do
  let v ← Prog.vars
  if v.isWritingFile = false then return (.errNoFileWriting, lfsErrOk) else
  if v.bufferIsDirty = false then return (.ok, lfsErrOk) else
  let openErr ← filesysFileOpen .writeBufferToMram v.path .wronlyAppend
  if openErr < 0 then return (.errOpenFile, openErr) else
  let bytesWritten ← lfsFileWrite .writeBufferToMram (read v.buffer 0 nBytes.toNat)
  if bytesWritten < 0 then
    let _ ← lfsFileSize .writeBufferToMram
    let _ ← lfsFsSize
    let _ ← filesysCancelFileWrite
    return (.errWriteMram, bytesWritten) else
  let closeErr ← filesysFileClose .writeBufferToMram
  if closeErr < 0 then return (.errCloseFile, closeErr) else
  filesysClearBuffer
  return (.ok, lfsErrOk)

/-! ## Checking -/

/-- What `filesys_compute_file_crc` returns and stores. -/
structure CrcOutcome where
  crc : UInt32
  error : FilesysError
  lfsErrorCode : Int
deriving DecidableEq

/-- `filesys_compute_file_crc` from the end of its loop on. -/
def computeFileCrcFinish (crc : UInt32) : Filesys CrcOutcome := do
  let closeErr ← filesysFileClose .computeFileCrc
  if closeErr < 0 then return ⟨crc, .errCloseFile, closeErr⟩ else
  return ⟨~~~crc, .ok, lfsErrOk⟩

/-- The loop of `filesys_compute_file_crc`. A round that goes on has read a byte, so as many
rounds as bytes remain are enough. -/
def computeFileCrcLoop : Nat → UInt32 → UInt32 → Filesys CrcOutcome
  | 0, _, crc => computeFileCrcFinish crc
  | rounds + 1, bytesRemaining, crc => do
    if bytesRemaining = 0 then computeFileCrcFinish crc else
    let toRead := if bytesRemaining < filesysReadBufferSize then bytesRemaining
      else filesysReadBufferSize
    let result ← lfsFileRead .computeFileCrc toRead
    if result.code < 0 then
      let _ ← filesysFileClose .computeFileCrc
      return ⟨crc, .errCrcCheck, result.code⟩ else
    if result.code = 0 then
      let _ ← filesysFileClose .computeFileCrc
      return ⟨crc, .errCrcCheck, lfsErrOk⟩ else
    computeFileCrcLoop rounds (bytesRemaining - UInt32.ofNat result.bytes.length)
      (crc32Continue result.bytes crc)

/-- `filesys_compute_file_crc`. -/
def filesysComputeFileCrc (fname : List UInt8) (fileSize : UInt32) : Filesys CrcOutcome := do
  let crc : UInt32 := 0xFFFFFFFF
  let openErr ← filesysFileOpen .computeFileCrc fname .rdonly
  if openErr < 0 then return ⟨crc, .errOpenFile, openErr⟩ else
  computeFileCrcLoop fileSize.toNat fileSize crc

/-- `filesys_compute_crc`. -/
def filesysComputeCrc : Filesys CrcOutcome := do
  let v ← Prog.vars
  if v.isWritingFile = false then return ⟨0, .errNoFileWriting, lfsErrOk⟩ else
  filesysComputeFileCrc v.path v.bufferedFileLen

/-- `filesys_is_crc_correct`. -/
def filesysIsCrcCorrect : Filesys (FilesysError × Int) := do
  let v ← Prog.vars
  if v.isWritingFile = false then return (.errNoFileWriting, lfsErrOk) else
  let computed ← filesysComputeCrc
  if computed.error ≠ .ok then return (computed.error, computed.lfsErrorCode) else
  if computed.crc ≠ v.bufferedFileCrc then return (.errCrcMismatch, computed.lfsErrorCode) else
  return (.ok, computed.lfsErrorCode)

/-- `filesys_complete_file_write`. -/
def filesysCompleteFileWrite : Filesys (FilesysError × Int) := do
  let v ← Prog.vars
  if v.bufferIsDirty = true then return (.errBufferDirty, lfsErrOk) else
  let (crcCheck, lfsErrorCode) ← filesysIsCrcCorrect
  if crcCheck ≠ .ok then return (crcCheck, lfsErrorCode) else
  .modify fun v => { v with isWritingFile := false }
  return (.ok, lfsErrorCode)

/-! ## File information -/

/-- `filesys_file_info_t`. -/
structure FileInfo where
  fname : FnameStr
  fileSize : UInt32
  computedCrc : UInt32
  expectedCrc : UInt32
  flags : UInt8
deriving DecidableEq

/-- `FILESYS_FILE_INFO_CRC_MATCH`. -/
def fileInfoCrcMatch : UInt8 := 0x01

/-- `FILESYS_FILE_INFO_COMPUTED_CRC_VALID`. -/
def fileInfoComputedCrcValid : UInt8 := 0x02

/-- `FILESYS_FILE_INFO_EXPECTED_CRC_VALID`. -/
def fileInfoExpectedCrcValid : UInt8 := 0x04

/-- `info->flags & mask`. -/
def FileInfo.has (info : FileInfo) (mask : UInt8) : Bool := info.flags &&& mask != 0

/-- `*info` after the `memset` and the `strncpy`: two bytes of the name at most, and zeros. -/
def FileInfo.named (fname : List UInt8) : FileInfo :=
  { fname := copyInto (.replicate 3 0) (fname.take 2)
    fileSize := 0
    computedCrc := 0
    expectedCrc := 0
    flags := 0 }

/-- `*info` with the result of `lfs_getattr`. -/
def FileInfo.withAttr (info : FileInfo) (attr : AttrResult) : FileInfo :=
  if attr.code < 0 then { info with expectedCrc := 0 }
  else { info with expectedCrc := attr.value, flags := info.flags ||| fileInfoExpectedCrcValid }

/-- `*info` with the result of `filesys_compute_file_crc`. -/
def FileInfo.withComputed (info : FileInfo) (computed : CrcOutcome) : FileInfo :=
  if computed.error = .ok then
    { info with computedCrc := computed.crc, flags := info.flags ||| fileInfoComputedCrcValid }
  else { info with computedCrc := 0 }

/-- `*info` with the verdict on its two CRCs. -/
def FileInfo.withMatch (info : FileInfo) : FileInfo :=
  if info.has fileInfoComputedCrcValid ∧ info.has fileInfoExpectedCrcValid ∧
      info.computedCrc = info.expectedCrc then
    { info with flags := info.flags ||| fileInfoCrcMatch }
  else info

/-- `filesys_get_file_info`. -/
def filesysGetFileInfo (fname : List UInt8) : Filesys (FilesysError × FileInfo × Int) := do
  let info := FileInfo.named fname
  let openErr ← filesysFileOpen .getFileInfo fname .rdonly
  if openErr < 0 then return (.errOpenFile, info, openErr) else
  let fileSize ← lfsFileSize .getFileInfo
  if fileSize < 0 then
    let _ ← filesysFileClose .getFileInfo
    return (.errFileSize, info, fileSize) else
  let closeErr ← filesysFileClose .getFileInfo
  if closeErr < 0 then return (.errCloseFile, info, closeErr) else
  let info := { info with fileSize := UInt32.ofInt fileSize }
  let attr ← lfsGetattr fname
  let info := info.withAttr attr
  let computed ← filesysComputeFileCrc fname info.fileSize
  return (.ok, (info.withComputed computed).withMatch, lfsErrOk)

/-- The loop of `filesys_list_files`: the entries found so far, and the result of a
`lfs_dir_read` that failed. -/
def listFilesLoop (maxFiles : UInt16) : Nat → List FileInfo → Filesys (List FileInfo × Option Int)
  | 0, fileList => return (fileList, none)
  | rounds + 1, fileList => do
    let entry ← lfsDirRead
    if entry.code < 0 then return (fileList, some entry.code) else
    if entry.code = 0 then return (fileList, none) else
    if entry.info.type ≠ lfsTypeReg then listFilesLoop maxFiles rounds fileList else
    if fileList.length ≥ maxFiles.toNat then return (fileList, none) else
    let (_, info, _) ← filesysGetFileInfo entry.info.name
    listFilesLoop maxFiles rounds (fileList ++ [info])

/-- `filesys_list_files`: the entries of `file_list` that are written, `*num_files_found` of
them. -/
def filesysListFiles (maxFiles : UInt16) : Filesys (FilesysError × List FileInfo × Int) := do
  let err ← lfsDirOpen filesysRootDir
  if err < 0 then return (.errOpenDir, [], err) else
  let (fileList, failed) ← listFilesLoop maxFiles filesysMaxLoopListFiles []
  match failed with
  | some res =>
    let _ ← lfsDirClose
    return (.errReadDir, fileList, res)
  | none =>
    let err ← lfsDirClose
    if err < 0 then return (.errCloseDir, fileList, err) else
    return (.ok, fileList, lfsErrOk)

/-! ## Reading -/

/-- `filesys_open_file_read`. -/
def filesysOpenFileRead (file : FileRef) (fname : List UInt8) :
    Filesys (FilesysError × FileInfo × Int) := do
  let (infoErr, info, lfsErrorCode) ← filesysGetFileInfo fname
  if infoErr ≠ .ok then return (infoErr, info, lfsErrorCode) else
  if info.has fileInfoExpectedCrcValid = false then
    return (.errGetCrcAttr, info, lfsErrorCode) else
  if info.has fileInfoComputedCrcValid = false then
    return (.errCrcCheck, info, lfsErrorCode) else
  if info.has fileInfoCrcMatch = false then return (.errCrcMismatch, info, lfsErrorCode) else
  let openErr ← filesysFileOpen file fname .rdonly
  if openErr < 0 then return (.errOpenFile, info, openErr) else
  return (.ok, info, lfsErrorCode)

/-- `filesys_read_data`: with the bytes that it put into `buffer`, `*bytes_read` of them,
where it succeeds. -/
def filesysReadData (file : FileRef) (size : UInt32) :
    Filesys (FilesysError × Option (List UInt8) × Int) := do
  let res ← lfsFileRead file size
  if res.code < 0 then return (.errReadFile, none, res.code) else
  return (.ok, some res.bytes, lfsErrOk)

/-- `filesys_read_file_seek`, `filesys_read_file_tell` and `filesys_read_file_size`: the
value that the littlefs call returned, or the error `onError`. -/
def reportPosition (onError : FilesysError) (query : Filesys Int) :
    Filesys (FilesysError × Option UInt32 × Int) := do
  let pos ← query
  if pos < 0 then return (onError, none, pos) else
  return (.ok, some (UInt32.ofInt pos), lfsErrOk)

/-- `filesys_read_file_seek`. -/
def filesysReadFileSeek (file : FileRef) (offset whence : Int32) :
    Filesys (FilesysError × Option UInt32 × Int) :=
  reportPosition .errSeekFile (lfsFileSeek file offset whence)

/-- `filesys_read_file_tell`. -/
def filesysReadFileTell (file : FileRef) : Filesys (FilesysError × Option UInt32 × Int) :=
  reportPosition .errSeekFile (lfsFileTell file)

/-- `filesys_read_file_size`. -/
def filesysReadFileSize (file : FileRef) : Filesys (FilesysError × Option UInt32 × Int) :=
  reportPosition .errFileSize (lfsFileSize file)

/-- `filesys_close_file_read`. -/
def filesysCloseFileRead (file : FileRef) : Filesys (FilesysError × Int) := do
  let err ← lfsFileClose file
  if err < 0 then return (.errCloseFile, err) else
  return (.ok, lfsErrOk)

end Samwise
