import Samwise.Filesys.Filesys
import Samwise.Lib.Run

/-!
# Samwise — runs of filesystem operations

The operations of `filesys.h` as one type, and the machine that runs them. An event is an
operation with the trace of its littlefs calls and what it returned; the machine takes it if
the code, on these responses, makes these calls and returns this, and if littlefs responds
that way. littlefs is a machine of its own over the calls, and a parameter here: `anyLfs`
responds in every way there is, and other modules have machines that say more.
-/

namespace Samwise

open Interaction Memory Run

/-! ## Operations -/

/-- A call of a function of `filesys.h`. -/
inductive FilesysOp where
  | init
  | reformatInit
  | startFileWrite (fnameStr : FnameStr) (fileSize fileCrc : UInt32)
  | writeDataToBuffer (data : Mem) (nBytes offset : UInt16)
  | writeBufferToMram (nBytes : UInt16)
  | computeCrc
  | isCrcCorrect
  | completeFileWrite
  | clearBuffer
  | cancelFileWrite
  | listFiles (maxFiles : UInt16)
  | getFileInfo (fname : List UInt8)
  | openFileRead (file : Nat) (fname : List UInt8)
  | readData (file : Nat) (size : UInt32)
  | readFileSeek (file : Nat) (offset whence : Int32)
  | readFileTell (file : Nat)
  | readFileSize (file : Nat)
  | closeFileRead (file : Nat)

/-- What an operation returns and stores for its caller. -/
structure OpResult where
  error : FilesysError
  lfsErrorCode : Int
  blocksLeft : Option Int := none
  crc : UInt32 := 0
  fileList : List FileInfo := []
  info : Option FileInfo := none
  data : Option (List UInt8) := none
  position : Option UInt32 := none
deriving DecidableEq

/-- The function an operation calls. -/
def FilesysOp.prog (cfg : LfsConfig) : FilesysOp → Filesys OpResult
  | .init => do
    let (error, code) ← filesysInitialize
    return { error, lfsErrorCode := code }
  | .reformatInit => do
    let (error, code) ← filesysReformatInitialize
    return { error, lfsErrorCode := code }
  | .startFileWrite fnameStr fileSize fileCrc => do
    let (error, code, blocksLeft) ← filesysStartFileWrite cfg fnameStr fileSize fileCrc
    return { error, lfsErrorCode := code, blocksLeft }
  | .writeDataToBuffer data nBytes offset => do
    let (error, code) ← filesysWriteDataToBuffer data nBytes offset
    return { error, lfsErrorCode := code }
  | .writeBufferToMram nBytes => do
    let (error, code) ← filesysWriteBufferToMram nBytes
    return { error, lfsErrorCode := code }
  | .computeCrc => do
    let computed ← filesysComputeCrc
    return { error := computed.error, lfsErrorCode := computed.lfsErrorCode, crc := computed.crc }
  | .isCrcCorrect => do
    let (error, code) ← filesysIsCrcCorrect
    return { error, lfsErrorCode := code }
  | .completeFileWrite => do
    let (error, code) ← filesysCompleteFileWrite
    return { error, lfsErrorCode := code }
  | .clearBuffer => do
    filesysClearBuffer
    return { error := .ok, lfsErrorCode := lfsErrOk }
  | .cancelFileWrite => do
    let (error, code) ← filesysCancelFileWrite
    return { error, lfsErrorCode := code }
  | .listFiles maxFiles => do
    let (error, fileList, code) ← filesysListFiles maxFiles
    return { error, lfsErrorCode := code, fileList }
  | .getFileInfo fname => do
    let (error, info, code) ← filesysGetFileInfo fname
    return { error, lfsErrorCode := code, info := some info }
  | .openFileRead file fname => do
    let (error, info, code) ← filesysOpenFileRead (.caller file) fname
    return { error, lfsErrorCode := code, info := some info }
  | .readData file size => do
    let (error, data, code) ← filesysReadData (.caller file) size
    return { error, lfsErrorCode := code, data }
  | .readFileSeek file offset whence => do
    let (error, position, code) ← filesysReadFileSeek (.caller file) offset whence
    return { error, lfsErrorCode := code, position }
  | .readFileTell file => do
    let (error, position, code) ← filesysReadFileTell (.caller file)
    return { error, lfsErrorCode := code, position }
  | .readFileSize file => do
    let (error, position, code) ← filesysReadFileSize (.caller file)
    return { error, lfsErrorCode := code, position }
  | .closeFileRead file => do
    let (error, code) ← filesysCloseFileRead (.caller file)
    return { error, lfsErrorCode := code }

/-! ## The machine -/

/-- An operation that was run. -/
structure FilesysEvent where
  op : FilesysOp
  trace : List LfsEvent
  result : OpResult

/-- The module's variables and the state of littlefs. -/
structure FilesysState (σ : Type) where
  vars : FilesysVars
  lfs : σ

section Machine

variable {σ : Type} (respond : σ → LfsEvent → Option σ) (cfg : LfsConfig)

/-- The event's operation runs, on a littlefs that responds as in the event's trace. -/
def filesysStep (s : FilesysState σ) (e : FilesysEvent) : Option (FilesysState σ) :=
  match (e.op.prog cfg).replay s.vars e.trace with
  | none => none
  | some (result, vars) =>
    if result = e.result then (run respond s.lfs e.trace).map fun lfs => ⟨vars, lfs⟩ else none

theorem filesysStep_eq_some {s s' : FilesysState σ} {e : FilesysEvent} :
    filesysStep respond cfg s e = some s' ↔
      (e.op.prog cfg).replay s.vars e.trace = some (e.result, s'.vars) ∧
        run respond s.lfs e.trace = some s'.lfs := by
  obtain ⟨vars', lfs'⟩ := s'
  rw [filesysStep]
  cases hreplay : (e.op.prog cfg).replay s.vars e.trace with
  | none => simp
  | some p =>
    obtain ⟨result, vars⟩ := p
    by_cases hresult : result = e.result
    · subst hresult
      simp only [if_pos, Option.map_eq_some_iff, FilesysState.mk.injEq, Option.some.injEq,
        Prod.mk.injEq, true_and]
      constructor
      · rintro ⟨lfs, hrun, rfl, rfl⟩
        exact ⟨rfl, hrun⟩
      · rintro ⟨rfl, hrun⟩
        exact ⟨lfs', hrun, rfl, rfl⟩
    · simp [hresult]

end Machine

/-- The littlefs that responds in every way there is. -/
def anyLfs : Unit → LfsEvent → Option Unit := fun _ _ => some ()

/-! ## A sample session -/

/-- The variables before `filesys_initialize`, with what the heap held in the buffer. -/
def FilesysVars.atBoot : FilesysVars where
  isWritingFile := false
  bufferIsDirty := false
  bufferAllocated := true
  buffer := fun i => UInt8.ofNat i
  bufferedFnameStr := .replicate 3 0
  bufferedFileLen := 0
  bufferedFileCrc := 0
  lfsMounted := false

/-- A mount that succeeds. -/
def sampleInit : FilesysEvent :=
  ⟨.init, [⟨LfsCall.mount, (0 : Int)⟩], { error := .ok, lfsErrorCode := 0 }⟩

/-- `"ab"`, as the name of a file. -/
def sampleName : FnameStr := #v[0x61, 0x62, 0]

/-- The start of a file `"ab"`. -/
def sampleStart (fileSize fileCrc : UInt32) : FilesysEvent :=
  ⟨.startFileWrite sampleName fileSize fileCrc,
    [⟨LfsCall.fsSize, (2 : Int)⟩,
      ⟨LfsCall.fileOpencfg .startFileWrite [0x61, 0x62] .creatWronlyTrunc, (0 : Int)⟩,
      ⟨LfsCall.setattr [0x61, 0x62] fileCrc, (0 : Int)⟩,
      ⟨LfsCall.fileClose .startFileWrite, (0 : Int)⟩],
    { error := .ok, lfsErrorCode := 0,
      blocksLeft := some (mramConfig.numBlocks - 2 - mramConfig.numBlocksNeeded fileSize) }⟩

/-- Two bytes written to the buffer. -/
def sampleWrite : FilesysEvent :=
  ⟨.writeDataToBuffer (fun _ => 7) 2 0, [], { error := .ok, lfsErrorCode := 0 }⟩

/-- A flush of `data` that succeeds. -/
def sampleFlush (nBytes : UInt16) (data : List UInt8) : FilesysEvent :=
  ⟨.writeBufferToMram nBytes,
    [⟨LfsCall.fileOpencfg .writeBufferToMram [0x61, 0x62] .wronlyAppend, (0 : Int)⟩,
      ⟨LfsCall.fileWrite .writeBufferToMram data, (data.length : Int)⟩,
      ⟨LfsCall.fileClose .writeBufferToMram, (0 : Int)⟩],
    { error := .ok, lfsErrorCode := 0 }⟩

/-- A flush of the two bytes that fails for want of space, and a cancel within it that returns
`removed`. -/
def sampleFailedFlush (removed : Int) : FilesysEvent :=
  ⟨.writeBufferToMram 2,
    [⟨LfsCall.fileOpencfg .writeBufferToMram [0x61, 0x62] .wronlyAppend, (0 : Int)⟩,
      ⟨LfsCall.fileWrite .writeBufferToMram [7, 7], (-28 : Int)⟩,
      ⟨LfsCall.fileSize .writeBufferToMram, (0 : Int)⟩, ⟨LfsCall.fsSize, (2 : Int)⟩,
      ⟨LfsCall.remove [0x61, 0x62], removed⟩],
    { error := .errWriteMram, lfsErrorCode := -28 }⟩

end Samwise
