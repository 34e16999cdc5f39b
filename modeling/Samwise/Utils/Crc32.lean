import Mathlib.Logic.Function.Iterate

/-!
# Samwise — CRC-32

`crc32_continue` and `crc32` of `src/utils/crc32.h`: the reflected CRC-32, a bit at a time.
-/

namespace Samwise

/-- The body of the inner loop. -/
def crc32Bit (crc : UInt32) : UInt32 :=
  let mask := 0 - (crc &&& 1)
  (crc >>> 1) ^^^ (0xEDB88320 &&& mask)

/-- The body of the outer loop: eight bits for one byte. -/
def crc32Byte (crc : UInt32) (byte : UInt8) : UInt32 := crc32Bit^[8] (crc ^^^ byte.toUInt32)

/-- `crc32_continue`. The result is not inverted. -/
def crc32Continue (message : List UInt8) (crc : UInt32) : UInt32 := message.foldl crc32Byte crc

/-- `crc32`. -/
def crc32 (message : List UInt8) : UInt32 := ~~~crc32Continue message 0xFFFFFFFF

@[simp] theorem crc32Continue_nil (crc : UInt32) : crc32Continue [] crc = crc := rfl

/-- A message may be handed over in pieces. -/
theorem crc32Continue_append (m n : List UInt8) (crc : UInt32) :
    crc32Continue (m ++ n) crc = crc32Continue n (crc32Continue m crc) := List.foldl_append

example : crc32 [0x31, 0x32, 0x33, 0x34, 0x35, 0x36, 0x37, 0x38, 0x39] = 0xCBF43926 :=
  by decide +kernel

end Samwise
