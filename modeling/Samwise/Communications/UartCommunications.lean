import Samwise.Lib.RingBuffer
import Samwise.Communications.Cobs

/-!
# Samwise — frames on a UART

The receiving half of `src/drivers/communications/uart_communications.c`: the interrupt
handler fills a ring buffer of 256 bytes, and the application takes from it what stands up to
the first zero byte.
-/

namespace Samwise

/-- `UART_RX_BUFFER_SIZE`. -/
def uartRxBufferSize : Nat := 256

/-- `rx_buffer`, `rx_head` and `rx_tail` of a UART. -/
abbrev UartRx := RingBuffer UInt8 uartRxBufferSize

/-- `uart_rx_isr`, run for the bytes that are readable. -/
def uartRxIsr (rx : UartRx) (bytes : List UInt8) : UartRx := rx.pushAll bytes

/-- `uart_comms_packet_ready`. -/
def uartCommsPacketReady (rx : UartRx) : Nat :=
  match (List.range rx.count).find? (fun offset => rx.peek offset == 0) with
  | some offset => offset + 1
  | none => 0

/-- `uart_comms_get_packet`: the bytes it puts into the buffer. -/
def uartCommsGetPacket (rx : UartRx) (maxLength : Nat) : List UInt8 × UartRx :=
  let packetLength := uartCommsPacketReady rx
  if packetLength = 0 then ([], rx)
  else if packetLength > maxLength then ([], (rx.popAll packetLength).2)
  else rx.popAll packetLength

variable {rx : UartRx} {f rest : List UInt8}

/-- The first packet ends with the first zero byte. -/
theorem uartCommsPacketReady_eq (hf : 0 ∉ f) (h : rx.contents = f ++ 0 :: rest) :
    uartCommsPacketReady rx = f.length + 1 := by
  have hlen : rx.count = f.length + (rest.length + 1) := by
    rw [← rx.length_contents, h, List.length_append, List.length_cons]
  have hpeek : ∀ i (hi : i < rx.count), rx.peek i = (f ++ 0 :: rest).getD i 0 := by
    intro i hi
    rw [← h, RingBuffer.contents]
    simp [hi]
  have hfind : (List.range rx.count).find? (fun offset => rx.peek offset == 0)
      = some f.length := by
    rw [List.find?_range_eq_some]
    refine ⟨?_, ?_, ?_⟩
    · rw [hpeek _ (by omega)]
      simp
    · exact List.mem_range.mpr (by omega)
    · intro j hj
      rw [hpeek _ (by omega)]
      have hj' : (f ++ 0 :: rest).getD j 0 = f[j] := by
        simp [List.getD_eq_getElem?_getD, List.getElem?_append_left hj, hj]
      rw [hj']
      have hne : f[j] ≠ 0 := fun h0 => hf (h0 ▸ List.getElem_mem hj)
      simpa using hne
  rw [uartCommsPacketReady, hfind]

/-- It is taken out with its zero byte. -/
theorem uartCommsGetPacket_spec (hf : 0 ∉ f) (h : rx.contents = f ++ 0 :: rest) {maxLength : Nat}
    (hmax : f.length < maxLength) :
    (uartCommsGetPacket rx maxLength).1 = f ++ [0] ∧
      (uartCommsGetPacket rx maxLength).2.contents = rest := by
  have hready := uartCommsPacketReady_eq hf h
  have hlen : rx.count = f.length + (rest.length + 1) := by
    rw [← rx.length_contents, h, List.length_append, List.length_cons]
  obtain ⟨htaken, hleft⟩ := rx.popAll_spec (n := f.length + 1) (by omega)
  have hsplit : rx.contents = (f ++ [0]) ++ rest := by
    rw [h, List.append_assoc, List.singleton_append]
  have hsize : f.length + 1 = (f ++ [0]).length := by
    rw [List.length_append, List.length_singleton]
  unfold uartCommsGetPacket
  simp only [hready]
  rw [if_neg (Nat.succ_ne_zero _), if_neg (by omega)]
  constructor
  · rw [htaken, hsplit, hsize, List.take_left]
  · rw [hleft, hsplit, hsize, List.drop_left]

/-- A frame that arrives in an empty buffer is in it, or of a longer one as much of its end
as fits. -/
theorem contents_uartRxIsr (h : rx.contents = []) (f : List UInt8) :
    (uartRxIsr rx (f ++ [0])).contents = f.rtake 254 ++ [0] := by
  rw [uartRxIsr, RingBuffer.contents_pushAll, h, List.nil_append,
    show uartRxBufferSize - 1 = 254 + 1 from rfl, List.rtake_concat_succ]

end Samwise
