import DesktopCube.Library.CMemory
import DesktopCube.Library.Decimal

namespace DesktopCube.Display
open CMemory

/-- The driver appends the bytes of one call to the stream of `UART_NUM_1`. -/
def uartWriteBytes (stream bytes : List UInt8) : List UInt8 := stream ++ bytes

/-- The function `strlen` reads the string, so a NULL pointer faults. -/
def uartSendString (string : Option CString) (stream : List UInt8) : Except Fault (List UInt8) :=
  match string with
  | some text => .ok (uartWriteBytes stream text.bytes)
  | none => .error .nullDereference

theorem zero_not_mem_intText (num : Int) : (0 : UInt8) ∉ Decimal.intText num :=
  Decimal.intText_not_mem num 0 (by decide) (by decide)

/-- The base-10 text that `itoa` writes. -/
def itoa (num : Int) : CString := ⟨Decimal.intText num, zero_not_mem_intText num⟩

/-- The size of `num_string`. -/
def numStringSize : Nat := 3

/-- The text and its terminating zero must fit into `num_string`. -/
def uartSendNum (num : Int) (stream : List UInt8) : Except Fault (List UInt8) :=
  if (itoa num).bytes.length + 1 ≤ numStringSize then uartSendString (some (itoa num)) stream
  else .error .outOfBounds

end DesktopCube.Display
