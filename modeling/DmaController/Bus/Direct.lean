/-
A platform without a device: reads and writes go straight to memory at
the address they name, words low byte first, and time does nothing.
Where there is no memory, reads give zero and writes are lost.
-/
import DmaController.Bus.Dialogue
import DmaController.Memory.Basic

namespace DmaController.Bus.Direct

def answer : (query : Query) → Memory → query.Reply × Memory
  | .read32 address, m => ((m.readWord address).toOption.getD 0, m)
  | .read8 address, m => (if m.contains address then m.get (m.offsetOf address) else 0, m)
  | .write32 address value, m =>
    ((), if m.Covers address 4 then m.put address (Word.bytes32 value) else m)
  | .write8 address value, m => ((), if m.Covers address 1 then m.put address [value] else m)
  | .delay _, m => ((), m)

/-- Plain memory as a platform. -/
def platform : Platform Memory where
  answer := answer

end DmaController.Bus.Direct
