/-
A platform that plays back what it was told. Each address has a list of
values for the reads to come; the last one stays. Writes and delays
change nothing, so whatever a driver does, it meets exactly the answers
that were written down.
-/
import DmaController.Bus.Dialogue

namespace DmaController.Bus

/-- The values to come at each address. -/
abbrev Script := List (UInt64 × List UInt32)

namespace Script

/-- The next value at an address, and the script behind it. An address
without values reads zero. -/
def next (address : UInt64) : Script → UInt32 × Script
  | [] => (0, [])
  | (place, values) :: rest =>
    if place = address then
      match values with
      | [] => (0, (place, values) :: rest)
      | [last] => (last, (place, [last]) :: rest)
      | value :: later => (value, (place, later) :: rest)
    else
      let (value, rest) := next address rest
      (value, (place, values) :: rest)

def answer : (query : Query) → Script → query.Reply × Script
  | .read32 address, script => script.next address
  | .read8 address, script =>
    let (value, script) := script.next address
    (value.toUInt8, script)
  | .write32 .., script => ((), script)
  | .write8 .., script => ((), script)
  | .delay _, script => ((), script)

/-- The script as a platform. -/
def platform : Platform Script where
  answer := answer

end Script

end DmaController.Bus
