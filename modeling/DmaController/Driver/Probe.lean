/-
Learning what is on the bus. A driver reads the identification registers
byte by byte, and then how many of everything the controller has. The
counts are stored minus one, and the number of peripherals has a flag of
its own because it can be zero.
-/
import DmaController.Driver.Basic

namespace DmaController

open Bus (Dialogue)

/-- What a controller says about itself. -/
structure HardwareInfo where
  revision : Nat
  numChannels : Nat
  numPeriph : Nat
  numEvents : Nat
  /-- Base-two logarithm of the data bus width in bytes. -/
  dataWidth : Nat
  mfifoBytes : Nat
  managerNonSecure : Bool
  deriving DecidableEq

namespace HardwareInfo

open Register in
/-- What the identification and the two configuration registers say. -/
def ofRegisters (id cr0 crd : UInt32) : HardwareInfo where
  revision := (id.toNat >>> 20) % 16
  numChannels := Configuration.numChannels.get cr0 + 1
  numPeriph :=
    if Configuration.hasPeriph.isSet cr0 then Configuration.numPeriph.get cr0 + 1 else 0
  numEvents := Configuration.numEvents.get cr0 + 1
  dataWidth := DataConfiguration.dataWidth.get crd
  mfifoBytes :=
    (DataConfiguration.bufferDepth.get crd + 1) * (1 <<< DataConfiguration.dataWidth.get crd)
  managerNonSecure := Configuration.managerNonSecure.isSet cr0

/-- The information as a record, numbers in hexadecimal without a
mark. -/
def text (info : HardwareInfo) : String :=
  "HwInfo \x7b " ++ ", ".intercalate [
    s!"revision: {Text.hexDigits info.revision}",
    s!"num_channels: {Text.hexDigits info.numChannels}",
    s!"num_periph: {Text.hexDigits info.numPeriph}",
    s!"num_events: {Text.hexDigits info.numEvents}",
    s!"data_width: {Text.hexDigits info.dataWidth}",
    s!"mfifo_bytes: {Text.hexDigits info.mfifoBytes}",
    s!"manager_ns: {info.managerNonSecure}"] ++ " \x7d"

end HardwareInfo

namespace Driver

/-- Reads an identification from four registers with one byte each. -/
def readId (d : Driver) (first : UInt64) : Drive UInt32 := do
  let b0 ← Dialogue.read8 (d.registers + first)
  let b1 ← Dialogue.read8 (d.registers + first + 4)
  let b2 ← Dialogue.read8 (d.registers + first + 8)
  let b3 ← Dialogue.read8 (d.registers + first + 12)
  return Word.ofBytes32 b0 b1 b2 b3

/-- Identifies the controller and reads its configuration. A controller
that differs from what the driver expects is only worth a warning. -/
def probe (d : Driver) : Drive HardwareInfo := do
  let name := d.capability.name
  let id ← d.readId Register.periphId0
  if id &&& Register.periphIdMask ≠ Register.periphId then
    Dialogue.say (.error s!"{name}: unknown peripheral id {Text.hex id.toNat}")
    Dialogue.fail (.unknownPeriphId id)
  else
    let component ← d.readId Register.pcellId0
    if component ≠ Register.pcellId then
      Dialogue.fail (.unknownComponentId component)
    else
      let cr0 ← d.read Register.cr0
      let crd ← d.read Register.crd
      let info := HardwareInfo.ofRegisters id cr0 crd
      if info.numChannels ≠ d.capability.numChannels.toNat ∨
          info.dataWidth ≠ d.capability.maxBurstSize.toNat then
        Dialogue.say (.warn (s!"{name}: hardware reports {info.numChannels} channels and a " ++
          s!"2^{info.dataWidth}-byte bus"))
      Dialogue.say (.info s!"{name}: r{info.revision}, {info.text}")
      return info

end Driver

end DmaController
