/-
A driver that asks what is on the bus. The emulator packs the numbers of
its controller into the identification and configuration registers, most
of them minus one; a driver unpacks them, and a driver that only reads
leaves the emulator as it was. Where every number fits its field, what
comes out is what went in, whatever controller the driver itself was set
up for.

All of this is for windows that can be addressed. A window that ends with
the address space cannot, and a probe through it panics at its first read.
-/
import Mathlib.Algebra.Ring.Nat
import DmaController.Proofs.Driver.Attempts

namespace DmaController

open Bus (Dialogue Emulator)
open Bus.Dialogue (hold_bind_ok hold_say_bind)
open Register (Field)

-- ============================================================= capacity

/-- The numbers of a controller fit the registers that report them. -/
structure Capability.FitsRegisters (cap : Capability) : Prop where
  channels : 1 ≤ cap.numChannels ∧ cap.numChannels ≤ 8
  bus : cap.maxBurstSize ≤ 7
  periph : cap.numPeriph ≤ 32
  events : 1 ≤ cap.numEvents ∧ cap.numEvents ≤ 32
  revision : cap.revision ≤ 15
  lines : 1 ≤ cap.mfifoLines ∧ cap.mfifoLines ≤ 1024

theorem Variant.fitsRegisters (variant : Variant) :
    variant.capability.FitsRegisters := by
  cases variant <;> constructor <;> decide

namespace Capability

variable {cap : Capability}

/-- The buffer of such a controller is as large as its lines say. -/
theorem mfifoBytes_toNat (fits : cap.FitsRegisters) :
    cap.mfifoBytes.toNat =
      cap.mfifoLines.toNat * 2 ^ cap.maxBurstSize.toNat := by
  have bus : cap.maxBurstSize.toNat ≤ 7 := UInt8.le_iff_toNat_le.1 fits.bus
  have lines : cap.mfifoLines.toNat ≤ 1024 :=
    UInt16.le_iff_toNat_le.1 fits.lines.2
  have width : 2 ^ cap.maxBurstSize.toNat ≤ 2 ^ 7 :=
    Nat.pow_le_pow_right (by decide) bus
  have product := Nat.mul_le_mul lines width
  have shift : cap.maxBurstSize.toNat % 32 = cap.maxBurstSize.toNat :=
    Nat.mod_eq_of_lt (by omega)
  rw [mfifoBytes, UInt32.toNat_mul, UInt32.toNat_shiftLeft,
    UInt8.toNat_toUInt32, UInt16.toNat_toUInt32, shift, UInt32.toNat_one,
    Nat.one_shiftLeft, Nat.mod_eq_of_lt (a := 2 ^ _) (by omega),
    Nat.mod_eq_of_lt (by omega)]

/-- What a controller has to say about itself. -/
def info (cap : Capability) : HardwareInfo where
  revision := cap.revision.toNat
  numChannels := cap.numChannels.toNat
  numPeriph := cap.numPeriph.toNat
  numEvents := cap.numEvents.toNat
  dataWidth := cap.maxBurstSize.toNat
  mfifoBytes := cap.mfifoBytes.toNat
  managerNonSecure := false

end Capability

-- ======================================================= identification

namespace Controller

/-- The registers of the peripheral identification hold its bytes. -/
theorem read_periphId (c : Controller) :
    c.read Register.periphId0 = 0x30 ∧
      c.read (Register.periphId0 + 4) = 0x13 ∧
      c.read (Register.periphId0 + 8) =
        ((4 : UInt8) ||| c.capability.revision <<< 4).toUInt32 ∧
      c.read (Register.periphId0 + 12) = 0 :=
  ⟨rfl, rfl, rfl, rfl⟩

/-- So do those of the component identification. -/
theorem read_pcellId (c : Controller) :
    c.read Register.pcellId0 = 0x0d ∧
      c.read (Register.pcellId0 + 4) = 0xf0 ∧
      c.read (Register.pcellId0 + 8) = 0x05 ∧
      c.read (Register.pcellId0 + 12) = 0xb1 :=
  ⟨rfl, rfl, rfl, rfl⟩

/-- The word the peripheral identification makes. -/
def identity (c : Controller) : UInt32 :=
  Word.ofBytes32 0x30 0x13 ((4 : UInt8) ||| c.capability.revision <<< 4) 0

/-- The revision has the upper half of its byte to itself. -/
theorem revision_byte {revision : UInt8} (h : revision ≤ 15) :
    ((4 : UInt8) ||| revision <<< 4).toNat = 4 + 16 * revision.toNat := by
  have small : revision.toNat ≤ 15 := UInt8.le_iff_toNat_le.1 h
  have digit : ∀ n : Fin 16,
      ((4 : UInt8) ||| UInt8.ofNat n <<< 4).toNat = 4 + 16 * n.val := by
    decide
  have here := digit ⟨revision.toNat, by omega⟩
  rwa [UInt8.ofNat_toNat] at here

variable {c : Controller}

theorem identity_toNat (fits : c.capability.FitsRegisters) :
    c.identity.toNat =
      Register.periphId.toNat + 2 ^ 20 * c.capability.revision.toNat := by
  have small : c.capability.revision.toNat ≤ 15 :=
    UInt8.le_iff_toNat_le.1 fits.revision
  rw [identity, Word.ofBytes32, revision_byte fits.revision,
    UInt32.toNat_ofNat']
  change (0x30 + 0x13 <<< 8 + _ <<< 16 + 0 <<< 24) % 2 ^ 32 = 0x41330 + _
  simp only [Nat.shiftLeft_eq]
  omega

/-- The identification is known whatever the revision. -/
theorem identity_known (fits : c.capability.FitsRegisters) :
    c.identity &&& Register.periphIdMask = Register.periphId := by
  apply UInt32.toNat_inj.1
  rw [UInt32.toNat_and, identity_toNat fits]
  change (0x41330 + _) &&& (2 ^ 20 - 1) = 0x41330
  rw [Nat.and_two_pow_sub_one_eq_mod, Nat.add_mul_mod_self_left,
    Nat.mod_eq_of_lt (by decide)]

theorem identity_revision (fits : c.capability.FitsRegisters) :
    (c.identity.toNat >>> 20) % 16 = c.capability.revision.toNat := by
  have small : c.capability.revision.toNat ≤ 15 :=
    UInt8.le_iff_toNat_le.1 fits.revision
  have bare : Register.periphId.toNat = 0x41330 := rfl
  rw [identity_toNat fits, Nat.shiftRight_eq_div_pow, bare]
  omega

-- ======================================================== configuration

variable {cap : Capability}

open Register.Configuration in
/-- The fields of the configuration register. -/
theorem cr0_fields (cap : Capability) :
    hasPeriph.get cap.cr0 = (decide (cap.numPeriph ≠ 0)).toNat % 2 ∧
      managerNonSecure.get cap.cr0 = 0 ∧
      numChannels.get cap.cr0 = (cap.numChannels - 1).toNat % 8 ∧
      numPeriph.get cap.cr0 = (cap.numPeriph.toNat - 1) % 32 ∧
      numEvents.get cap.cr0 = (cap.numEvents - 1).toNat % 32 := by
  have apart {f g : Field} (h : f.Apart g) (value : Nat) (word : UInt32) :
      f.get (g.set value word) = f.get word :=
    Field.get_set_of_apart h value word
  refine ⟨?_, ?_, ?_, ?_, ?_⟩ <;>
    simp (disch := decide) only [Capability.cr0, Field.setFlag, apart,
      Field.get_set_self] <;> rfl

open Register.DataConfiguration in
/-- The fields of the data configuration register. -/
theorem crd_fields (cap : Capability) :
    dataWidth.get cap.crd = cap.maxBurstSize.toNat % 8 ∧
      bufferDepth.get cap.crd = (cap.mfifoLines - 1).toNat % 1024 := by
  have apart {f g : Field} (h : f.Apart g) (value : Nat) (word : UInt32) :
      f.get (g.set value word) = f.get word :=
    Field.get_set_of_apart h value word
  refine ⟨?_, ?_⟩ <;>
    simp (disch := decide) only [Capability.crd, apart, Field.get_set_self] <;> rfl

open Register.Configuration in
/-- The counts that are stored minus one, and one more again. -/
theorem cr0_counts (fits : cap.FitsRegisters) :
    numChannels.get cap.cr0 + 1 = cap.numChannels.toNat ∧
      numEvents.get cap.cr0 + 1 = cap.numEvents.toNat := by
  obtain ⟨-, -, channels, -, events⟩ := cr0_fields cap
  have one : (1 : UInt8).toNat = 1 := rfl
  have few := UInt8.le_iff_toNat_le.1 fits.channels.2
  have some := UInt8.le_iff_toNat_le.1 fits.channels.1
  have fewEvents := UInt8.le_iff_toNat_le.1 fits.events.2
  have someEvents := UInt8.le_iff_toNat_le.1 fits.events.1
  rw [channels, events, UInt8.toNat_sub_of_le _ _ fits.channels.1,
    UInt8.toNat_sub_of_le _ _ fits.events.1]
  change _ ≤ 8 at few
  change _ ≤ 32 at fewEvents
  omega

open Register.Configuration in
/-- The number of peripherals, which can be zero. -/
theorem cr0_periph (fits : cap.FitsRegisters) :
    (if hasPeriph.isSet cap.cr0 then numPeriph.get cap.cr0 + 1 else 0) =
      cap.numPeriph.toNat := by
  obtain ⟨flag, -, -, count, -⟩ := cr0_fields cap
  have few : cap.numPeriph.toNat ≤ 32 :=
    UInt8.le_iff_toNat_le.1 fits.periph
  by_cases none : cap.numPeriph = 0
  · have unset : hasPeriph.isSet cap.cr0 = false := by
      simp [Field.isSet, flag, none]
    rw [unset, none]
    rfl
  · have set : hasPeriph.isSet cap.cr0 = true := by
      simp [Field.isSet, flag, none]
    have some : cap.numPeriph.toNat ≠ 0 :=
      fun h => none (UInt8.toNat_inj.1 h)
    rw [if_pos set, count]
    omega

open Register.DataConfiguration in
/-- The width of the bus and the depth of the buffer. -/
theorem crd_buffer (fits : cap.FitsRegisters) :
    dataWidth.get cap.crd = cap.maxBurstSize.toNat ∧
      bufferDepth.get cap.crd + 1 = cap.mfifoLines.toNat := by
  obtain ⟨width, depth⟩ := crd_fields cap
  have one : (1 : UInt16).toNat = 1 := rfl
  have narrow : cap.maxBurstSize.toNat ≤ 7 :=
    UInt8.le_iff_toNat_le.1 fits.bus
  have some := UInt16.le_iff_toNat_le.1 fits.lines.1
  have few : cap.mfifoLines.toNat ≤ 1024 :=
    UInt16.le_iff_toNat_le.1 fits.lines.2
  rw [width, depth, UInt16.toNat_sub_of_le _ _ fits.lines.1]
  omega

/-- The registers say what the controller is. -/
theorem info_eq (fits : c.capability.FitsRegisters) :
    HardwareInfo.ofRegisters c.identity c.capability.cr0 c.capability.crd =
      c.capability.info := by
  obtain ⟨channels, events⟩ := cr0_counts fits
  obtain ⟨width, depth⟩ := crd_buffer fits
  have manager : Register.Configuration.managerNonSecure.isSet c.capability.cr0 =
      false := by
    rw [Field.isSet, (cr0_fields c.capability).2.1]
    rfl
  rw [HardwareInfo.ofRegisters, Capability.info, identity_revision fits,
    channels, events, cr0_periph fits, width, depth, manager,
    Capability.mfifoBytes_toNat fits, Nat.one_shiftLeft]

end Controller

namespace Driver

variable {d : Driver} {e : Emulator}

/-- The first byte of a register is read at the register's place. -/
theorem hold_read8 (h : e.Answers d) {register : UInt64}
    (inside : register < Register.windowSize) (aligned : register &&& 3 = 0) :
    (Dialogue.read8 (d.registers + register) : Drive UInt8).hold
        Emulator.platform e =
      (.ok (e.controller.read register).toUInt8, e) := by
  show (Except.ok (e.read8 (d.registers + register)), e) = _
  rw [Emulator.read8, h register inside]
  simp [aligned]

/-- An identification is read off four registers. -/
theorem hold_readId (h : e.Answers d) {first : UInt64}
    (inside : first < Register.windowSize ∧ first + 4 < Register.windowSize ∧
      first + 8 < Register.windowSize ∧ first + 12 < Register.windowSize)
    (aligned : first &&& 3 = 0 ∧ (first + 4) &&& 3 = 0 ∧
      (first + 8) &&& 3 = 0 ∧ (first + 12) &&& 3 = 0) :
    (d.readId first).hold Emulator.platform e =
      (.ok (Word.ofBytes32 (e.controller.read first).toUInt8
        (e.controller.read (first + 4)).toUInt8
        (e.controller.read (first + 8)).toUInt8
        (e.controller.read (first + 12)).toUInt8), e) := by
  obtain ⟨in0, in4, in8, in12⟩ := inside
  obtain ⟨al0, al4, al8, al12⟩ := aligned
  simp only [readId, UInt64.add_assoc]
  rw [hold_bind_ok _ (hold_read8 h in0 al0), hold_bind_ok _ (hold_read8 h in4 al4),
    hold_bind_ok _ (hold_read8 h in8 al8), hold_bind_ok _ (hold_read8 h in12 al12)]
  rfl

/-- A driver that is answered learns what the controller is. -/
theorem hold_probe (h : e.Answers d)
    (fits : e.controller.capability.FitsRegisters) :
    d.probe.hold Emulator.platform e =
      (.ok e.controller.capability.info, e) := by
  obtain ⟨p0, p1, p2, p3⟩ := e.controller.read_periphId
  obtain ⟨q0, q1, q2, q3⟩ := e.controller.read_pcellId
  have periph : (d.readId Register.periphId0).hold Emulator.platform e =
      (.ok e.controller.identity, e) := by
    rw [hold_readId h (by decide) (by decide), p0, p1, p2, p3,
      UInt8.toUInt8_toUInt32]
    rfl
  have pcell : (d.readId Register.pcellId0).hold Emulator.platform e =
      (.ok Register.pcellId, e) := by
    rw [hold_readId h (by decide) (by decide), q0, q1, q2, q3]
    rfl
  have cr0 : (d.read Register.cr0).hold Emulator.platform e =
      (.ok e.controller.capability.cr0, e) := hold_read h (by decide)
  have crd : (d.read Register.crd).hold Emulator.platform e =
      (.ok e.controller.capability.crd, e) := hold_read h (by decide)
  have known : ¬ (e.controller.identity &&& Register.periphIdMask ≠
      Register.periphId) :=
    fun unknown => unknown (Controller.identity_known fits)
  rw [probe, hold_bind_ok _ periph, if_neg known, hold_bind_ok _ pcell,
    if_neg (by decide), hold_bind_ok _ cr0, hold_bind_ok _ crd]
  simp only [Controller.info_eq fits]
  split <;> rfl

end Driver

/-- A driver recognises the controller it is set up for. -/
theorem DriverConfig.probes {config : DriverConfig} {e : Emulator}
    (h : e.Answers config.driver)
    (same : e.controller.capability = config.variant.capability) :
    ∃ info, config.driver.probe.attempt (config.driver.on Emulator.platform)
      e = (some (.ok info), e) :=
  ⟨_, h.attempt Driver.asks_probe
    (Driver.hold_probe h (same ▸ config.variant.fitsRegisters))⟩

-- ============================================================ read back

/-- A driver whose registers start where a register window of the
emulator does, one that can be addressed, learns from a probe exactly what
the controller is, and changes nothing: the driver may be set up for
another controller, and for the other window. -/
theorem Driver.probe_reads_back {d : Driver} {e : Emulator}
    {security : Security}
    (fits : e.controller.capability.FitsRegisters)
    (apart : e.controller.capability.WindowsApart)
    (start : e.base + e.controller.capability.window security = d.registers)
    (ends : e.controller.capability.Addressable e.base security) :
    d.probe.attempt (d.on Emulator.platform) e =
        (some (.ok
          { revision := e.controller.capability.revision.toNat
            numChannels := e.controller.capability.numChannels.toNat
            numPeriph := e.controller.capability.numPeriph.toNat
            numEvents := e.controller.capability.numEvents.toNat
            dataWidth := e.controller.capability.maxBurstSize.toNat
            mfifoBytes := e.controller.capability.mfifoLines.toNat *
              2 ^ e.controller.capability.maxBurstSize.toNat
            managerNonSecure := false }), e) ∧
      e.controller.capability.mfifoBytes.toNat =
        e.controller.capability.mfifoLines.toNat *
          2 ^ e.controller.capability.maxBurstSize.toNat := by
  have capacity := Capability.mfifoBytes_toNat fits
  -- A probe only reads, so the window the driver takes it for is no matter.
  have answers : e.Answers { d with security := security } :=
    e.answers_of_start start apart ends
  have probes : d.probe.attempt (d.on Emulator.platform) e =
      (some (.ok e.controller.capability.info), e) :=
    answers.attempt Driver.asks_probe
      (hold_probe (d := { d with security := security }) answers fits)
  refine ⟨?_, capacity⟩
  rw [probes, Capability.info, capacity]

/-- A small controller without peripherals, its windows far apart. -/
def smallController : Capability where
  name := "small"
  numChannels := 1
  maxBurstSize := 7
  numPeriph := 0
  numEvents := 1
  secureOffset := 0x8000
  nonSecureOffset := 0x10
  revision := 15
  mfifoLines := 1024

/-- A driver of another controller, set up for the secure window, finds
it through the other one. -/
theorem Driver.probe_reads_back_other_window :
    smallController.FitsRegisters ∧ smallController.WindowsApart ∧
      (0x4000 : UInt64) + smallController.window .nonSecure = 0x4010 ∧
      smallController.Addressable 0x4000 .nonSecure ∧
      (Driver.mk .pl330 0x4010 .secure 100 100).probe.attempt
          ((Driver.mk .pl330 0x4010 .secure 100 100).on Emulator.platform)
          (.new smallController 0x4000 (.zeroed 0 0x100)) =
        (some (.ok ⟨15, 1, 0, 1, 7, 0x20000, false⟩),
          .new smallController 0x4000 (.zeroed 0 0x100)) := by
  have fits : smallController.FitsRegisters := by
    constructor <;> decide
  have apart : smallController.WindowsApart :=
    Capability.windowsApart_of_le (by decide)
  have ends : smallController.Addressable 0x4000 .nonSecure := by
    decide
  have start : (0x4000 : UInt64) + smallController.window .nonSecure =
      (Driver.mk .pl330 0x4010 .secure 100 100).registers := rfl
  exact ⟨fits, apart, start, ends,
    (probe_reads_back (e := .new smallController 0x4000 (.zeroed 0 0x100))
      fits apart start ends).1⟩

/-- That both windows exist is not enough: a probe through one that ends
with the address space panics. -/
theorem Driver.probe_stopped_at_the_end :
    ¬ ∀ (d : Driver) (e : Emulator) (security : Security),
      e.controller.capability.FitsRegisters →
      e.controller.capability.WindowsApart →
      e.controller.capability.WindowsExist e.base →
      e.base + e.controller.capability.window security = d.registers →
      ∃ info, d.probe.attempt (d.on Emulator.platform) e =
        (some (.ok info), e) := by
  intro reads
  obtain ⟨info, probes⟩ := reads
    (DriverConfig.driver ⟨.pl330, 0xffffffffffffe000, .nonSecure, 100, 100⟩)
    (.new .pl330 0xffffffffffffe000 (.zeroed 0 0x100)) .nonSecure
    Variant.pl330.fitsRegisters Variant.pl330.windowsApart (by decide) rfl
  have stopped : ((DriverConfig.driver
      ⟨.pl330, 0xffffffffffffe000, .nonSecure, 100, 100⟩).probe.attempt
        ((DriverConfig.driver
          ⟨.pl330, 0xffffffffffffe000, .nonSecure, 100, 100⟩).on
            Emulator.platform)
        (.new .pl330 0xffffffffffffe000 (.zeroed 0 0x100))).1 = none := by
    rfl
  cases stopped.symm.trans (congrArg Prod.fst probes)

end DmaController
