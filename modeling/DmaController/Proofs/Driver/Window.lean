/-
A driver and the emulator it drives. A driver addresses the register
window of its security. The emulator finds out whose an address is with
sums: it adds up the bounds of the secure window, and those of the other
one only for an address that is not in the first. As long as the bounds
on the way to the driver's window are addresses (`Addressable`), the
emulator answers there with its registers. Otherwise every access of the
driver panics, whichever register it is for (`stops_of_not_addressable`).

Through a window that is answered a read gives the register and changes
nothing, and a write goes to the controller with the security of the
window.
-/
import DmaController.Bus.Emulator
import DmaController.Proofs.Bus.Dialogue

namespace DmaController

open Bus (Dialogue Emulator)

-- =============================================================== bounds

/-- Both bounds of a register window are addresses, the one behind its
last byte too. -/
def Capability.WindowEnds (cap : Capability) (base : UInt64)
    (security : Security) : Prop :=
  base.toNat + (cap.window security).toNat + Register.windowSize.toNat <
    UInt64.size

instance (cap : Capability) (base : UInt64) (security : Security) :
    Decidable (cap.WindowEnds base security) :=
  inferInstanceAs (Decidable (_ < _))

/-- A register window can be told from the rest of the bus: the secure
window is looked at before any other. -/
def Capability.Addressable (cap : Capability) (base : UInt64)
    (security : Security) : Prop :=
  cap.WindowEnds base .secure ∧ cap.WindowEnds base security

instance (cap : Capability) (base : UInt64) (security : Security) :
    Decidable (cap.Addressable base security) :=
  inferInstanceAs (Decidable (_ ∧ _))

/-- The register window of a driver can be. -/
def DriverConfig.Addressable (config : DriverConfig) : Prop :=
  config.variant.capability.Addressable config.base config.security

instance (config : DriverConfig) : Decidable config.Addressable :=
  inferInstanceAs (Decidable (Capability.Addressable ..))

/-- Every place in both register windows has an address. This is not
enough to address them: a window may end with the address space. -/
def Capability.WindowsExist (cap : Capability) (base : UInt64) : Prop :=
  base.toNat + cap.secureOffset.toNat + Register.windowSize.toNat ≤
      UInt64.size ∧
    base.toNat + cap.nonSecureOffset.toNat + Register.windowSize.toNat ≤
      UInt64.size

instance (cap : Capability) (base : UInt64) :
    Decidable (cap.WindowsExist base) :=
  inferInstanceAs (Decidable (_ ∧ _))

/-- The emulator answers a driver with its registers. -/
def Bus.Emulator.Answers (e : Emulator) (d : Driver) : Prop :=
  ∀ offset < Register.windowSize,
    e.window? (d.registers + offset) = some (d.security, offset)

namespace Bus.Emulator

variable {e : Emulator} {security : Security} {address : UInt64}

theorem start_lt
    (ends : e.controller.capability.WindowEnds e.base security) :
    e.base.toNat + (e.controller.capability.window security).toNat <
      UInt64.size :=
  Nat.lt_of_le_of_lt (Nat.le_add_right ..) ends

/-- The start of a window with bounds is where it should be. -/
theorem toNat_start
    (ends : e.controller.capability.WindowEnds e.base security) :
    (e.base + e.controller.capability.window security).toNat =
      e.base.toNat + (e.controller.capability.window security).toNat :=
  (UInt64.toNat_add ..).trans (Nat.mod_eq_of_lt (start_lt ends))

theorem place?_of_ends
    (ends : e.controller.capability.WindowEnds e.base security)
    (address : UInt64) :
    e.place? address security =
      some (if e.base + e.controller.capability.window security ≤ address ∧
          address < e.base + e.controller.capability.window security +
            Register.windowSize then
        some (security,
          address - (e.base + e.controller.capability.window security))
      else none) := by
  have begins : Word.add64? e.base (e.controller.capability.window security) =
      some (e.base + e.controller.capability.window security) :=
    if_pos (start_lt ends)
  have stops : Word.add64? (e.base + e.controller.capability.window security)
      Register.windowSize =
        some (e.base + e.controller.capability.window security +
          Register.windowSize) :=
    if_pos ((toNat_start ends).symm ▸ ends)
  simp only [place?, Capability.place?, begins, stops, Option.bind_eq_bind, Option.bind_some]
  rfl

theorem place?_of_not_ends
    (beyond : ¬ e.controller.capability.WindowEnds e.base security)
    (address : UInt64) : e.place? address security = none := by
  unfold Capability.WindowEnds at beyond
  unfold place? Capability.place?
  by_cases start : e.base.toNat +
      (e.controller.capability.window security).toNat < UInt64.size
  · obtain ⟨first, begins, place⟩ := Word.add64?_of_lt start
    have stop : Word.add64? first Register.windowSize = none :=
      Word.add64?_of_not_lt (by omega)
    simp only [begins, stop, Option.bind_eq_bind, Option.bind_some,
      Option.bind_none]
  · simp only [Word.add64?_of_not_lt start, Option.bind_eq_bind,
      Option.bind_none]

/-- An address in the secure window is found there at once. -/
theorem lookup?_of_secure {place : Security × UInt64}
    (found : e.place? address .secure = some (some place)) :
    e.lookup? address = some (some place) := by
  unfold place? at found
  simp only [lookup?, Capability.lookup?, found, Option.bind_eq_bind,
    Option.bind_some]
  rfl

/-- Behind it, the other window decides. -/
theorem lookup?_of_not_secure (missed : e.place? address .secure = some none) :
    e.lookup? address = e.place? address .nonSecure := by
  unfold place? at missed ⊢
  simp only [lookup?, Capability.lookup?, missed, Option.bind_eq_bind,
    Option.bind_some]

theorem lookup?_of_none (lost : e.place? address .secure = none) :
    e.lookup? address = none := by
  unfold place? at lost
  simp only [lookup?, Capability.lookup?, lost, Option.bind_eq_bind,
    Option.bind_none]

/-- Whose an address is depends on where the emulator is and what kind of
controller it has. -/
theorem Answers.of_same {d : Driver} {e' : Emulator} (h : e.Answers d)
    (base : e'.base = e.base)
    (same : e'.controller.capability = e.controller.capability) :
    e'.Answers d := by
  intro offset inside
  rw [← h offset inside]
  simp only [window?, lookup?, base, same]

/-- What a window was found for can be looked up. -/
theorem window?_eq_some {place : Security × UInt64} :
    e.window? address = some place ↔ e.lookup? address = some (some place) :=
  Option.join_eq_some_iff

end Bus.Emulator

theorem window_place {start offset : UInt64}
    (ends : start.toNat + Register.windowSize.toNat < UInt64.size)
    (inside : offset < Register.windowSize) :
    start ≤ start + offset ∧ start + offset < start + Register.windowSize := by
  have inside : offset.toNat < Register.windowSize.toNat :=
    UInt64.lt_iff_toNat_lt.1 inside
  have size : UInt64.size = 2 ^ 64 := rfl
  rw [UInt64.le_iff_toNat_le, UInt64.lt_iff_toNat_lt, UInt64.toNat_add,
    UInt64.toNat_add]
  omega

/-- An address in a window has its place there. -/
theorem sub_lt_of_window {start address : UInt64}
    (inside : start ≤ address ∧ address < start + Register.windowSize) :
    address - start < Register.windowSize := by
  have above : start.toNat ≤ address.toNat := UInt64.le_iff_toNat_le.1 inside.1
  have below := UInt64.lt_iff_toNat_lt.1 inside.2
  rw [UInt64.toNat_add] at below
  rw [UInt64.lt_iff_toNat_lt, UInt64.toNat_sub_of_le _ _ inside.1]
  omega

-- ============================================================== windows

/-- The two register windows have no place in common. -/
def Capability.WindowsApart (cap : Capability) : Prop :=
  ∀ i < Register.windowSize, ∀ j < Register.windowSize,
    cap.window .secure + i ≠ cap.window .nonSecure + j

/-- Windows that stand one after the other have none. -/
theorem Capability.windowsApart_of_le {cap : Capability}
    (ordered : cap.secureOffset.toNat + Register.windowSize.toNat ≤
        cap.nonSecureOffset.toNat ∧
          cap.nonSecureOffset.toNat + Register.windowSize.toNat ≤ UInt64.size ∨
      cap.nonSecureOffset.toNat + Register.windowSize.toNat ≤
        cap.secureOffset.toNat ∧
          cap.secureOffset.toNat + Register.windowSize.toNat ≤ UInt64.size) :
    cap.WindowsApart := by
  intro i hi j hj same
  have hi : i.toNat < Register.windowSize.toNat := UInt64.lt_iff_toNat_lt.1 hi
  have hj : j.toNat < Register.windowSize.toNat := UInt64.lt_iff_toNat_lt.1 hj
  have size : UInt64.size = 2 ^ 64 := rfl
  have place := congrArg UInt64.toNat same
  rw [UInt64.toNat_add, UInt64.toNat_add, window, window] at place
  omega

theorem Variant.windowsApart (variant : Variant) :
    variant.capability.WindowsApart := by
  apply Capability.windowsApart_of_le
  cases variant <;> decide

namespace Bus.Emulator

variable {e : Emulator} {security : Security}

/-- A place in the other window is not one in the secure window. -/
theorem not_secure_of_apart (apart : e.controller.capability.WindowsApart)
    {offset : UInt64} (inside : offset < Register.windowSize) :
    ¬ (e.base + e.controller.capability.window .secure ≤
          e.base + e.controller.capability.window .nonSecure + offset ∧
        e.base + e.controller.capability.window .nonSecure + offset <
          e.base + e.controller.capability.window .secure +
            Register.windowSize) := by
  intro within
  refine apart _ (sub_lt_of_window within) _ inside ?_
  grind

/-- A window that can be addressed is found at all its places. -/
theorem window?_of_addressable
    (apart : e.controller.capability.WindowsApart)
    (ends : e.controller.capability.Addressable e.base security)
    {offset : UInt64} (inside : offset < Register.windowSize) :
    e.window? (e.base + e.controller.capability.window security + offset) =
      some (security, offset) := by
  obtain ⟨first, own⟩ := ends
  have room := own
  unfold Capability.WindowEnds at room
  have place := window_place (toNat_start own ▸ room) inside
  have back (start : UInt64) : start + offset - start = offset := by
    rw [UInt64.add_comm, UInt64.add_sub_cancel]
  rw [window?_eq_some]
  cases security with
  | secure =>
      apply lookup?_of_secure
      rw [place?_of_ends first, if_pos place, back]
  | nonSecure =>
      rw [lookup?_of_not_secure, place?_of_ends own, if_pos place, back]
      rw [place?_of_ends first, if_neg (not_secure_of_apart apart inside)]

/-- A driver whose registers start where a window of the emulator does is
answered there, whichever window it takes it for. -/
theorem answers_of_start {d : Driver}
    (start : e.base + e.controller.capability.window security = d.registers)
    (apart : e.controller.capability.WindowsApart)
    (ends : e.controller.capability.Addressable e.base security) :
    e.Answers { d with security := security } := by
  intro offset inside
  show e.window? (d.registers + offset) = _
  rw [← start]
  exact window?_of_addressable apart ends inside

/-- What was found in a window is its own, and is not below its start. -/
theorem of_place? {address offset : UInt64} {window : Security}
    (found : e.place? address security = some (some (window, offset))) :
    window = security ∧ ∃ start ≤ address, address - start = offset := by
  by_cases ends : e.controller.capability.WindowEnds e.base security
  · rw [place?_of_ends ends] at found
    split at found
    next inside => cases found; exact ⟨rfl, _, inside.1, rfl⟩
    next => cases found
  · rw [place?_of_not_ends ends] at found
    cases found

/-- An address that was found is not below the start of its window. -/
theorem start_of_window? {address offset : UInt64}
    (found : e.window? address = some (security, offset)) :
    ∃ start ≤ address, address - start = offset := by
  rw [window?_eq_some] at found
  cases first : e.place? address .secure with
  | none => cases (lookup?_of_none first).symm.trans found
  | some place =>
      cases place with
      | none => exact (of_place? ((lookup?_of_not_secure first).symm.trans
          found)).2
      | some place =>
          cases (lookup?_of_secure first).symm.trans found
          exact (of_place? first).2

end Bus.Emulator

/-- An emulator of the driver's controller answers it. -/
theorem DriverConfig.answers {config : DriverConfig} {e : Emulator}
    (base : e.base = config.base)
    (same : e.controller.capability = config.variant.capability)
    (ends : config.Addressable) : e.Answers config.driver := by
  refine e.answers_of_start (d := config.driver) ?_ ?_ ?_
  · rw [base, same]
    rfl
  · rw [same]
    exact config.variant.windowsApart
  · rw [base, same]
    exact ends

-- =============================================================== panics

/-- A query of the driver's registers, or one for time. -/
def Driver.Addresses (d : Driver) (query : Bus.Query) : Prop :=
  ∀ address, query.address? = some address →
    ∃ register < Register.windowSize, address = d.registers + register

/-- Where the emulator answers, no query of the driver panics. -/
theorem Bus.Emulator.Answers.not_stops {e : Emulator} {d : Driver}
    (h : e.Answers d) {query : Bus.Query} (own : d.Addresses query) :
    ¬ (d.on Emulator.platform).stops query e = true := by
  show ¬ (d.overflows query || Emulator.stops query e) = true
  unfold Driver.overflows Emulator.stops
  cases at_address : query.address? with
  | none => simp
  | some address =>
      obtain ⟨register, inside, rfl⟩ := own address at_address
      have found := h register inside
      obtain ⟨start, below, offset⟩ := start_of_window? found
      have same : start = d.registers := by grind
      rw [same] at below
      rw [window?_eq_some] at found
      simp only [Option.any_some, found, Option.isNone_some, Bool.or_false,
        decide_eq_true_eq]
      exact UInt64.not_lt.2 below

/-- Where the bounds on the way to its window are no addresses, every
query of a register of the driver does. -/
theorem DriverConfig.stops_of_not_addressable {config : DriverConfig}
    {e : Emulator} (base : e.base = config.base)
    (same : e.controller.capability = config.variant.capability)
    (beyond : ¬ config.Addressable) {register : UInt64}
    (inside : register < Register.windowSize) {query : Bus.Query}
    (asked : query.address? = some (config.driver.registers + register)) :
    (config.driver.on Emulator.platform).stops query e = true := by
  show (config.driver.overflows query || Emulator.stops query e) = true
  have registers : config.driver.registers =
      e.base + e.controller.capability.window config.security := by
    rw [base, same]
    rfl
  have apart : e.controller.capability.WindowsApart := by
    rw [same]
    exact config.variant.windowsApart
  have lost : e.lookup? (config.driver.registers + register) = none := by
    by_cases first : e.controller.capability.WindowEnds e.base .secure
    · have own : ¬ e.controller.capability.WindowEnds e.base
          config.security := by
        rw [base, same] at first ⊢
        exact fun own => beyond ⟨first, own⟩
      rw [registers]
      cases security : config.security with
      | secure => exact absurd first (security ▸ own)
      | nonSecure =>
          rw [Emulator.lookup?_of_not_secure]
          · exact Emulator.place?_of_not_ends (security ▸ own) _
          · rw [Emulator.place?_of_ends first,
              if_neg (Emulator.not_secure_of_apart apart inside)]
    · exact Emulator.lookup?_of_none (Emulator.place?_of_not_ends first _)
  simp only [Emulator.stops, asked, Option.any_some, lost, Option.isNone_none,
    Bool.or_true]

end DmaController
