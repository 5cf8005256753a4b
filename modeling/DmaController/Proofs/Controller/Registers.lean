/-
What the registers of the debug protocol say. The status register of a
thread holds a code that a driver turns into a state; on a controller
with few enough channels that the ranges of their registers do not
overlap, every status reads as the state it is. The state of the manager
and its fault register are where they always are.
-/
import DmaController.Controller.Registers
import DmaController.Driver.Thread
import DmaController.Proofs.Instruction.Decoding

namespace DmaController

-- ============================================================== states

/-- The state a driver sees a channel in. -/
def Channel.Status.threadState : Channel.Status → ThreadState
  | stopped => .stopped
  | executing => .executing
  | waiting _ => .wfe
  | killing => .killing
  | completing => .completing
  | faultCompleting _ => .faultCompleting
  | faulting _ => .faulting

/-- The state a driver sees the manager in. -/
def ManagerState.threadState : ManagerState → ThreadState
  | stopped => .stopped
  | faulting _ => .faulting

/-- The code of a state is what its field holds. -/
theorem ThreadState.ofStatus_eq (thread : Thread) (word : UInt32) :
    ofStatus thread word =
      ofCode thread (Register.ChannelStatus.status.get word) := by
  unfold ofStatus Register.Field.get
  rfl

/-- The security flag of a channel does not disturb its status. -/
theorem Controller.ofStatus_statusWord (n : UInt8) (ch : Channel) :
    ThreadState.ofStatus (.channel n) (statusWord ch) =
      ch.status.threadState := by
  have apart : Register.ChannelStatus.status.Apart
      Register.ChannelStatus.nonSecure := by decide
  rw [ThreadState.ofStatus_eq, statusWord, Register.Field.setFlag,
    Register.Field.get_set_of_apart apart,
    Register.Field.get_set_self (by decide)]
  cases ch.status <;> rfl

theorem ManagerState.ofStatus_code (state : ManagerState) :
    ThreadState.ofStatus .manager
        (Register.ManagerStatus.status.set state.code 0) =
      state.threadState := by
  rw [ThreadState.ofStatus_eq, Register.ChannelStatus.status,
    ← Register.ManagerStatus.status, Register.Field.get_set_self (by decide)]
  cases state <;> rfl

namespace Controller

-- =============================================================== reads

theorem read_dsr (c : Controller) :
    c.read Register.dsr =
      Register.ManagerStatus.status.set c.manager.code 0 := rfl

theorem read_dbgstatus (c : Controller) :
    c.read Register.dbgstatus = if c.halted then 1 else 0 := rfl

/-- The most channels whose fault registers end before the first status
register. -/
def maxChannels : Nat := 48

/-- An offset between the fixed registers and the identification. -/
def ForChannels (offset : UInt64) : Prop :=
  offset ∉ [Register.dsr, Register.dpc, Register.inten,
    Register.intEventRis, Register.intmis, Register.fsrd, Register.fsrc,
    Register.ftrd, Register.dbgstatus, Register.cr0, Register.crd] ∧
  offset < Register.periphId0 ∧ offset < Register.pcellId0

instance : DecidablePred ForChannels :=
  fun _ => inferInstanceAs (Decidable (_ ∧ _ ∧ _))

/-- The registers of the channels lie there. -/
theorem channel_place : ∀ n : UInt8, n.toNat < maxChannels →
    ForChannels (Register.ftr n) ∧ ForChannels (Register.csr n) ∧
    ForChannels (Register.cpc n) :=
  forall_byte (by decide +kernel)

/-- So what is read there is for the channels to say. -/
theorem register?_channel {c : Controller} {offset : UInt64}
    (place : ForChannels offset) :
    c.register? offset =
      (c.channelFault? offset <|> c.channelStatus? offset <|>
        c.channelTransfer? offset) := by
  obtain ⟨fixed, periph, pcell⟩ := place
  simp only [List.mem_cons, not_or] at fixed
  have notFixed : c.fixedRegister? offset = none := by
    simp only [fixedRegister?, fixed, if_false]
  have notIdentification : c.capability.identification? offset = none := by
    simp only [Capability.identification?, UInt64.not_le.2 periph, UInt64.not_le.2 pcell,
      false_and, if_false]
    rfl
  rw [register?, notFixed, notIdentification]
  rfl

theorem ftr_place : ∀ n : UInt8,
    Register.ftr 0 ≤ Register.ftr n ∧ Register.ftr n % 4 = 0 ∧
    ((Register.ftr n - Register.ftr 0) / 4).toNat = n.toNat :=
  forall_byte (by decide +kernel)

theorem csr_place : ∀ n : UInt8,
    maxChannels ≤ ((Register.csr n - Register.ftr 0) / 4).toNat ∧
    Register.csr 0 ≤ Register.csr n ∧ Register.csr n % 4 = 0 ∧
    Register.csr n % 8 = 0 ∧
    ((Register.csr n - Register.csr 0) / 8).toNat = n.toNat :=
  forall_byte (by decide +kernel)

theorem cpc_place : ∀ n : UInt8,
    maxChannels ≤ ((Register.cpc n - Register.ftr 0) / 4).toNat ∧
    Register.csr 0 ≤ Register.cpc n ∧ Register.cpc n % 4 = 0 ∧
    Register.cpc n % 8 ≠ 0 ∧
    ((Register.cpc n - Register.csr 0) / 8).toNat = n.toNat :=
  forall_byte (by decide +kernel)

section

variable {c : Controller} {n : UInt8} {ch : Channel}

/-- No other register is where the fault register of a channel is. -/
theorem read_ftr (few : c.channels.length ≤ maxChannels)
    (there : c.channels[n.toNat]? = some ch) :
    c.read (Register.ftr n) = ch.faultBits := by
  have small := Nat.lt_of_lt_of_le (List.getElem?_eq_some_iff.1 there).1 few
  obtain ⟨first, word, place⟩ := ftr_place n
  have fault : c.channelFault? (Register.ftr n) = some ch.faultBits := by
    simp only [channelFault?, first, word, place, there, and_self, if_true,
      Option.map_some]
  rw [read, register?_channel (channel_place n small).1, fault]
  rfl

/-- No other register is where the status register of a channel is. -/
theorem read_csr (few : c.channels.length ≤ maxChannels)
    (there : c.channels[n.toNat]? = some ch) :
    c.read (Register.csr n) = statusWord ch := by
  have small := Nat.lt_of_lt_of_le (List.getElem?_eq_some_iff.1 there).1 few
  obtain ⟨fault, first, word, even, place⟩ := csr_place n
  have notFault : c.channelFault? (Register.csr n) = none := by
    have beyond := List.getElem?_eq_none (Nat.le_trans few fault)
    simp only [channelFault?, beyond, Option.map_none, ite_self]
  have status : c.channelStatus? (Register.csr n) = some (statusWord ch) := by
    simp only [channelStatus?, first, word, even, place, there, and_self,
      if_true, Option.map_some]
  rw [read, register?_channel (channel_place n small).2.1, notFault, status]
  rfl

/-- Nor where its program counter is. -/
theorem read_cpc (few : c.channels.length ≤ maxChannels)
    (there : c.channels[n.toNat]? = some ch) :
    c.read (Register.cpc n) = ch.pc := by
  have small := Nat.lt_of_lt_of_le (List.getElem?_eq_some_iff.1 there).1 few
  obtain ⟨fault, first, word, odd, place⟩ := cpc_place n
  have notFault : c.channelFault? (Register.cpc n) = none := by
    have beyond := List.getElem?_eq_none (Nat.le_trans few fault)
    simp only [channelFault?, beyond, Option.map_none, ite_self]
  have status : c.channelStatus? (Register.cpc n) = some ch.pc := by
    simp only [channelStatus?, first, word, odd, place, there, and_self,
      if_true, if_false, Option.map_some]
  rw [read, register?_channel (channel_place n small).2.2, notFault, status]
  rfl

end

-- ===================================================== faults at a glance

theorem read_fsrd (c : Controller) :
    c.read Register.fsrd = if c.manager = .stopped then 0 else 1 := rfl

/-- The bit of a channel, among the others. -/
theorem testBit_channelBit {k : Nat} (small : k < 32) (n : Nat) :
    ((1 : UInt32) <<< UInt32.ofNat k).toNat.testBit n = decide (k = n) := by
  have place : (UInt32.ofNat k).toNat % 32 = k := by
    rw [UInt32.toNat_ofNat', Nat.mod_mod_of_dvd _ (by decide)]
    exact Nat.mod_eq_of_lt small
  have fits : 2 ^ k < 2 ^ 32 := Nat.pow_lt_pow_right (by decide) small
  rw [UInt32.toNat_shiftLeft, place, UInt32.toNat_one, Nat.one_shiftLeft,
    Nat.mod_eq_of_lt fits, Nat.testBit_two_pow]

/-- The faulting channels are collected one bit after the other. The
induction is on the channels, which are numbered from any start. -/
theorem testBit_foldl_faulting {channels : List Channel} {start : Nat}
    (few : start + channels.length ≤ 32) (word : UInt32) (n : Nat) :
    ((channels.zipIdx start).foldl (fun word ch =>
        if ch.1.status.isFaulting then
          word ||| ((1 : UInt32) <<< UInt32.ofNat ch.2)
        else word) word).toNat.testBit n = true ↔
      word.toNat.testBit n = true ∨
        ∃ k ch, channels[k]? = some ch ∧ start + k = n ∧
          ch.status.isFaulting = true := by
  induction channels generalizing start word with
  | nil => simp
  | cons first channels ih =>
      rw [List.zipIdx_cons, List.foldl_cons]
      rw [List.length_cons] at few
      rw [ih (by omega)]
      have now : (if first.status.isFaulting then
            word ||| ((1 : UInt32) <<< UInt32.ofNat start)
          else word).toNat.testBit n = true ↔
          word.toNat.testBit n = true ∨
            start = n ∧ first.status.isFaulting = true := by
        split
        next faulting =>
          rw [UInt32.toNat_or, Nat.testBit_or,
            testBit_channelBit (by omega)]
          simp [faulting]
        next other => simp [other]
      rw [now, or_assoc]
      refine or_congr_right ⟨?_, ?_⟩
      · rintro (⟨here, faulting⟩ | ⟨k, ch, there, place, faulting⟩)
        · exact ⟨0, first, rfl, here, faulting⟩
        · exact ⟨k + 1, ch, there, by omega, faulting⟩
      · rintro ⟨k, ch, there, place, faulting⟩
        cases k with
        | zero =>
            cases there
            exact Or.inl ⟨place, faulting⟩
        | succ k => exact Or.inr ⟨k, ch, there, by omega, faulting⟩

/-- The fault summary has the bit of every faulting channel, and no
other. -/
theorem read_fsrc_testBit {c : Controller} (few : c.channels.length ≤ 32)
    (n : Nat) :
    (c.read Register.fsrc).toNat.testBit n = true ↔
      ∃ ch, c.channels[n]? = some ch ∧ ch.status.isFaulting = true := by
  have count : 0 + c.channels.length ≤ 32 := by omega
  refine (testBit_foldl_faulting count 0 n).trans ⟨?_, ?_⟩
  · rintro (none | ⟨k, ch, there, place, faulting⟩)
    · simp at none
    · rw [Nat.zero_add] at place
      exact ⟨ch, place ▸ there, faulting⟩
  · rintro ⟨ch, there, faulting⟩
    exact Or.inr ⟨n, ch, there, Nat.zero_add n, faulting⟩

-- ============================================================== writes

theorem write_dbginst0 (c : Controller) (window : Security) (value : UInt32) :
    c.write window Register.dbginst0 value =
      { c with debugInst0 := value } := rfl

theorem write_dbginst1 (c : Controller) (window : Security) (value : UInt32) :
    c.write window Register.dbginst1 value =
      { c with debugInst1 := value } := rfl

theorem write_dbgcmd (c : Controller) (window : Security) :
    c.write window Register.dbgcmd 0 = c.command window := rfl

end Controller

end DmaController
