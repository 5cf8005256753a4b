/-
The security of a thread, as far as the controller keeps it. A channel
is started in one of the two states and stays in it: no instruction
changes the state, and a wait, a fault or an end does not either. A
thread can only load other attributes for its accesses, into the control
register, and of a non-secure thread that instruction is refused unless
both sides of it are non-secure.

So the control register of a non-secure channel has two kinds of values
in its life (`Guarded`): non-secure on both sides, from the first time
it is loaded on, and before that what a start leaves there. A start
leaves zero, and zero says secure.

# Which accesses this covers

An access takes its security from its own side of the control register:
a load from the source side, a store or a clear from the destination
side (`DataAccess.isNonSecure`).
-/
import DmaController.Proofs.Controller.Code
import DmaController.Proofs.Controller.Transitions

namespace DmaController

open Register (ChannelControl)

/-- An access is made in the non-secure state under these attributes. -/
def DataAccess.isNonSecure (control : ChannelControl) : DataAccess → Bool
  | .load => ChannelControl.isNonSecure
      (ChannelControl.sourceProtection.get control.word)
  | .store | .clear => ChannelControl.isNonSecure
      (ChannelControl.destinationProtection.get control.word)

/-- If both sides are non-secure, every access is. -/
theorem DataAccess.isNonSecure_of_both {control : ChannelControl}
    (both : control.isNonSecureBoth = true) (access : DataAccess) :
    access.isNonSecure control = true := by
  obtain ⟨source, destination⟩ := (Bool.and_eq_true _ _).mp both
  cases access with
  | load => exact source
  | store => exact destination
  | clear => exact destination

namespace Channel

variable {cap : Capability} {ch : Channel} {shared : Shared}

-- ======================================================= one instruction

@[simp] theorem nonSecure_advanceSource (length : Nat) :
    (ch.advanceSource length).nonSecure = ch.nonSecure := by
  unfold advanceSource
  split <;> rfl

@[simp] theorem nonSecure_advanceDestination (length : Nat) :
    (ch.advanceDestination length).nonSecure = ch.nonSecure := by
  unfold advanceDestination
  split <;> rfl

@[simp] theorem control_advanceSource (length : Nat) :
    (ch.advanceSource length).control = ch.control := by
  unfold advanceSource
  split <;> rfl

@[simp] theorem control_advanceDestination (length : Nat) :
    (ch.advanceDestination length).control = ch.control := by
  unfold advanceDestination
  split <;> rfl

/-- What a channel becomes without a change of its security: its state
stays, and its control register is as it was or was loaded. -/
structure Secured (ch : Channel) (loads : UInt32 → Prop) (next : Channel) :
    Prop where
  nonSecure : next.nonSecure = ch.nonSecure
  control : next.control = ch.control ∨
    ∃ value, loads value ∧ next.control = ⟨value⟩

theorem Secured.of_same {loads : UInt32 → Prop} {next : Channel}
    (nonSecure : next.nonSecure = ch.nonSecure)
    (control : next.control = ch.control) : ch.Secured loads next :=
  ⟨nonSecure, Or.inl control⟩

theorem secured_load {loads : UInt32 → Prop} {loaded : Channel}
    (h : ch.load cap shared.memory = .ok loaded) :
    ch.Secured loads loaded := by
  simp only [load] at h
  split at h
  · cases h
  · split at h
    · cases h
      apply Secured.of_same
      · rw [nonSecure_advanceSource]
      · rw [control_advanceSource]
    · cases h

/-- Of the instructions without a data access, one loads the control
register. -/
theorem secured_proceed (ch : Channel) (events : UInt32) (i : Instruction) :
    ch.Secured (fun value => i = .mov .channelControl value)
      (ch.proceed events i).1 := by
  cases i with
  | mov register value =>
    cases register with
    | channelControl => exact ⟨rfl, Or.inr ⟨value, rfl, rfl⟩⟩
    | sourceAddress => exact .of_same rfl rfl
    | destinationAddress => exact .of_same rfl rfl
  | addh register amount => cases register <;> exact .of_same rfl rfl
  | lp counter iterations => cases counter <;> exact .of_same rfl rfl
  | lpend counter condition jump =>
      unfold proceed
      simp only
      split
      · cases counter <;> exact .of_same rfl rfl
      · exact .of_same rfl rfl
  | wfe event invalid =>
      unfold proceed
      simp only
      split <;> exact .of_same rfl rfl
  | _ => exact .of_same rfl rfl

theorem secured_perform (cap : Capability) (ch : Channel) (shared : Shared)
    (i : Instruction) :
    ch.Secured (fun value => i = .mov .channelControl value)
      (ch.perform cap shared i).1 := by
  cases access : i.dataAccess? ch.servesBurst with
  | none =>
      simp only [perform, access]
      exact secured_proceed ch shared.events i
  | some kind =>
    cases kind with
    | load =>
        simp only [perform, access]
        cases fits : ch.load cap shared.memory with
        | ok loaded =>
            obtain ⟨state, control⟩ := secured_load fits
            exact ⟨state, control⟩
        | error cause => exact .of_same rfl rfl
    | store =>
        simp only [perform, access]
        cases ch.storeRefusal? shared.memory with
        | some cause => exact .of_same rfl rfl
        | none =>
            apply Secured.of_same
            · exact nonSecure_advanceDestination _
            · exact control_advanceDestination _
    | clear =>
        simp only [perform, access]
        cases ch.clearRefusal? shared.memory with
        | some cause => exact .of_same rfl rfl
        | none =>
            apply Secured.of_same
            · exact nonSecure_advanceDestination _
            · exact control_advanceDestination _

/-- The value is loaded into the control register by the instruction at
the program counter, and not refused. -/
def LoadsControl (cap : Capability) (ch : Channel) (memory : Memory)
    (value : UInt32) : Prop :=
  ch.fetch memory = .ok (.mov .channelControl value) ∧
    ch.refusal? cap (.mov .channelControl value) = none

theorem secured_execute (cap : Capability) (ch : Channel) (shared : Shared) :
    ch.Secured (ch.LoadsControl cap shared.memory)
      (ch.execute cap shared).1 := by
  unfold execute
  cases fetched : ch.fetch shared.memory with
  | error cause => exact .of_same rfl rfl
  | ok i =>
    cases refused : ch.refusal? cap i with
    | some cause =>
        simp only [refused]
        exact .of_same rfl rfl
    | none =>
        simp only [refused]
        obtain ⟨state, same | ⟨value, rfl, loaded⟩⟩ :=
          secured_perform cap ch shared i
        · exact .of_same state same
        · exact ⟨state, Or.inr ⟨value, ⟨fetched, refused⟩, loaded⟩⟩

/-- A load of the control register that a non-secure thread is allowed
is non-secure on both sides. -/
theorem LoadsControl.both {memory : Memory} {value : UInt32}
    (h : ch.LoadsControl cap memory value) (nonSecure : ch.nonSecure = true) :
    ChannelControl.isNonSecureBoth ⟨value⟩ = true := by
  obtain ⟨-, accepted⟩ := h
  cases both : ChannelControl.isNonSecureBoth ⟨value⟩ with
  | true => rfl
  | false =>
      rw [refusal?, nonSecure, both] at accepted
      cases accepted

/-- A load of the control register that a non-secure thread is not
allowed is a fault, and nothing shared changes. -/
theorem tick_of_secure_load {value : UInt32}
    (executing : ch.status = .executing)
    (fetched : ch.fetch shared.memory = .ok (.mov .channelControl value))
    (nonSecure : ch.nonSecure = true)
    (lacks : ChannelControl.isNonSecureBoth ⟨value⟩ = false) :
    ch.tick cap shared = ⟨ch.fault .securityError, shared, true⟩ := by
  have refused : ch.refusal? cap (.mov .channelControl value) =
      some .securityError := by
    unfold refusal?
    simp only [nonSecure, lacks]
    rfl
  rw [tick_of_executing executing]
  unfold execute
  simp only [fetched, refused]

/-- In its next tick the channel makes a data access. -/
def Accesses (cap : Capability) (ch : Channel) (memory : Memory)
    (access : DataAccess) : Prop :=
  ch.status = .executing ∧ ∃ i, ch.fetch memory = .ok i ∧
    ch.refusal? cap i = none ∧ i.dataAccess? ch.servesBurst = some access ∧
    ch.accessFault? cap memory access = none

-- ================================================================ a slice

theorem secured_tick (cap : Capability) (ch : Channel) (shared : Shared) :
    ch.Secured (ch.LoadsControl cap shared.memory)
      (ch.tick cap shared).channel := by
  cases status : ch.status with
  | executing =>
      rw [tick_of_executing status]
      exact secured_execute cap ch shared
  | waiting event =>
      simp only [tick, status]
      split <;> exact .of_same rfl rfl
  | _ =>
      simp only [tick, status]
      exact .of_same rfl rfl

/-- A thread stays in its security state as long as it runs. -/
theorem nonSecure_run (ch : Channel) (shared : Shared) (steps : Nat) :
    (ch.run cap steps shared).1.nonSecure = ch.nonSecure := by
  induction steps generalizing ch shared with
  | zero => rfl
  | succ steps ih =>
      rw [run_succ, ih]
      exact (secured_tick cap ch shared).nonSecure

/-- The control register of a non-secure thread is as a start leaves it,
or non-secure on both sides. -/
def Guarded (ch : Channel) : Prop :=
  ch.nonSecure = true →
    ch.control = ⟨0⟩ ∨ ch.control.isNonSecureBoth = true

theorem guarded_started (pc : UInt32) (nonSecure : Bool) :
    (started pc nonSecure).Guarded :=
  fun _ => Or.inl rfl

theorem Guarded.tick (h : ch.Guarded) :
    (ch.tick cap shared).channel.Guarded := by
  intro nonSecure
  obtain ⟨state, same | ⟨value, loads, loaded⟩⟩ :=
    secured_tick cap ch shared
  · rw [state] at nonSecure
    rw [same]
    exact h nonSecure
  · rw [state] at nonSecure
    rw [loaded]
    exact Or.inr (loads.both nonSecure)

theorem Guarded.run (h : ch.Guarded) (steps : Nat) :
    (ch.run cap steps shared).1.Guarded := by
  induction steps generalizing ch shared with
  | zero => exact h
  | succ steps ih =>
      rw [run_succ]
      exact ih h.tick

/-- Once a non-secure thread has loaded its control register, it stays
non-secure on both sides. -/
theorem both_run (nonSecure : ch.nonSecure = true)
    (both : ch.control.isNonSecureBoth = true) (steps : Nat) :
    (ch.run cap steps shared).1.control.isNonSecureBoth = true := by
  induction steps generalizing ch shared with
  | zero => exact both
  | succ steps ih =>
      rw [run_succ]
      obtain ⟨state, same | ⟨value, loads, loaded⟩⟩ :=
        secured_tick cap ch shared
      · apply ih
        · rw [state, nonSecure]
        · rw [same, both]
      · apply ih
        · rw [state, nonSecure]
        · rw [loaded]
          exact loads.both nonSecure

-- ============================================================ confinement

/-- What is kept of the accesses of a non-secure thread: each of them is
non-secure, or made under the attributes that a start leaves, and loading
other attributes faults before anything shared changes. -/
structure Confined (cap : Capability) (ch : Channel) (shared : Shared) :
    Prop where
  state : ch.nonSecure = true
  accesses : ∀ access, ch.Accesses cap shared.memory access →
    access.isNonSecure ch.control = true ∨ ch.control = ⟨0⟩
  loads : ∀ value, ch.status = .executing →
    ch.fetch shared.memory = .ok (.mov .channelControl value) →
    ChannelControl.isNonSecureBoth ⟨value⟩ = false →
    ch.tick cap shared = ⟨ch.fault .securityError, shared, true⟩

theorem Guarded.confined (h : ch.Guarded) (nonSecure : ch.nonSecure = true) :
    ch.Confined cap shared where
  state := nonSecure
  accesses := by
    intro access _
    rcases h nonSecure with fresh | both
    · exact Or.inr fresh
    · exact Or.inl (access.isNonSecure_of_both both)
  loads := fun _ executing fetched lacks =>
    tick_of_secure_load executing fetched nonSecure lacks

end Channel

end DmaController
