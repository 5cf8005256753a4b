/-
The non-secure side cannot run secure programs. A driver of the
non-secure window writes registers of that window and nothing else, so
its conversations are courses in which every command comes from the
non-secure side, whatever it was asked to start. This holds wherever the
controller stands: the emulator never takes a register of that window
for one of the other, and a conversation that panics is such a course up
to where it stops.

A secure program that such a driver is given is not started; its start
is refused by the manager. A secure program that runs already, started
from the secure side, goes on.
-/
import DmaController.Proofs.Bus.Security
import DmaController.Proofs.Driver.Discipline
import DmaController.Proofs.Driver.Sessions

namespace DmaController

open Bus (Access Dialogue Emulator Query)
open Bus.Dialogue (attempted_isPrefix plays_attempt transcript_hold)

-- ================================================================ writes

namespace Driver

/-- Whatever a driver writes, it writes to a register of its window. -/
def WritesRegisters (d : Driver) (trace : List Access) : Prop :=
  ∀ access ∈ trace, access.query.isWrite = true →
    ∃ register < Register.windowSize, ∃ value,
      access.query = .write32 (d.registers + register) value

variable {d : Driver} {trace : List Access}

theorem WritesRegisters.append {second : List Access}
    (h : d.WritesRegisters trace) (h' : d.WritesRegisters second) :
    d.WritesRegisters (trace ++ second) :=
  List.forall_mem_append.2 ⟨h, h'⟩

theorem writesRegisters_of_silent (quiet : Bus.Silent trace) :
    d.WritesRegisters trace := by
  intro access mem writes
  cases (quiet access mem).symm.trans writes

theorem writesRegisters_submission (status : UInt32) (i : Instruction)
    (thread : Thread) : d.WritesRegisters (d.submission status i thread) := by
  intro access mem writes
  simp only [submission, List.mem_cons, List.not_mem_nil, or_false] at mem
  rcases mem with rfl | rfl | rfl | rfl
  · cases writes
  · exact ⟨Register.dbginst0, by decide, _, rfl⟩
  · exact ⟨Register.dbginst1, by decide, _, rfl⟩
  · exact ⟨Register.dbgcmd, by decide, _, rfl⟩

/-- Orders are all that is written. -/
theorem Orders.writesRegisters {orders : List Order}
    (h : d.Orders trace orders) : d.WritesRegisters trace := by
  induction h with
  | nil => exact List.forall_mem_nil _
  | look access _ quiet ih =>
      apply ih.append
      exact writesRegisters_of_silent (List.forall_mem_singleton.2 quiet)
  | order status i thread _ _ ih =>
      exact ih.append (writesRegisters_submission status i thread)

-- ================================================================= calls

/-- What a driver can be asked to do with a thread. -/
inductive Call where
  | start (context : Context) (program : Microprogram)
  | kill (context : Context)
  | finish (context : Context) (patience : Patience)

/-- The conversation a call consists of. -/
def Call.drive (d : Driver) : Call → Drive Context
  | .start context program => d.start context program
  | .kill context => d.kill context
  | .finish context patience => d.finish context patience

/-- However a call goes, the driver writes registers of its window. -/
theorem Call.writesRegisters (call : Call)
    {outcome : Except DriverError Context}
    (h : (call.drive d).Transcript trace outcome) :
    d.WritesRegisters trace := by
  cases call with
  | start context program =>
    obtain ⟨thread, programBase⟩ := context
    cases thread with
    | manager =>
        obtain ⟨rfl, -⟩ := Dialogue.Transcript.of_fail h
        exact List.forall_mem_nil _
    | channel n =>
        obtain ⟨orders, starts⟩ := of_startOn h
        exact starts.course.writesRegisters
  | kill context =>
      obtain ⟨orders, kills⟩ := of_kill h
      exact kills.course.writesRegisters
  | finish context patience =>
      exact writesRegisters_of_silent (of_finish h).1

end Driver

-- =============================================================== windows

namespace Bus.Emulator

variable {variant : Variant} {base : UInt64} {config : DriverConfig}
  {e e' : Emulator}

/-- An address outside the secure window is in the other one or in
none. -/
theorem window?_of_not_secure {address : UInt64}
    (outside : ¬ (e.base + e.controller.capability.window .secure ≤ address ∧
      address < e.base + e.controller.capability.window .secure +
        Register.windowSize))
    {window : Security} {offset : UInt64}
    (found : e.window? address = some (window, offset)) :
    window = .nonSecure := by
  rw [window?_eq_some] at found
  by_cases first : e.controller.capability.WindowEnds e.base .secure
  · have missed : e.place? address .secure = some none := by
      rw [place?_of_ends first, if_neg outside]
    rw [lookup?_of_not_secure missed] at found
    exact (of_place? found).1
  · cases (lookup?_of_none (place?_of_not_ends first _)).symm.trans found

/-- A driver of the non-secure window writes through no other. -/
theorem Kept.writesThrough (kept : e.Kept variant.capability base)
    (drives : config.Drives variant base)
    (security : config.security = .nonSecure) {register : UInt64}
    (inside : register < Register.windowSize) (value : UInt32) :
    e.WritesThrough (· = .nonSecure)
      (.write32 (config.driver.registers + register) value) := by
  intro window offset place
  apply window?_of_not_secure ?_ place
  have registers : config.driver.registers =
      base + variant.capability.window .nonSecure := by
    rw [← drives.variant, ← drives.base, ← security]
    rfl
  rw [registers, ← kept.base, ← kept.capability]
  exact not_secure_of_apart (kept.capability ▸ variant.windowsApart) inside

/-- A conversation of such a driver is a course from the non-secure
side. -/
theorem Kept.becomes_of_plays (kept : e.Kept variant.capability base)
    (drives : config.Drives variant base)
    (security : config.security = .nonSecure) {trace : List Access}
    (writes : config.driver.WritesRegisters trace)
    (plays : (config.driver.on platform).Plays e trace e') :
    e.Becomes (· = .nonSecure) e' ∧ e'.Kept variant.capability base := by
  induction plays with
  | nil => exact ⟨.refl, kept⟩
  | @cons e e' query trace rest ih =>
      obtain ⟨now, later⟩ := List.forall_mem_cons.1 writes
      have through : e.WritesThrough (· = .nonSecure) query := by
        cases query with
        | write32 address value =>
            obtain ⟨register, inside, _, same⟩ := now rfl
            cases same
            exact kept.writesThrough drives security inside value
        | _ => exact True.intro
      obtain ⟨course, kept'⟩ := ih (kept.answer query) later
      exact ⟨(Becomes.refl.answer query through).trans course, kept'⟩

/-- The emulator after calls of some drivers, one after the other, each as
far as it goes. -/
def calls (e : Emulator) (course : List (DriverConfig × Driver.Call)) :
    Emulator :=
  course.foldl
    (fun e call => ((call.2.drive call.1.driver).attempt
      (call.1.driver.on platform) e).2) e

theorem Kept.becomes_calls (kept : e.Kept variant.capability base)
    {course : List (DriverConfig × Driver.Call)}
    (drives : ∀ call ∈ course, call.1.Drives variant base ∧
      call.1.security = .nonSecure) :
    e.Becomes (· = .nonSecure) (e.calls course) := by
  induction course generalizing e with
  | nil => exact .refl
  | cons call course ih =>
      obtain ⟨⟨drives, security⟩, later⟩ := List.forall_mem_cons.1 drives
      have writes := call.2.writesRegisters (transcript_hold
        (call.1.driver.on platform) (call.2.drive call.1.driver) e)
      obtain ⟨first, kept'⟩ := kept.becomes_of_plays drives security
        (fun access made => writes access (attempted_isPrefix.subset made))
        (plays_attempt ..)
      exact first.trans (ih kept' later)

-- ========================================================= the guarantee

/-- No secure execution from the non-secure side. After reset, as long as
registers are written through the non-secure window only, every channel
that is not stopped is non-secure; and from any state at all, no calls of
drivers of that window make a channel run secure that did not. -/
theorem no_secure_execution (variant : Variant) (base : UInt64) :
    (∀ (memory : Memory) (e : Emulator),
      (new variant.capability base memory).Becomes (· = .nonSecure) e →
      ∀ (n : Nat) (ch : Channel), e.controller.channels[n]? = some ch →
        ch.status ≠ .stopped → ch.nonSecure = true) ∧
    ∀ e : Emulator, e.Kept variant.capability base →
      ∀ course : List (DriverConfig × Driver.Call),
        (∀ call ∈ course, call.1.Drives variant base ∧
          call.1.security = .nonSecure) →
        e.Becomes (· = .nonSecure) (e.calls course) ∧
        ∀ (n : Nat) (ch' : Channel),
          (e.calls course).controller.channels[n]? = some ch' →
          ch'.RunsSecure →
          ∃ ch, e.controller.channels[n]? = some ch ∧ ch.RunsSecure := by
  refine ⟨?_, ?_⟩
  · intro memory e course n ch there busy
    exact course.nonSecure there busy
  · intro e kept course drives
    have becomes := kept.becomes_calls drives
    exact ⟨becomes, fun n ch' there' runs => becomes.runsSecure there' runs⟩

/-- A start of a non-secure program and one of a secure program, both by
the driver of the non-secure window. -/
def twoStarts : List (DriverConfig × Driver.Call) :=
  [true, false].zipIdx.map fun (nonSecure, n) =>
    (⟨.pl330, 0x20000000, .nonSecure, 100, 100⟩,
      .start ⟨.channel (UInt8.ofNat n), none⟩
        ⟨[0x00], 0x40, nonSecure, ⟨.copy, [], 0⟩⟩)

/-- The one executes, and is non-secure; the other does not run. -/
theorem no_secure_execution_two_starts :
    ∃ e, e = (new .pl330 0x20000000 (.zeroed 0 0x100)).calls twoStarts ∧
      (∃ ch, e.controller.channels[0]? = some ch ∧
        ch.status = .executing ∧ ch.nonSecure = true) ∧
      e.controller.channels[1]? = some ({} : Channel) ∧
      ∀ (n : Nat) (ch : Channel), e.controller.channels[n]? = some ch →
        ¬ ch.RunsSecure := by
  obtain ⟨always, calls⟩ := no_secure_execution .pl330 0x20000000
  have fresh : (new .pl330 0x20000000 (.zeroed 0 0x100)).Kept
      Variant.pl330.capability 0x20000000 := ⟨rfl, rfl, List.length_replicate⟩
  have drives : ∀ call ∈ twoStarts, call.1.Drives .pl330 0x20000000 ∧
      call.1.security = .nonSecure := by
    intro call mem
    obtain ⟨_, -, rfl⟩ := List.mem_map.1 mem
    exact ⟨⟨rfl, rfl⟩, rfl⟩
  obtain ⟨becomes, -⟩ := calls _ fresh twoStarts drives
  have first : ((new .pl330 0x20000000 (.zeroed 0 0x100)).calls
      twoStarts).controller.channels[0]? = some (.started 0x40 true) := by
    decide +kernel
  refine ⟨_, rfl, ⟨_, first, rfl, ?_⟩, ?_, ?_⟩
  · exact always _ _ becomes 0 _ first nofun
  · decide +kernel
  · intro n ch there runs
    cases runs.secure.symm.trans (always _ _ becomes n ch there runs.busy)

end Bus.Emulator

end DmaController
