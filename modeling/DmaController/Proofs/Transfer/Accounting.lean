/-
The account of a plan. What a plan says about a transfer it says three
times: in the geometry of the request, in the counts of its loops, and in
the control words, whose fields hold lengths minus one. The three agree.
With a unit of each kind (`Request.unitOf`) as many rounds are run as
units fit (`Request.roundsOf`), both sides of a control word ask for just
this unit, and what no unit fits into is the residue.

That is said in numbers, so words must not have wrapped on the way there;
`Request.planChecked` stops where one would.
-/
import DmaController.Proofs.Transfer.Overflow

namespace DmaController

open Register.ChannelControl (isNonSecure sourceProtection
  destinationProtection)

-- ============================================================= accounts

namespace Request

/-- The bytes of a unit of each kind: a burst, or a single beat. -/
def unitOf (req : Request) : PhaseKind → Nat
  | .burst => 2 ^ req.burstSize.toNat * req.burstLength.toNat
  | .single => 2 ^ req.singleBurstSize.toNat

/-- How many units of each kind there are. -/
def roundsOf (req : Request) : PhaseKind → Nat
  | .burst => req.size.toNat / req.unitOf .burst
  | .single => req.size.toNat % req.unitOf .burst / req.unitOf .single

/-- The kinds there are phases of, in their order: bursts if one fits
into the transfer, and single beats if one fits behind the bursts. -/
def kinds (req : Request) : List PhaseKind :=
  (if req.unitOf .burst ≤ req.size.toNat then [.burst] else []) ++
    if req.unitOf .single ≤ req.size.toNat % req.unitOf .burst then [.single]
    else []

end Request

/-- What a phase of a plan for a request is. -/
structure Phase.Accounts (phase : Phase) (req : Request) : Prop where
  unit : phase.unit.toNat = req.unitOf phase.kind
  /-- A burst of either side is one unit. -/
  source : phase.control.sourceBurstBytes = req.unitOf phase.kind
  destination : phase.control.destinationBurstBytes = req.unitOf phase.kind
  /-- Either side is accessed in the state the channel runs in. -/
  sourceSecurity : isNonSecure (sourceProtection.get phase.control.word) =
    decide (req.security = .nonSecure)
  destinationSecurity :
    isNonSecure (destinationProtection.get phase.control.word) =
      decide (req.security = .nonSecure)
  rounds : phase.rounds = req.roundsOf phase.kind
  /-- It is not empty. -/
  loops : phase.loops ≠ []
  moves : 0 < phase.bytes

/-- What a plan for a request is. -/
structure Plan.Accounts (plan : Plan) (req : Request) (mode : Mode) :
    Prop where
  mode : plan.mode = mode
  kinds : plan.phases.map Phase.kind = req.kinds
  phases : ∀ phase ∈ plan.phases, phase.Accounts req
  bytes : plan.bytes + plan.residue.toNat = req.size.toNat
  residue : plan.residue.toNat = req.size.toNat % req.unitOf .single

namespace Request

variable {req : Request} {cap : Capability} {mode : Mode}

-- =============================================================== numbers

namespace Legal

theorem unitOf_pos (legal : req.Legal cap mode) (kind : PhaseKind) :
    0 < req.unitOf kind := by
  cases kind with
  | burst => exact Nat.mul_pos (Nat.two_pow_pos _) legal.burstLength.1
  | single => exact Nat.two_pow_pos _

theorem toNat_bursts (bus : cap.maxBurstSize.toNat ≤ 7)
    (legal : req.Legal cap mode) :
    req.bursts.toNat = req.roundsOf .burst := by
  rw [bursts, UInt32.toNat_div, legal.toNat_burstBytes bus]
  rfl

theorem toNat_tail (bus : cap.maxBurstSize.toNat ≤ 7)
    (legal : req.Legal cap mode) :
    req.tail.toNat = req.size.toNat % req.unitOf .burst := by
  rw [tail, UInt32.toNat_mod, legal.toNat_burstBytes bus]
  rfl

theorem toNat_singles (bus : cap.maxBurstSize.toNat ≤ 7)
    (legal : req.Legal cap mode) :
    req.singles.toNat = req.roundsOf .single := by
  rw [singles, UInt32.toNat_div, legal.toNat_tail bus,
    legal.toNat_singleBytes bus]
  rfl

/-- A burst is a whole number of single beats, so the bytes that are left
behind the bursts are cut like those of the whole transfer. -/
theorem toNat_residue (bus : cap.maxBurstSize.toNat ≤ 7)
    (legal : req.Legal cap mode) :
    req.residue.toNat = req.size.toNat % req.unitOf .single := by
  have whole : req.unitOf .single ∣ req.unitOf .burst :=
    Nat.dvd_mul_right_of_dvd (Nat.pow_dvd_pow 2 legal.singleBurstSize) _
  rw [residue, UInt32.toNat_mod, legal.toNat_tail bus,
    legal.toNat_singleBytes bus]
  exact Nat.mod_mod_of_dvd _ whole

/-- There are rounds of a kind if a unit fits into the bytes it is for. -/
theorem none_iff {count : UInt32} {bytes : Nat} {kind : PhaseKind}
    (legal : req.Legal cap mode)
    (counted : count.toNat = bytes / req.unitOf kind) :
    count = 0 ↔ ¬ req.unitOf kind ≤ bytes := by
  rw [← UInt32.toNat_inj, counted, Nat.not_le]
  exact Nat.div_eq_zero_iff_lt (legal.unitOf_pos kind)

end Legal

-- ============================================================== a phase

/-- A phase that is ready to run rounds of a unit. -/
theorem phase_accounts {kind : PhaseKind} {size length : UInt8}
    {unit count : UInt32}
    (ready : Phase.Ready ⟨kind, req.control mode size length, unit,
      splitLoops count.toNat⟩ req cap mode)
    (hu : unit.toNat = req.unitOf kind)
    (rounds : count.toNat = req.roundsOf kind) (some : count ≠ 0) :
    Phase.Accounts ⟨kind, req.control mode size length, unit,
      splitLoops count.toNat⟩ req := by
  have pos : 0 < count.toNat :=
    UInt32.lt_iff_toNat_lt.1 (UInt32.pos_iff_ne_zero.2 some)
  obtain ⟨sourceSecurity, destinationSecurity⟩ :=
    req.isNonSecure_control mode size length
  refine ⟨hu, ready.steers.source.trans hu, ready.steers.destination.trans hu,
    sourceSecurity, destinationSecurity, ?_, ?_, ?_⟩
  · exact (sum_iterations_splitLoops _).trans rounds
  · show splitLoops count.toNat ≠ []
    rw [splitLoops_pos pos]
    exact List.cons_ne_nil _ _
  · rw [Phase.bytes_eq, Phase.rounds, sum_iterations_splitLoops]
    exact Nat.mul_pos pos ready.unit_pos

theorem Legal.phase_accounts (bus : cap.maxBurstSize.toNat ≤ 7)
    (legal : req.Legal cap mode) :
    ∀ phase ∈ req.phases mode, phase.Accounts req := by
  intro phase mem
  have ready := legal.phase_ready bus phase mem
  rcases eq_of_mem_phases mem with ⟨some, rfl⟩ | ⟨some, rfl⟩
  · exact Request.phase_accounts ready (legal.toNat_burstBytes bus)
      (legal.toNat_bursts bus) some
  · exact Request.phase_accounts ready (legal.toNat_singleBytes bus)
      (legal.toNat_singles bus) some

-- =============================================================== a plan

theorem Legal.kinds_phases (bus : cap.maxBurstSize.toNat ≤ 7)
    (legal : req.Legal cap mode) :
    (req.phases mode).map Phase.kind = req.kinds := by
  have bursts := legal.none_iff (legal.toNat_bursts bus)
  have singles := legal.none_iff (legal.toNat_singles bus)
  rw [phases, kinds, List.map_append, burstPhase?, singlePhase?]
  simp only [bursts, singles, ite_not]
  congr 1 <;> split <;> rfl

/-- **The account of a plan.** On a bus of at most 128 bytes exactly the
legal requests have a plan; a plan accounts for every byte of its
request; and no operation on words that leads to a plan, or to the reason
why there is none, overflows or divides by zero. -/
theorem plan_accounts (bus : cap.maxBurstSize.toNat ≤ 7) (req : Request)
    (mode : Mode) :
    ((∃ plan, req.plan cap mode = .ok plan) ↔ req.Legal cap mode) ∧
    (∀ plan, req.plan cap mode = .ok plan → plan.Accounts req mode) ∧
    req.planChecked cap mode = (req.plan cap mode).mapError .refused := by
  refine ⟨?_, ?_, planChecked_eq bus req mode⟩
  · simp only [plan_eq_ok_iff bus]
    exact ⟨fun ⟨_, legal, _⟩ => legal, fun legal => ⟨_, legal, rfl⟩⟩
  · intro plan planned
    have bytes := Plan.bytes_add_residue bus planned
    obtain ⟨legal, rfl⟩ := (plan_eq_ok_iff bus).1 planned
    exact ⟨rfl, legal.kinds_phases bus, legal.phase_accounts bus, bytes,
      legal.toNat_residue bus⟩

/-- A non-secure copy in bursts of four words, with half words behind the
bursts and a byte behind those. -/
def oddCopy : Request :=
  { source := 0x1000, destination := 0x8000, size := 4811, burstSize := 2,
    burstLength := 4, singleBurstSize := 1, security := .nonSecure }

/-- It moves 300 bursts and five half words, and leaves the byte. -/
theorem plan_accounts_oddCopy :
    ∃ plan, oddCopy.planChecked .pl330 .copy = .ok plan ∧
      plan.phases.map Phase.kind = [.burst, .single] ∧
      (∀ phase ∈ plan.phases, phase.rounds = oddCopy.roundsOf phase.kind) ∧
      oddCopy.roundsOf .burst = 300 ∧ oddCopy.roundsOf .single = 5 ∧
      plan.bytes = 4810 ∧ plan.residue.toNat = 1 := by
  have bus : Capability.pl330.maxBurstSize.toNat ≤ 7 := by decide
  obtain ⟨accepted, accounts, words⟩ := plan_accounts bus oddCopy .copy
  have fits : oddCopy.Fits oddCopy.source ∧ oddCopy.Fits oddCopy.destination :=
    ⟨⟨by decide, by decide⟩, ⟨by decide, by decide⟩⟩
  have legal : oddCopy.Legal .pl330 .copy :=
    ⟨by decide, by decide, by decide, by decide, fun _ => fits.1, fits.2,
      by decide⟩
  obtain ⟨plan, planned⟩ := accepted.2 legal
  have account := accounts plan planned
  have left : plan.residue.toNat = 1 := account.residue
  have moved := account.bytes
  rw [left] at moved
  rw [planned] at words
  exact ⟨plan, words, account.kinds, fun phase mem =>
    (account.phases phase mem).rounds, rfl, rfl, Nat.succ.inj moved, left⟩

end Request

end DmaController
