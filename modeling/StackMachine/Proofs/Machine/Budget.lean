/-
What a step limit makes of a run.

With a limit of `n` a run always ends, after at most `n` executed instructions, and in
one of four ways: it halts, it faults, it cannot fetch, or it has made all `n` steps and
could go on. `Budgeted` says of each exactly when it is the one. The first two need a
step and so happen after fewer than `n`; a failure to fetch needs none and is reported
also when all `n` are made.

That no other instruction is executed is said of what the run leaves: its machine and its
observer are what the executed instructions have made of them.

None of the first three depends on the limit once it is large enough, so a larger limit,
or none, leaves them as they are.
-/
import StackMachine.Proofs.Machine.Course

set_option autoImplicit false

namespace StackMachine.Machine

variable {m final : Machine} {options : Options} {attempted n : Nat} {ending : Ending}

/-- How a run with a limit of `n` steps ends, and after how many executed
instructions. -/
structure Budgeted (shorten : Bool) (n : Nat) (m : Machine) (executed : Nat) (ending : Ending) :
    Prop where
  bounded : executed ≤ n
  /-- The program has halted: the instruction after `k` steps is a halt. -/
  halted : ∀ k stack, ending = .halted stack ∧ executed = k + 1
    ↔ k < n ∧ ∃ mk inst, m.nth? k = some mk ∧ mk.fetch = .ok inst ∧ inst.op = .halt
      ∧ stack = mk.returned shorten
  /-- An instruction has faulted: the one after `k` steps. -/
  faulted : ∀ k fault, ending = .faulted fault ∧ fault.stage = .executing ∧ executed = k + 1
    ↔ k < n ∧ ∃ mk inst m', m.nth? k = some mk ∧ mk.fetch = .ok inst
      ∧ mk.step inst = .error fault m'
  /-- There was no instruction to fetch after `k` steps, of which there may be `n`. -/
  unfetched : ∀ k fault, ending = .faulted fault ∧ fault.stage = .fetching ∧ executed = k
    ↔ k ≤ n ∧ ∃ mk, m.nth? k = some mk ∧ mk.fetch = .error fault
  /-- All `n` steps are made and there is another instruction. -/
  exceeded : ∀ limit, ending = .faulted (.stepLimitExceeded limit)
    ↔ limit = n ∧ ∃ mn inst, m.nth? n = some mn ∧ mn.fetch = .ok inst

theorem allows_iff_le (hlimit : options.tmax = some n) {k : Nat} : options.Allows k ↔ k ≤ n := by
  constructor
  · intro h
    exact h n hlimit
  · intro hle limit hlimit'
    rw [hlimit, Option.some.injEq] at hlimit'
    omega

/-- The course of a run with a limit is as the limit says. From left to right each part
looks at the last turn of the course; from right to left it gives a course, and there
is only one. -/
theorem Course.budgeted (h : Course options m attempted final ending)
    (hlimit : options.tmax = some n) : Budgeted options.shorten n m attempted ending where
  bounded := h.allows n hlimit
  halted := by
    intro k stack
    constructor
    · rintro ⟨hending, hexecuted⟩
      rcases h with _ | _ | _ | ⟨hk, hallowed, hfetch, hstep⟩
      · simp at hending
      · simp at hending
      · simp at hending
      · obtain rfl : _ = k := Nat.succ.inj hexecuted
        obtain ⟨hop, rfl⟩ := step_eq_halt_iff.mp hstep
        obtain rfl : _ = stack := Ending.halted.inj hending
        exact ⟨hallowed n hlimit, _, _, hk, hfetch, hop, rfl⟩
    · rintro ⟨hlt, mk, inst, hk, hfetch, hop, rfl⟩
      have hcourse : Course options m (k + 1) { mk with ip := inst.next } _ :=
        .halts hk ((allows_iff_le hlimit).mpr hlt) hfetch (step_of_halt mk hop)
      obtain ⟨rfl, -, rfl⟩ := h.unique hcourse
      exact ⟨rfl, rfl⟩
  faulted := by
    intro k fault
    constructor
    · rintro ⟨rfl, hstage, hexecuted⟩
      rcases h with ⟨-, -, hfetch⟩ | _ | ⟨hk, hallowed, hfetch, hstep⟩ | _
      · rw [stage_of_fetch_error hfetch] at hstage
        simp at hstage
      · simp [Fault.stage] at hstage
      · obtain rfl : _ = k := Nat.succ.inj hexecuted
        exact ⟨hallowed n hlimit, _, _, _, hk, hfetch, hstep⟩
    · rintro ⟨hlt, mk, inst, m', hk, hfetch, hstep⟩
      have hcourse : Course options m (k + 1) m' (.faulted fault) :=
        .faults hk ((allows_iff_le hlimit).mpr hlt) hfetch hstep
      obtain ⟨rfl, -, rfl⟩ := h.unique hcourse
      exact ⟨rfl, stage_of_step_error hfetch hstep, rfl⟩
  unfetched := by
    intro k fault
    constructor
    · rintro ⟨rfl, hstage, rfl⟩
      rcases h with ⟨hk, hallowed, hfetch⟩ | _ | ⟨-, -, hfetch, hstep⟩ | _
      · exact ⟨hallowed n hlimit, _, hk, hfetch⟩
      · simp [Fault.stage] at hstage
      · rw [stage_of_step_error hfetch hstep] at hstage
        simp at hstage
    · rintro ⟨hle, mk, hk, hfetch⟩
      have hcourse : Course options m k mk (.faulted fault) :=
        .unfetched hk ((allows_iff_le hlimit).mpr hle) hfetch
      obtain ⟨rfl, -, rfl⟩ := h.unique hcourse
      exact ⟨rfl, stage_of_fetch_error hfetch, rfl⟩
  exceeded := by
    intro limit
    constructor
    · rintro rfl
      obtain ⟨-, hlimit', hn, inst, hfetch⟩ := h.of_exceeded
      obtain rfl : n = limit := Option.some.inj (hlimit.symm.trans hlimit')
      exact ⟨rfl, final, inst, hn, hfetch⟩
    · rintro ⟨rfl, mn, inst, hn, hfetch⟩
      exact (h.unique (.exceeded hn hlimit hfetch)).2.2

/-- **A step limit is exact.** A run with a limit of `n` steps ends, and how it ends is
decided by the first machine it comes by that has no next one, among those after up to
`n` steps. Its executed instructions are at most `n`: the one after `k` steps is what the
machine then fetches, the machine that the run leaves is the one that all of them lead to,
and the observer has been told the events of as many steps. If the limit ended the run,
what is left is the machine after `n` steps. Unless the limit is what ended it, a run from
there with a larger limit, or with none, has the same outcome. -/
theorem run_within_limit {σ : Type} (observe : σ → Event → σ) (options : Options) (n : Nat)
    (m : Machine) (s : σ) :
    let limited := { options with tmax := some n }
    let executed := executedFrom limited limited.fuel 0 m
    let outcome := m.run observe limited limited.fuel s
    (∀ other, RunsTo observe limited m s other ↔ other = outcome)
      ∧ Budgeted options.shorten n m executed.length outcome.ending
      ∧ (∀ (k : Nat) (inst : Instruction), executed[k]? = some inst →
        ∃ mk, m.nth? k = some mk ∧ mk.fetch = .ok inst)
      ∧ outcome.machine = m.advance executed
      ∧ outcome.observer
        = (Event.start m :: m.narrate options.debug executed.length 0).foldl observe s
      ∧ (outcome.ending = .faulted (.stepLimitExceeded n) → m.nth? n = some outcome.machine)
      ∧ (outcome.ending ≠ .faulted (.stepLimitExceeded n) →
        ∀ tmax : Option Nat, (∀ limit, tmax = some limit → n ≤ limit) →
          ∀ other, RunsTo observe { options with tmax := tmax } m s other ↔ other = outcome) := by
  intro limited executed outcome
  have hlimit : limited.tmax = some n := rfl
  have hends : RunsTo observe limited m s outcome := runsTo_run hlimit
  obtain ⟨attempted, hcourse, hobserver⟩ := runsTo_iff.mp hends
  have hbudget := hcourse.budgeted hlimit
  have hlength : executed.length = attempted :=
    hcourse.length_executedFrom (hcourse.lt_fuel hlimit)
  refine ⟨fun other => hends.iff_eq, ?_, fun k inst hk => exists_nth_of_executed hk,
    machine_run observe limited limited.fuel m s, observer_run observe limited limited.fuel m s,
    ?_, ?_⟩
  · rw [hlength]
    exact hbudget
  · intro hending
    rw [hending] at hcourse
    obtain ⟨-, -, hn, -⟩ := hcourse.of_exceeded
    exact hn
  · intro hending tmax htmax other
    apply RunsTo.iff_eq
    rw [runsTo_iff]
    refine ⟨attempted, ?_, hobserver⟩
    -- the same course, for the limit did not end it
    rw [← hcourse.presented_eq]
    apply hcourse.under
    · intro k hk limit hlimit'
      exact Nat.le_trans (hk n hlimit) (htmax limit hlimit')
    · intro limit hexceeded
      obtain ⟨rfl, -⟩ := (hbudget.exceeded limit).mp hexceeded
      exact absurd hexceeded hending

-- At the limit, a program that has ended is told from one that has not.
example :
    let ending := fun program =>
      ((load program).run (fun (s : Unit) _ => s) { tmax := some 1 } 2 ()).ending
    ending #[Op.nop.tag] = .faulted (.programEnded 1)
      ∧ ending #[Op.nop.tag, Op.halt.tag] = .faulted (.stepLimitExceeded 1) := by decide

end StackMachine.Machine
