/-
The course of a run, without fuel and without an observer.

A run stops at the first machine it comes by that has no next one, or where its limit
is. A `Course` says where that is, what is left there and in what the run ends.

`runsTo_iff` ties this to the runs themselves: a run ends exactly if it has a course,
and the observer has then been told exactly the events of the steps that were
attempted. Whatever is said about whole runs further on is said about courses, and
`Course.after_nth` is where runs with different options are compared.
-/
import StackMachine.Proofs.Machine.Turn
import StackMachine.Proofs.Machine.Fault

set_option autoImplicit false

namespace StackMachine

/-- The ending of a run as it is for one that had made `n` steps before. -/
def Ending.later (n : Nat) : Ending → Ending
  | .faulted (.stepLimitExceeded limit) => .faulted (.stepLimitExceeded (n + limit))
  | ending => ending

theorem Ending.later_faulted {fault : Fault} (n : Nat) (h : fault.stage ≠ .counting) :
    (Ending.faulted fault).later n = .faulted fault := by
  cases fault with
  | stepLimitExceeded limit => exact absurd rfl h
  | _ => rfl

theorem Ending.later_zero (ending : Ending) : ending.later 0 = ending := by
  unfold later
  split
  · rw [Nat.zero_add]
  · rfl

namespace Machine

open Options

variable {m m' : Machine}

/-! ## Courses -/

/-- The course of a run: after how many attempted steps, on which machine and in what
it ends. -/
inductive Course (options : Options) (m : Machine) : Nat → Machine → Ending → Prop where
  /-- After `k` steps there is no instruction. The limit may be reached by then. -/
  | unfetched {k : Nat} {mk : Machine} {fault : Fault} (hk : m.nth? k = some mk)
      (hallowed : options.Allows k) (hfetch : mk.fetch = .error fault) :
      Course options m k mk (.faulted fault)
  /-- After as many steps as the limit allows there is an instruction. -/
  | exceeded {limit : Nat} {mk : Machine} {inst : Instruction} (hk : m.nth? limit = some mk)
      (hlimit : options.tmax = some limit) (hfetch : mk.fetch = .ok inst) :
      Course options m limit mk (.faulted (.stepLimitExceeded limit))
  /-- The instruction after `k` steps faults. -/
  | faults {k : Nat} {mk final : Machine} {inst : Instruction} {fault : Fault}
      (hk : m.nth? k = some mk) (hallowed : options.Allows (k + 1))
      (hfetch : mk.fetch = .ok inst) (hstep : mk.step inst = .error fault final) :
      Course options m (k + 1) final (.faulted fault)
  /-- The instruction after `k` steps halts. -/
  | halts {k : Nat} {mk final : Machine} {inst : Instruction}
      (hk : m.nth? k = some mk) (hallowed : options.Allows (k + 1))
      (hfetch : mk.fetch = .ok inst) (hstep : mk.step inst = .ok .halt final) :
      Course options m (k + 1) final (.halted (final.returned options.shorten))

namespace Course

variable {options : Options} {attempted : Nat} {final : Machine} {ending : Ending}

theorem ending_ne (h : Course options m attempted final ending) : ending ≠ .unfinished := by
  rcases h with _ | _ | _ | _
  · simp
  · simp
  · simp
  · simp

theorem allows (h : Course options m attempted final ending) : options.Allows attempted := by
  rcases h with ⟨-, hallowed, -⟩ | ⟨-, hlimit, -⟩ | ⟨-, hallowed, -, -⟩ | ⟨-, hallowed, -, -⟩
  · exact hallowed
  · exact allows_limit hlimit
  · exact hallowed
  · exact hallowed

theorem lt_fuel (h : Course options m attempted final ending) {limit : Nat}
    (hlimit : options.tmax = some limit) : attempted < options.fuel := by
  have hle := h.allows limit hlimit
  simp only [Options.fuel, hlimit]
  omega

/-- A limit ends a run between two steps. -/
theorem of_exceeded {limit : Nat}
    (h : Course options m attempted final (.faulted (.stepLimitExceeded limit))) :
    attempted = limit ∧ options.tmax = some limit ∧ m.nth? limit = some final
      ∧ ∃ inst, final.fetch = .ok inst := by
  rcases h with ⟨-, -, hfetch⟩ | ⟨hk, hlimit, hfetch⟩ | ⟨-, -, hfetch, hstep⟩ | _
  · -- the fault of any other turn arises at another stage of it
    have hstage := stage_of_fetch_error hfetch
    simp [Fault.stage] at hstage
  · exact ⟨rfl, hlimit, hk, _, hfetch⟩
  · have hstage := stage_of_step_error hfetch hstep
    simp [Fault.stage] at hstage

/-- A run with enough fuel takes its course. -/
theorem run_eq {σ : Type} (h : Course options m attempted final ending) {fuel : Nat}
    (hfuel : attempted < fuel) (observe : σ → Event → σ) (s : σ) :
    m.run observe options fuel s
      = ⟨final, (Event.start m :: m.narrate options.debug attempted 0).foldl observe s, ending⟩ := by
  obtain ⟨rest, rfl⟩ := Nat.exists_eq_add_of_lt hfuel
  rw [run, List.foldl_cons, Nat.add_assoc]
  rcases h with ⟨hk, hallowed, hfetch⟩ | ⟨hk, hlimit, hfetch⟩ | ⟨hk, hallowed, hfetch, hstep⟩
    | ⟨hk, hallowed, hfetch, hstep⟩
  · rw [runFrom_of_nth hk (by rwa [Nat.zero_add]), runFrom_of_unfetched hfetch]
  · rw [runFrom_of_nth hk (by rw [Nat.zero_add]; exact allows_limit hlimit),
      runFrom_of_exceeded hfetch hlimit (by omega)]
  -- the last step is told of, though it leads to no other
  · rw [Nat.add_assoc, runFrom_of_nth hk (hallowed.of_le (by omega)), Nat.add_comm 1,
      runFrom_of_faults hfetch (by rwa [Nat.zero_add]) hstep, narrate_add _ 1 0 hk,
      narrate_one, List.foldl_append]
  · rw [Nat.add_assoc, runFrom_of_nth hk (hallowed.of_le (by omega)), Nat.add_comm 1,
      runFrom_of_halts hfetch (by rwa [Nat.zero_add]) hstep, narrate_add _ 1 0 hk,
      narrate_one, List.foldl_append]

/-- The attempted steps are the executed instructions. -/
theorem length_executedFrom (h : Course options m attempted final ending) {fuel : Nat}
    (hfuel : attempted < fuel) : (executedFrom options fuel 0 m).length = attempted := by
  obtain ⟨rest, rfl⟩ := Nat.exists_eq_add_of_lt hfuel
  rw [Nat.add_assoc]
  rcases h with ⟨hk, hallowed, hfetch⟩ | ⟨hk, hlimit, hfetch⟩ | ⟨hk, hallowed, hfetch, hstep⟩
    | ⟨hk, hallowed, hfetch, hstep⟩
  · rw [length_executedFrom_of_nth hk (by rwa [Nat.zero_add]), executedFrom, hfetch]
    rfl
  · rw [length_executedFrom_of_nth hk (by rw [Nat.zero_add]; exact allows_limit hlimit),
      executedFrom, hfetch, Nat.zero_add]
    simp [filter_tmax_of_le hlimit (Nat.le_refl _)]
  · rw [Nat.add_assoc, length_executedFrom_of_nth hk (hallowed.of_le (by omega)), Nat.add_comm 1,
      executedFrom_of_fetch hfetch (by rwa [Nat.zero_add])]
    simp [next?, hfetch, hstep]
  · rw [Nat.add_assoc, length_executedFrom_of_nth hk (hallowed.of_le (by omega)), Nat.add_comm 1,
      executedFrom_of_fetch hfetch (by rwa [Nat.zero_add])]
    simp [next?, hfetch, hstep]

/-- Each attempted step has its instruction among the executed ones. -/
theorem getElem?_executedFrom (h : Course options m attempted final ending) {fuel k : Nat}
    (hfuel : attempted < fuel) (hlt : k < attempted) {mk : Machine} {inst : Instruction}
    (hk : m.nth? k = some mk) (hfetch : mk.fetch = .ok inst) :
    (executedFrom options fuel 0 m)[k]? = some inst := by
  refine Machine.getElem?_executedFrom hk hfetch (h.allows.of_le ?_) (by omega)
  omega

theorem unique {attempted' : Nat} {final' : Machine} {ending' : Ending}
    (h : Course options m attempted final ending)
    (h' : Course options m attempted' final' ending') :
    attempted = attempted' ∧ final = final' ∧ ending = ending' := by
  -- a run that has fuel enough for both takes both
  have hfuel : attempted < attempted + attempted' + 1 := by omega
  have hfuel' : attempted' < attempted + attempted' + 1 := by omega
  have hlength := h.length_executedFrom hfuel
  rw [h'.length_executedFrom hfuel'] at hlength
  have hrun := h.run_eq hfuel (fun (s : Unit) _ => s) ()
  rw [h'.run_eq hfuel', Outcome.mk.injEq] at hrun
  exact ⟨hlength.symm, hrun.1.symm, hrun.2.2.symm⟩

end Course

/-- A run has a course, or it may go on for as long as one likes. -/
theorem course_or_nth (options : Options) (m : Machine) (n : Nat) :
    (∃ attempted final ending, attempted ≤ n ∧ Course options m attempted final ending)
      ∨ ∃ m', m.nth? n = some m' ∧ options.Allows n := by
  induction n with
  | zero =>
    right
    refine ⟨m, rfl, ?_⟩
    intro limit _
    exact Nat.zero_le limit
  | succ n ih =>
    obtain ⟨attempted, final, ending, hle, hcourse⟩ | ⟨m', hn, hallowed⟩ := ih
    · exact .inl ⟨attempted, final, ending, by omega, hcourse⟩
    -- whether there is one step more is decided by the turn after `n` of them
    rcases turn options n m' with hfetch | ⟨hfetch, hlimit, hle⟩ | ⟨hfetch, hstepAllowed, hstep⟩
      | ⟨hfetch, hstepAllowed, hstep⟩ | ⟨hstepAllowed, hnext⟩
    · exact .inl ⟨n, m', _, by omega, .unfetched hn hallowed hfetch⟩
    · obtain rfl : n = _ := Nat.le_antisymm (hallowed _ hlimit) hle
      exact .inl ⟨n, m', _, by omega, .exceeded hn hlimit hfetch⟩
    · exact .inl ⟨n + 1, _, _, Nat.le_refl _, .faults hn hstepAllowed hfetch hstep⟩
    · exact .inl ⟨n + 1, _, _, Nat.le_refl _, .halts hn hstepAllowed hfetch hstep⟩
    · exact .inr ⟨_, nth?_succ_of_next hn hnext, hstepAllowed⟩

theorem exists_course {options : Options} {limit : Nat} (hlimit : options.tmax = some limit)
    (m : Machine) : ∃ attempted final ending, Course options m attempted final ending := by
  rcases course_or_nth options m (limit + 1) with
    ⟨attempted, final, ending, -, hcourse⟩ | ⟨m', -, h⟩
  · exact ⟨attempted, final, ending, hcourse⟩
  · have hle := h limit hlimit
    omega

/-! ## Courses under other options -/

/-- The ending that is presented for one that left a machine. -/
def presented (m : Machine) (shorten : Bool) : Ending → Ending
  | .halted _ => .halted (m.returned shorten)
  | ending => ending

namespace Course

variable {options options' : Options} {attempted n : Nat} {final : Machine} {ending : Ending}

theorem presented_eq (h : Course options m attempted final ending) :
    final.presented options.shorten ending = ending := by
  rcases h with _ | _ | _ | _
  · rfl
  · rfl
  · rfl
  · rfl

/-- A course from a machine that `n` steps lead to is the end of one that begins with these
steps, under all options that allow `n` steps more. -/
theorem after_nth (hn : m.nth? n = some m') (h : Course options m' attempted final ending)
    (hallows : ∀ k, options.Allows k → options'.Allows (n + k))
    (hlimit : ∀ limit, ending = .faulted (.stepLimitExceeded limit) →
      options'.tmax = some (n + limit)) :
    Course options' m (n + attempted) final
      ((final.presented options'.shorten ending).later n) := by
  have hreach : ∀ {k : Nat} {mk : Machine}, m'.nth? k = some mk → m.nth? (n + k) = some mk := by
    intro k mk hk
    rw [nth?_add, hn]
    exact hk
  rcases h with ⟨hk, hallowed, hfetch⟩ | ⟨hk, -, hfetch⟩ | ⟨hk, hallowed, hfetch, hstep⟩
    | ⟨hk, hallowed, hfetch, hstep⟩
  · have hstage := stage_of_fetch_error hfetch
    show Course options' m _ final ((Ending.faulted _).later n)
    rw [Ending.later_faulted n (by simp [hstage])]
    exact .unfetched (hreach hk) (hallows _ hallowed) hfetch
  · exact .exceeded (hreach hk) (hlimit _ rfl) hfetch
  · have hstage := stage_of_step_error hfetch hstep
    show Course options' m _ final ((Ending.faulted _).later n)
    rw [Ending.later_faulted n (by simp [hstage])]
    exact .faults (hreach hk) (hallows _ hallowed) hfetch hstep
  · exact .halts (hreach hk) (hallows _ hallowed) hfetch hstep

/-- A course is one under all options that allow its steps and have the limit that ended
it, if one did. -/
theorem under (h : Course options m attempted final ending)
    (hallows : ∀ k, options.Allows k → options'.Allows k)
    (hlimit : ∀ limit, ending = .faulted (.stepLimitExceeded limit) →
      options'.tmax = some limit) :
    Course options' m attempted final (final.presented options'.shorten ending) := by
  have hcourse := h.after_nth (n := 0) (m := m) rfl
    (fun k hk => by rw [Nat.zero_add]; exact hallows k hk)
    (fun limit hending => by rw [Nat.zero_add]; exact hlimit limit hending)
  rwa [Nat.zero_add, Ending.later_zero] at hcourse

end Course

/-! ## Runs that end -/

/-- A run ends, and this is its outcome. There is no fuel in this: a run that does not
end has no outcome. -/
def RunsTo {σ : Type} (observe : σ → Event → σ) (options : Options) (m : Machine) (s : σ)
    (outcome : Outcome σ) : Prop :=
  outcome.ending ≠ .unfinished ∧ ∃ fuel, m.run observe options fuel s = outcome

section Ended

variable {σ : Type} {observe : σ → Event → σ} {options : Options} {s : σ} {outcome : Outcome σ}

/-- **Runs take their course.** A run ends if and only if it has a course. The machine
and the ending are then those of the course, and the observer has been told the start
and the attempted steps. -/
theorem runsTo_iff :
    RunsTo observe options m s outcome
      ↔ ∃ attempted, Course options m attempted outcome.machine outcome.ending
        ∧ outcome.observer
          = (Event.start m :: m.narrate options.debug attempted 0).foldl observe s := by
  constructor
  · rintro ⟨hfinished, fuel, rfl⟩
    rcases course_or_nth options m fuel with
      ⟨attempted, final, ending, hle, hcourse⟩ | ⟨m', hn, hallowed⟩
    · -- as the run has ended, it has fuel to spare and takes its course
      have hrun := runFrom_succ_of_finished hfinished
      rw [← run, ← run, hcourse.run_eq (by omega)] at hrun
      rw [← hrun]
      exact ⟨attempted, hcourse, rfl⟩
    · -- all fuel was used for steps
      rw [run, ← Nat.add_zero fuel, runFrom_of_nth hn (by rwa [Nat.zero_add])] at hfinished
      exact absurd rfl hfinished
  · rintro ⟨attempted, hcourse, hobserver⟩
    refine ⟨hcourse.ending_ne, attempted + 1, ?_⟩
    rw [hcourse.run_eq (Nat.lt_succ_self _), ← hobserver]

theorem RunsTo.unique {outcome' : Outcome σ} (h : RunsTo observe options m s outcome)
    (h' : RunsTo observe options m s outcome') : outcome = outcome' := by
  obtain ⟨attempted, hcourse, hobserver⟩ := runsTo_iff.mp h
  obtain ⟨attempted', hcourse', hobserver'⟩ := runsTo_iff.mp h'
  obtain ⟨rfl, hmachine, hending⟩ := hcourse.unique hcourse'
  rcases outcome with ⟨machine, observer, ending⟩
  rcases outcome' with ⟨machine', observer', ending'⟩
  simp_all

theorem RunsTo.iff_eq (h : RunsTo observe options m s outcome) {other : Outcome σ} :
    RunsTo observe options m s other ↔ other = outcome := by
  constructor
  · intro hother
    exact hother.unique h
  · rintro rfl
    exact h

/-- A run that has a course ends, if its fuel is enough for it. -/
theorem Course.runsTo {attempted fuel : Nat} {final : Machine} {ending : Ending}
    (h : Course options m attempted final ending) (hfuel : attempted < fuel) :
    RunsTo observe options m s (m.run observe options fuel s) := by
  rw [h.run_eq hfuel, runsTo_iff]
  exact ⟨attempted, h, rfl⟩

/-- With a limit, the fuel is enough. -/
theorem runsTo_run {limit : Nat} (hlimit : options.tmax = some limit) :
    RunsTo observe options m s (m.run observe options options.fuel s) := by
  obtain ⟨attempted, final, ending, hcourse⟩ := exists_course hlimit m
  exact hcourse.runsTo (hcourse.lt_fuel hlimit)

end Ended

end Machine

end StackMachine
