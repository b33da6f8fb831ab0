/-
The steps of a run, and one turn of its loop.

`next?` is one step that leads to another, and `nth?` is any number of them: these
are the machines that a run comes by. What an observer hears on the way is a list of
events that depends on the steps alone (`narrate`); neither fuel nor the observer is
in these definitions.

A turn of the loop goes one of five ways. `Turn` lists them once, with what is known in
each, and for each there is an equation of `runFrom`. So whatever is said about runs by
induction has these five cases, and nothing else unfolds the loop.

The executed instructions are those that the machines on the way fetch, and a run leaves an
observer that has been told the events of as many steps (`observer_run`).
-/
import StackMachine.Proofs.Machine.Session

set_option autoImplicit false

namespace StackMachine

/-- A run may make `n` steps. -/
def Options.Allows (options : Options) (n : Nat) : Prop :=
  ∀ limit, options.tmax = some limit → n ≤ limit

theorem Options.Allows.of_le {options : Options} {n n' : Nat} (h : options.Allows n)
    (hle : n' ≤ n) : options.Allows n' := by
  intro limit hlimit
  exact Nat.le_trans hle (h limit hlimit)

theorem Options.allows_limit {options : Options} {limit : Nat}
    (h : options.tmax = some limit) : options.Allows limit := by
  intro limit' h'
  rw [h, Option.some.injEq] at h'
  omega

namespace Machine

open Exec Options

/-! ## Steps -/

/-- The machine after a step that leads to another: one that neither faults nor
halts. -/
def next? (m : Machine) : Option Machine :=
  match m.fetch with
  | .error _ => none
  | .ok inst =>
    match m.step inst with
    | .error _ _ => none
    | .ok .halt _ => none
    | .ok _ m' => some m'

/-- The machine after `n` steps that each lead to another. -/
def nth? : Nat → Machine → Option Machine
  | 0, m => some m
  | n + 1, m => m.next?.bind (nth? n)

/-- What an instruction shows to an observer. -/
def shown (inst : Instruction) (m : Machine) : List Event :=
  match m.step inst with
  | .error _ _ => []
  | .ok flow m' => (flow.event? m').toList

/-- What an observer is told of the step that a machine attempts. -/
def told (debug : Bool) (time : Nat) (m : Machine) : List Event :=
  match m.fetch with
  | .error _ => []
  | .ok inst => (if debug then [.exec time inst m] else []) ++ m.shown inst

/-- What an observer is told of the first `n` steps, if the first of them has the
number `time`. -/
def narrate (debug : Bool) : Nat → Nat → Machine → List Event
  | 0, _, _ => []
  | n + 1, time, m => m.told debug time ++ m.next?.elim [] (narrate debug n (time + 1))

variable {m m' : Machine}

theorem next?_eq_some_iff :
    m.next? = some m'
      ↔ ∃ inst flow, m.fetch = .ok inst ∧ m.step inst = .ok flow m' ∧ flow ≠ .halt := by
  unfold next?
  rcases m.fetch with fault | inst
  · simp
  · rcases hstep : m.step inst with ⟨flow, after⟩ | ⟨fault, after⟩
    · rcases flow with _ | value | _ | _
      · simp [hstep]
      · simp [hstep]
      · simp [hstep]
      · simp [hstep]
    · simp [hstep]

theorem nth?_succ_eq_some_iff {n : Nat} {last : Machine} :
    m.nth? (n + 1) = some last ↔ ∃ m', m.next? = some m' ∧ m'.nth? n = some last := by
  rw [nth?, Option.bind_eq_some_iff]

theorem nth?_add (j k : Nat) (m : Machine) : m.nth? (j + k) = (m.nth? j).bind (nth? k) := by
  induction j generalizing m with
  | zero => rw [Nat.zero_add, nth?, Option.bind_some]
  | succ j ih =>
    rw [Nat.succ_add, nth?, nth?]
    rcases m.next? with _ | m'
    · rfl
    · exact ih m'

theorem nth?_succ_of_next {k : Nat} {last : Machine} (hk : m.nth? k = some m')
    (hnext : m'.next? = some last) : m.nth? (k + 1) = some last := by
  rw [nth?_add, hk, Option.bind_some, nth?_succ_eq_some_iff]
  exact ⟨last, hnext, rfl⟩

theorem exists_nth_of_succ {k : Nat} {last : Machine} (h : m.nth? (k + 1) = some last) :
    ∃ mk, m.nth? k = some mk ∧ mk.next? = some last := by
  rw [nth?_add, Option.bind_eq_some_iff] at h
  obtain ⟨mk, hk, hlast⟩ := h
  obtain ⟨_, hnext, hsame⟩ := nth?_succ_eq_some_iff.mp hlast
  obtain rfl := Option.some.inj hsame
  exact ⟨mk, hk, hnext⟩

theorem narrate_one (debug : Bool) (time : Nat) (m : Machine) :
    m.narrate debug 1 time = m.told debug time := by
  rw [narrate]
  rcases m.next? with _ | m'
  · exact List.append_nil _
  · exact List.append_nil _

theorem narrate_add {n : Nat} (debug : Bool) (k time : Nat) (hn : m.nth? n = some m') :
    m.narrate debug (n + k) time = m.narrate debug n time ++ m'.narrate debug k (time + n) := by
  induction n generalizing m time with
  | zero =>
    obtain rfl : m = m' := Option.some.inj hn
    rw [Nat.zero_add, narrate, List.nil_append, Nat.add_zero]
  | succ n ih =>
    obtain ⟨m₁, hnext, hrest⟩ := nth?_succ_eq_some_iff.mp hn
    rw [Nat.succ_add, narrate, narrate, hnext]
    show m.told debug time ++ m₁.narrate debug (n + k) (time + 1)
      = m.told debug time ++ m₁.narrate debug n (time + 1) ++ m'.narrate debug k (time + (n + 1))
    rw [ih (time + 1) hrest, List.append_assoc, Nat.add_right_comm, Nat.add_assoc]

/-! ## One turn of the loop -/

/-- What can happen in the turn of a run that has made `time` steps. -/
inductive Turn (options : Options) (time : Nat) (m : Machine) : Prop where
  /-- There is no instruction. -/
  | unfetched {fault : Fault} (hfetch : m.fetch = .error fault)
  /-- There is one, and no step is left for it. -/
  | exceeded {inst : Instruction} {limit : Nat} (hfetch : m.fetch = .ok inst)
      (hlimit : options.tmax = some limit) (hle : limit ≤ time)
  | faults {inst : Instruction} {fault : Fault} {m' : Machine} (hfetch : m.fetch = .ok inst)
      (hallowed : options.Allows (time + 1)) (hstep : m.step inst = .error fault m')
  | halts {inst : Instruction} {m' : Machine} (hfetch : m.fetch = .ok inst)
      (hallowed : options.Allows (time + 1)) (hstep : m.step inst = .ok .halt m')
  | goes {m' : Machine} (hallowed : options.Allows (time + 1)) (hnext : m.next? = some m')

theorem turn (options : Options) (time : Nat) (m : Machine) : Turn options time m := by
  rcases hfetch : m.fetch with fault | inst
  · exact .unfetched hfetch
  by_cases hallowed : options.Allows (time + 1)
  · rcases hstep : m.step inst with ⟨flow, m'⟩ | ⟨fault, m'⟩
    · by_cases hhalt : flow = .halt
      · subst hhalt
        exact .halts hfetch hallowed hstep
      · exact .goes hallowed (next?_eq_some_iff.mpr ⟨inst, flow, hfetch, hstep, hhalt⟩)
    · exact .faults hfetch hallowed hstep
  · -- a step too many can only be one because there is a limit
    unfold Options.Allows at hallowed
    push Not at hallowed
    obtain ⟨limit, hlimit, hlt⟩ := hallowed
    exact .exceeded hfetch hlimit (by omega)

section Observed

variable {σ : Type} {observe : σ → Event → σ} {options : Options} {fuel time : Nat} {s : σ}

theorem filter_tmax_of_allows (h : options.Allows (time + 1)) :
    options.tmax.filter (· ≤ time) = none := by
  rcases hlimit : options.tmax with _ | limit
  · rfl
  · have hle := h limit hlimit
    rw [Option.filter_some, if_neg]
    simp only [decide_eq_true_eq]
    omega

theorem filter_tmax_of_le {limit : Nat} (hlimit : options.tmax = some limit) (hle : limit ≤ time) :
    options.tmax.filter (· ≤ time) = some limit := by
  rw [hlimit, Option.filter_some, if_pos]
  simpa using hle

theorem observer_perform (inst : Instruction) (m : Machine) (s : σ) :
    (m.perform observe inst s).observer = (m.shown inst).foldl observe s := by
  unfold perform shown
  rcases m.step inst with ⟨flow, m'⟩ | ⟨fault, m'⟩
  · dsimp only
    rcases flow.event? m' with _ | event
    · rfl
    · rfl
  · rfl

theorem observer_attempt {inst : Instruction} (hfetch : m.fetch = .ok inst) :
    (m.perform observe inst (if options.debug then observe s (.exec time inst m) else s)).observer
      = (m.told options.debug time).foldl observe s := by
  rw [observer_perform, told, hfetch, List.foldl_append]
  rcases options.debug with _ | _
  · rfl
  · rfl

theorem runFrom_of_unfetched {fault : Fault} (hfetch : m.fetch = .error fault) :
    m.runFrom observe options (fuel + 1) time s = ⟨m, s, .faulted fault⟩ := by
  rw [runFrom, hfetch]

theorem runFrom_of_exceeded {inst : Instruction} {limit : Nat} (hfetch : m.fetch = .ok inst)
    (hlimit : options.tmax = some limit) (hle : limit ≤ time) :
    m.runFrom observe options (fuel + 1) time s
      = ⟨m, s, .faulted (.stepLimitExceeded limit)⟩ := by
  rw [runFrom, hfetch]
  simp only [filter_tmax_of_le hlimit hle]

theorem runFrom_of_faults {inst : Instruction} {fault : Fault} (hfetch : m.fetch = .ok inst)
    (hallowed : options.Allows (time + 1)) (hstep : m.step inst = .error fault m') :
    m.runFrom observe options (fuel + 1) time s
      = ⟨m', (m.told options.debug time).foldl observe s, .faulted fault⟩ := by
  rw [runFrom, hfetch, ← observer_attempt hfetch]
  simp only [filter_tmax_of_allows hallowed, perform_of_error observe hstep]

theorem runFrom_of_halts {inst : Instruction} (hfetch : m.fetch = .ok inst)
    (hallowed : options.Allows (time + 1)) (hstep : m.step inst = .ok .halt m') :
    m.runFrom observe options (fuel + 1) time s
      = ⟨m', (m.told options.debug time).foldl observe s,
          .halted (m'.returned options.shorten)⟩ := by
  rw [runFrom, hfetch, ← observer_attempt hfetch]
  simp only [filter_tmax_of_allows hallowed, perform_of_ok observe hstep]

theorem runFrom_of_goes (hallowed : options.Allows (time + 1)) (hnext : m.next? = some m') :
    m.runFrom observe options (fuel + 1) time s
      = m'.runFrom observe options fuel (time + 1)
          ((m.told options.debug time).foldl observe s) := by
  obtain ⟨inst, flow, hfetch, hstep, hhalt⟩ := next?_eq_some_iff.mp hnext
  rw [runFrom, hfetch, ← observer_attempt hfetch]
  simp only [filter_tmax_of_allows hallowed, perform_of_ok observe hstep]

/-- More fuel does not change how a run ends. -/
theorem runFrom_succ_of_finished
    (h : (m.runFrom observe options fuel time s).ending ≠ .unfinished) :
    m.runFrom observe options (fuel + 1) time s = m.runFrom observe options fuel time s := by
  induction fuel generalizing m time s with
  | zero => exact absurd rfl h
  | succ fuel ih =>
    rcases turn options time m with hfetch | ⟨hfetch, hlimit, hle⟩ | ⟨hfetch, hallowed, hstep⟩
      | ⟨hfetch, hallowed, hstep⟩ | ⟨hallowed, hnext⟩
    · rw [runFrom_of_unfetched hfetch, runFrom_of_unfetched hfetch]
    · rw [runFrom_of_exceeded hfetch hlimit hle, runFrom_of_exceeded hfetch hlimit hle]
    · rw [runFrom_of_faults hfetch hallowed hstep, runFrom_of_faults hfetch hallowed hstep]
    · rw [runFrom_of_halts hfetch hallowed hstep, runFrom_of_halts hfetch hallowed hstep]
    · rw [runFrom_of_goes hallowed hnext] at h
      rw [runFrom_of_goes hallowed hnext, runFrom_of_goes hallowed hnext]
      exact ih h

/-- A run comes by every machine that allowed steps lead to. -/
theorem runFrom_of_nth {k : Nat} (hk : m.nth? k = some m') (hallowed : options.Allows (time + k)) :
    m.runFrom observe options (k + fuel) time s
      = m'.runFrom observe options fuel (time + k)
          ((m.narrate options.debug k time).foldl observe s) := by
  induction k generalizing m time s with
  | zero =>
    obtain rfl : m = m' := Option.some.inj hk
    rw [Nat.zero_add, Nat.add_zero, narrate, List.foldl_nil]
  | succ k ih =>
    obtain ⟨m₁, hnext, hrest⟩ := nth?_succ_eq_some_iff.mp hk
    have hlater : time + 1 + k = time + (k + 1) := by omega
    rw [Nat.succ_add, runFrom_of_goes (hallowed.of_le (by omega)) hnext, narrate, hnext,
      Option.elim_some, List.foldl_append]
    rw [ih hrest (hlater ▸ hallowed), hlater]

end Observed

/-! ## Executed instructions -/

section Executed

variable {options : Options} {fuel time : Nat}

/-- A step that is allowed is an instruction executed, and those after it follow. -/
theorem executedFrom_of_fetch {inst : Instruction} (hfetch : m.fetch = .ok inst)
    (hallowed : options.Allows (time + 1)) :
    executedFrom options (fuel + 1) time m
      = inst :: m.next?.elim [] (executedFrom options fuel (time + 1)) := by
  rw [executedFrom, next?, hfetch]
  simp only [filter_tmax_of_allows hallowed]
  rcases m.step inst with ⟨flow, m'⟩ | ⟨fault, m'⟩
  · rcases flow with _ | value | _ | _
    · rfl
    · rfl
    · rfl
    · rfl
  · rfl

theorem executedFrom_of_goes {inst : Instruction} (hfetch : m.fetch = .ok inst)
    (hallowed : options.Allows (time + 1)) (hnext : m.next? = some m') :
    executedFrom options (fuel + 1) time m = inst :: executedFrom options fuel (time + 1) m' := by
  rw [executedFrom_of_fetch hfetch hallowed, hnext, Option.elim_some]

/-- The executed instructions are as many as the steps that a run has come by, and
those from there on. -/
theorem length_executedFrom_of_nth {k : Nat} (hk : m.nth? k = some m')
    (hallowed : options.Allows (time + k)) :
    (executedFrom options (k + fuel) time m).length
      = k + (executedFrom options fuel (time + k) m').length := by
  induction k generalizing m time with
  | zero =>
    obtain rfl : m = m' := Option.some.inj hk
    rw [Nat.zero_add, Nat.add_zero, Nat.zero_add]
  | succ k ih =>
    obtain ⟨m₁, hnext, hrest⟩ := nth?_succ_eq_some_iff.mp hk
    obtain ⟨inst, -, hfetch, -, -⟩ := next?_eq_some_iff.mp hnext
    have hlater : time + 1 + k = time + (k + 1) := by omega
    rw [Nat.succ_add, executedFrom_of_goes hfetch (hallowed.of_le (by omega)) hnext,
      List.length_cons, ih hrest (hlater ▸ hallowed), hlater]
    omega

/-- Among the executed instructions stands, in its place, what a run fetches after `k`
steps. -/
theorem getElem?_executedFrom {k : Nat} {inst : Instruction} (hk : m.nth? k = some m')
    (hfetch : m'.fetch = .ok inst) (hallowed : options.Allows (time + k + 1)) (hfuel : k < fuel) :
    (executedFrom options fuel time m)[k]? = some inst := by
  induction k generalizing m fuel time with
  | zero =>
    obtain rfl : m = m' := Option.some.inj hk
    obtain ⟨fuel, rfl⟩ := Nat.exists_eq_add_of_lt hfuel
    rw [executedFrom_of_fetch hfetch hallowed, List.getElem?_cons_zero]
  | succ k ih =>
    obtain ⟨m₁, hnext, hrest⟩ := nth?_succ_eq_some_iff.mp hk
    obtain ⟨first, -, hfirst, -, -⟩ := next?_eq_some_iff.mp hnext
    obtain ⟨fuel, rfl⟩ := Nat.exists_eq_add_of_lt (Nat.zero_lt_of_lt hfuel)
    rw [executedFrom_of_goes hfirst (hallowed.of_le (by omega)) hnext, List.getElem?_cons_succ]
    refine ih hrest ?_ (by omega)
    rwa [Nat.add_right_comm time 1 k]

/-- A turn executes nothing, or it executes what the machine fetches. -/
theorem executedFrom_succ_cases (options : Options) (fuel time : Nat) (m : Machine) :
    executedFrom options (fuel + 1) time m = []
      ∨ ∃ inst, m.fetch = .ok inst ∧ executedFrom options (fuel + 1) time m
        = inst :: m.next?.elim [] (executedFrom options fuel (time + 1)) := by
  rcases turn options time m with hfetch | ⟨hfetch, hlimit, hle⟩ | ⟨hfetch, hallowed, -⟩
    | ⟨hfetch, hallowed, -⟩ | ⟨hallowed, hnext⟩
  · left
    rw [executedFrom, hfetch]
  · left
    rw [executedFrom, hfetch]
    simp only [filter_tmax_of_le hlimit hle]
  · exact .inr ⟨_, hfetch, executedFrom_of_fetch hfetch hallowed⟩
  · exact .inr ⟨_, hfetch, executedFrom_of_fetch hfetch hallowed⟩
  · obtain ⟨inst, -, hfetch, -, -⟩ := next?_eq_some_iff.mp hnext
    exact .inr ⟨inst, hfetch, executedFrom_of_fetch hfetch hallowed⟩

/-- Nothing else stands there: an executed instruction is what the machine fetches after as
many steps. -/
theorem exists_nth_of_executed {k : Nat} {inst : Instruction}
    (h : (executedFrom options fuel time m)[k]? = some inst) :
    ∃ mk, m.nth? k = some mk ∧ mk.fetch = .ok inst := by
  induction fuel generalizing k time m with
  | zero => simp [executedFrom] at h
  | succ fuel ih =>
    rcases executedFrom_succ_cases options fuel time m with hnil | ⟨first, hfetch, hcons⟩
    · simp [hnil] at h
    rw [hcons] at h
    rcases k with _ | k
    · obtain rfl : first = inst := by simpa using h
      exact ⟨m, rfl, hfetch⟩
    · rw [List.getElem?_cons_succ] at h
      rcases hnext : m.next? with _ | m'
      · simp [hnext] at h
      · rw [hnext, Option.elim_some] at h
        obtain ⟨mk, hk, hinst⟩ := ih h
        exact ⟨mk, nth?_succ_eq_some_iff.mpr ⟨m', hnext, hk⟩, hinst⟩

end Executed

/-! ## The events of a run -/

/-- What a run tells its observer: the start and then, step by step, what there is to tell
of the instructions that it executes. -/
def events (options : Options) (fuel : Nat) (m : Machine) : List Event :=
  .start m :: m.narrate options.debug (executedFrom options fuel 0 m).length 0

section Observed

variable {σ τ : Type} (observe : σ → Event → σ) (observe' : τ → Event → τ) (options : Options)
  (fuel time : Nat) (m : Machine) (s : σ) (s' : τ)

/-- From whatever step it goes on, a run does the same before two observers, and each is told
the same. -/
theorem runFrom_eq :
    m.runFrom observe options fuel time s
      = ⟨(m.runFrom observe' options fuel time s').machine,
          (m.narrate options.debug (executedFrom options fuel time m).length time).foldl observe s,
          (m.runFrom observe' options fuel time s').ending⟩ := by
  induction fuel generalizing time m s s' with
  | zero => rfl
  | succ fuel ih =>
    rcases turn options time m with hfetch | ⟨hfetch, hlimit, hle⟩ | ⟨hfetch, hallowed, hstep⟩
      | ⟨hfetch, hallowed, hstep⟩ | ⟨hallowed, hnext⟩
    · rw [runFrom_of_unfetched hfetch, runFrom_of_unfetched hfetch, executedFrom, hfetch]
      rfl
    · rw [runFrom_of_exceeded hfetch hlimit hle, runFrom_of_exceeded hfetch hlimit hle,
        executedFrom, hfetch]
      simp only [filter_tmax_of_le hlimit hle]
      rfl
    -- the step that ends the run is executed and told of, and none follows it
    · have hnone : m.next? = none := by simp [next?, hfetch, hstep]
      rw [runFrom_of_faults hfetch hallowed hstep, runFrom_of_faults hfetch hallowed hstep,
        executedFrom_of_fetch hfetch hallowed, hnone, Option.elim_none, List.length_singleton,
        narrate_one]
    · have hnone : m.next? = none := by simp [next?, hfetch, hstep]
      rw [runFrom_of_halts hfetch hallowed hstep, runFrom_of_halts hfetch hallowed hstep,
        executedFrom_of_fetch hfetch hallowed, hnone, Option.elim_none, List.length_singleton,
        narrate_one]
    · obtain ⟨inst, -, hfetch, -, -⟩ := next?_eq_some_iff.mp hnext
      rw [runFrom_of_goes hallowed hnext, runFrom_of_goes hallowed hnext,
        executedFrom_of_goes hfetch hallowed hnext, List.length_cons, narrate, hnext,
        Option.elim_some, List.foldl_append]
      exact ih _ _ _ _

/-- **Runs do not depend on who watches.** Before two observers a run does the same, and
each is told its events. -/
theorem run_eq :
    m.run observe options fuel s
      = ⟨(m.run observe' options fuel s').machine, (m.events options fuel).foldl observe s,
          (m.run observe' options fuel s').ending⟩ :=
  runFrom_eq observe observe' options fuel 0 m (observe s (.start m)) (observe' s' (.start m))

/-- A run leaves an observer that has been told its events. -/
theorem observer_run :
    (m.run observe options fuel s).observer = (m.events options fuel).foldl observe s := by
  rw [run_eq observe observe options fuel m s s]

end Observed

end Machine

end StackMachine
