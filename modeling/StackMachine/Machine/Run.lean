/-
Running a program, with somebody watching.

A run fetches, checks the step limit, and executes, over and over. The order
matters at the limit: an instruction that cannot be fetched is reported as
such even when no step is left for it. What happens on the way is told to an
observer as a sequence of events; an observer has a state of its own and no way
to change the run.

A run need not end, so the loop has fuel. `unfinished` says that the fuel ran
out, which is not an outcome of the machine; `Options.fuel` is enough for every
run with a step limit.

`run` is the `run` of `Machine` in the package `lemu`, and `Options` is `RunOptions`. An event is a
call of a method of `Hook`.
-/
import StackMachine.Machine.Step

set_option autoImplicit false

namespace StackMachine

/-- How a run is limited and presented. -/
structure Options where
  /-- Return the live cells only. -/
  shorten : Bool := false
  /-- Report every step. -/
  debug : Bool := false
  /-- Largest number of steps. -/
  tmax : Option Nat := none
  deriving DecidableEq, Repr

/-- Loop turns that suffice: one more than the step limit, since the last turn
finds it exceeded. Without a limit, more than any computer will make. -/
def Options.fuel (options : Options) : Nat :=
  match options.tmax with
  | some limit => limit + 1
  | none => 4611686018427387904

/-- What an observer of a run is told. -/
inductive Event where
  /-- A run starts. -/
  | start (machine : Machine)
  /-- Step number `time` is about to execute an instruction. -/
  | exec (time : Nat) (inst : Instruction) (machine : Machine)
  /-- The program wrote a value. -/
  | write (value : Word)
  /-- The program asks to show the machine. -/
  | debug (machine : Machine)

/-- The event of an instruction that ended in `flow` and left `machine`. -/
def Flow.event? (flow : Flow) (machine : Machine) : Option Event :=
  match flow with
  | write value => some (.write value)
  | debug => some (.debug machine)
  | next | halt => none

/-- How a run ends. -/
inductive Ending where
  /-- The program halted and left this stack. -/
  | halted (stack : List Word)
  | faulted (fault : Fault)
  /-- The loop ran out of fuel. -/
  | unfinished
  deriving DecidableEq, Repr

/-- Where a run ended: the machine, the observer and the outcome. -/
structure Outcome (σ : Type) where
  machine : Machine
  observer : σ
  ending : Ending

/-- Where a number of steps ended: the machine, the observer and what the last
step did. -/
structure Progress (σ : Type) where
  machine : Machine
  observer : σ
  result : Except Fault Flow

namespace Machine

variable {σ : Type}

/-- The stack that a run returns: the live cells or all. -/
def returned (m : Machine) (shorten : Bool) : List Word :=
  if shorten then m.live else m.stack.toList

/-! ## Single steps -/

/-- Executes an instruction before an observer. -/
def perform (observe : σ → Event → σ) (inst : Instruction) (m : Machine) (s : σ) : Progress σ :=
  match m.step inst with
  | .ok flow after =>
    match flow.event? after with
    | some event => ⟨after, observe s event, .ok flow⟩
    | none => ⟨after, s, .ok flow⟩
  | .error fault after => ⟨after, s, .error fault⟩

/-- Fetches an instruction and executes it before an observer. -/
def tick (observe : σ → Event → σ) (m : Machine) (s : σ) : Progress σ :=
  match m.fetch with
  | .ok inst => perform observe inst m s
  | .error fault => ⟨m, s, .error fault⟩

/-- Makes up to a number of steps, and none after a halt or a fault. -/
def walk (observe : σ → Event → σ) : Nat → Machine → σ → Progress σ
  | 0, m, s => ⟨m, s, .ok .next⟩
  | n + 1, m, s =>
    let progress := tick observe m s
    match progress.result with
    | .error _ => progress
    | .ok .halt => progress
    | .ok _ => walk observe n progress.machine progress.observer

/-! ## Runs -/

/-- Goes on with a run that has made `time` steps. -/
def runFrom (observe : σ → Event → σ) (options : Options) : Nat → Nat → Machine → σ → Outcome σ
  | 0, _, m, s => ⟨m, s, .unfinished⟩
  | fuel + 1, time, m, s =>
    match m.fetch with
    | .error fault => ⟨m, s, .faulted fault⟩
    | .ok inst =>
      match options.tmax.filter (· ≤ time) with
      | some limit => ⟨m, s, .faulted (.stepLimitExceeded limit)⟩
      | none =>
        let told := if options.debug then observe s (.exec time inst m) else s
        let progress := perform observe inst m told
        match progress.result with
        | .error fault => ⟨progress.machine, progress.observer, .faulted fault⟩
        | .ok .halt =>
          ⟨progress.machine, progress.observer,
            .halted (progress.machine.returned options.shorten)⟩
        | .ok _ => runFrom observe options fuel (time + 1) progress.machine progress.observer

/-- Runs the machine from the state it is in. -/
def run (observe : σ → Event → σ) (options : Options) (fuel : Nat) (m : Machine) (s : σ) :
    Outcome σ :=
  runFrom observe options fuel 0 m (observe s (.start m))

end Machine

end StackMachine
