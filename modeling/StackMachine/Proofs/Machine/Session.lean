/-
The pointers of a machine, whatever is asked of it.

A machine can be asked to execute what it fetches, to execute any instruction at
all, and to run; and after a fault or a halt it can be asked again. All of this is
to execute one instruction after the other, so a `Session` keeps, besides the
machine, the instructions that were executed so far, and its machine is always the
one that these lead to (`machine_serveAll`). What moves and shifts keep then holds
throughout a session, between requests and inside of them; `session_sound` says
what that means for the two pointers and for the stack accesses.
-/
import StackMachine.Proofs.Machine.Cells
import StackMachine.Proofs.Machine.Move
import StackMachine.Machine.Run
import Mathlib.Data.List.Basic

set_option autoImplicit false

namespace StackMachine.Machine

open Exec

/-! ## Instructions in sequence -/

/-- The machine after an instruction, whether it completes or faults. -/
def after (m : Machine) (inst : Instruction) : Machine :=
  final (m.step inst)

/-- The machine after instructions one after the other, whatever they end in. -/
def advance (m : Machine) (insts : List Instruction) : Machine :=
  insts.foldl after m

/-- Those that complete of instructions executed one after the other. -/
def completed (m : Machine) : List Instruction → List Instruction
  | [] => []
  | inst :: insts =>
    match m.step inst with
    | .ok _ m' => inst :: completed m' insts
    | .error _ m' => completed m' insts

@[simp] theorem advance_nil (m : Machine) : m.advance [] = m := rfl

@[simp] theorem advance_cons (m : Machine) (inst : Instruction) (insts : List Instruction) :
    m.advance (inst :: insts) = (m.after inst).advance insts := rfl

theorem advance_append (m : Machine) (insts insts' : List Instruction) :
    m.advance (insts ++ insts') = (m.advance insts).advance insts' :=
  List.foldl_append

/-- What is kept holds after any instructions, if those that complete are
allowed. -/
theorem Kept.advance {allowed : Op → Prop} {P : Machine → Prop} (h : Kept allowed P)
    (insts : List Instruction) {m : Machine} (hm : P m)
    (hallowed : ∀ inst ∈ m.completed insts, allowed inst.op) : P (m.advance insts) := by
  induction insts generalizing m with
  | nil => exact hm
  | cons inst insts ih =>
    rw [advance_cons, after]
    -- only an instruction that completes has to be allowed
    rw [completed] at hallowed
    rcases hstep : m.step inst with ⟨flow, m'⟩ | ⟨fault, m'⟩
    · rw [hstep] at hallowed
      have hop : allowed inst.op := hallowed inst List.mem_cons_self
      apply ih (h.of_step_ok hop hstep hm)
      intro other hother
      exact hallowed other (List.mem_cons_of_mem inst hother)
    · rw [hstep] at hallowed
      exact ih (h.of_step_error hstep hm) hallowed

/-! ## Sessions -/

/-- What a machine can be asked for. A run is given fuel, and where that runs out
the session goes on with the machine as it is then. -/
inductive Request where
  /-- To fetch an instruction and execute it. -/
  | tick
  /-- To execute an instruction, which need not stand in the program. -/
  | exec (inst : Instruction)
  /-- To run. -/
  | run (options : Options) (fuel : Nat)
  deriving DecidableEq, Repr

/-- The instructions that a run executes, the one it stops at included. -/
def executedFrom (options : Options) : Nat → Nat → Machine → List Instruction
  | 0, _, _ => []
  | fuel + 1, time, m =>
    match m.fetch with
    | .error _ => []
    | .ok inst =>
      match options.tmax.filter (· ≤ time) with
      | some _ => []
      | none =>
        match m.step inst with
        | .error _ _ => [inst]
        | .ok .halt _ => [inst]
        | .ok _ m' => inst :: executedFrom options fuel (time + 1) m'

/-- The instructions that a machine executes when it is asked. -/
def Request.executed (m : Machine) : Request → List Instruction
  | tick =>
    match m.fetch with
    | .ok inst => [inst]
    | .error _ => []
  | exec inst => [inst]
  | run options fuel => executedFrom options fuel 0 m

/-- A machine and its observer, with the instructions executed so far. -/
structure Session (σ : Type) where
  machine : Machine
  observer : σ
  executed : List Instruction

namespace Session

variable {σ : Type}

/-- A session with a machine about to run a program. -/
def start (program : Program) (s : σ) : Session σ :=
  ⟨load program, s, []⟩

/-- Does what is asked for. -/
def serve (observe : σ → Event → σ) (session : Session σ) (request : Request) : Session σ :=
  let executed := session.executed ++ request.executed session.machine
  match request with
  | .tick =>
    let progress := session.machine.tick observe session.observer
    ⟨progress.machine, progress.observer, executed⟩
  | .exec inst =>
    let progress := session.machine.perform observe inst session.observer
    ⟨progress.machine, progress.observer, executed⟩
  | .run options fuel =>
    let outcome := session.machine.run observe options fuel session.observer
    ⟨outcome.machine, outcome.observer, executed⟩

/-- Does what is asked for, request after request. -/
def serveAll (observe : σ → Event → σ) (session : Session σ) (requests : List Request) :
    Session σ :=
  requests.foldl (serve observe) session

end Session

section Served

variable {σ : Type} (observe : σ → Event → σ)

theorem perform_of_ok {inst : Instruction} {m m' : Machine} {flow : Flow}
    (h : m.step inst = .ok flow m') (s : σ) :
    (m.perform observe inst s).machine = m' ∧ (m.perform observe inst s).result = .ok flow := by
  unfold perform
  rw [h]
  rcases hevent : flow.event? m' with _ | event
  · simp [hevent]
  · simp [hevent]

theorem perform_of_error {inst : Instruction} {m m' : Machine} {fault : Fault}
    (h : m.step inst = .error fault m') (s : σ) :
    m.perform observe inst s = ⟨m', s, .error fault⟩ := by
  unfold perform
  rw [h]

theorem machine_perform (inst : Instruction) (m : Machine) (s : σ) :
    (m.perform observe inst s).machine = m.after inst := by
  rcases h : m.step inst with ⟨flow, m'⟩ | ⟨fault, m'⟩
  · rw [(perform_of_ok observe h s).1, after, h, final_ok]
  · rw [perform_of_error observe h s, after, h, final_error]

theorem machine_tick (m : Machine) (s : σ) :
    (m.tick observe s).machine = m.advance (Request.tick.executed m) := by
  rw [tick, Request.executed]
  rcases m.fetch with fault | inst
  · rfl
  · exact machine_perform observe inst m s

/-- From whatever step it goes on, a run leaves the machine that its instructions lead to. -/
theorem machine_runFrom (options : Options) (fuel time : Nat) (m : Machine) (s : σ) :
    (m.runFrom observe options fuel time s).machine
      = m.advance (executedFrom options fuel time m) := by
  induction fuel generalizing time m s with
  | zero => rfl
  | succ fuel ih =>
    rw [runFrom, executedFrom]
    rcases hfetch : m.fetch with fault | inst
    · rfl
    rcases hlimit : options.tmax.filter (· ≤ time) with _ | limit
    · dsimp only
      -- what the observer is told before the step does not reach the machine
      generalize (if options.debug then observe s (.exec time inst m) else s) = told
      rcases hstep : m.step inst with ⟨flow, m'⟩ | ⟨fault, m'⟩
      · obtain ⟨hmachine, hresult⟩ := perform_of_ok observe hstep told
        have hafter : m.after inst = m' := by rw [after, hstep, final_ok]
        -- whatever the observer has become, the rest of the run is as without it
        have hrest : ∀ s' : σ, (m'.runFrom observe options fuel (time + 1) s').machine
            = m.advance (inst :: executedFrom options fuel (time + 1) m') := by
          intro s'
          rw [advance_cons, hafter]
          exact ih (time + 1) m' s'
        rw [hresult, hmachine]
        rcases flow with _ | value | _ | _
        · exact hrest _
        · exact hrest _
        · exact hrest _
        · show m' = m.advance [inst]
          rw [advance_cons, advance_nil, hafter]
      · rw [perform_of_error observe hstep told]
        show m' = m.advance [inst]
        rw [advance_cons, advance_nil, after, hstep, final_error]
    · rfl

/-- A run leaves the machine that its instructions lead to. -/
theorem machine_run (options : Options) (fuel : Nat) (m : Machine) (s : σ) :
    (m.run observe options fuel s).machine = m.advance (executedFrom options fuel 0 m) :=
  machine_runFrom observe options fuel 0 m (observe s (.start m))

theorem machine_serve (session : Session σ) (request : Request) :
    (session.serve observe request).machine
      = session.machine.advance (request.executed session.machine) := by
  rcases request with _ | inst | ⟨options, fuel⟩
  · exact machine_tick observe session.machine session.observer
  · exact machine_perform observe inst session.machine session.observer
  · exact machine_run observe options fuel session.machine session.observer

theorem executed_serve (session : Session σ) (request : Request) :
    (session.serve observe request).executed
      = session.executed ++ request.executed session.machine := by
  rcases request with _ | inst | ⟨options, fuel⟩
  · rfl
  · rfl
  · rfl

/-- **Sessions are sequences of instructions.** A machine that a session's
instructions lead to is, after further requests, still the one that they lead to. -/
theorem machine_serveAll {m : Machine} (requests : List Request) {session : Session σ}
    (h : session.machine = m.advance session.executed) :
    (session.serveAll observe requests).machine
      = m.advance (session.serveAll observe requests).executed := by
  induction requests generalizing session with
  | nil => exact h
  | cons request requests ih =>
    apply ih
    rw [machine_serve, executed_serve, advance_append, ← h]

end Served

/-! ## Stack accesses -/

/-- What is read and written on a machine, on behalf of an instruction, is a cell
of the stack: the live cells are all there, a value that is taken was in a cell,
and one that is pushed is in a cell afterwards. -/
structure InBounds (inst : Instruction) (m : Machine) : Prop where
  live : m.live.length = m.sp
  pop : ∀ {value : Word} {m' : Machine}, Exec.pop inst m = .ok value m' →
    m'.sp < stackCapacity ∧ m.stack[m'.sp]? = some value
  push : ∀ {value : Word} {m' : Machine}, Exec.push inst value m = .ok () m' →
    m.sp < stackCapacity ∧ m'.stack[m.sp]? = some value

theorem inBounds_of_bound {inst : Instruction} {m : Machine} (h : m.sp ≤ stackCapacity) :
    InBounds inst m where
  live := length_live h
  pop := by
    intro value m' hpop
    obtain ⟨hsp, rfl, rfl⟩ := pop_eq_ok_iff.mp hpop
    have hlt : m.sp - 1 < stackCapacity := by omega
    refine ⟨hlt, ?_⟩
    simp [hlt]
  push := by
    intro value m' hpush
    obtain ⟨hsp, rfl⟩ := push_eq_ok_iff.mp hpush
    refine ⟨hsp, ?_⟩
    simp [hsp]

/-! ## The invariant -/

/-- What holds of a machine on which, of all instructions so far, `done` have
completed. -/
structure Sound (done : List Instruction) (m : Machine) : Prop where
  /-- The live cells are cells of the stack. -/
  bound : m.sp ≤ stackCapacity
  /-- Without raising, the stack pointer is not above the frame pointer. -/
  below : (∀ inst ∈ done, inst.op ≠ .spi) → m.sp ≤ m.fp
  /-- Without moving it by itself, it is where the frame pointer is. -/
  level : (∀ inst ∈ done, inst.op ∉ [.sp, .spi, .spd]) → m.sp = m.fp
  /-- Every access that the next instruction makes is inside the stack: it is made
  on a machine that moves lead to (`ends_step`), and on all of these it would be. -/
  access : ∀ {inst : Instruction} {mid : Machine}, Moves inst m mid → InBounds inst mid
  /-- Without raising, whenever the next instruction takes a value, the frame
  pointer goes down by one. -/
  unsaturated : (∀ inst ∈ done, inst.op ≠ .spi) →
    ∀ {inst : Instruction} {mid mid' : Machine} {value : Word}, Moves inst m mid →
      pop inst mid = .ok value mid' → mid'.fp + 1 = mid.fp

/-- What the instructions of a program lead to is sound. -/
theorem sound_advance (program : Program) (insts : List Instruction) :
    Sound ((load program).completed insts) ((load program).advance insts) := by
  have hbound : ((load program).advance insts).sp ≤ stackCapacity :=
    kept_bound.advance insts (Nat.zero_le _) (fun _ _ => trivial)
  have hbelow : (∀ inst ∈ (load program).completed insts, inst.op ≠ .spi) →
      ((load program).advance insts).sp ≤ ((load program).advance insts).fp :=
    kept_below.advance insts (Nat.zero_le _)
  refine ⟨hbound, hbelow, kept_level.advance insts rfl, ?_, ?_⟩
  · intro inst mid hmoves
    exact inBounds_of_bound (kept_bound.moves hmoves hbound)
  · intro hdone inst mid mid' value hmoves hpop
    -- a value can be taken, and the frame pointer is not below the stack pointer
    have hmid : mid.sp ≤ mid.fp := kept_below.moves hmoves (hbelow hdone)
    obtain ⟨hsp, -, rfl⟩ := pop_eq_ok_iff.mp hpop
    show mid.fp - 1 + 1 = mid.fp
    omega

/-- **Soundness of the pointers.** Take any program and any requests. Then the
machine is the one that the executed instructions lead to, and it was sound
whenever an instruction was over: at the end, between two requests, and between two
instructions of a run, also after faults and after a halt. -/
theorem session_sound {σ : Type} (observe : σ → Event → σ) (s : σ) (program : Program)
    (requests : List Request) :
    let session := (Session.start program s).serveAll observe requests
    session.machine = (load program).advance session.executed
      ∧ ∀ executed, executed <+: session.executed →
        Sound ((load program).completed executed) ((load program).advance executed) := by
  refine ⟨machine_serveAll observe requests rfl, ?_⟩
  intro executed _
  exact sound_advance program executed

-- Raising has to be left out: on an empty stack it puts `sp` above `fp`, and a pop
-- after it finds `fp` at zero.
example :
    let after := fun n =>
      (walk (fun (s : Unit) _ => s) n (load #[Op.spi.tag, Op.pop.tag]) ()).machine
    ((after 1).sp, (after 1).fp) = (1, 0) ∧ ((after 2).sp, (after 2).fp) = (0, 0) := by decide

end StackMachine.Machine
