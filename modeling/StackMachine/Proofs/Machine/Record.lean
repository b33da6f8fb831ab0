/-
What is on record after a run.

A record sorts the events that it is told by their kind, so of the events of some steps
it is enough to know the parts. Writes and shown stacks are the same whether or not
steps are announced and from whatever number they are counted. The announced steps are
numbered one after the other and stand where the machine was before each.
-/
import StackMachine.Machine.Hook
import StackMachine.Proofs.Machine.Course
import Mathlib.Data.List.Induction

set_option autoImplicit false

namespace StackMachine

namespace Event

def isStart : Event → Bool
  | start _ => true
  | _ => false

/-- Number and address of the step that is announced. -/
def step? : Event → Option (Nat × Nat)
  | exec time inst _ => some (time, inst.address)
  | _ => none

def write? : Event → Option Word
  | write value => some value
  | _ => none

/-- The live cells that are shown. -/
def debug? : Event → Option (List Word)
  | debug machine => some machine.live
  | _ => none

end Event

/-- Events on record, each kind by itself. -/
def Record.ofEvents (events : List Event) : Record where
  starts := events.countP Event.isStart
  steps := (events.filterMap Event.step?).toArray
  writes := (events.filterMap Event.write?).toArray
  debugs := (events.filterMap Event.debug?).toArray

theorem Record.foldl_observe (events : List Event) :
    events.foldl Record.observe {} = Record.ofEvents events := by
  induction events using List.reverseRecOn with
  | nil => rfl
  | append_singleton events event ih =>
    rw [List.foldl_append, ih, List.foldl_cons, List.foldl_nil]
    rcases event with machine | ⟨time, inst, machine⟩ | value | machine
    · simp [observe, ofEvents, Event.isStart, Event.step?, Event.write?, Event.debug?]
    · simp [observe, ofEvents, Event.isStart, Event.step?, Event.write?, Event.debug?]
    · simp [observe, ofEvents, Event.isStart, Event.step?, Event.write?, Event.debug?]
    · simp [observe, ofEvents, Event.isStart, Event.step?, Event.write?, Event.debug?]

namespace Machine

variable {m m' : Machine} {inst : Instruction} {debug : Bool} {n time : Nat}

/-! ## One step -/

/-- An instruction shows at most what it writes or the machine. -/
theorem shown_cases (inst : Instruction) (m : Machine) :
    m.shown inst = [] ∨ (∃ value, m.shown inst = [.write value])
      ∨ ∃ m', m.shown inst = [.debug m'] := by
  unfold shown
  rcases m.step inst with ⟨flow, m'⟩ | ⟨fault, m'⟩
  · rcases flow with _ | value | _ | _
    · exact .inl rfl
    · exact .inr (.inl ⟨value, rfl⟩)
    · exact .inr (.inr ⟨m', rfl⟩)
    · exact .inl rfl
  · exact .inl rfl

theorem steps_shown (inst : Instruction) (m : Machine) :
    (m.shown inst).filterMap Event.step? = [] := by
  rcases shown_cases inst m with h | ⟨value, h⟩ | ⟨m', h⟩
  · rw [h]
    rfl
  · rw [h]
    rfl
  · rw [h]
    rfl

theorem steps_told_true (hfetch : m.fetch = .ok inst) :
    (m.told true time).filterMap Event.step? = [(time, m.ip)] := by
  rw [told, hfetch, ← address_of_fetch hfetch]
  simp [steps_shown, Event.step?]

theorem steps_told_false : (m.told false time).filterMap Event.step? = [] := by
  unfold told
  rcases m.fetch with fault | inst
  · rfl
  · exact steps_shown inst m

/-- What is not about the announcement of steps is told with and without it. -/
theorem filterMap_told {α : Type} {f : Event → Option α}
    (hf : ∀ time inst m, f (.exec time inst m) = none) (debug : Bool) (time : Nat) :
    (m.told debug time).filterMap f = (m.told false 0).filterMap f := by
  unfold told
  rcases m.fetch with fault | inst
  · rfl
  · rcases debug with _ | _
    · rfl
    · rw [List.filterMap_append]
      simp [hf]

/-! ## Several steps -/

theorem filterMap_narrate {α : Type} {f : Event → Option α}
    (hf : ∀ time inst m, f (.exec time inst m) = none) (debug : Bool) (time : Nat) :
    (m.narrate debug n time).filterMap f = (m.narrate false n 0).filterMap f := by
  induction n generalizing m debug time with
  | zero => rfl
  | succ n ih =>
    rw [narrate, narrate, List.filterMap_append, List.filterMap_append, filterMap_told hf]
    rcases m.next? with _ | m'
    · rfl
    · -- counted from whatever number, the rest is as if it were counted from zero
      rw [Option.elim_some, Option.elim_some, ih, ih false (0 + 1)]

theorem steps_narrate_false : (m.narrate false n time).filterMap Event.step? = [] := by
  induction n generalizing m time with
  | zero => rfl
  | succ n ih =>
    rw [narrate, List.filterMap_append, steps_told_false]
    rcases m.next? with _ | m'
    · rfl
    · rw [Option.elim_some, ih, List.append_nil]

/-- Up to `n` steps there is an instruction to attempt. -/
def Attempts (n : Nat) (m : Machine) : Prop :=
  ∀ i < n, ∃ mi inst, m.nth? i = some mi ∧ mi.fetch = .ok inst

/-- The announced steps: as many as are attempted, numbered in order, each at the address
where the machine was before it. -/
theorem steps_narrate_true (h : m.Attempts n) :
    ((m.narrate true n 0).filterMap Event.step?).length = n
      ∧ ∀ i < n, ∃ mi, m.nth? i = some mi
        ∧ ((m.narrate true n 0).filterMap Event.step?)[i]? = some (i, mi.ip) := by
  induction n with
  | zero => simp [narrate]
  | succ n ih =>
    obtain ⟨hlength, hget⟩ := ih (fun i hi => h i (by omega))
    obtain ⟨mn, inst, hn, hfetch⟩ := h n (Nat.lt_succ_self n)
    rw [narrate_add true 1 0 hn, narrate_one, List.filterMap_append, steps_told_true hfetch,
      Nat.zero_add]
    constructor
    · rw [List.length_append, hlength]
      rfl
    · intro i hi
      by_cases hlt : i < n
      · obtain ⟨mi, hmi, hat⟩ := hget i hlt
        refine ⟨mi, hmi, ?_⟩
        rw [List.getElem?_append_left (by omega)]
        exact hat
      · -- the last step is the one that has just been added
        obtain rfl : i = n := by omega
        refine ⟨mn, hn, ?_⟩
        rw [List.getElem?_append_right (by omega), hlength, Nat.sub_self]
        rfl

theorem attempts_of_nth {k : Nat} (hk : m.nth? k = some m') : m.Attempts k := by
  intro i hi
  obtain ⟨rest, rfl⟩ := Nat.exists_eq_add_of_lt hi
  rw [Nat.add_assoc, nth?_add, Option.bind_eq_some_iff] at hk
  obtain ⟨mi, hmi, hrest⟩ := hk
  -- a step leads on from there, so there is an instruction
  obtain ⟨_, hnext, -⟩ := nth?_succ_eq_some_iff.mp hrest
  obtain ⟨inst, -, hfetch, -, -⟩ := next?_eq_some_iff.mp hnext
  exact ⟨mi, inst, hmi, hfetch⟩

theorem Attempts.succ {k : Nat} (hk : m.nth? k = some m') (hfetch : m'.fetch = .ok inst) :
    m.Attempts (k + 1) := by
  intro i hi
  by_cases hlt : i < k
  · exact attempts_of_nth hk i hlt
  · obtain rfl : i = k := by omega
    exact ⟨m', inst, hk, hfetch⟩

theorem Course.attempts {options : Options} {attempted : Nat} {final : Machine} {ending : Ending}
    (h : Course options m attempted final ending) : m.Attempts attempted := by
  rcases h with ⟨hk, -, -⟩ | ⟨hk, -, -⟩ | ⟨hk, -, hfetch, -⟩ | ⟨hk, -, hfetch, -⟩
  · exact attempts_of_nth hk
  · exact attempts_of_nth hk
  · exact .succ hk hfetch
  · exact .succ hk hfetch

/-! ## A run on record -/

/-- A run before a fresh record. -/
def recorded (options : Options) (m : Machine) : Outcome Record :=
  m.run Record.observe options options.fuel {}

theorem Course.recorded_eq {options : Options} {attempted : Nat} {final : Machine} {ending : Ending}
    (h : Course options m attempted final ending) (hfuel : attempted < options.fuel) :
    m.recorded options
      = ⟨final, .ofEvents (.start m :: m.narrate options.debug attempted 0), ending⟩ := by
  rw [recorded, h.run_eq hfuel, Record.foldl_observe]

/-- With a limit, a run has a course that its fuel is enough for. -/
theorem exists_recorded (options : Options) {limit : Nat} (hlimit : options.tmax = some limit)
    (m : Machine) :
    ∃ attempted final ending, Course options m attempted final ending
      ∧ m.recorded options
        = ⟨final, .ofEvents (.start m :: m.narrate options.debug attempted 0), ending⟩ := by
  obtain ⟨attempted, final, ending, hcourse⟩ := exists_course hlimit m
  exact ⟨attempted, final, ending, hcourse, hcourse.recorded_eq (hcourse.lt_fuel hlimit)⟩

end Machine

end StackMachine
