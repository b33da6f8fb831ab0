/-
Runs that are interrupted by their limit and taken up again.

A limit stops a run between two steps: the next instruction is fetched, but nothing is
done for it and nobody is told. So the machine that is left is the one that the steps so
far have led to, and what a second run does from there is what the first one would have
gone on to do. The two differ in how steps are counted, and with it in the number that a
limit is reported with (`Ending.later`).
-/
import StackMachine.Proofs.Machine.Record

set_option autoImplicit false

namespace StackMachine

namespace Machine

variable {m m' final : Machine} {n k attempted : Nat} {ending : Ending}

/-! ## What is told -/

theorem steps_told_later (debug : Bool) (n time : Nat) (m : Machine) :
    (m.told debug (n + time)).filterMap Event.step?
      = ((m.told debug time).filterMap Event.step?).map (Prod.map (n + ·) id) := by
  rcases debug with _ | _
  · rw [steps_told_false, steps_told_false]
    rfl
  · rcases hfetch : m.fetch with fault | inst
    · simp [told, hfetch]
    · rw [steps_told_true hfetch, steps_told_true hfetch]
      rfl

/-- Counted from a later number, the same steps are announced under later numbers. -/
theorem steps_narrate_later (debug : Bool) (n k time : Nat) (m : Machine) :
    (m.narrate debug k (n + time)).filterMap Event.step?
      = ((m.narrate debug k time).filterMap Event.step?).map (Prod.map (n + ·) id) := by
  induction k generalizing m time with
  | zero => rfl
  | succ k ih =>
    rw [narrate, narrate, List.filterMap_append, List.filterMap_append, List.map_append,
      steps_told_later]
    rcases m.next? with _ | m'
    · rfl
    · rw [Option.elim_some, Option.elim_some, Nat.add_assoc, ih]

theorem times_narrate (h : m.Attempts n) :
    ((m.narrate true n 0).filterMap Event.step?).map Prod.fst = List.range n := by
  obtain ⟨hlength, hget⟩ := steps_narrate_true h
  apply List.ext_getElem?
  intro i
  by_cases hi : i < n
  · obtain ⟨mi, -, hat⟩ := hget i hi
    rw [List.getElem?_map, hat, List.getElem?_range hi, Option.map_some]
  · rw [List.getElem?_eq_none (by rw [List.length_map, hlength]; omega),
      List.getElem?_eq_none (by rw [List.length_range]; omega)]

/-- What is not about the announcement of steps is told in two parts as in one. -/
theorem filterMap_narrate_add {α : Type} {f : Event → Option α}
    (hf : ∀ time inst m, f (.exec time inst m) = none) (hn : m.nth? n = some m')
    (debug₁ debug₂ debug : Bool) :
    (m.narrate debug (n + k) 0).filterMap f
      = (m.narrate debug₁ n 0).filterMap f ++ (m'.narrate debug₂ k 0).filterMap f := by
  rw [narrate_add debug k 0 hn, List.filterMap_append, filterMap_narrate hf debug 0,
    filterMap_narrate hf debug (0 + n), filterMap_narrate hf debug₁ 0,
    filterMap_narrate hf debug₂ 0]

/-! ## Resuming -/

/-- A single run does what two runs do one after the other, if the first of these makes
`n` steps. -/
structure Splits (single first second : Outcome Record) (n : Nat) : Prop where
  machine : single.machine = second.machine
  ending : single.ending = second.ending.later n
  writes : single.observer.writes = first.observer.writes ++ second.observer.writes
  debugs : single.observer.debugs = first.observer.debugs ++ second.observer.debugs

/-- It also has their steps on record, where the second run counts its steps from zero. -/
structure SplitsSteps (single first second : Record) (n : Nat) : Prop where
  steps : single.steps = first.steps ++ second.steps.map (Prod.map (n + ·) id)
  restart : second.steps.map Prod.fst = Array.range second.steps.size

theorem splitsSteps_of_nth (hn : m.nth? n = some m') (h : m'.Attempts k) (debug : Bool) :
    SplitsSteps (.ofEvents (.start m :: m.narrate debug (n + k) 0))
      (.ofEvents (.start m :: m.narrate debug n 0))
      (.ofEvents (.start m' :: m'.narrate debug k 0)) n where
  steps := by
    show ((m.narrate debug (n + k) 0).filterMap Event.step?).toArray
      = _ ++ ((m'.narrate debug k 0).filterMap Event.step?).toArray.map _
    rw [narrate_add debug k 0 hn, List.filterMap_append, Nat.add_comm 0 n, steps_narrate_later,
      List.map_toArray]
    exact (List.append_toArray _ _).symm
  restart := by
    show ((m'.narrate debug k 0).filterMap Event.step?).toArray.map Prod.fst
      = Array.range ((m'.narrate debug k 0).filterMap Event.step?).toArray.size
    rcases debug with _ | _
    · rw [steps_narrate_false]
      simp
    · rw [List.size_toArray, (steps_narrate_true h).1, List.map_toArray, times_narrate h,
        List.toArray_range]

/-- **Interrupted runs compose.** Let a run be stopped by its limit of `n` steps. Then it
leaves the machine that `n` steps lead to, and a second run from there with a limit of `k`
ends as a single run with a limit of `n + k` does, but for the number that a limit is
reported with. What the two runs have put on record is, in order, what the single one has;
for the steps, the runs have to be all in debug mode or all not. -/
theorem recorded_resumed {m : Machine} {shorten debug₁ : Bool} {n : Nat}
    (h : (m.recorded ⟨shorten, debug₁, some n⟩).ending = .faulted (.stepLimitExceeded n))
    (debug₂ debug : Bool) (k : Nat) :
    let first := m.recorded ⟨shorten, debug₁, some n⟩
    let second := first.machine.recorded ⟨shorten, debug₂, some k⟩
    let single := m.recorded ⟨shorten, debug, some (n + k)⟩
    m.nth? n = some first.machine
      ∧ Splits single first second n
      ∧ (debug₁ = debug → debug₂ = debug →
        SplitsSteps single.observer first.observer second.observer n) := by
  intro first second single
  obtain ⟨attempted, final, ending, hcourse, hfirst⟩ :=
    exists_recorded ⟨shorten, debug₁, some n⟩ rfl m
  rw [hfirst] at h
  obtain rfl : ending = .faulted (.stepLimitExceeded n) := h
  obtain ⟨rfl, -, hn, -⟩ := hcourse.of_exceeded
  obtain ⟨attempted', final', ending', hcourse', hsecond⟩ :=
    exists_recorded ⟨shorten, debug₂, some k⟩ rfl final
  -- the single run takes the steps of the first and then the course of the second
  have hwhole : Course ⟨shorten, debug, some (attempted + k)⟩ m (attempted + attempted') final'
      (ending'.later attempted) := by
    rw [← hcourse'.presented_eq]
    apply hcourse'.after_nth hn
    · intro j hj limit hlimit
      obtain rfl : attempted + k = limit := Option.some.inj hlimit
      exact Nat.add_le_add_left (hj k rfl) attempted
    · rintro limit rfl
      obtain ⟨-, hlimit, -⟩ := hcourse'.of_exceeded
      obtain rfl : k = limit := Option.some.inj hlimit
      rfl
  have hsingle := hwhole.recorded_eq (hwhole.lt_fuel rfl)
  dsimp only [first, second, single]
  rw [hfirst, hsecond, hsingle]
  refine ⟨hn, ⟨rfl, rfl, ?_, ?_⟩, ?_⟩
  · show ((m.narrate debug (attempted + attempted') 0).filterMap Event.write?).toArray = _ ++ _
    rw [filterMap_narrate_add (fun _ _ _ => rfl) hn debug₁ debug₂ debug]
    exact (List.append_toArray _ _).symm
  · show ((m.narrate debug (attempted + attempted') 0).filterMap Event.debug?).toArray = _ ++ _
    rw [filterMap_narrate_add (fun _ _ _ => rfl) hn debug₁ debug₂ debug]
    exact (List.append_toArray _ _).symm
  · rintro rfl rfl
    exact splitsSteps_of_nth hn hcourse'.attempts _

/-- A program that writes and shows itself in a loop, stopped after two steps and again
after three more. -/
theorem recorded_resumed_loop :
    let m := load #[Op.push.tag, 7, Op.write.tag, Op.debug.tag, Op.push.tag, 0, Op.jmp.tag]
    let first := m.recorded ⟨false, true, some 2⟩
    let second := first.machine.recorded ⟨false, true, some 3⟩
    let single := m.recorded ⟨false, true, some (2 + 3)⟩
    first.ending = .faulted (.stepLimitExceeded 2)
      ∧ m.nth? 2 = some first.machine
      ∧ Splits single first second 2
      ∧ SplitsSteps single.observer first.observer second.observer 2 := by
  intro m first second single
  have h : first.ending = .faulted (.stepLimitExceeded 2) := by decide
  obtain ⟨hn, hsplits, hsteps⟩ := recorded_resumed h true true 3
  exact ⟨h, hn, hsplits, hsteps rfl rfl⟩

end Machine

end StackMachine
