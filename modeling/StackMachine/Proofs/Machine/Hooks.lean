/-
Hooks side by side.

A run is the same before every observer, and it tells each of them the same events in the
same order (`Machine.run_eq`). So what becomes of a hook and what it prints depends on these
events alone, and not on the hooks that are told them with it.

What several hooks print goes to one terminal, where nothing says any more who has printed
it. A `Sheet` keeps that apart: it has a row for every event, and in each row a cell for
every hook. Read row by row it is what the terminal shows (`observe_console`); a column of
it is what one hook has printed, event by event, and equals what that hook prints when it is
told the events by itself (`column_foldl`).
-/
import StackMachine.Machine.Hook
import StackMachine.Proofs.Machine.Turn
import Mathlib.Data.List.Induction

set_option autoImplicit false

namespace StackMachine

/-! ## One hook -/

namespace Hook

/-- The hook after it has been told some events. -/
def after (hook : Hook) (events : List Event) : Hook :=
  events.foldl (fun hook event => (hook.observe event).1) hook

/-- What the hook prints at each of the events that it is told. -/
def replies (hook : Hook) : List Event → List (Option String)
  | [] => []
  | event :: events => (hook.observe event).2 :: (hook.observe event).1.replies events

variable (hook : Hook) (events : List Event) (event : Event)

theorem after_append_singleton :
    hook.after (events ++ [event]) = ((hook.after events).observe event).1 := by
  rw [after, List.foldl_append]
  rfl

theorem replies_append_singleton :
    hook.replies (events ++ [event])
      = hook.replies events ++ [((hook.after events).observe event).2] := by
  induction events generalizing hook with
  | nil => rfl
  | cons first events ih =>
    rw [List.cons_append, replies, ih, replies, List.cons_append]
    rfl

end Hook

/-! ## Several hooks -/

/-- Hooks and, for every event they were told, what each of them printed at it. -/
structure Sheet where
  hooks : List Hook
  rows : List (List (Option String)) := []

namespace Sheet

/-- Tells every hook an event and adds a row for it. -/
def observe (sheet : Sheet) (event : Event) : Sheet :=
  let told := sheet.hooks.map fun hook => hook.observe event
  { hooks := told.map Prod.fst
    rows := sheet.rows ++ [told.map Prod.snd] }

/-- What the rows show one after the other, each from its first hook to its last. -/
def chunks (sheet : Sheet) : List String :=
  sheet.rows.flatten.filterMap id

/-- What the hook at a place has printed, event by event. -/
def column (sheet : Sheet) (i : Nat) : List (Option String) :=
  sheet.rows.map fun row => row[i]?.join

/-- The terminal of the hooks. -/
def console (sheet : Sheet) : Console where
  hooks := sheet.hooks
  printed := sheet.chunks.toArray

/-- On the terminal it is not seen who has printed what, but nothing else is lost. -/
theorem observe_console (sheet : Sheet) (event : Event) :
    sheet.console.observe event = (sheet.observe event).console := by
  simp [Console.observe, observe, console, chunks, List.filterMap_map]

theorem foldl_console (events : List Event) (sheet : Sheet) :
    events.foldl Console.observe sheet.console = (events.foldl observe sheet).console :=
  List.foldl_hom console observe_console

section Told

variable (hooks : List Hook) (events : List Event)

theorem hooks_foldl :
    (events.foldl observe ⟨hooks, []⟩).hooks = hooks.map fun hook => hook.after events := by
  induction events using List.reverseRecOn with
  | nil => simp [Hook.after]
  | append_singleton events event ih =>
    rw [List.foldl_append, List.foldl_cons, List.foldl_nil, observe, ih]
    simp [Hook.after_append_singleton]

/-- One event more is one row more. -/
theorem rows_append_singleton (event : Event) :
    ((events ++ [event]).foldl observe ⟨hooks, []⟩).rows
      = (events.foldl observe ⟨hooks, []⟩).rows
        ++ [hooks.map fun hook => ((hook.after events).observe event).2] := by
  rw [List.foldl_append, List.foldl_cons, List.foldl_nil]
  simp [observe, hooks_foldl]

theorem length_rows : (events.foldl observe ⟨hooks, []⟩).rows.length = events.length := by
  induction events using List.reverseRecOn with
  | nil => rfl
  | append_singleton events event ih =>
    rw [rows_append_singleton, List.length_append, ih, List.length_append]
    rfl

/-- There is a row for every event. It holds what each hook prints at the event, after it has
been told the events before. -/
theorem getElem?_rows (j : Nat) :
    (events.foldl observe ⟨hooks, []⟩).rows[j]?
      = events[j]?.map fun event =>
          hooks.map fun hook => ((hook.after (events.take j)).observe event).2 := by
  induction events using List.reverseRecOn with
  | nil => rfl
  | append_singleton events event ih =>
    rw [rows_append_singleton]
    rcases Nat.lt_trichotomy j events.length with hlt | rfl | hgt
    · -- the rows that are there stay
      rw [List.getElem?_append_left (by rw [length_rows]; exact hlt), ih,
        List.getElem?_append_left hlt, List.take_append_of_le_length (Nat.le_of_lt hlt)]
    · rw [List.getElem?_append_right (Nat.le_of_eq (length_rows hooks events)), length_rows,
        List.getElem?_append_right (Nat.le_refl _), Nat.sub_self, List.take_left]
      rfl
    · rw [List.getElem?_eq_none (by rw [List.length_append, length_rows]; exact hgt),
        List.getElem?_eq_none (by rw [List.length_append]; exact hgt)]
      rfl

/-- A column is what its hook prints by itself. -/
theorem column_foldl {i : Nat} {hook : Hook} (h : hooks[i]? = some hook) :
    (events.foldl observe ⟨hooks, []⟩).column i = hook.replies events := by
  induction events using List.reverseRecOn with
  | nil => rfl
  | append_singleton events event ih =>
    have hcell : ((hooks.map fun hook => ((hook.after events).observe event).2)[i]?).join
        = ((hook.after events).observe event).2 := by
      rw [List.getElem?_map, h, Option.map_some, Option.join_some]
    rw [column, rows_append_singleton, List.map_append, List.map_singleton, hcell,
      Hook.replies_append_singleton, ← ih, column]

end Told

theorem rows_singleton (hook : Hook) (events : List Event) :
    (events.foldl observe ⟨[hook], []⟩).rows = (hook.replies events).map fun cell => [cell] := by
  induction events using List.reverseRecOn with
  | nil => rfl
  | append_singleton events event ih =>
    rw [rows_append_singleton, ih, Hook.replies_append_singleton, List.map_append]
    rfl

/-- The terminal of a hook that is told events by itself. -/
theorem foldl_console_singleton (hook : Hook) (events : List Event) :
    events.foldl Console.observe ⟨[hook], #[]⟩
      = ⟨[hook.after events], ((hook.replies events).filterMap id).toArray⟩ := by
  calc events.foldl Console.observe ⟨[hook], #[]⟩
      = (events.foldl observe ⟨[hook], []⟩).console := foldl_console events ⟨[hook], []⟩
    _ = ⟨[hook.after events], ((hook.replies events).filterMap id).toArray⟩ := by
      rw [console, chunks, hooks_foldl, rows_singleton, ← List.flatMap_def, List.flatMap_singleton']
      rfl

end Sheet

/-- **Hooks do not disturb the run or each other.** Take a run before a list of hooks, with
fuel for any number of turns, so that nothing depends on whether it ends. Before other hooks
it leaves the same machine and ends in the same way. Each hook is left as it is when it alone
watches the run, and what it has printed, which is its column of the sheet, is what it then
prints. The terminal shows the rows of the sheet one after the other. There is a row for each
event of the run, in the order in which an observer collects them that keeps them all, and it
has what the hooks print at the event, in the order of the list. -/
theorem Machine.hooks_apart (options : Options) (fuel : Nat) (m : Machine) (hooks : List Hook) :
    let outcome := m.run Console.observe options fuel ⟨hooks, #[]⟩
    let sheet := (m.run Sheet.observe options fuel ⟨hooks, []⟩).observer
    let events := m.events options fuel
    (∀ others : List Hook,
        let outcome' := m.run Console.observe options fuel ⟨others, #[]⟩
        outcome'.machine = outcome.machine ∧ outcome'.ending = outcome.ending)
      ∧ (∀ i hook, hooks[i]? = some hook →
          let alone := m.run Console.observe options fuel ⟨[hook], #[]⟩
          ∃ last, outcome.observer.hooks[i]? = some last
            ∧ alone.observer.hooks = [last]
            ∧ alone.observer.printed.toList = (sheet.column i).filterMap id)
      ∧ outcome.observer.printed.toList = sheet.rows.flatten.filterMap id
      ∧ (m.run Array.push options fuel #[]).observer = events.toArray
      ∧ ∀ j, sheet.rows[j]? = events[j]?.map fun event =>
          hooks.map fun hook => ((hook.after (events.take j)).observe event).2 := by
  intro outcome sheet events
  have hsheet : sheet = events.foldl Sheet.observe ⟨hooks, []⟩ :=
    observer_run Sheet.observe options fuel m ⟨hooks, []⟩
  have hconsole : outcome.observer = sheet.console := by
    rw [hsheet, ← Sheet.foldl_console]
    exact observer_run Console.observe options fuel m ⟨hooks, #[]⟩
  refine ⟨?_, ?_, ?_, ?_, ?_⟩
  · intro others outcome'
    have hsame : outcome' = ⟨outcome.machine, _, outcome.ending⟩ :=
      run_eq Console.observe Console.observe options fuel m ⟨others, #[]⟩ ⟨hooks, #[]⟩
    rw [hsame]
    exact ⟨rfl, rfl⟩
  · intro i hook hi alone
    have halone : alone.observer = _ :=
      (observer_run Console.observe options fuel m ⟨[hook], #[]⟩).trans
        (Sheet.foldl_console_singleton hook events)
    refine ⟨hook.after events, ?_, ?_, ?_⟩
    · rw [hconsole, hsheet, Sheet.console, Sheet.hooks_foldl, List.getElem?_map, hi]
      rfl
    · rw [halone]
    · rw [halone, hsheet, Sheet.column_foldl hooks events hi]
  · rw [hconsole]
    rfl
  · rw [observer_run]
    simp [events]
  · intro j
    rw [hsheet]
    exact Sheet.getElem?_rows hooks events j

-- Of two hooks that print written values, the second prints each value after the first.
example :
    let program := #[Op.push.tag, 7, Op.write.tag, Op.push.tag, 8, Op.write.tag, Op.halt.tag]
    ((Machine.load program).run Console.observe {} 5
      ⟨[.serial false, .record {}, .serial true], #[]⟩).observer.printed
      = #["7\n", Hook.writeLine true 7, "8\n", Hook.writeLine true 8] := by decide +kernel

end StackMachine
