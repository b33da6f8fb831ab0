/-
The single moves that instructions are made of, and what they keep.

While an instruction works, the machine only pushes, takes values and jumps, in
some order; each of these is a `Move`. If the instruction completes, there may be
one `Shift` after them, and if it faults there is none. `ends_step` says so of
every instruction, and it is all that a property of the machine needs: what every
move and the allowed shifts keep (`Kept`) holds after any instruction and at every
moment inside of it.

Three relations between the pointers are kept. The bound on the stack pointer
survives every shift, since each of them checks it; that the stack pointer is
not above the frame pointer survives all but raising; and that the two are equal
survives none.
-/
import StackMachine.Proofs.Machine.Effect
import Mathlib.Logic.Relation

set_option autoImplicit false

namespace StackMachine.Machine

open Exec

/-! ## Moves -/

/-- One push, pop or jump on behalf of an instruction. -/
inductive Move (inst : Instruction) : Machine → Machine → Prop where
  | pop {m m' : Machine} {value : Word} (h : Exec.pop inst m = .ok value m') : Move inst m m'
  | push {m m' : Machine} {value : Word} (h : Exec.push inst value m = .ok () m') : Move inst m m'
  | jump {m m' : Machine} {address : Nat} (h : Exec.jump address m = .ok () m') : Move inst m m'

/-- Any number of moves. -/
abbrev Moves (inst : Instruction) : Machine → Machine → Prop :=
  Relation.ReflTransGen (Move inst)

variable {α β : Type} {inst : Instruction} {m m' : Machine}

/-- Moving on behind an instruction is a jump. -/
theorem moves_next : Moves inst m { m with ip := inst.next } :=
  .single (.jump rfl)

/-- Pieces of work in sequence make moves if both of them do. -/
theorem moves_bind {x : Exec α} {f : α → Exec β} (hx : Moves inst m (final (x m)))
    (hf : ∀ a m', x m = .ok a m' → Moves inst m' (final (f a m'))) :
    Moves inst m (final ((x >>= f) m)) := by
  rcases h : x m with ⟨a, m'⟩ | ⟨fault, m'⟩
  · rw [h] at hx
    rw [bind_of_ok h]
    exact hx.trans (hf a m' h)
  · rw [h] at hx
    rw [bind_of_error h]
    exact hx

theorem moves_pop : Moves inst m (final (pop inst m)) := by
  rcases h : pop inst m with ⟨value, m'⟩ | ⟨fault, m'⟩
  · exact .single (.pop h)
  · rw [eq_of_pop_error h]
    exact .refl

theorem moves_push (value : Word) : Moves inst m (final (push inst value m)) := by
  rcases h : push inst value m with ⟨⟨⟩, m'⟩ | ⟨fault, m'⟩
  · exact .single (.push h)
  · rw [eq_of_push_error h]
    exact .refl

theorem moves_popMany (n : Nat) : Moves inst m (final (popMany inst n m)) := by
  induction n generalizing m with
  | zero => exact .refl
  | succ n ih =>
    refine moves_bind moves_pop ?_
    intro a m₁ _
    refine moves_bind ih ?_
    intro rest m₂ _
    exact .refl

theorem moves_pushAll (values : List Word) : Moves inst m (final (pushAll inst values m)) := by
  induction values generalizing m with
  | nil => exact .refl
  | cons value values ih =>
    refine moves_bind (moves_push value) ?_
    intro _ m₁ _
    exact ih

theorem moves_target (target : Option Nat) :
    Moves inst m (final ((target.elim (pure ()) jump : Exec Unit) m)) := by
  rcases target with _ | address
  · exact .refl
  · exact .single (.jump rfl)

/-! ## What an instruction does -/

/-- How work that began on a machine may end: with a fault after some moves, or
with a result after some moves and then at most one shift, which has to be the
instruction's own. -/
def Ends (inst : Instruction) (m : Machine) : EStateM.Result Fault Machine α → Prop
  | .error _ m' => Moves inst m m'
  | .ok _ m' => ∃ mid, Moves inst m mid
      ∧ (m' = mid ∨ ∃ shift : Shift, shift.op = inst.op ∧ shift.run inst mid = .ok () m')

theorem Ends.of_moves {r : EStateM.Result Fault Machine α} (h : Moves inst m m')
    (hr : Ends inst m' r) : Ends inst m r := by
  rcases r with ⟨a, after⟩ | ⟨fault, after⟩
  · obtain ⟨mid, hmid, hafter⟩ := hr
    exact ⟨mid, h.trans hmid, hafter⟩
  · exact h.trans hr

theorem ends_bind {x : Exec α} {f : α → Exec β} (hx : Moves inst m (final (x m)))
    (hf : ∀ a m', x m = .ok a m' → Ends inst m' (f a m')) : Ends inst m ((x >>= f) m) := by
  rcases h : x m with ⟨a, m'⟩ | ⟨fault, m'⟩
  · rw [h] at hx
    rw [bind_of_ok h]
    exact (hf a m' h).of_moves hx
  · rw [h] at hx
    rw [bind_of_error h]
    exact hx

theorem eq_of_shift_error {shift : Shift} {fault : Fault}
    (h : shift.run inst m = .error fault m') : m' = m := by
  rcases shift with distance | _ | _
  · simp only [Shift.run, place] at h
    split at h
    · simp at h
    · simp_all
  · simp only [Shift.run, raise] at h
    split at h
    · simp at h
    · simp_all
  · simp only [Shift.run, lower] at h
    split at h
    · simp_all
    · simp at h

/-- An effect makes moves, and then the shift that it says. -/
theorem ends_effect {e : Effect} (hshift : ∀ shift, e.shift = some shift → shift.op = inst.op) :
    Ends inst m (e.run inst m) := by
  refine ends_bind (moves_pushAll e.pushes) ?_
  intro _ m₁ _
  refine ends_bind (moves_target e.target) ?_
  intro _ m₂ _
  rcases he : e.shift with _ | shift
  · exact ⟨m₂, .refl, .inl rfl⟩
  · show Ends inst m₂ ((shift.run inst >>= fun _ => pure e.flow) m₂)
    -- what follows the shift only says how the instruction ended
    rcases hrun : shift.run inst m₂ with ⟨⟨⟩, m₃⟩ | ⟨fault, m₃⟩
    · rw [bind_of_ok hrun]
      exact ⟨m₂, .refl, .inr ⟨shift, hshift shift he, hrun⟩⟩
    · rw [bind_of_error hrun, eq_of_shift_error hrun]
      exact .refl

/-- **What an instruction does.** Executing it, on any machine and also when it
stands in no program, makes moves, and then its own shift if it has one and nothing
was wrong before. -/
theorem ends_step (m : Machine) (inst : Instruction) : Ends inst m (m.step inst) := by
  rw [step_eq]
  refine Ends.of_moves moves_next (ends_bind (moves_popMany inst.op.pops) ?_)
  intro args m₁ _
  rcases he : effect inst args with fault | e
  · rw [settle, he]
    exact .refl
  · rw [settle, he]
    exact ends_effect (belongs_of_effect he).shift

/-! ## What is kept -/

/-- A property of machines that no move breaks, and no shift that belongs to an
allowed operation. -/
structure Kept (allowed : Op → Prop) (P : Machine → Prop) : Prop where
  move : ∀ {inst : Instruction} {m m' : Machine}, Move inst m m' → P m → P m'
  shift : ∀ {inst : Instruction} {shift : Shift} {m m' : Machine},
    allowed shift.op → shift.run inst m = .ok () m' → P m → P m'

namespace Kept

variable {allowed : Op → Prop} {P : Machine → Prop}

/-- What is kept holds at every moment inside an instruction. -/
theorem moves (h : Kept allowed P) (hmoves : Moves inst m m') (hm : P m) : P m' := by
  induction hmoves with
  | refl => exact hm
  | tail _ hmove ih => exact h.move hmove ih

/-- What is kept holds after an instruction that faults, whether or not its
operation is allowed. -/
theorem of_step_error (h : Kept allowed P) {fault : Fault} (hstep : m.step inst = .error fault m')
    (hm : P m) : P m' := by
  have hends := ends_step m inst
  rw [hstep] at hends
  exact h.moves hends hm

/-- What is kept holds after an allowed instruction. -/
theorem of_step_ok (h : Kept allowed P) (hop : allowed inst.op) {flow : Flow}
    (hstep : m.step inst = .ok flow m') (hm : P m) : P m' := by
  have hends := ends_step m inst
  rw [hstep] at hends
  obtain ⟨mid, hmid, rfl | ⟨shift, hshift, hrun⟩⟩ := hends
  · exact h.moves hmid hm
  · rw [← hshift] at hop
    exact h.shift hop hrun (h.moves hmid hm)

end Kept

/-! ## The pointers -/

/-- What a move does to the pointers: both go down, both go up, or neither moves. -/
theorem Move.pointers (h : Move inst m m') :
    (m.sp ≠ 0 ∧ m'.sp = m.sp - 1 ∧ m'.fp = m.fp - 1)
      ∨ (m.sp < stackCapacity ∧ m'.sp = m.sp + 1 ∧ m'.fp = m.fp + 1)
      ∨ (m'.sp = m.sp ∧ m'.fp = m.fp) := by
  rcases h with h | h | h
  · obtain ⟨hsp, -, rfl⟩ := pop_eq_ok_iff.mp h
    exact .inl ⟨hsp, rfl, rfl⟩
  · obtain ⟨hsp, rfl⟩ := push_eq_ok_iff.mp h
    exact .inr (.inl ⟨hsp, rfl, rfl⟩)
  · obtain ⟨-, rfl⟩ := EStateM.Result.ok.inj h
    exact .inr (.inr ⟨rfl, rfl⟩)

/-- The live cells are cells of the stack. Every operation keeps this. -/
theorem kept_bound : Kept (fun _ => True) (fun m => m.sp ≤ stackCapacity) where
  move := by
    intro inst m m' hmove hm
    have hpointers := hmove.pointers
    omega
  shift := by
    intro inst shift m m' _ hrun hm
    rcases shift with distance | _ | _
    · obtain ⟨⟨-, hbound⟩, rfl⟩ := place_eq_ok_iff.mp hrun
      exact hbound
    · obtain ⟨hbound, rfl⟩ := raise_eq_ok_iff.mp hrun
      exact hbound
    · obtain ⟨-, rfl⟩ := lower_eq_ok_iff.mp hrun
      show m.sp - 1 ≤ stackCapacity
      omega

/-- The stack pointer is not above the frame pointer. Only raising it can break
this: placing it is relative to the frame pointer, and down. -/
theorem kept_below : Kept (· ≠ .spi) (fun m => m.sp ≤ m.fp) where
  move := by
    intro inst m m' hmove hm
    have hpointers := hmove.pointers
    omega
  shift := by
    intro inst shift m m' hop hrun hm
    rcases shift with distance | _ | _
    · obtain ⟨-, rfl⟩ := place_eq_ok_iff.mp hrun
      exact Nat.sub_le m.fp distance
    · exact absurd rfl hop
    · obtain ⟨-, rfl⟩ := lower_eq_ok_iff.mp hrun
      show m.sp - 1 ≤ m.fp
      omega

/-- The two pointers are equal. Only moves keep this. -/
theorem kept_level : Kept (· ∉ [.sp, .spi, .spd]) (fun m => m.sp = m.fp) where
  move := by
    intro inst m m' hmove hm
    -- a value that is taken was there, so neither pointer was at zero
    have hpointers := hmove.pointers
    omega
  shift := by
    intro inst shift m m' hop _ _
    rcases shift with distance | _ | _
    · simp [Shift.op] at hop
    · simp [Shift.op] at hop
    · simp [Shift.op] at hop

end StackMachine.Machine
