/-
The pieces of an instruction's work, one by one.

For every piece that reads or moves a pointer there is one lemma that says when
it succeeds and which machine it leaves. A piece that faults has changed nothing;
what an instruction leaves behind when it faults half way is what the pieces before
the fault have done.
-/
import StackMachine.Machine.Step

set_option autoImplicit false

namespace StackMachine.Machine

namespace Exec

variable {α β : Type}

/-! ## Sequences -/

/-- The machine that is there in the end, with a result or a fault. -/
def final : EStateM.Result Fault Machine α → Machine
  | .ok _ m => m
  | .error _ m => m

@[simp] theorem final_ok (a : α) (m : Machine) : final (.ok a m) = m := rfl

@[simp] theorem final_error (fault : Fault) (m : Machine) :
    final (.error fault m : EStateM.Result Fault Machine α) = m := rfl

theorem bind_of_ok {x : Exec α} {m m' : Machine} {a : α} (h : x m = .ok a m')
    (f : α → Exec β) : (x >>= f) m = f a m' := by
  show EStateM.bind x f m = f a m'
  rw [EStateM.bind, h]

theorem bind_of_error {x : Exec α} {m m' : Machine} {fault : Fault} (h : x m = .error fault m')
    (f : α → Exec β) : (x >>= f) m = .error fault m' := by
  show EStateM.bind x f m = .error fault m'
  rw [EStateM.bind, h]

theorem bind_eq_ok_iff {x : Exec α} {f : α → Exec β} {m m' : Machine} {b : β} :
    (x >>= f) m = .ok b m' ↔ ∃ a mid, x m = .ok a mid ∧ f a mid = .ok b m' := by
  rcases hx : x m with ⟨a, mid⟩ | ⟨fault, mid⟩
  · rw [bind_of_ok hx]
    constructor
    · intro hf
      exact ⟨a, mid, rfl, hf⟩
    · rintro ⟨a, mid, hsame, hf⟩
      obtain ⟨rfl, rfl⟩ := EStateM.Result.ok.inj hsame
      exact hf
  · simp [bind_of_error hx]

/-- A sequence depends on its second piece only where the first one succeeds. -/
theorem bind_congr_of_ok {x : Exec α} {f g : α → Exec β} {m : Machine}
    (h : ∀ a m', x m = .ok a m' → f a m' = g a m') : (x >>= f) m = (x >>= g) m := by
  rcases hx : x m with ⟨a, m'⟩ | ⟨fault, m'⟩
  · rw [bind_of_ok hx, bind_of_ok hx, h a m' hx]
  · rw [bind_of_error hx, bind_of_error hx]

/-! ## Values on the stack -/

/-- A value can be taken if a cell is live; both pointers go down, and the frame
pointer stays at zero if it is there. -/
theorem pop_eq_ok_iff {inst : Instruction} {m m' : Machine} {value : Word} :
    pop inst m = .ok value m'
      ↔ m.sp ≠ 0 ∧ value = (m.stack[m.sp - 1]?).getD 0
        ∧ m' = { m with sp := m.sp - 1, fp := m.fp - 1 } := by
  unfold pop
  by_cases h : m.sp = 0
  · simp [h]
  · simp [h, eq_comm]

/-- A value can be pushed if a cell is free; both pointers go up. -/
theorem push_eq_ok_iff {inst : Instruction} {m m' : Machine} {value : Word} :
    push inst value m = .ok () m'
      ↔ m.sp < stackCapacity
        ∧ m' = { m with
            stack := m.stack.setIfInBounds m.sp value, sp := m.sp + 1, fp := m.fp + 1 } := by
  unfold push
  by_cases h : m.sp < stackCapacity
  · simp [h, eq_comm]
  · simp [h]

theorem eq_of_pop_error {inst : Instruction} {m m' : Machine} {fault : Fault}
    (h : pop inst m = .error fault m') : m' = m := by
  unfold pop at h
  by_cases hsp : m.sp = 0
  · simp_all
  · simp [hsp] at h

theorem eq_of_push_error {inst : Instruction} {m m' : Machine} {value : Word} {fault : Fault}
    (h : push inst value m = .error fault m') : m' = m := by
  unfold push at h
  by_cases hsp : m.sp < stackCapacity
  · simp [hsp] at h
  · simp_all

/-! ## The stack pointer by itself -/

theorem place_eq_ok_iff {inst : Instruction} {distance : Nat} {m m' : Machine} :
    place inst distance m = .ok () m'
      ↔ (distance ≤ m.fp ∧ m.fp - distance ≤ stackCapacity)
        ∧ m' = { m with sp := m.fp - distance } := by
  unfold place
  by_cases h : distance ≤ m.fp ∧ m.fp - distance ≤ stackCapacity
  · simp [h, eq_comm]
  · rw [if_neg h]
    simp only [h, reduceCtorEq, false_and]

theorem raise_eq_ok_iff {inst : Instruction} {m m' : Machine} :
    raise inst m = .ok () m' ↔ m.sp < stackCapacity ∧ m' = { m with sp := m.sp + 1 } := by
  unfold raise
  by_cases h : m.sp < stackCapacity
  · simp [h, eq_comm]
  · simp [h]

theorem lower_eq_ok_iff {inst : Instruction} {m m' : Machine} :
    lower inst m = .ok () m' ↔ m.sp ≠ 0 ∧ m' = { m with sp := m.sp - 1 } := by
  unfold lower
  by_cases h : m.sp = 0
  · simp [h]
  · simp [h, eq_comm]

end Exec

end StackMachine.Machine
