/-
The operation table, and that the machine keeps to it.

The table lists for each operation how many values it takes, how many it leaves, and which:
`Op.pops`, `Op.pushes` and `Instruction.results`. Of the values taken, `a` is the topmost,
`b` the one below and `c` the third, and the shapes are written as they lie on the stack, the
topmost value last. When an instruction is refused follows from the two numbers, with one
objection each of division and of the call (`refusal?`); what it leaves otherwise is said of
the live values as a whole (`Realises`).

The machine checks as it goes: it takes values one by one, then computes, then puts values
one by one. That the checks come out in the order of `refusal?` is because an objection is
raised between the last value taken and the first one put.

The three operations that move the stack pointer by themselves are not rows of this kind.
-/
import StackMachine.Proofs.Machine.Fault
import StackMachine.Proofs.Machine.Transfer

set_option autoImplicit false

namespace StackMachine

/-! ## The table -/

/-- Number of values that an operation leaves on the stack. -/
def Op.pushes : Op → Nat
  | .nop | .pop | .sp | .spi | .spd | .jmp | .jmpz | .jmpnz | .jmpe | .jmpne | .jmpg | .jmpge
  | .jmpl | .jmple | .ret | .db | .read | .write | .halt | .debug => 0
  | .push | .add | .sub | .mul | .div | .inc | .dec | .shl | .shr | .and | .or | .xor | .not
  | .proc => 1
  | .swp | .dup => 2
  | .ovr | .rot => 3
  | .dup2 => 4

/-- The values that an instruction leaves in place of the ones it takes. -/
def Instruction.results (inst : Instruction) (taken : List Word) : List Word :=
  match inst.op, taken with
  | .push, _ => inst.operand.toList
  | .add, [b, a] => [b + a]
  | .sub, [b, a] => [b - a]
  | .mul, [b, a] => [b * a]
  | .div, [b, a] => [b / a]
  | .and, [b, a] => [b &&& a]
  | .or, [b, a] => [b ||| a]
  | .xor, [b, a] => [b ^^^ a]
  | .inc, [a] => [a + 1]
  | .dec, [a] => [a - 1]
  | .shl, [a] => [a <<< 1]
  | .shr, [a] => [a >>> 1]
  | .not, [a] => [~~~a]
  | .swp, [b, a] => [a, b]
  | .dup, [a] => [a, a]
  | .dup2, [b, a] => [b, a, b, a]
  | .ovr, [b, a] => [b, a, b]
  | .rot, [c, b, a] => [b, a, c]
  | .proc, _ => [UInt16.ofNat inst.next]
  | _, _ => []

/-- How an instruction ends that is not refused, when `a` is the topmost value. -/
def Op.flow (op : Op) (a : Word) : Flow :=
  match op with
  | .write => .write a
  | .debug => .debug
  | .halt => .halt
  | _ => .next

namespace Machine

open Exec

/-- Why an instruction is refused, if it is. -/
def refusal? (m : Machine) (inst : Instruction) : Option Fault :=
  if m.sp < inst.op.pops then some (.stackUnderflow inst.op inst.address)
  else if inst.op = .div ∧ m.peek 0 = 0 then some (.divisionByZero inst.address)
  else if inst.op = .proc ∧ 65535 < inst.next then
    some (.returnAddressOutOfRange inst.op inst.address inst.next)
  else if stackCapacity < m.sp - inst.op.pops + inst.op.pushes then
    some (.stackOverflow inst.op inst.address)
  else none

/-- The machine `m'` is what the table says that an instruction leaves of `m`. -/
structure Realises (inst : Instruction) (m m' : Machine) : Prop where
  program : m'.program = m.program
  sp : m'.sp = m.sp - inst.op.pops + inst.op.pushes
  /-- The frame pointer goes down with each value taken, but not below zero, and then up. -/
  fp : m'.fp = m.fp - inst.op.pops + inst.op.pushes
  ip : m'.ip = if inst.op.transfers (m.peek 1) (m.peek 2) then (m.peek 0).toNat else inst.next
  live : m'.live = m.live.take (m.sp - inst.op.pops)
    ++ inst.results (m.live.drop (m.sp - inst.op.pops))
  /-- No cell changes but those of the results, dead cells included. -/
  cells : ∀ i, i < m.sp - inst.op.pops ∨ m.sp - inst.op.pops + inst.op.pushes ≤ i →
    m'.stack[i]? = m.stack[i]?

variable {m m' : Machine} {inst : Instruction} {fault : Fault}

/-! ## Operands -/

/-- The operands are the topmost live values; they are taken in the order in which they do
not lie on the stack. -/
theorem reverse_operands (hsp : m.sp ≤ stackCapacity) (h : inst.op.pops ≤ m.sp) :
    (m.operands inst).reverse = m.live.drop (m.sp - inst.op.pops) := by
  have hlength : m.live.length = m.sp := length_live hsp
  apply List.ext_getElem?
  intro i
  rw [List.getElem?_drop]
  by_cases hi : i < inst.op.pops
  · have hcell : m.live[m.sp - inst.op.pops + i]? = m.stack[m.sp - inst.op.pops + i]? :=
      getElem?_live (by omega)
    have hget : m.stack[m.sp - inst.op.pops + i]? = some (m.stack[m.sp - inst.op.pops + i]) :=
      Vector.getElem?_eq_getElem (by omega)
    rw [hcell, List.getElem?_reverse (by simpa [operands] using hi)]
    simp only [operands, List.length_map, List.length_range, List.getElem?_map]
    rw [List.getElem?_range (by omega), Option.map_some, peek,
      show m.sp - 1 - (inst.op.pops - 1 - i) = m.sp - inst.op.pops + i from by omega, hget]
    rfl
  · rw [List.getElem?_eq_none (by simpa [operands] using hi), List.getElem?_eq_none (by omega)]

/-- Only a division asks what its topmost operand is. -/
theorem Objects.of_eq {a a' : Word} (heq : inst.op = .div → a = a') (h : Objects inst a fault) :
    Objects inst a' fault := by
  rcases h with ⟨hop, ha⟩ | ⟨hop, hoperand⟩ | ⟨hop, hret⟩
  · exact .divisor hop ((heq hop).symm.trans ha)
  · exact .operand hop hoperand
  · exact .ret hop hret

theorem objects_iff : Objects inst ((m.operands inst).getD 0 0) fault
    ↔ Objects inst (m.peek 0) fault := by
  have htop : inst.op = .div → (m.operands inst).getD 0 0 = m.peek 0 := by
    intro hop
    rw [operands, hop]
    rfl
  constructor
  · exact Objects.of_eq htop
  · exact Objects.of_eq fun hop => (htop hop).symm

/-! ## Effects -/

/-- An effect is the row of its operation. -/
theorem row_of_effect {e : Effect} (h : effect inst (m.operands inst) = .ok e) :
    e.pushes = inst.results (m.operands inst).reverse ∧ e.pushes.length = inst.op.pushes
      ∧ e.flow = inst.op.flow (m.peek 0) := by
  obtain ⟨address, op, operand⟩ := inst
  cases op with
  | push =>
    rcases operand with _ | w
    · simp [effect] at h
    · obtain rfl : _ = e := by simpa [effect] using h
      exact ⟨rfl, rfl, rfl⟩
  | div =>
    have ha : ¬ m.peek 0 = 0 := by
      intro ha
      have herror : effect ⟨address, .div, operand⟩ (m.operands ⟨address, .div, operand⟩)
          = .error (.divisionByZero address) :=
        effect_eq_error_iff.mpr (objects_iff.mpr (.divisor rfl ha))
      rw [h] at herror
      simp at herror
    obtain rfl : _ = e := Except.ok.inj ((if_neg ha).symm.trans h)
    exact ⟨rfl, rfl, rfl⟩
  | proc =>
    rcases hret : Word.ofNat? (Instruction.next ⟨address, .proc, operand⟩) with _ | ret
    · simp [effect, hret] at h
    · obtain rfl : _ = e := by simpa [effect, hret] using h
      -- the address behind the call is a word, so that word is the address
      have hword : UInt16.ofNat (Instruction.next ⟨address, .proc, operand⟩) = ret := by
        rw [← Word.ofNat?_eq_some_iff.mp hret, UInt16.ofNat_toNat]
      refine ⟨?_, rfl, rfl⟩
      show [ret] = [UInt16.ofNat _]
      rw [hword]
  | _ =>
    rw [effect, Except.ok.injEq] at h
    subst h
    exact ⟨rfl, rfl, rfl⟩

theorem shift_of_effect {args : List Word} {e : Effect} (h : effect inst args = .ok e)
    (hop : inst.op ∉ [.sp, .spi, .spd]) : e.shift = none := by
  rcases hshift : e.shift with _ | shift
  · rfl
  · -- a shift belongs to one of the three operations
    rw [← (belongs_of_effect h).shift shift hshift] at hop
    rcases shift with distance | _ | _
    · simp [Shift.op] at hop
    · simp [Shift.op] at hop
    · simp [Shift.op] at hop

/-- An instruction that objects stops there, with its operands taken. -/
theorem step_of_objects (hle : inst.op.pops ≤ m.sp) (h : Objects inst (m.peek 0) fault) :
    m.step inst = .error fault (m.opened inst) := by
  have heffect : effect inst (m.operands inst) = .error fault :=
    effect_eq_error_iff.mpr (objects_iff.mpr h)
  rw [step_of_le hle, settle, heffect]
  rfl

theorem step_of_effect {e : Effect} (hle : inst.op.pops ≤ m.sp)
    (he : effect inst (m.operands inst) = .ok e) : m.step inst = e.run inst (m.opened inst) := by
  rw [step_of_le hle, settle, he]

/-- An effect that fits leaves what the row says. -/
theorem realises_of_effect {e : Effect} (hsp : m.sp ≤ stackCapacity) (hle : inst.op.pops ≤ m.sp)
    (he : effect inst (m.operands inst) = .ok e)
    (hfit : m.sp - inst.op.pops + inst.op.pushes ≤ stackCapacity) :
    Realises inst m { (m.opened inst).pushed e.pushes with ip := e.target.getD inst.next } := by
  obtain ⟨hresults, hlength, -⟩ := row_of_effect he
  refine ⟨rfl, ?_, ?_, ?_, ?_, ?_⟩
  · show m.sp - inst.op.pops + e.pushes.length = _
    rw [hlength]
  · show m.fp - inst.op.pops + e.pushes.length = _
    rw [hlength]
  · show e.target.getD inst.next = _
    rw [target_of_effect he, target?]
    by_cases htaken : inst.op.transfers (m.peek 1) (m.peek 2) = true
    · rw [if_pos htaken, if_pos htaken, Option.getD_some]
    · rw [if_neg htaken, if_neg htaken, Option.getD_none]
  · have hbelow : (m.opened inst).live = m.live.take (m.sp - inst.op.pops) := by
      unfold live
      rw [List.take_take, Nat.min_eq_left (Nat.sub_le _ _)]
      rfl
    have hroom : (m.opened inst).sp + e.pushes.length ≤ stackCapacity := by
      rw [hlength]
      exact hfit
    show ((m.opened inst).pushed e.pushes).live = _
    rw [live_pushed hroom, hbelow, hresults, reverse_operands hsp hle]
  · intro i hi
    rw [← hlength] at hi
    exact getElem?_overwrite_outside hi

/-! ## Rows -/

/-- An instruction of the table is refused as it should be, or leaves what it should. -/
theorem refused_or_realised (hsp : m.sp ≤ stackCapacity)
    (hoperand : inst.op = .push → inst.operand ≠ none) (hop : inst.op ∉ [.sp, .spi, .spd]) :
    (∃ fault m', m.refusal? inst = some fault ∧ m.step inst = .error fault m')
    ∨ (m.refusal? inst = none
      ∧ ∃ m', m.step inst = .ok (inst.op.flow (m.peek 0)) m' ∧ Realises inst m m') := by
  by_cases hlt : m.sp < inst.op.pops
  · left
    refine ⟨_, _, ?_, step_of_lt hlt⟩
    rw [refusal?, if_pos hlt]
  have hle : inst.op.pops ≤ m.sp := by omega
  rcases he : effect inst (m.operands inst) with fault | e
  · -- the objections come in no order, since they are those of different operations
    have hobjects := objects_iff.mp (effect_eq_error_iff.mp he)
    refine .inl ⟨fault, _, ?_, step_of_objects hle hobjects⟩
    rcases hobjects with ⟨hdiv, ha⟩ | ⟨hpush, hnone⟩ | ⟨hproc, hret⟩
    · rw [refusal?, if_neg hlt, if_pos ⟨hdiv, ha⟩]
    · exact absurd hnone (hoperand hpush)
    · have hdiv : ¬ (inst.op = .div ∧ m.peek 0 = 0) := by simp [hproc]
      rw [refusal?, if_neg hlt, if_neg hdiv, if_pos ⟨hproc, hret⟩]
  · have hobjects : ∀ fault, ¬ Objects inst (m.peek 0) fault := by
      intro fault hobjects
      have herror := effect_eq_error_iff.mpr (objects_iff.mpr hobjects)
      rw [he] at herror
      simp at herror
    have hdiv : ¬ (inst.op = .div ∧ m.peek 0 = 0) := fun h => hobjects _ (.divisor h.1 h.2)
    have hret : ¬ (inst.op = .proc ∧ 65535 < inst.next) := fun h => hobjects _ (.ret h.1 h.2)
    obtain ⟨-, hlength, hflow⟩ := row_of_effect he
    by_cases hfull : stackCapacity < m.sp - inst.op.pops + inst.op.pushes
    · have hbound : (m.opened inst).sp ≤ stackCapacity := Nat.le_trans (Nat.sub_le _ _) hsp
      have hover : stackCapacity < (m.opened inst).sp + e.pushes.length := by
        rw [hlength]
        exact hfull
      left
      refine ⟨_, _, ?_, (step_of_effect hle he).trans (Effect.run_of_full hbound hover)⟩
      rw [refusal?, if_neg hlt, if_neg hdiv, if_neg hret, if_pos hfull]
    · have hfit : m.sp - inst.op.pops + inst.op.pushes ≤ stackCapacity := by omega
      have hroom : (m.opened inst).sp + e.pushes.length ≤ stackCapacity := by
        rw [hlength]
        exact hfit
      right
      refine ⟨?_, _, ?_, realises_of_effect hsp hle he hfit⟩
      · rw [refusal?, if_neg hlt, if_neg hdiv, if_neg hret, if_neg hfull]
      · rw [step_of_effect hle he, ← hflow]
        exact Effect.run_of_fits (shift_of_effect he hop) hroom

/-- **Every instruction realises its row of the table.** On a machine whose stack pointer is
within the stack, executing a decoded instruction, other than one that moves the stack
pointer by itself, fails exactly if the table refuses it, with the first of these: too few
values, a divisor that is zero, a return address that is no word, too little room for the
results. Otherwise it succeeds: it ends the program if it is the one that does, the results
stand in place of the operands and no other cell is changed, the frame pointer has followed,
and control goes to the topmost operand if the condition of a jump holds and else on behind
the instruction. -/
theorem step_realises_table {program : Program} {address : Nat} (hsp : m.sp ≤ stackCapacity)
    (hdecode : decodeAt program address = .ok (some inst)) (hop : inst.op ∉ [.sp, .spi, .spd]) :
    (∀ fault, (∃ m', m.step inst = .error fault m') ↔ m.refusal? inst = some fault)
    ∧ (m.refusal? inst = none →
      ∃ m', m.step inst = .ok (inst.op.flow (m.peek 0)) m' ∧ Realises inst m m') := by
  have hfetch : fetch { load program with ip := address } = .ok inst :=
    fetch_eq_ok_iff.mpr hdecode
  rcases refused_or_realised hsp (operand_of_fetch hfetch) hop with
    ⟨fault, m', hrefusal, hstep⟩ | ⟨hrefusal, m', hstep, hrow⟩
  · rw [hrefusal, hstep]
    constructor
    · intro other
      constructor
      · rintro ⟨_, hother⟩
        rw [(EStateM.Result.error.inj hother).1]
      · intro hother
        exact ⟨m', by rw [Option.some.inj hother]⟩
    · intro hnone
      simp at hnone
  · rw [hrefusal, hstep]
    constructor
    · intro other
      simp
    · intro _
      exact ⟨m', rfl, hrow⟩

/-- Twenty divided by six and by zero: the one leaves three for the two, the other is
refused. -/
theorem step_realises_table_division :
    let machine : Word → Machine := fun a =>
      { load #[6] with
        stack := ((Vector.replicate stackCapacity 0).setIfInBounds 0 20).setIfInBounds 1 a
        sp := 2
        fp := 2 }
    let inst : Instruction := ⟨0, .div, none⟩
    decodeAt #[6] 0 = .ok (some inst)
    ∧ (∃ m', (machine 6).step inst = .ok .next m' ∧ m'.live = [3] ∧ m'.sp = 1 ∧ m'.fp = 1
      ∧ m'.ip = 1)
    ∧ ∃ m', (machine 0).step inst = .error (.divisionByZero 0) m' := by
  intro machine inst
  have hdecode : decodeAt #[6] 0 = .ok (some inst) := by decide
  have hop : inst.op ∉ [.sp, .spi, .spd] := by decide
  have hsp : ∀ a, (machine a).sp ≤ stackCapacity := by
    intro a
    show 2 ≤ stackCapacity
    decide
  refine ⟨hdecode, ?_, ?_⟩
  · have hlive : (machine 6).live = [20, 6] := by decide +kernel
    have hrefusal : (machine 6).refusal? inst = none := by decide +kernel
    obtain ⟨m', hstep, hrow⟩ := (step_realises_table (hsp 6) hdecode hop).2 hrefusal
    refine ⟨m', hstep, ?_, hrow.sp, hrow.fp, hrow.ip⟩
    rw [hrow.live, hlive]
    decide
  · have hrefusal : (machine 0).refusal? inst = some (.divisionByZero 0) := by decide +kernel
    exact ((step_realises_table (hsp 0) hdecode hop).1 _).mpr hrefusal

end Machine

end StackMachine
