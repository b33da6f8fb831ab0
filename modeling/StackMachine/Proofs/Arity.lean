/-
What every line that was read promises.

However a line is written, as an operation, with a destination beside it or as
a pseudo-operation, each instruction it emits has an operand exactly if the
arity of its operation is one. This is all that sizes and addresses need to
know about the reader; the rest of the assembler never looks at source text.
-/
import StackMachine.Source.Line
import StackMachine.Proofs.FirstError
import StackMachine.Proofs.Framing

set_option autoImplicit false

namespace StackMachine.Source

/-! ## Instructions -/

/-- The operand is there exactly if the arity of the operation says so. -/
def Code.WellFormed (code : Code) : Prop :=
  code.operand.isSome ↔ code.op.arity = 1

/-- An operation that takes its destination off the stack has no operand. -/
theorem arity_of_takesTarget {op : Op} (h : op.takesTarget = true) : op.arity = 0 := by
  cases op with
  | push | db => simp [Op.takesTarget] at h
  | _ => rfl

/-- A pseudo-operation expands into operations without operands. -/
theorem arity_of_mem_expand {pseudo : Pseudo} {count : Int} {op : Op}
    (h : op ∈ pseudo.expand count) : op.arity = 0 := by
  obtain ⟨⟩ := pseudo
  rw [Pseudo.expand, List.mem_replicate] at h
  rw [h.2]
  split <;> rfl

theorem wellFormed_of_arity_zero {op : Op} (h : op.arity = 0) :
    Code.WellFormed ⟨op, none⟩ := by
  simp [Code.WellFormed, h]

theorem wellFormed_of_arity_one {op : Op} {operand : Operand} (h : op.arity = 1) :
    Code.WellFormed ⟨op, some operand⟩ := by
  simp [Code.WellFormed, h]

theorem wellFormed_of_ofOperation {op : Op} {name : String} {args : List Token}
    {codes : List Code} (h : Code.ofOperation op name args = .ok codes) :
    ∀ code ∈ codes, code.WellFormed := by
  intro code hcode
  rcases args with _ | ⟨arg, _ | ⟨extra, rest⟩⟩
  · by_cases harity : op.arity = 0
    · simp only [Code.ofOperation, if_pos harity, Except.ok.injEq] at h
      obtain rfl : code = ⟨op, none⟩ := by simpa [← h] using hcode
      exact wellFormed_of_arity_zero harity
    · simp [Code.ofOperation, harity] at h
  · by_cases harity : op.arity = 1
    · rw [Code.ofOperation, if_pos harity] at h
      obtain ⟨operand, -, h⟩ := bind_eq_ok_iff.mp h
      obtain rfl : [⟨op, some operand⟩] = codes := Except.ok.inj h
      obtain rfl : code = ⟨op, some operand⟩ := by simpa using hcode
      exact wellFormed_of_arity_one harity
    · rw [Code.ofOperation, if_neg harity] at h
      by_cases htarget : op.takesTarget = true
      · rw [if_pos htarget] at h
        obtain ⟨operand, -, h⟩ := bind_eq_ok_iff.mp h
        -- the destination is pushed first, so that the operation finds it
        obtain rfl : [⟨.push, some operand⟩, ⟨op, none⟩] = codes := Except.ok.inj h
        rcases List.mem_pair.mp hcode with rfl | rfl
        · exact wellFormed_of_arity_one rfl
        · exact wellFormed_of_arity_zero (arity_of_takesTarget htarget)
      · simp [htarget] at h
  · simp [Code.ofOperation] at h

theorem wellFormed_of_ofPseudo {pseudo : Pseudo} {name : String} {args : List Token}
    {codes : List Code} (h : Code.ofPseudo pseudo name args = .ok codes) :
    ∀ code ∈ codes, code.WellFormed := by
  intro code hcode
  rcases args with _ | ⟨arg, _ | ⟨extra, rest⟩⟩
  · simp [Code.ofPseudo] at h
  · rw [Code.ofPseudo] at h
    split at h
    · split at h
      · obtain rfl := Except.ok.inj h
        obtain ⟨op, hop, rfl⟩ := List.mem_map.mp hcode
        exact wellFormed_of_arity_zero (arity_of_mem_expand hop)
      · simp at h
    · simp at h
  · simp [Code.ofPseudo] at h

/-! ## Lines -/

/-- A definition emits nothing. -/
theorem ofDefinition_ne_code {text : String} {args : List Token} {codes : List Code} :
    Statement.ofDefinition text args ≠ .ok (.code codes) := by
  intro h
  rcases args with _ | ⟨extra, rest⟩
  · rw [Statement.ofDefinition] at h
    split at h
    · simp at h
    · simp at h
  · simp [Statement.ofDefinition] at h

theorem wellFormed_of_ofTokens {tokens : List Token} {codes : List Code}
    (h : Statement.ofTokens tokens = .ok (some (.code codes))) :
    ∀ code ∈ codes, code.WellFormed := by
  rcases tokens with _ | ⟨head, args⟩
  · simp [Statement.ofTokens] at h
  · rw [Statement.ofTokens] at h
    split at h
    · obtain ⟨codes', hcodes, h⟩ := bind_eq_ok_iff.mp h
      obtain rfl : codes' = codes := by simpa [pure, Except.pure] using h
      exact wellFormed_of_ofOperation hcodes
    · simp at h
    · split at h
      · obtain ⟨statement, hstatement, h⟩ := bind_eq_ok_iff.mp h
        obtain rfl : statement = .code codes := by simpa [pure, Except.pure] using h
        exact absurd hstatement ofDefinition_ne_code
      · split at h
        · obtain ⟨codes', hcodes, h⟩ := bind_eq_ok_iff.mp h
          obtain rfl : codes' = codes := by simpa [pure, Except.pure] using h
          exact wellFormed_of_ofPseudo hcodes
        · simp at h

namespace Line

/-- A line that was read has the number it was read under, and its instructions
have the operands their arities ask for. -/
theorem parse_spec {number : Nat} {raw : String} {line : Line}
    (h : parse number raw = .ok line) :
    line.number = number ∧ ∀ code ∈ line.codes, code.WellFormed := by
  unfold parse at h
  split at h
  · rename_i statement hread
    obtain rfl : ⟨number, raw, statement⟩ = line := Except.ok.inj h
    refine ⟨rfl, ?_⟩
    obtain ⟨tokens, -, hstatement⟩ := bind_eq_ok_iff.mp hread
    intro code hcode
    rcases statement with _ | ⟨name⟩ | ⟨codes⟩
    · simp [codes] at hcode
    · simp [codes] at hcode
    · exact wellFormed_of_ofTokens hstatement code hcode
  · simp at h

/-- An error of a line is reported at that line. -/
theorem line_of_parse_error {number : Nat} {raw : String} {e : Error}
    (h : parse number raw = .error e) : e.line = number := by
  unfold parse at h
  split at h
  · simp at h
  · rw [← Except.error.inj h]
    rfl

end Line

end StackMachine.Source
