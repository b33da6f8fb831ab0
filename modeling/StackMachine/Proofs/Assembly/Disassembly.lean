/-
Assembler and decoder agree on where instructions start.

The encoded program has no framing of its own. That the decoder finds the
instructions of the source again, all of them and nothing else, rests on one
fact for each stage: reading gives every instruction the operands its arity asks
for, the first pass counts sizes, and resolution changes no size.
-/
import StackMachine.Proofs.Assembly.Stages

set_option autoImplicit false

namespace StackMachine.Assembly

open Source

/-- The decoder reads an assembled program as its resolved instructions. -/
theorem Assembled.disassemble_eq {source : String} {assembly : Assembly} {bares : List Bare}
    (h : Assembled source assembly bares) :
    disassemble assembly.words = ⟨(Bare.place 0 bares).toArray, none⟩ := by
  rw [h.words_eq, disassemble_encode h.bares_wellFormed]

/-- **Framing.** The decoder reads an assembled program as the instructions of
its lines: as many, with the same operations, each at the sum of the sizes
before it, which is also where the tables have it, and with an operand word
exactly where the source has an operand. The program is as long as the lines
are together, and it fits the address space. -/
theorem disassemble_assemble {source : String} {assembly : Assembly}
    (h : assemble source = .ok assembly) :
    let codes := codesOf assembly.lines
    let found := disassemble assembly.words
    found.failure = none
      ∧ found.instructions.size = codes.length
      ∧ assembly.tables.instrs.size = codes.length
      ∧ (∀ (k : Nat) (code : Code), codes[k]? = some code →
          ∃ inst, found.instructions[k]? = some inst
            ∧ inst.op = code.op
            ∧ inst.address = ((codes.take k).map fun c => c.op.size).sum
            ∧ assembly.tables.instr? k 0 = some inst.address
            ∧ inst.operand.isSome = code.operand.isSome
            ∧ ∀ w, code.operand = some (.literal w) → inst.operand = some w)
      ∧ assembly.words.size = assembly.tables.size
      ∧ assembly.tables.size = (assembly.lines.map Line.size).sum
      ∧ assembly.words.size ≤ 65536 := by
  obtain ⟨bares, hbares⟩ := exists_assembled h
  have hresolves := hbares.resolves
  have hdescribes := hbares.describes
  intro codes found
  have hfound : found = ⟨(Bare.place 0 bares).toArray, none⟩ := hbares.disassemble_eq
  refine ⟨by rw [hfound], ?_, ?_, ?_, hbares.size_words, hdescribes.size_eq, ?_⟩
  · rw [hfound, List.size_toArray, Bare.length_place, hresolves.length_eq]
  · rw [← Array.length_toList, hdescribes.instrs_eq, Code.length_starts]
  · intro k code hk
    obtain ⟨operand, hbare, hoperand⟩ := hresolves.bare_eq k code hk
    have haddress : Bare.totalSize (bares.take k) = Code.totalSize (codes.take k) :=
      hresolves.totalSize_take k
    refine ⟨⟨Bare.totalSize (bares.take k), code.op, operand⟩, ?_, rfl, ?_, ?_, ?_, ?_⟩
    · rw [hfound, List.getElem?_toArray, Bare.getElem?_place, hbare, Option.map_some,
        Nat.zero_add]
    · rw [haddress, Code.totalSize_eq_sum]
    · rw [haddress]
      exact hdescribes.instr?_zero (List.getElem?_eq_some_iff.mp hk).1
    · exact Resolves.isSome_operandWord hoperand
    · intro w hw
      rw [hw, operandWord, Except.ok.injEq] at hoperand
      exact hoperand.symm
  · rw [hbares.size_words]
    exact hdescribes.size_le

/-- A source with a label, a destination beside its jump, a pseudo-operation
and a datum has six instructions, and they are found again. -/
theorem disassemble_assemble_sample :
    ∃ assembly, assemble "again:\ndec\njmp @again ; 2\nspr -2\ndb 0x25" = .ok assembly
      ∧ (disassemble assembly.words).failure = none
      ∧ (disassemble assembly.words).instructions.size = 6
      ∧ assembly.words.size = 8 := by
  obtain ⟨assembly, h, hcount, hsize⟩ :
      ∃ assembly, assemble "again:\ndec\njmp @again ; 2\nspr -2\ndb 0x25" = .ok assembly
        ∧ (codesOf assembly.lines).length = 6 ∧ assembly.words.size = 8 := by
    have heval := eq_ok_of_toOption_map
      (x := assemble "again:\ndec\njmp @again ; 2\nspr -2\ndb 0x25")
      (f := fun assembly => ((codesOf assembly.lines).length, assembly.words.size))
      (b := (6, 8)) (by decide +kernel)
    simpa using heval
  obtain ⟨hfailure, hfound, -⟩ := disassemble_assemble h
  exact ⟨assembly, h, hfailure, hfound.trans hcount, hsize⟩

end StackMachine.Assembly
