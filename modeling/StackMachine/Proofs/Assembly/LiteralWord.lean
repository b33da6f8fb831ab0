/-
From the characters of a literal to the word in the program.

A literal is reduced twice on its way: to 64 bits, digit by digit, when it is read, and to 16 when
it becomes the operand of an instruction. Because `2^16` divides `2^64`, the word is the literal's
number reduced once, however many digits it has and whatever its sign.
-/
import StackMachine.Proofs.Assembly.Stages
import StackMachine.Proofs.Source.Operand
import StackMachine.Proofs.Source.Quoting

set_option autoImplicit false

namespace StackMachine.Assembly

open Source
open Literal (Writes)

section Word

variable {source name x : String} {assembly : Assembly} {bares : List Bare} {op : Op} {v : Int}

/-- A literal behind an operation that has an operand is that operand. -/
theorem ofLexemes_literal (hop : Spells name op) (harity : op.arity = 1)
    (hx : Writes x.toList v) :
    Statement.ofLexemes [name, x]
      = .ok (some (.code [⟨op, some (.literal (Literal.toWord (Int64.ofInt v)))⟩])) := by
  have hvalue : Literal.value? x = some (Int64.ofInt v) :=
    Literal.value?_eq_some_iff.mpr ⟨v, hx, rfl⟩
  rw [ofLexemes_operand (Token.kind?_eq_operation_iff.mpr hop) harity,
    ofLexeme_of_readAs (.literal hvalue)]
  rfl

/-- An instruction with a literal operand is encoded as its tag and that literal. -/
theorem Assembled.words_of_literal (h : Assembled source assembly bares) {k : Nat} {w : Word}
    (hk : (codesOf assembly.lines)[k]? = some ⟨op, some (.literal w)⟩) :
    assembly.words[Code.totalSize ((codesOf assembly.lines).take k)]? = some op.tag
      ∧ assembly.words[Code.totalSize ((codesOf assembly.lines).take k) + 1]? = some w := by
  obtain ⟨operand, hbare, hoperand⟩ := h.resolves.bare_eq k _ hk
  obtain rfl : some w = operand := Except.ok.inj hoperand
  have harity : op.arity = 1 := (h.reads.wellFormed _ (List.mem_of_getElem? hk)).mp rfl
  have hsize : op.size = 2 := by rw [Op.size, harity]
  have hword : ∀ offset < 2,
      assembly.words[Code.totalSize ((codesOf assembly.lines).take k) + offset]?
        = [op.tag, w][offset]? := by
    intro offset hoffset
    rw [h.words_eq, List.getElem?_toArray, ← h.resolves.totalSize_take]
    exact Bare.getElem?_encode h.bares_wellFormed hbare (by rw [hsize]; exact hoffset)
  exact ⟨hword 0 (by decide), hword 1 (by decide)⟩

/-- Where a line with a literal stands, the program has its operation and the literal. -/
theorem Assembled.words_of_line (h : Assembled source assembly bares) {i : Nat} {line : Line}
    (hi : assembly.lines[i]? = some line) (hlexemes : lexemes line.raw = [name, x])
    (hop : Spells name op) (harity : op.arity = 1) (hx : Writes x.toList v) :
    assembly.words[extent (assembly.lines.take i)]? = some op.tag
      ∧ assembly.words[extent (assembly.lines.take i) + 1]?
        = some (Literal.toWord (Int64.ofInt v)) := by
  obtain ⟨raw, hparse⟩ := h.reads.parse_of_getElem? hi
  obtain ⟨statement, hread, rfl⟩ := Line.parse_eq_ok_iff.mp hparse
  rw [hlexemes, ofLexemes_literal hop harity hx, Except.ok.injEq] at hread
  subst hread
  -- the line has one instruction, and it follows those of the lines before
  have hk : (codesOf assembly.lines)[(codesOf (assembly.lines.take i)).length]?
      = some ⟨op, some (.literal (Literal.toWord (Int64.ofInt v)))⟩ := by
    have hdrop := congrArg List.head? (codesOf_drop hi)
    rw [List.head?_drop] at hdrop
    exact hdrop
  rw [extent_take_eq]
  exact h.words_of_literal hk

end Word

/-- **A literal stands for its number modulo the size of what holds it.** A text is a literal
exactly if it is written like one, and then it has one number `v`. Its 64-bit value is the number in
`[-2^63, 2^63)` that is `v` modulo `2^64`. An instruction with an operand takes it, and wherever a
line with that instruction stands in an assembled source, the word behind the tag is `v` modulo
`2^16`. -/
theorem literal_reduced (s : String) :
    ((Literal.value? s).isSome = true ↔ ∃ v, Writes s.toList v)
      ∧ ∀ v, Writes s.toList v →
        (∀ w, Writes s.toList w → w = v)
        ∧ (∃ x, Literal.value? s = some x
          ∧ -2 ^ 63 ≤ x.toInt ∧ x.toInt < 2 ^ 63 ∧ x.toInt % 2 ^ 64 = v % 2 ^ 64)
        ∧ ∀ op : Op, op = .push ∨ op = .db → ∃ w : Word, (w.toNat : Int) = v % 65536
          ∧ (∀ number, Line.parse number (op.mnemonic ++ " " ++ s)
            = .ok ⟨number, op.mnemonic ++ " " ++ s, some (.code [⟨op, some (.literal w)⟩])⟩)
          ∧ ∀ (source : String) (assembly : Assembly) (i : Nat) (line : Line) (name : String),
            assemble source = .ok assembly → assembly.lines[i]? = some line →
            lexemes line.raw = [name, s] → Spells name op →
            assembly.words[((assembly.lines.take i).map Line.size).sum]? = some op.tag
              ∧ assembly.words[((assembly.lines.take i).map Line.size).sum + 1]? = some w := by
  have hvalue : ∀ v, Writes s.toList v → Literal.value? s = some (Int64.ofInt v) :=
    fun v hv => Literal.value?_eq_some_iff.mpr ⟨v, hv, rfl⟩
  refine ⟨?_, ?_⟩
  · rw [Option.isSome_iff_exists]
    constructor
    · rintro ⟨x, hx⟩
      obtain ⟨v, hv, -⟩ := Literal.value?_eq_some_iff.mp hx
      exact ⟨v, hv⟩
    · rintro ⟨v, hv⟩
      exact ⟨_, hvalue v hv⟩
  · intro v hv
    refine ⟨fun w hw => hw.unique hv, ⟨Int64.ofInt v, hvalue v hv, Int64.le_toInt _,
      Int64.toInt_lt _, ?_⟩, ?_⟩
    · rw [Int64.toInt_ofInt]
      exact Int.bmod_emod
    · intro op hop
      have harity : op.arity = 1 := by rcases hop with rfl | rfl <;> rfl
      have hkeyword : IsWord op.mnemonic.toList ∧ Spells op.mnemonic op := by
        rcases hop with rfl | rfl
        · exact ⟨by decide, .inl (by decide +kernel)⟩
        · exact ⟨by decide, .inl (by decide +kernel)⟩
      refine ⟨Literal.toWord (Int64.ofInt v), Literal.toNat_toWord v, ?_, ?_⟩
      · intro number
        refine Line.parse_eq_ok_iff.mpr ⟨_, ?_, rfl⟩
        rw [lexemes_pair hkeyword.1 hv, ofLexemes_literal hkeyword.2 harity hv]
      · intro source assembly i line name hassemble hi hlexemes hspells
        obtain ⟨bares, hbares⟩ := exists_assembled hassemble
        exact hbares.words_of_line hi hlexemes hspells harity hv

/-- `2^64 + 2^16 + 7` needs more than 64 bits, and as an operand it is seven; a blank is an operand
like any other character. -/
theorem literal_reduced_wide :
    (∃ w : Word, (w.toNat : Int) = 7 ∧ Line.parse 1 "push 0x10000000000010007"
        = .ok ⟨1, "push 0x10000000000010007", some (.code [⟨.push, some (.literal w)⟩])⟩)
      ∧ ∃ assembly, assemble "nop\nDB ' '" = .ok assembly
        ∧ ∃ w : Word, (w.toNat : Int) = 32 ∧ assembly.words[1]? = some Op.db.tag
          ∧ assembly.words[2]? = some w := by
  have hwide : Writes "0x10000000000010007".toList (2 ^ 64 + 2 ^ 16 + 7) :=
    Literal.exactValue?_eq_some_iff.mp (by decide +kernel)
  have hblank : Writes "' '".toList 32 := Literal.exactValue?_eq_some_iff.mp (by decide +kernel)
  obtain ⟨w, hw, hpush, -⟩ := ((literal_reduced _).2 _ hwide).2.2 .push (.inl rfl)
  obtain ⟨b, hb, -, hdb⟩ := ((literal_reduced _).2 _ hblank).2.2 .db (.inr rfl)
  refine ⟨⟨w, hw, hpush 1⟩, ?_⟩
  obtain ⟨assembly, h, hline, hsize⟩ : ∃ assembly, assemble "nop\nDB ' '" = .ok assembly
      ∧ assembly.lines[1]?.map (fun line => lexemes line.raw) = some ["DB", "' '"]
      ∧ ((assembly.lines.take 1).map Line.size).sum = 1 := by
    have heval := eq_ok_of_toOption_map (x := assemble "nop\nDB ' '")
      (f := fun assembly => (assembly.lines[1]?.map (fun line => lexemes line.raw),
        ((assembly.lines.take 1).map Line.size).sum))
      (b := (some ["DB", "' '"], 1)) (by decide +kernel)
    simpa only [Prod.mk.injEq] using heval
  obtain ⟨line, hi, hlexemes⟩ := Option.map_eq_some_iff.mp hline
  have hwords := hdb _ assembly 1 line "DB" h hi hlexemes (.inl (by decide +kernel))
  rw [hsize] at hwords
  exact ⟨assembly, h, b, hb, hwords⟩

end StackMachine.Assembly
