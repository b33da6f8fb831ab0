/-
The operation table.

An encoded program is a bare sequence of words: an operation's tag, then as
many operand words as the operation has. Nothing else in the stream says where
an instruction starts, so the assembler and the decoder must both read `arity`
from this one table.

Tags are the positions in `Op.table`. An operation has a keyword, which is
matched without regard to case, and twelve of them also have a symbol, which is
matched exactly.

`Op` is `OpKind` of the package `arch`, with `parse`, `from_symbol`, `arity`, `size`,
`takes_target` and `mnemonic`; `Pseudo` is the `Pseudo` beside it.
-/
import StackMachine.Word

set_option autoImplicit false

namespace StackMachine

/-- The operations of the machine, in the order of their tags. -/
inductive Op where
  | nop
  | push
  | pop
  | add
  | sub
  | mul
  | div
  | inc
  | dec
  | shl
  | shr
  | and
  | or
  | xor
  | not
  | swp
  | dup
  | dup2
  | ovr
  | rot
  | sp
  | spi
  | spd
  | jmp
  | jmpz
  | jmpnz
  | jmpe
  | jmpne
  | jmpg
  | jmpge
  | jmpl
  | jmple
  | proc
  | ret
  | db
  | read
  | write
  | halt
  | debug
  deriving DecidableEq, Repr

namespace Op

/-! ## Tags and sizes -/

/-- All operations; an operation stands at the index that is its tag. -/
def table : Array Op :=
  #[nop, push, pop, add, sub, mul, div, inc, dec, shl, shr, and, or, xor, not, swp, dup, dup2,
    ovr, rot, sp, spi, spd, jmp, jmpz, jmpnz, jmpe, jmpne, jmpg, jmpge, jmpl, jmple, proc, ret,
    db, read, write, halt, debug]

/-- The word that stands for the operation in an encoded program. -/
def tag : Op → Word
  | nop => 0
  | push => 1
  | pop => 2
  | add => 3
  | sub => 4
  | mul => 5
  | div => 6
  | inc => 7
  | dec => 8
  | shl => 9
  | shr => 10
  | and => 11
  | or => 12
  | xor => 13
  | not => 14
  | swp => 15
  | dup => 16
  | dup2 => 17
  | ovr => 18
  | rot => 19
  | sp => 20
  | spi => 21
  | spd => 22
  | jmp => 23
  | jmpz => 24
  | jmpnz => 25
  | jmpe => 26
  | jmpne => 27
  | jmpg => 28
  | jmpge => 29
  | jmpl => 30
  | jmple => 31
  | proc => 32
  | ret => 33
  | db => 34
  | read => 35
  | write => 36
  | halt => 37
  | debug => 38

/-- The operation with a given tag. -/
def ofTag? (w : Word) : Option Op :=
  table[w.toNat]?

/-- Reading a tag back gives the operation. -/
@[simp] theorem ofTag?_tag (op : Op) : ofTag? op.tag = some op := by
  cases op <;> rfl

/-- Every operation is in the table. -/
theorem mem_table (op : Op) : op ∈ table.toList :=
  Array.mem_toList_iff.mpr (Array.mem_of_getElem? (ofTag?_tag op))

/-- An operation has no tag but its own. -/
theorem eq_tag_of_ofTag? {w : Word} {op : Op} (h : ofTag? w = some op) : w = op.tag := by
  have hlt : w.toNat < 39 := (Array.getElem?_eq_some_iff.mp h).1
  have hall : ∀ n : Fin 39, table[n.val]? = some op → n.val = op.tag.toNat := by
    cases op <;> decide
  exact UInt16.toNat_inj.mp (hall ⟨w.toNat, hlt⟩ h)

/-- Number of operand words that follow the tag. -/
def arity : Op → Nat
  | push | db => 1
  | _ => 0

/-- Size of the encoded instruction in words. -/
def size (op : Op) : Nat :=
  1 + op.arity

/-- An encoded instruction is never empty, so decoding always moves on. -/
theorem size_pos (op : Op) : 0 < op.size := by
  unfold size; omega

/-- Whether the operation takes its destination off the stack. Source may then
write the destination next to it: `jmp @loop` stands for `push @loop`, `jmp`. -/
def takesTarget : Op → Bool
  | jmp | jmpz | jmpnz | jmpe | jmpne | jmpg | jmpge | jmpl | jmple | proc => true
  | _ => false

/-! ## Spelling -/

/-- The keyword, in upper case. -/
def name : Op → String
  | nop => "NOP"
  | push => "PUSH"
  | pop => "POP"
  | add => "ADD"
  | sub => "SUB"
  | mul => "MUL"
  | div => "DIV"
  | inc => "INC"
  | dec => "DEC"
  | shl => "SHL"
  | shr => "SHR"
  | and => "AND"
  | or => "OR"
  | xor => "XOR"
  | not => "NOT"
  | swp => "SWP"
  | dup => "DUP"
  | dup2 => "DUP2"
  | ovr => "OVER"
  | rot => "ROT"
  | sp => "SP"
  | spi => "SPI"
  | spd => "SPD"
  | jmp => "JMP"
  | jmpz => "JMPZ"
  | jmpnz => "JMPNZ"
  | jmpe => "JMPE"
  | jmpne => "JMPNE"
  | jmpg => "JMPG"
  | jmpge => "JMPGE"
  | jmpl => "JMPL"
  | jmple => "JMPLE"
  | proc => "PROC"
  | ret => "RET"
  | db => "DB"
  | read => "READ"
  | write => "WRITE"
  | halt => "HALT"
  | debug => "DEBUG"

/-- The keyword in lower case, as listings show it. -/
def mnemonic (op : Op) : String :=
  String.ofList (op.name.toList.map Char.toLower)

end Op

/-- The upper-case form of a character as far as keywords go. Beside the ASCII
letters two characters have an ASCII capital: the long s and the dotless i. -/
def capital (c : Char) : Char :=
  if c = 'ſ' then 'S' else if c = 'ı' then 'I' else c.toUpper

/-- The form in which keywords are compared. -/
def foldKeyword (s : String) : String :=
  String.ofList (s.toList.map capital)

namespace Op

/-- The operation with a given keyword, in any mix of cases. -/
def ofKeyword? (s : String) : Option Op :=
  table.find? fun op => op.name == foldKeyword s

/-- The wording for a text that is no operation's keyword. -/
def undefinedMessage (s : String) : String :=
  "Undefined Op: " ++ s

/-- The operation with a given symbol. -/
def ofSymbol? : String → Option Op
  | "+" => some add
  | "-" => some sub
  | "*" => some mul
  | "/" => some div
  | "++" => some inc
  | "--" => some dec
  | "<<" => some shl
  | ">>" => some shr
  | "&" => some and
  | "|" => some or
  | "^" => some xor
  | "~" => some not
  | _ => none

end Op

/-! ## Pseudo-operations -/

/-- Operations that exist in source only. They expand into machine operations
before any address is assigned. -/
inductive Pseudo where
  /-- Moves the stack pointer by a signed number of cells. -/
  | spr
  deriving DecidableEq, Repr

namespace Pseudo

/-- The keyword, in upper case. -/
def name : Pseudo → String
  | spr => "SPR"

/-- The pseudo-operation with a given keyword, in any mix of cases. -/
def ofKeyword? (s : String) : Option Pseudo :=
  if foldKeyword s = spr.name then some spr else none

/-- The wording for a text that is no pseudo-operation's keyword. -/
def undefinedMessage (s : String) : String :=
  "Undefined Pseudo Op: " ++ s

/-- The machine operations that a pseudo-operation with this count stands for. -/
def expand : Pseudo → Int → List Op
  | spr, count => List.replicate count.natAbs (if count < 0 then .spd else .spi)

end Pseudo

end StackMachine
