/-
Encoding and disassembling are inverse to each other.

Words carry no marks, so there are two questions. Does a walk find the instructions that
were encoded? And what does it make of words that nobody encoded? The first is framing.
For the second, whatever a walk has read is the encoding of a front part of the words, and
it stops for one of three reasons: no word is left, the next word is no tag, or it is the
last word and the tag of an operation with an operand. So no word is skipped, none is
read twice, and a walk never finds its way again behind a word it could not read.

A walk can also be taken one item at a time, by a reader that is asked for the next item
until there is none. `item?_eq` says that it hands out what the whole walk reads and, at
most once and then last, what the walk failed with.
-/
import StackMachine.Proofs.Framing

set_option autoImplicit false

namespace StackMachine

/-! ## A reader -/

/-- What a walk hands out: the instructions it reads and then its failure, if it has one. -/
def Disassembly.items (walk : Disassembly) : List (Except DecodeError Instruction) :=
  walk.instructions.toList.map .ok ++ walk.failure.toList.map .error

/-- One call of a reader that stands at `address`: what it hands out, and where it stands
afterwards. A reader that fails goes to the end of the program. -/
def readItem? (program : Program) (address : Nat) : Option (Except DecodeError Instruction × Nat) :=
  match decodeAt program address with
  | .ok none => none
  | .ok (some inst) => some (.ok inst, inst.next)
  | .error failure => some (.error failure, program.size)

/-- The answer to call number `n` of a reader that stands at `address`. -/
def item? (program : Program) : Nat → Nat → Option (Except DecodeError Instruction)
  | 0, address => (readItem? program address).map Prod.fst
  | n + 1, address => (readItem? program address).bind fun read => item? program n read.2

section Reader

variable {program : Program} {address : Nat}

theorem item?_of_none (h : decodeAt program address = .ok none) (n : Nat) :
    item? program n address = none := by
  have hread : readItem? program address = none := by rw [readItem?, h]
  rcases n with _ | n
  · rw [item?, hread, Option.map_none]
  · rw [item?, hread, Option.bind_none]

/-- A reader that has failed hands out nothing more. -/
theorem item?_of_error {failure : DecodeError} (h : decodeAt program address = .error failure)
    (n : Nat) : item? program n address = [Except.error failure][n]? := by
  have hread : readItem? program address = some (.error failure, program.size) := by
    rw [readItem?, h]
  rcases n with _ | n
  · rw [item?, hread]
    rfl
  · rw [item?, hread, Option.bind_some, item?_of_none (decodeAt_size program)]
    rfl

theorem item?_of_some {inst : Instruction} (h : decodeAt program address = .ok (some inst))
    (n : Nat) :
    item? program (n + 1) address = item? program n inst.next
      ∧ item? program 0 address = some (.ok inst) := by
  have hread : readItem? program address = some (.ok inst, inst.next) := by rw [readItem?, h]
  rw [item?, item?, hread]
  exact ⟨rfl, rfl⟩

/-- What a walk has read it keeps in front. -/
theorem getElem?_items_of_lt {read : Array Instruction} {k : Nat} {inst : Instruction}
    (hk : read[k]? = some inst) :
    (disassembleFrom program address read).items[k]? = some (.ok inst) := by
  obtain ⟨bares, -, -, -, hread, -⟩ := exists_disassembleFrom program address read
  have hlt : k < read.size := (Array.getElem?_eq_some_iff.mp hk).1
  rw [Disassembly.items, hread, List.getElem?_append_left (by simp; omega), List.getElem?_map,
    Array.getElem?_toList, Array.getElem?_append_left hlt, hk, Option.map_some]

/-- From `address` on, a reader hands out what a walk adds to what it has already read. -/
theorem item?_eq_getElem? (program : Program) (address : Nat) (read : Array Instruction) (n : Nat) :
    item? program n address = (disassembleFrom program address read).items[read.size + n]? := by
  fun_induction disassembleFrom program address read generalizing n with
  | case1 address read hnone =>
    rw [item?_of_none hnone, Disassembly.items, List.getElem?_eq_none (by simp)]
  | case2 address read inst hsome hcloser ih =>
    obtain ⟨hlater, hfirst⟩ := item?_of_some hsome (n - 1)
    rcases n with _ | n
    · have hread : (read.push inst)[read.size]? = some inst := by simp
      rw [hfirst, Nat.add_zero, getElem?_items_of_lt hread]
    · -- the instruction just read stands at the end of what the rest of the walk starts from
      rw [Nat.add_sub_cancel] at hlater
      rw [hlater, ih n, Array.size_push, Nat.add_right_comm, Nat.add_assoc]
  | case3 address read failure herror =>
    rw [item?_of_error herror, Disassembly.items, List.getElem?_append_right (by simp)]
    simp

/-- A reader that starts at address zero hands out the items of the whole walk, and then
nothing more. -/
theorem item?_eq (program : Program) (n : Nat) :
    item? program n 0 = (disassemble program).items[n]? := by
  have hwalk := item?_eq_getElem? program 0 #[] n
  rwa [Array.size_empty, Nat.zero_add] at hwalk

end Reader

/-! ## Instructions in a row -/

/-- Instructions that follow one another without a gap, the first of them at `address`. -/
def Adjacent (address : Nat) : List Instruction → Prop
  | [] => True
  | inst :: insts => inst.address = address ∧ Adjacent inst.next insts

namespace Bare

theorem adjacent_place (address : Nat) (bares : List Bare) :
    Adjacent address (place address bares) := by
  induction bares generalizing address with
  | nil => trivial
  | cons bare bares ih => exact ⟨rfl, ih (address + bare.op.size)⟩

/-- Where instructions stand has no part in their words. -/
theorem encode_place (address : Nat) (bares : List Bare) :
    (place address bares).flatMap Instruction.encode = encode bares := by
  induction bares generalizing address with
  | nil => rfl
  | cons bare bares ih => rw [place, List.flatMap_cons, ih, encode_cons]; rfl

end Bare

/-! ## What is left unread -/

theorem Op.eq_push_or_db {op : Op} (h : op.arity = 1) : op = .push ∨ op = .db := by
  cases op with
  | push => exact .inl rfl
  | db => exact .inr rfl
  | _ => simp [Op.arity] at h

theorem Unread.failure_eq_none_iff {rest : List Word} {failure : Option DecodeError}
    (h : Unread rest failure) : failure = none ↔ rest = [] := by
  rcases h with _ | _ | _
  · simp
  · simp
  · simp

theorem Unread.reason {rest : List Word} {failure : DecodeError} (h : Unread rest (some failure)) :
    (∃ word tail, rest = word :: tail ∧ Op.ofTag? word = none ∧ failure = .unknownOpcode word)
      ∨ ∃ op, (op = .push ∨ op = .db) ∧ rest = [op.tag] ∧ failure = .missingOperand op := by
  cases h with
  | unknown htag => exact .inl ⟨_, _, rfl, htag, rfl⟩
  | missing harity => exact .inr ⟨_, Op.eq_push_or_db harity, rfl, rfl⟩

/-- **Encoding and disassembling are inverse.** Instructions that have an operand word
exactly where the arity of the operation says so are found again in their encoding, all of
them and nothing else, each at the sum of the sizes before it.

Conversely, take any words. A reader hands out the items of the walk over them, one for
each call, and nothing after the last; only the last can be a failure. The instructions
stand one behind the other from address zero, and encoded again they are a front part of
the words. The walk fails exactly if words are left over, and then these begin with a word
that is no tag, or they are the tag of an operation that lacks its operand. -/
theorem disassemble_inverse :
    (∀ bares : List Bare, (∀ bare ∈ bares, bare.WellFormed) →
      let found := disassemble (Bare.encode bares).toArray
      found.failure = none
        ∧ ∀ k : Nat, found.instructions[k]? = bares[k]?.map fun bare =>
          ⟨((bares.take k).map fun earlier => earlier.op.size).sum, bare.op, bare.operand⟩)
    ∧ ∀ program : Program,
      let found := disassemble program
      (∀ n, item? program n 0 = found.items[n]?)
        ∧ Adjacent 0 found.instructions.toList
        ∧ ∃ rest, program.toList = found.instructions.toList.flatMap Instruction.encode ++ rest
          ∧ (found.failure = none ↔ rest = [])
          ∧ ∀ failure, found.failure = some failure →
            (∃ word tail, rest = word :: tail ∧ Op.ofTag? word = none
              ∧ failure = .unknownOpcode word)
            ∨ ∃ op, (op = .push ∨ op = .db) ∧ rest = [op.tag] ∧ failure = .missingOperand op := by
  constructor
  · intro bares hbares found
    have hfound : found = ⟨(Bare.place 0 bares).toArray, none⟩ := disassemble_encode hbares
    refine ⟨by rw [hfound], ?_⟩
    intro k
    rw [hfound, List.getElem?_toArray, Bare.getElem?_place]
    simp only [Nat.zero_add]
    rfl
  · intro program found
    obtain ⟨bares, rest, -, hwords, hread, hunread⟩ := exists_disassembleFrom program 0 #[]
    have hinsts : found.instructions.toList = Bare.place 0 bares := by
      rw [show found.instructions = _ from hread, Array.empty_append]
    refine ⟨item?_eq program, ?_, rest, ?_, hunread.failure_eq_none_iff, ?_⟩
    · rw [hinsts]
      exact Bare.adjacent_place 0 bares
    · rw [hinsts, Bare.encode_place, ← hwords, List.drop_zero]
    · intro failure hfailure
      exact Unread.reason (hfailure ▸ hunread)

/-- An operand that looks like a tag is found again as an operand. Behind it a tag that
lacks its operand is left over, and a reader hands out the failure and nothing more. -/
theorem disassemble_inverse_sample :
    let bares : List Bare := [⟨.push, some Op.halt.tag⟩, ⟨.halt, none⟩]
    (∀ bare ∈ bares, bare.WellFormed)
      ∧ (disassemble (Bare.encode bares).toArray).instructions[1]? = some ⟨2, .halt, none⟩
      ∧ item? #[1, 37, 34] 1 0 = some (.error (.missingOperand .db))
      ∧ item? #[1, 37, 34] 2 0 = none := by
  intro bares
  have hbares : ∀ bare ∈ bares, bare.WellFormed := by simp [bares, Bare.WellFormed, Op.arity]
  obtain ⟨hencoded, hwords⟩ := disassemble_inverse
  have hitems : (disassemble #[1, 37, 34]).items
      = [.ok ⟨0, .push, some 37⟩, .error (.missingOperand .db)] := by
    decide +kernel
  refine ⟨hbares, (hencoded bares hbares).2 1, ?_, ?_⟩
  · rw [(hwords #[1, 37, 34]).1, hitems]
    rfl
  · rw [(hwords #[1, 37, 34]).1, hitems]
    rfl

end StackMachine
