/-
Where instructions start in a bare stream of words.

An instruction without a place is an operation with its operand word, if it has
one. Laid one after the other such instructions give a stream of words and, at
the same time, an address each: the sum of the sizes before it. What is shown
here is that a walk over the stream finds exactly these instructions at exactly
these addresses. The only condition is that each has an operand word if and
only if the arity of its operation says so; a word that happens to look like a
tag is never a difficulty.
-/
import StackMachine.Instruction
import Mathlib.Algebra.Ring.Nat

set_option autoImplicit false

namespace StackMachine

/-- No operation has more than one operand word. -/
theorem Op.arity_eq_zero_or_one (op : Op) : op.arity = 0 ∨ op.arity = 1 := by
  cases op <;> decide

/-! ## Instructions without a place -/

/-- An operation with its operand word, before it has an address. -/
structure Bare where
  op : Op
  operand : Option Word
  deriving DecidableEq, Repr

namespace Bare

/-- The operand word is there exactly if the arity of the operation says so. -/
def WellFormed (bare : Bare) : Prop :=
  bare.operand.isSome ↔ bare.op.arity = 1

/-- The instruction's own words. -/
def words (bare : Bare) : List Word :=
  bare.op.tag :: bare.operand.toList

/-- The words of a run of instructions. -/
def encode (bares : List Bare) : List Word :=
  bares.flatMap words

/-- Encoded size of a run of instructions in words. -/
def totalSize (bares : List Bare) : Nat :=
  (bares.map fun bare => bare.op.size).sum

/-- A run of instructions, the first of them at `address`. -/
def place (address : Nat) : List Bare → List Instruction
  | [] => []
  | bare :: bares => ⟨address, bare.op, bare.operand⟩ :: place (address + bare.op.size) bares

@[simp] theorem encode_nil : encode [] = [] := rfl

@[simp] theorem encode_cons (bare : Bare) (bares : List Bare) :
    encode (bare :: bares) = bare.words ++ encode bares := rfl

theorem encode_append (left right : List Bare) :
    encode (left ++ right) = encode left ++ encode right :=
  List.flatMap_append

@[simp] theorem totalSize_nil : totalSize [] = 0 := rfl

@[simp] theorem totalSize_cons (bare : Bare) (bares : List Bare) :
    totalSize (bare :: bares) = bare.op.size + totalSize bares := by
  simp [totalSize]

/-- The words before an instruction of a run, its own, and those behind it. -/
theorem encode_eq_append {bares : List Bare} {k : Nat} {bare : Bare}
    (hk : bares[k]? = some bare) :
    encode bares = encode (bares.take k) ++ (bare.words ++ encode (bares.drop (k + 1))) := by
  obtain ⟨hlt, hget⟩ := List.getElem?_eq_some_iff.mp hk
  rw [← encode_cons, ← hget, ← List.drop_eq_getElem_cons hlt, ← encode_append,
    List.take_append_drop]

/-- The size of an operation is the number of words it is encoded in. -/
theorem length_words {bare : Bare} (h : bare.WellFormed) : bare.words.length = bare.op.size := by
  unfold WellFormed at h
  unfold words Op.size
  rcases bare.op.arity_eq_zero_or_one with harity | harity
  · have hnone : bare.operand = none := by simpa [harity] using h
    simp [hnone, harity]
  · obtain ⟨w, hw⟩ := Option.isSome_iff_exists.mp (h.mpr harity)
    simp [hw, harity]

/-- The size of a run is the number of words it is encoded in. -/
theorem length_encode {bares : List Bare} (h : ∀ bare ∈ bares, bare.WellFormed) :
    (encode bares).length = totalSize bares := by
  induction bares with
  | nil => rfl
  | cons bare bares ih =>
    rw [encode_cons, List.length_append, totalSize_cons, length_words (h bare (by simp)),
      ih fun b hb => h b (by simp [hb])]

theorem length_place (address : Nat) (bares : List Bare) :
    (place address bares).length = bares.length := by
  induction bares generalizing address with
  | nil => rfl
  | cons bare bares ih => rw [place, List.length_cons, List.length_cons, ih]

/-- The address of an instruction is the size of what stands before it. -/
theorem getElem?_place (address k : Nat) (bares : List Bare) :
    (place address bares)[k]? =
      bares[k]?.map fun bare =>
        ⟨address + totalSize (bares.take k), bare.op, bare.operand⟩ := by
  induction bares generalizing address k with
  | nil => rfl
  | cons bare bares ih =>
    rcases k with _ | k
    · simp [place]
    · rw [place, List.getElem?_cons_succ, ih, List.getElem?_cons_succ, List.take_succ_cons,
        totalSize_cons, Nat.add_assoc]

/-- Word number `offset` of instruction number `k` of a run. -/
theorem getElem?_encode {bares : List Bare} (h : ∀ bare ∈ bares, bare.WellFormed)
    {k : Nat} {bare : Bare} (hk : bares[k]? = some bare) {offset : Nat}
    (hoffset : offset < bare.op.size) :
    (encode bares)[totalSize (bares.take k) + offset]? = bare.words[offset]? := by
  induction bares generalizing k with
  | nil => simp at hk
  | cons head bares ih =>
    have hhead : head.words.length = head.op.size := length_words (h head (by simp))
    rcases k with _ | k
    · obtain rfl : head = bare := by simpa using hk
      rw [List.take_zero, totalSize_nil, Nat.zero_add, encode_cons,
        List.getElem?_append_left (by omega)]
    · rw [List.take_succ_cons, totalSize_cons, encode_cons,
        List.getElem?_append_right (by omega)]
      rw [hhead, show head.op.size + totalSize (bares.take k) + offset - head.op.size
        = totalSize (bares.take k) + offset from by omega]
      exact ih (fun b hb => h b (by simp [hb])) hk

end Bare

/-! ## Decoding at a boundary -/

/-- Where the words of an instruction stand, that instruction is decoded. -/
theorem decodeAt_words {bare : Bare} (h : bare.WellFormed) (before after : List Word) :
    decodeAt (before ++ (bare.words ++ after)).toArray before.length
      = .ok (some ⟨before.length, bare.op, bare.operand⟩) := by
  obtain ⟨op, operand⟩ := bare
  have htag : (before ++ (op.tag :: (operand.toList ++ after))).toArray[before.length]?
      = some op.tag := by
    simp
  simp only [Bare.WellFormed] at h
  simp only [Bare.words, List.cons_append]
  unfold decodeAt
  rw [htag]
  simp only [Op.ofTag?_tag]
  rcases op.arity_eq_zero_or_one with harity | harity
  · have hnone : operand = none := by simpa [harity] using h
    rw [if_pos harity, hnone]
  · obtain ⟨w, hw⟩ := Option.isSome_iff_exists.mp (h.mpr harity)
    have hword : (before ++ (op.tag :: (operand.toList ++ after))).toArray[before.length + 1]?
        = some w := by
      simp [hw]
    rw [if_neg (by omega), hword, hw]

/-- Where an instruction of a run starts, that instruction is decoded. -/
theorem decodeAt_encode {bares : List Bare} (h : ∀ bare ∈ bares, bare.WellFormed) {k : Nat}
    {bare : Bare} (hk : bares[k]? = some bare) :
    decodeAt (Bare.encode bares).toArray (Bare.totalSize (bares.take k))
      = .ok (some ⟨Bare.totalSize (bares.take k), bare.op, bare.operand⟩) := by
  have hbefore : (Bare.encode (bares.take k)).length = Bare.totalSize (bares.take k) :=
    Bare.length_encode fun b hb => h b (List.mem_of_mem_take hb)
  rw [Bare.encode_eq_append hk, ← hbefore]
  exact decodeAt_words (h bare (List.mem_of_getElem? hk)) _ _

theorem decodeAt_size (program : Program) : decodeAt program program.size = .ok none := by
  unfold decodeAt
  rw [Array.getElem?_eq_none (Nat.le_refl _)]

/-- What keeps a walk from reading on: the end of the words, a word that is no
tag, or a last word that is the tag of an operation with an operand. -/
inductive Unread : List Word → Option DecodeError → Prop where
  | done : Unread [] none
  | unknown {word : Word} {rest : List Word} :
      Op.ofTag? word = none → Unread (word :: rest) (some (.unknownOpcode word))
  | missing {op : Op} : op.arity = 1 → Unread [op.tag] (some (.missingOperand op))

/-- Decoding finds the end of the words, or an instruction in front of other
words, or what keeps it from reading one. -/
theorem decodeAt_cases (program : Program) (address : Nat) :
    (program.toList.drop address = [] ∧ decodeAt program address = .ok none)
    ∨ (∃ (bare : Bare) (rest : List Word), bare.WellFormed
        ∧ program.toList.drop address = bare.words ++ rest
        ∧ decodeAt program address = .ok (some ⟨address, bare.op, bare.operand⟩))
    ∨ ∃ failure, Unread (program.toList.drop address) (some failure)
        ∧ decodeAt program address = .error failure := by
  have hcut : ∀ {i : Nat} {word : Word}, program[i]? = some word →
      program.toList.drop i = word :: program.toList.drop (i + 1) := by
    intro i word hword
    obtain ⟨hlt, rfl⟩ := Array.getElem?_eq_some_iff.mp hword
    rw [List.drop_eq_getElem_cons (by simpa using hlt), Array.getElem_toList]
  have hend : ∀ {i : Nat}, program[i]? = none → program.toList.drop i = [] := by
    intro i hnone
    exact List.drop_eq_nil_of_le (by simpa using Array.getElem?_eq_none_iff.mp hnone)
  rcases hfirst : program[address]? with _ | word
  · exact .inl ⟨hend hfirst, by rw [decodeAt, hfirst]⟩
  · rcases hop : Op.ofTag? word with _ | op
    · refine .inr (.inr ⟨.unknownOpcode word, ?_, by simp only [decodeAt, hfirst, hop]⟩)
      rw [hcut hfirst]
      exact .unknown hop
    · have htag : word = op.tag := Op.eq_tag_of_ofTag? hop
      rcases op.arity_eq_zero_or_one with harity | harity
      · refine .inr (.inl ⟨⟨op, none⟩, program.toList.drop (address + 1), ?_, ?_, ?_⟩)
        · simp [Bare.WellFormed, harity]
        · rw [hcut hfirst, htag]
          rfl
        · simp only [decodeAt, hfirst, hop, if_pos harity]
      · have hone : ¬ op.arity = 0 := by omega
        rcases hsecond : program[address + 1]? with _ | operand
        · refine .inr (.inr ⟨.missingOperand op, ?_, ?_⟩)
          · rw [hcut hfirst, hend hsecond, htag]
            exact .missing harity
          · simp only [decodeAt, hfirst, hop, if_neg hone, hsecond]
        · refine .inr (.inl ⟨⟨op, some operand⟩, program.toList.drop (address + 2), ?_, ?_, ?_⟩)
          · simp [Bare.WellFormed, harity]
          · rw [hcut hfirst, hcut hsecond, htag]
            rfl
          · simp only [decodeAt, hfirst, hop, if_neg hone, hsecond]

/-! ## The walk over a program -/

theorem disassembleFrom_of_some {program : Program} {address : Nat} {inst : Instruction}
    (h : decodeAt program address = .ok (some inst)) (read : Array Instruction) :
    disassembleFrom program address read
      = disassembleFrom program inst.next (read.push inst) := by
  rw [disassembleFrom]
  split
  · simp_all
  · rename_i inst' hdecode
    rw [h, Except.ok.injEq, Option.some.injEq] at hdecode
    rw [hdecode]
  · simp_all

theorem disassembleFrom_of_none {program : Program} {address : Nat}
    (h : decodeAt program address = .ok none) (read : Array Instruction) :
    disassembleFrom program address read = ⟨read, none⟩ := by
  rw [disassembleFrom]
  split
  · rfl
  · simp_all
  · simp_all

theorem disassembleFrom_of_error {program : Program} {address : Nat} {failure : DecodeError}
    (h : decodeAt program address = .error failure) (read : Array Instruction) :
    disassembleFrom program address read = ⟨read, some failure⟩ := by
  rw [disassembleFrom]
  split
  · simp_all
  · simp_all
  · rename_i failure' hdecode
    rw [h, Except.error.injEq] at hdecode
    rw [hdecode]

/-- From the start of a run of instructions the walk reads that run, whatever
stands before it. -/
theorem disassembleFrom_encode {bares : List Bare} (h : ∀ bare ∈ bares, bare.WellFormed)
    (before : List Word) (read : Array Instruction) :
    disassembleFrom (before ++ Bare.encode bares).toArray before.length read
      = ⟨read ++ (Bare.place before.length bares).toArray, none⟩ := by
  -- The words already passed move from the run to `before`, and the
  -- instructions they are from the placed run to `read`.
  induction bares generalizing before read with
  | nil =>
    rw [Bare.encode_nil, List.append_nil]
    rw [disassembleFrom_of_none (by simpa using decodeAt_size before.toArray)]
    simp [Bare.place]
  | cons bare bares ih =>
    have hbare : bare.WellFormed := h bare (by simp)
    rw [Bare.encode_cons, disassembleFrom_of_some (decodeAt_words hbare before _)]
    have hnext : Instruction.next ⟨before.length, bare.op, bare.operand⟩
        = (before ++ bare.words).length := by
      rw [List.length_append, Bare.length_words hbare]
      rfl
    rw [hnext, ← List.append_assoc, ih fun b hb => h b (by simp [hb])]
    rw [List.length_append, Bare.length_words hbare, Bare.place, Array.push_eq_append,
      Array.append_assoc]
    simp

/-- Disassembling the words of a run of instructions gives the run back, each
instruction at the size of what stands before it. -/
theorem disassemble_encode {bares : List Bare} (h : ∀ bare ∈ bares, bare.WellFormed) :
    disassemble (Bare.encode bares).toArray = ⟨(Bare.place 0 bares).toArray, none⟩ := by
  have hwalk := disassembleFrom_encode h [] #[]
  simpa [disassemble] using hwalk

/-- Whatever the words, the walk reads a run of instructions at the front of them
and stops where no further one can be read. -/
theorem exists_disassembleFrom (program : Program) (address : Nat) (read : Array Instruction) :
    ∃ (bares : List Bare) (rest : List Word), (∀ bare ∈ bares, bare.WellFormed)
      ∧ program.toList.drop address = Bare.encode bares ++ rest
      ∧ (disassembleFrom program address read).instructions
          = read ++ (Bare.place address bares).toArray
      ∧ Unread rest (disassembleFrom program address read).failure := by
  -- each instruction leaves fewer words behind the address
  induction hleft : program.size - address using Nat.strongRecOn generalizing address read with
  | ind left ih =>
    rcases decodeAt_cases program address with
      ⟨hwords, hnone⟩ | ⟨bare, rest, hbare, hwords, hsome⟩ | ⟨failure, hunread, herror⟩
    · refine ⟨[], [], by simp, by simpa using hwords, ?_, ?_⟩
      · rw [disassembleFrom_of_none hnone]
        simp [Bare.place]
      · rw [disassembleFrom_of_none hnone]
        exact .done
    · have hnext : Instruction.next ⟨address, bare.op, bare.operand⟩ = address + bare.op.size := rfl
      have hlt : address < program.size := (decodeAt_eq_some hsome).2
      have hpos := bare.op.size_pos
      obtain ⟨bares, rest', hbares, hrest, hread, hunread⟩ :=
        ih (program.size - (address + bare.op.size)) (by omega) (address + bare.op.size)
          (read.push ⟨address, bare.op, bare.operand⟩) rfl
      rw [disassembleFrom_of_some hsome, hnext]
      refine ⟨bare :: bares, rest', ?_, ?_, ?_, hunread⟩
      · simpa using ⟨hbare, hbares⟩
      · have hskip : rest = program.toList.drop (address + bare.op.size) := by
          rw [← List.drop_drop, hwords, ← Bare.length_words hbare, List.drop_left]
        rw [hwords, hskip, hrest, Bare.encode_cons, List.append_assoc]
      · rw [hread, Bare.place, Array.push_eq_append, Array.append_assoc]
        simp
    · refine ⟨[], program.toList.drop address, by simp, rfl, ?_, ?_⟩
      · rw [disassembleFrom_of_error herror]
        simp [Bare.place]
      · rw [disassembleFrom_of_error herror]
        exact hunread

/-- A program that is read to its end consists of the instructions read. -/
theorem exists_bares_of_disassemble {program : Program}
    (h : (disassemble program).failure = none) :
    ∃ bares, (∀ bare ∈ bares, bare.WellFormed) ∧ program = (Bare.encode bares).toArray
      ∧ (disassemble program).instructions = (Bare.place 0 bares).toArray := by
  obtain ⟨bares, rest, hbares, hwords, hread, hunread⟩ := exists_disassembleFrom program 0 #[]
  rw [← disassemble, h] at hunread
  rcases hunread with ⟨⟩
  refine ⟨bares, hbares, ?_, by simpa [disassemble] using hread⟩
  rw [List.drop_zero, List.append_nil] at hwords
  rw [← hwords]

end StackMachine
