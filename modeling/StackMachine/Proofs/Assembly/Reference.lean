/-
What a reference means.

A reference names a place in one of three units: a label, a number of
instructions from the referring one, or a source line. `Denotes` gives each its
meaning in the layout of the source, and `Unresolvable` says, with the problem
it is reported as, when it has none. The tables agree with both
(`resolve_eq_ok_iff`, `resolve_eq_error_iff`): they were filled by a pass that
never saw a reference, so nothing depends on which of the two comes first.
-/
import StackMachine.Proofs.Assembly.Stages

set_option autoImplicit false

namespace StackMachine.Assembly

open Source

/-! ## Meaning -/

/-- The address that a reference made by instruction number `index` means. -/
inductive Denotes (lines : List Line) (index : Nat) : Reference → Nat → Prop where
  /-- A label means the size of the lines before its definition. -/
  | label {i : Nat} {line : Line} {name : String} :
      lines[i]? = some line → line.label? = some name →
      Denotes lines index (.label name) (extent (lines.take i))
  /-- An offset counts instructions from the referring one. -/
  | relative {offset : Int} {j : Nat} :
      (j : Int) = index + offset → j < (codesOf lines).length →
      Denotes lines index (.relative offset) (Code.totalSize ((codesOf lines).take j))
  /-- A line number means the first instruction of that line. -/
  | line {i : Nat} {line : Line} :
      lines[i]? = some line → line.codes ≠ [] →
      Denotes lines index (.line line.number) (extent (lines.take i))

/-- Why a reference made by instruction number `index` has no operand word. -/
inductive Unresolvable (lines : List Line) (index : Nat) : Reference → Problem → Prop where
  /-- No line defines the label. -/
  | undefined {name : String} :
      name ∉ labelsOf lines → Unresolvable lines index (.label name) (.undefinedLabel name)
  /-- The offset leads out of the program. -/
  | outside {offset : Int} :
      ¬ (0 ≤ index + offset ∧ index + offset < (codesOf lines).length) →
      Unresolvable lines index (.relative offset) (.addressOutOfBounds offset)
  /-- There is no such line, or it has no instruction. -/
  | unknownLine {number : Nat} :
      (∀ line ∈ lines, line.number = number → line.codes = []) →
      Unresolvable lines index (.line number) (.unknownLineNumber number)
  /-- The label stands at the end of a full program. -/
  | full {i : Nat} {line : Line} {name : String} :
      lines[i]? = some line → line.label? = some name →
      extent (lines.take i) = programCapacity →
      Unresolvable lines index (.label name) (.addressOutOfBounds programCapacity)

/-- What a reference means is the start of an instruction, except that a label
can also stand at the very end. -/
theorem Denotes.boundary {lines : List Line} {index address : Nat} {target : Reference}
    (h : Denotes lines index target address) :
    (∃ j, j < (codesOf lines).length ∧ address = Code.totalSize ((codesOf lines).take j))
      ∨ (∃ name, target = .label name) ∧ address = extent lines := by
  rcases h with @⟨i, line, name, hi, hname⟩ | ⟨hj, hlt⟩ | @⟨i, line, hi, hcodes⟩
  · rcases Nat.lt_or_ge (codesOf (lines.take i)).length (codesOf lines).length with hlt | hge
    · exact .inl ⟨_, hlt, extent_take_eq lines i⟩
    · refine .inr ⟨⟨name, rfl⟩, ?_⟩
      rw [extent_take_eq, List.take_of_length_le hge, extent_eq_totalSize]
  · exact .inl ⟨_, hlt, rfl⟩
  · exact .inl ⟨_, length_codesOf_take_lt hi hcodes, extent_take_eq lines i⟩

theorem totalSize_take_lt_extent {lines : List Line} {j : Nat} (hj : j < (codesOf lines).length) :
    Code.totalSize ((codesOf lines).take j) < extent lines := by
  have hend := Code.totalSize_take_lt (List.getElem?_eq_getElem hj)
  have hpos := Op.size_pos ((codesOf lines)[j]).op
  rw [extent_eq_totalSize]
  omega

/-- Every reference means a word, or there is a reason why it does not. -/
theorem denotes_or_unresolvable (lines : List Line) (index : Nat) (target : Reference)
    (hfit : extent lines ≤ programCapacity) :
    (∃ w : Word, Denotes lines index target w.toNat)
      ∨ ∃ problem, Unresolvable lines index target problem := by
  have hword : ∀ address, address < programCapacity → ∃ w : Word, w.toNat = address :=
    fun address hlt => ⟨UInt16.ofNat address, UInt16.toNat_ofNat_of_lt' hlt⟩
  rcases target with name | offset | number
  · by_cases hname : name ∈ labelsOf lines
    · obtain ⟨line, hline, hlabel⟩ := List.mem_filterMap.mp hname
      obtain ⟨i, hi⟩ := List.mem_iff_getElem?.mp hline
      have hle := extent_take_le lines i
      -- a label at the end of a full program has an address that is no word
      by_cases hfull : extent (lines.take i) = programCapacity
      · exact .inr ⟨_, .full hi hlabel hfull⟩
      · obtain ⟨w, hw⟩ := hword (extent (lines.take i)) (by omega)
        exact .inl ⟨w, hw ▸ .label hi hlabel⟩
    · exact .inr ⟨_, .undefined hname⟩
  · by_cases hin : 0 ≤ index + offset ∧ index + offset < (codesOf lines).length
    · obtain ⟨j, hj⟩ := Int.eq_ofNat_of_zero_le hin.1
      have hlt : j < (codesOf lines).length := by omega
      obtain ⟨w, hw⟩ := hword _ (Nat.lt_of_lt_of_le (totalSize_take_lt_extent hlt) hfit)
      exact .inl ⟨w, hw ▸ .relative hj.symm hlt⟩
    · exact .inr ⟨_, .outside hin⟩
  · by_cases hnone : ∀ line ∈ lines, line.number = number → line.codes = []
    · exact .inr ⟨_, .unknownLine hnone⟩
    · simp only [not_forall] at hnone
      obtain ⟨line, hline, rfl, hcodes⟩ := hnone
      obtain ⟨i, hi⟩ := List.mem_iff_getElem?.mp hline
      -- a line with instructions stands before the end, and so at a word
      have hlt := totalSize_take_lt_extent (length_codesOf_take_lt hi hcodes)
      rw [← extent_take_eq] at hlt
      obtain ⟨w, hw⟩ := hword _ (Nat.lt_of_lt_of_le hlt hfit)
      exact .inl ⟨w, hw ▸ .line hi hcodes⟩

/-! ## The tables agree -/

section Tables

variable {tables : Tables} {lines : List Line} {index : Nat}

theorem address_eq_ok_iff (h : tables.Describes lines)
    (hnumbers : (lines.map Line.number).Nodup) (hindex : index < (codesOf lines).length)
    {target : Reference} {address : Nat} :
    tables.address index target = .ok address ↔ Denotes lines index target address := by
  rcases target with name | offset | number
  · have hlookup : tables.address index (.label name) = .ok address
        ↔ tables.label? name = some address := by
      rw [Tables.address]
      rcases tables.label? name with _ | bound
      · simp
      · simp
    rw [hlookup, h.label?_eq_some_iff]
    constructor
    · rintro ⟨i, line, hi, hname, rfl⟩
      exact .label hi hname
    · rintro ⟨hi, hname⟩
      exact ⟨_, _, hi, hname, rfl⟩
  · have hlookup : tables.address index (.relative offset) = .ok address
        ↔ tables.instr? index offset = some address := by
      rw [Tables.address]
      rcases tables.instr? index offset with _ | found
      · simp
      · simp
    rw [hlookup, h.instr?_eq_some_iff]
    constructor
    · rintro ⟨-, j, hj, hlt, rfl⟩
      exact .relative hj hlt
    · rintro (_ | ⟨hj, hlt⟩)
      exact ⟨Nat.lt_trans hindex h.length_codesOf_lt, _, hj, hlt, rfl⟩
  · have hlookup : tables.address index (.line number) = .ok address
        ↔ tables.line? number = some address := by
      rw [Tables.address]
      rcases tables.line? number with _ | found
      · simp
      · simp
    rw [hlookup, h.line?_eq_some_iff hnumbers]
    constructor
    · rintro ⟨i, line, hi, hcodes, rfl, rfl⟩
      exact .line hi hcodes
    · intro hdenotes
      cases hdenotes with
      | line hi hcodes => exact ⟨_, _, hi, hcodes, rfl, rfl⟩

theorem Denotes.unique (h : tables.Describes lines)
    (hnumbers : (lines.map Line.number).Nodup) (hindex : index < (codesOf lines).length)
    {target : Reference} {a b : Nat} (ha : Denotes lines index target a)
    (hb : Denotes lines index target b) : a = b := by
  rw [← address_eq_ok_iff h hnumbers hindex] at ha hb
  rw [ha, Except.ok.injEq] at hb
  exact hb

/-- A reference resolves to the word of the address it means. -/
theorem resolve_eq_ok_iff (h : tables.Describes lines)
    (hnumbers : (lines.map Line.number).Nodup) (hindex : index < (codesOf lines).length)
    {target : Reference} {w : Word} :
    tables.resolve index target = .ok w ↔ Denotes lines index target w.toNat := by
  rw [← address_eq_ok_iff h hnumbers hindex, Tables.resolve, bind_eq_ok_iff]
  constructor
  · rintro ⟨address, haddress, hword⟩
    rcases hw : Word.ofNat? address with _ | w'
    · simp [hw] at hword
    · rw [hw] at hword
      obtain rfl : w' = w := by simpa [pure, Except.pure] using hword
      rw [Word.ofNat?_eq_some_iff.mp hw]
      exact haddress
  · intro haddress
    refine ⟨w.toNat, haddress, ?_⟩
    rw [Word.ofNat?_eq_some_iff.mpr rfl]
    rfl

/-- A reference for which there is a reason not to resolve does not, and the
problem is that reason. -/
theorem resolve_of_unresolvable (h : tables.Describes lines)
    (hnumbers : (lines.map Line.number).Nodup) (hindex : index < (codesOf lines).length)
    {target : Reference} {problem : Problem} (hreason : Unresolvable lines index target problem) :
    tables.resolve index target = .error problem := by
  rcases hreason with @⟨name, hname⟩ | @⟨offset, hoffset⟩ | @⟨number, hnumber⟩
    | @⟨i, line, name, hi, hname, hfull⟩
  · have hnone : tables.label? name = none := by
      rw [← Option.not_isSome_iff_eq_none, label?_isSome_iff h]
      exact hname
    rw [Tables.resolve, Tables.address, hnone]
    rfl
  · have hnone : tables.instr? index offset = none := by
      rw [Option.eq_none_iff_forall_ne_some]
      intro address hsome
      obtain ⟨-, j, hj, hlt, -⟩ := h.instr?_eq_some_iff.mp hsome
      exact hoffset ⟨by omega, by omega⟩
    rw [Tables.resolve, Tables.address, hnone]
    rfl
  · have hnone : tables.line? number = none := by
      rw [Option.eq_none_iff_forall_ne_some]
      intro address hsome
      obtain ⟨i, line, hi, hcodes, heq, -⟩ := (h.line?_eq_some_iff hnumbers).mp hsome
      exact hcodes (hnumber line (List.mem_of_getElem? hi) heq)
    rw [Tables.resolve, Tables.address, hnone]
    rfl
  · -- the label is bound, but one beyond the last word
    have haddress : tables.address index (.label name) = .ok programCapacity := by
      rw [address_eq_ok_iff h hnumbers hindex, ← hfull]
      exact .label hi hname
    rw [Tables.resolve, haddress]
    rfl

/-- A reference fails to resolve exactly if there is a reason, and with it. -/
theorem resolve_eq_error_iff (h : tables.Describes lines)
    (hnumbers : (lines.map Line.number).Nodup) (hindex : index < (codesOf lines).length)
    {target : Reference} {problem : Problem} :
    tables.resolve index target = .error problem ↔ Unresolvable lines index target problem := by
  refine ⟨fun herror => ?_, resolve_of_unresolvable h hnumbers hindex⟩
  rcases denotes_or_unresolvable lines index target (h.size_eq ▸ h.size_le) with
    ⟨w, hdenotes⟩ | ⟨reason, hreason⟩
  · rw [(resolve_eq_ok_iff h hnumbers hindex).mpr hdenotes] at herror
    simp at herror
  · rw [resolve_of_unresolvable h hnumbers hindex hreason, Except.error.injEq] at herror
    exact herror ▸ hreason

end Tables

/-! ## Where references stand -/

/-- What stands in a row of pieces stands in one of them, behind the others. -/
theorem getElem?_flatMap_eq_some {α β : Type} {f : α → List β} {l : List α} {p : Nat} {b : β}
    (h : (l.flatMap f)[p]? = some b) :
    ∃ (k : Nat) (a : α) (offset : Nat), l[k]? = some a ∧ (f a)[offset]? = some b
      ∧ p = ((l.take k).flatMap f).length + offset := by
  induction l generalizing p with
  | nil => simp at h
  | cons a l ih =>
    rw [List.flatMap_cons] at h
    rcases Nat.lt_or_ge p (f a).length with hlt | hge
    · rw [List.getElem?_append_left hlt] at h
      exact ⟨0, a, p, rfl, h, by simp⟩
    · rw [List.getElem?_append_right hge] at h
      obtain ⟨k, a', offset, hk, hoffset, hp⟩ := ih h
      refine ⟨k + 1, a', offset, hk, hoffset, ?_⟩
      rw [List.take_succ_cons, List.flatMap_cons, List.length_append]
      omega

theorem length_ofCode {code : Code} (h : code.WellFormed) (line index : Nat) :
    (Slot.ofCode line index code).length = code.op.size := by
  obtain ⟨op, operand⟩ := code
  rw [Code.WellFormed] at h
  rw [Op.size]
  rcases operand with _ | ⟨w⟩ | ⟨target⟩
  · rcases op.arity_eq_zero_or_one with harity | harity
    · rw [harity]; rfl
    · simp [harity] at h
  · rw [h.mp rfl]; rfl
  · rw [h.mp rfl]; rfl

/-- The first slots of a program are as many as the words of its first
instructions. -/
theorem length_slots_take {lines : List Line} (hcodes : ∀ code ∈ codesOf lines, code.WellFormed)
    (k : Nat) :
    (((numberedCodes lines).zipIdx.take k).flatMap fun entry =>
        Slot.ofCode entry.1.1 entry.2 entry.1.2).length
      = Code.totalSize ((codesOf lines).take k) := by
  have hcodesOf : (numberedCodes lines).zipIdx.map (fun entry => entry.1.2) = codesOf lines := by
    rw [← map_snd_numberedCodes, ← List.zipIdx_map_fst 0 (numberedCodes lines), List.map_map,
      List.zipIdx_map_fst]
    rfl
  rw [List.length_flatMap, Code.totalSize_eq_sum, ← hcodesOf, ← List.map_take, List.map_map]
  congr 1
  refine List.map_congr_left ?_
  intro entry hentry
  refine length_ofCode (hcodes _ ?_) _ _
  rw [← hcodesOf]
  exact List.mem_map.mpr ⟨entry, List.mem_of_mem_take hentry, rfl⟩

/-- A slot that waits for an address stands right behind the tag of the
instruction it names, and waits for what that instruction refers to. -/
theorem code_of_pending {lines : List Line} (hcodes : ∀ code ∈ codesOf lines, code.WellFormed)
    {p number index : Nat} {target : Reference}
    (h : (emit lines)[p]? = some (.pending number index target)) :
    ∃ code, (codesOf lines)[index]? = some code ∧ code.operand = some (.reference target)
      ∧ p = Code.totalSize ((codesOf lines).take index) + 1 := by
  obtain ⟨k, ⟨⟨number', code⟩, index'⟩, offset, hk, hslot, hp⟩ := getElem?_flatMap_eq_some h
  rw [List.getElem?_zipIdx, Nat.zero_add] at hk
  obtain ⟨entry, hentry, heq⟩ := Option.map_eq_some_iff.mp hk
  rw [Prod.mk.injEq] at heq
  obtain ⟨rfl, rfl⟩ := heq
  -- Of the slots of an instruction only the second one can be pending.
  have hsecond : offset = 1 ∧ index = k ∧ code.operand = some (.reference target) := by
    simp only [Slot.ofCode] at hslot
    split at hslot <;> rcases offset with _ | _ | offset <;> simp_all
  obtain ⟨rfl, rfl, htarget⟩ := hsecond
  refine ⟨code, getElem?_codesOf_eq_some_iff.mpr ⟨number', hentry⟩, htarget, ?_⟩
  rw [hp, ← length_slots_take hcodes index]

theorem position_of_pending {lines : List Line}
    (hcodes : ∀ code ∈ codesOf lines, code.WellFormed)
    {p number index : Nat} {target : Reference}
    (h : (emit lines)[p]? = some (.pending number index target)) :
    index < (codesOf lines).length ∧ p = Code.totalSize ((codesOf lines).take index) + 1 := by
  obtain ⟨code, hcode, -, hp⟩ := code_of_pending hcodes h
  exact ⟨(List.getElem?_eq_some_iff.mp hcode).1, hp⟩

/-- The word behind the tag of a referring instruction is what its reference
means. -/
theorem Assembled.word_eq {source : String} {assembly : Assembly} {bares : List Bare}
    (h : Assembled source assembly bares) {k : Nat} {code : Code} {target : Reference}
    (hk : (codesOf assembly.lines)[k]? = some code)
    (htarget : code.operand = some (.reference target)) :
    ∃ w : Word,
      assembly.words[Code.totalSize ((codesOf assembly.lines).take k) + 1]? = some w
        ∧ Denotes assembly.lines k target w.toNat := by
  obtain ⟨operand, hbare, hoperand⟩ := h.resolves.bare_eq k code hk
  rw [htarget, operandWord] at hoperand
  obtain ⟨w, hw, rfl⟩ := map_eq_ok_iff.mp hoperand
  refine ⟨w, ?_, ?_⟩
  · -- there is an operand, so the instruction has a second word
    have harity : code.op.arity = 1 :=
      (h.reads.wellFormed code (List.mem_of_getElem? hk)).mp (by rw [htarget]; rfl)
    rw [h.words_eq, List.getElem?_toArray, ← h.resolves.totalSize_take,
      Bare.getElem?_encode h.bares_wellFormed hbare (by rw [Op.size, harity]; decide)]
    rfl
  · exact (resolve_eq_ok_iff h.describes h.reads.numbers_nodup
      (List.getElem?_eq_some_iff.mp hk).1).mp hw

/-- **Meaning of references.** In an assembled program the word behind the tag
of a referring instruction, number `k`, is
- for a label, the size of the lines before its definition, which is where the
  first instruction behind the definition starts, or the end of the program if
  there is none;
- for an offset, the address of the instruction so many instructions away;
- for a line number, the address of the first instruction of that line.
It is the start of an instruction or, for a label only, the end of the program.
A slot that waits for an address names the instruction whose tag it follows. -/
theorem word_of_reference {source : String} {assembly : Assembly}
    (h : assemble source = .ok assembly) :
    let lines := assembly.lines
    let codes := codesOf lines
    let address := fun k => Code.totalSize (codes.take k)
    (∀ (k : Nat) (code : Code) (target : Reference),
      codes[k]? = some code → code.operand = some (.reference target) →
      ∃ w : Word, assembly.words[address k + 1]? = some w
        ∧ (match target with
          | .label name =>
            (∃ line ∈ lines, line.statement = some (.label name))
            ∧ ∀ (i : Nat) (line : Line), lines[i]? = some line →
                line.statement = some (.label name) →
                w.toNat = ((lines.take i).map Line.size).sum
                ∧ w.toNat = if (codesOf (lines.take i)).length < codes.length
                    then address (codesOf (lines.take i)).length else assembly.words.size
          | .relative offset =>
            ∃ j : Nat, (j : Int) = k + offset ∧ j < codes.length ∧ w.toNat = address j
          | .line number =>
            ∃ line, 1 ≤ number ∧ lines[number - 1]? = some line ∧ line.codes ≠ []
              ∧ w.toNat = address (codesOf (lines.take (number - 1))).length)
        ∧ ((∃ j, j < codes.length ∧ w.toNat = address j)
          ∨ (∃ name, target = .label name) ∧ w.toNat = assembly.words.size))
    ∧ ∀ (p number index : Nat) (target : Reference),
        (emit lines)[p]? = some (.pending number index target) →
        1 ≤ p ∧ assembly.tables.instr? index 0 = some (p - 1) := by
  obtain ⟨bares, hbares⟩ := exists_assembled h
  have hend : assembly.words.size = extent assembly.lines :=
    hbares.size_words.trans hbares.describes.size_eq
  intro lines codes address
  refine ⟨?_, ?_⟩
  · intro k code target hk htarget
    obtain ⟨w, hw, hdenotes⟩ := hbares.word_eq hk htarget
    refine ⟨w, hw, ?_, by rw [hend]; exact hdenotes.boundary⟩
    -- what a label means is said of any line that defines it, so uniqueness is needed
    have hunique : ∀ a, Denotes lines k target a → w.toNat = a := fun a ha =>
      hdenotes.unique hbares.describes hbares.reads.numbers_nodup
        (List.getElem?_eq_some_iff.mp hk).1 ha
    rcases target with name | offset | number
    · refine ⟨?_, ?_⟩
      · generalize w.toNat = a at hdenotes
        rcases hdenotes with ⟨hi, hname⟩
        exact ⟨_, List.mem_of_getElem? hi, Line.label?_eq_some_iff.mp hname⟩
      · intro i line hi hname
        have hvalue := hunique _ (.label hi (Line.label?_eq_some_iff.mpr hname))
        refine ⟨hvalue, ?_⟩
        split
        · rw [hvalue, extent_take_eq]
        · rename_i hlast
          rw [hvalue, extent_take_eq, List.take_of_length_le (Nat.le_of_not_lt hlast),
            ← extent_eq_totalSize, hend]
    · generalize hvalue : w.toNat = a at hdenotes
      rcases hdenotes with _ | ⟨hj, hlt⟩
      exact ⟨_, hj, hlt, rfl⟩
    · generalize hvalue : w.toNat = a at hdenotes
      cases hdenotes with
      | @line i line hi hcodes =>
        have hnumber := hbares.reads.number_eq hi
        -- lines are numbered from one, and listed from zero
        refine ⟨line, by omega, ?_, hcodes, ?_⟩
        · rw [hnumber, Nat.add_sub_cancel]; exact hi
        · rw [hnumber, Nat.add_sub_cancel]; exact extent_take_eq lines i
  · intro p number index target hslot
    obtain ⟨hindex, rfl⟩ := position_of_pending hbares.reads.wellFormed hslot
    exact ⟨by omega, hbares.describes.instr?_zero hindex⟩

/-- One instruction back from the destination of the jump, which is instruction
number one, stands instruction number zero. -/
theorem word_of_reference_sample :
    ∃ assembly, assemble "push @end\njmp @-1\nend:" = .ok assembly
      ∧ ∃ w : Word, assembly.words[3]? = some w ∧ w.toNat = 0 := by
  obtain ⟨assembly, h, hcodes⟩ : ∃ assembly, assemble "push @end\njmp @-1\nend:" = .ok assembly
      ∧ codesOf assembly.lines = [⟨.push, some (.reference (.label "end"))⟩,
          ⟨.push, some (.reference (.relative (-1)))⟩, ⟨.jmp, none⟩] :=
    eq_ok_of_toOption_map (by decide +kernel)
  obtain ⟨hwords, -⟩ := word_of_reference h
  obtain ⟨w, hw, ⟨j, hj, -, hvalue⟩, -⟩ := hwords 1 _ _ (by rw [hcodes]; rfl) rfl
  obtain rfl : j = 0 := by omega
  rw [hcodes] at hw
  exact ⟨assembly, h, w, hw, hvalue⟩

end StackMachine.Assembly
