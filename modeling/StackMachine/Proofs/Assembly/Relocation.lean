/-
One source behind another.

Put behind whole lines, a source keeps its words except those that hold addresses: these
grow by the number of words in front. All counters of the assembly run on, those of lines,
of instructions and of words, so what has to be shown is that each of them reaches the
second source as a constant distance. For references this is `Denotes.extend` for the
source in front and `Denotes.behind` for the one behind, for emission it is `emit_joined`.

A line number is not moved with its line, so it is the one kind of reference that the
source behind cannot have.
-/
import StackMachine.Proofs.Text.Lines
import StackMachine.Proofs.Assembly.Items

set_option autoImplicit false

namespace StackMachine.Source

/-- The line as it is read `distance` lines further down. -/
def Line.moved (distance : Nat) (line : Line) : Line :=
  { line with number := line.number + distance }

end StackMachine.Source

namespace StackMachine.Assembly

open Source

/-! ## Lines -/

/-- The lines of one source behind those of another, with their numbers running on. -/
def joined (left right : List Line) : List Line :=
  left ++ right.map (Line.moved left.length)

section Lines

variable (distance : Nat) (left right : List Line)

@[simp] theorem codesOf_moved : codesOf (right.map (Line.moved distance)) = codesOf right := by
  rw [codesOf, List.flatMap_map]
  rfl

@[simp] theorem labelsOf_moved : labelsOf (right.map (Line.moved distance)) = labelsOf right := by
  rw [labelsOf, List.filterMap_map]
  rfl

@[simp] theorem extent_moved : extent (right.map (Line.moved distance)) = extent right := by
  rw [extent_eq_totalSize, codesOf_moved, extent_eq_totalSize]

theorem codesOf_joined : codesOf (joined left right) = codesOf left ++ codesOf right := by
  rw [joined, codesOf_append, codesOf_moved]

theorem labelsOf_joined : labelsOf (joined left right) = labelsOf left ++ labelsOf right := by
  rw [joined, labelsOf_append, labelsOf_moved]

theorem extent_joined : extent (joined left right) = extent left + extent right := by
  rw [joined, extent_append, extent_moved]

/-- Labels are bound as before, those behind at addresses that run on. -/
theorem labelEntries_joined :
    labelEntries (joined left right)
      = labelEntries left
        ++ (labelEntries right).map fun entry => (entry.1, extent left + entry.2) := by
  rw [joined]
  induction right using List.reverseRecOn with
  | nil => simp [labelEntries, placed]
  | append_singleton right line ih =>
    have hlabel : (line.moved left.length).label? = line.label? := rfl
    rw [List.map_append, List.map_singleton, ← List.append_assoc, labelEntries_append, ih,
      labelEntries_append, List.map_append, List.append_assoc, hlabel, extent_append, extent_moved]
    rcases line.label? with _ | name
    · rfl
    · rfl

end Lines

/-- A source behind whole lines is read as the same lines, further down. -/
theorem Reads.joined {front back : String} {left right : List Line} (hleft : Reads front left)
    (hright : Reads back right) (hfront : Text.Whole front) :
    Reads (front ++ back) (joined left right) := by
  have hlines := Text.lines_append hfront back
  refine ⟨?_, ?_⟩
  · rw [hlines, Assembly.joined, List.length_append, List.length_append, List.length_map,
      hleft.length_eq, hright.length_eq]
  · intro i raw hraw
    rw [hlines] at hraw
    rw [Assembly.joined]
    by_cases hi : i < (Text.lines front).length
    · rw [List.getElem?_append_left hi] at hraw
      rw [List.getElem?_append_left (by rw [hleft.length_eq]; exact hi)]
      exact hleft.parse_eq i raw hraw
    · have hge : left.length ≤ i := by
        rw [hleft.length_eq]
        omega
      rw [List.getElem?_append_right (by omega), ← hleft.length_eq] at hraw
      obtain ⟨line, hline, hparse⟩ := hright.parse_eq _ raw hraw
      -- what a line says does not depend on its number
      obtain ⟨statement, hstatement, rfl⟩ := Line.parse_eq_ok_iff.mp hparse
      refine ⟨_, ?_, Line.parse_eq_ok_iff.mpr ⟨statement, hstatement, rfl⟩⟩
      have hnumber : i - left.length + 1 + left.length = i + 1 := by omega
      rw [List.getElem?_append_right hge, List.getElem?_map, hline, Option.map_some, Line.moved,
        hnumber]

/-! ## References -/

section References

variable {left right : List Line} {index address : Nat} {target : Reference}

/-- Lines behind do not change what a reference means. -/
theorem Denotes.extend (h : Denotes left index target address) (right : List Line) :
    Denotes (left ++ right) index target address := by
  have hget : ∀ {i : Nat} {line : Line}, left[i]? = some line →
      (left ++ right)[i]? = some line ∧ (left ++ right).take i = left.take i := by
    intro i line hi
    have hlt := (List.getElem?_eq_some_iff.mp hi).1
    rw [List.getElem?_append_left hlt, List.take_append_of_le_length (Nat.le_of_lt hlt)]
    exact ⟨hi, rfl⟩
  rcases h with ⟨hi, hname⟩ | @⟨offset, j, hj, hlt⟩ | ⟨hi, hcodes⟩
  · rw [← (hget hi).2]
    exact .label (hget hi).1 hname
  · rw [← List.take_append_of_le_length (Nat.le_of_lt hlt), ← codesOf_append]
    refine .relative hj ?_
    rw [codesOf_append, List.length_append]
    omega
  · rw [← (hget hi).2]
    exact .line (hget hi).1 hcodes

/-- Behind other lines, a reference that is no line number means the same place, which stands
further on by the extent of these lines. -/
theorem Denotes.behind (h : Denotes right index target address)
    (htarget : ∀ number, target ≠ .line number) (left : List Line) :
    Denotes (joined left right) ((codesOf left).length + index) target (extent left + address) := by
  rcases h with @⟨i, line, name, hi, hname⟩ | @⟨offset, j, hj, hlt⟩ | @⟨i, line, hi, hcodes⟩
  · have hget : (joined left right)[left.length + i]? = some (line.moved left.length) := by
      rw [joined, List.getElem?_append_right (Nat.le_add_right _ _), Nat.add_sub_cancel_left,
        List.getElem?_map, hi, Option.map_some]
    have haddress : extent ((joined left right).take (left.length + i))
        = extent left + extent (right.take i) := by
      rw [joined, List.take_length_add_append, ← List.map_take, extent_append, extent_moved]
    rw [← haddress]
    exact .label hget hname
  · have haddress : Code.totalSize ((codesOf (joined left right)).take ((codesOf left).length + j))
        = extent left + Code.totalSize ((codesOf right).take j) := by
      rw [codesOf_joined, List.take_length_add_append, Code.totalSize_append, extent_eq_totalSize]
    rw [← haddress]
    refine .relative (by omega) ?_
    rw [codesOf_joined, List.length_append]
    omega
  · exact absurd rfl (htarget line.number)

end References

/-! ## Slots -/

namespace Slot

/-- The slot as it is emitted `lines` lines and `instrs` instructions further on. -/
def moved (lines instrs : Nat) : Slot → Slot
  | word w => .word w
  | pending line index target => .pending (line + lines) (instrs + index) target

/-- The word of a slot whose program is put behind `distance` words: a word that holds an
address grows by as much, any other word stays. -/
def relocate (distance : Nat) : Slot → Word → Word
  | word _, w => w
  | pending _ _ _, w => w + UInt16.ofNat distance

theorem map_moved_ofCode (lines instrs line index : Nat) (code : Code) :
    (ofCode line index code).map (moved lines instrs)
      = ofCode (line + lines) (instrs + index) code := by
  rw [ofCode, ofCode]
  split
  · rfl
  · rfl
  · rfl

end Slot

/-- Emission goes on behind the lines in front with all its counters moved. -/
theorem emit_joined (left right : List Line) :
    emit (joined left right)
      = emit left ++ (emit right).map (Slot.moved left.length (codesOf left).length) := by
  have hnumbered : numberedCodes (joined left right)
      = numberedCodes left
        ++ (numberedCodes right).map fun entry => (entry.1 + left.length, entry.2) := by
    rw [joined, numberedCodes, List.flatMap_append, List.flatMap_map, ← numberedCodes,
      numberedCodes, numberedCodes, List.map_flatMap]
    congr 1
    refine List.flatMap_congr ?_
    intro line _
    rw [List.map_map]
    rfl
  rw [emit, hnumbered, List.zipIdx_append, List.flatMap_append, ← emit, List.zipIdx_map,
    List.flatMap_map, Nat.zero_add, length_numberedCodes, List.zipIdx_eq_map_add, List.flatMap_map,
    emit, emit, List.map_flatMap]
  congr 1
  refine List.flatMap_congr ?_
  rintro ⟨⟨line, code⟩, index⟩ _
  rw [Slot.map_moved_ofCode]
  rfl

/-! ## Resolution -/

/-- A slot that waits for an address gets the word of what its reference means. -/
theorem resolve_pending_eq_ok_iff {tables : Tables} {lines : List Line}
    (h : tables.Describes lines) (hnumbers : (lines.map Line.number).Nodup) {index : Nat}
    (hindex : index < (codesOf lines).length) {number : Nat} {target : Reference} {w : Word} :
    Slot.resolve tables (.pending number index target) = .ok w
      ↔ Denotes lines index target w.toNat := by
  rw [← resolve_eq_ok_iff h hnumbers hindex, Slot.resolve]
  rcases tables.resolve index target with problem | w'
  · simp [Except.mapError]
  · simp [Except.mapError]

/-- The words of an assembly are those of its slots. -/
theorem Assembled.resolve_eq {source : String} {assembly : Assembly} {bares : List Bare}
    (h : Assembled source assembly bares) :
    resolve assembly.tables (emit assembly.lines) = .ok assembly.words.toList := by
  rw [resolve_emit_eq_ok_iff]
  exact ⟨bares, h.resolves, by rw [h.words_eq]⟩

/-- Each slot of an assembly has its word. -/
theorem Assembled.getElem?_words {source : String} {assembly : Assembly} {bares : List Bare}
    (h : Assembled source assembly bares) {p : Nat} {slot : Slot}
    (hp : (emit assembly.lines)[p]? = some slot) :
    ∃ w, assembly.words[p]? = some w ∧ Slot.resolve assembly.tables slot = .ok w := by
  obtain ⟨w, hw, hslot⟩ := (mapM_eq_ok_iff.mp h.resolve_eq).2 p slot hp
  rw [Array.getElem?_toList] at hw
  exact ⟨w, hw, hslot⟩

theorem Assembled.length_emit {source : String} {assembly : Assembly} {bares : List Bare}
    (h : Assembled source assembly bares) : (emit assembly.lines).length = assembly.words.size := by
  rw [← (mapM_eq_ok_iff.mp h.resolve_eq).1, Array.length_toList]

/-- The program put behind `distance` words. -/
def relocated (assembly : Assembly) (distance : Nat) : Program :=
  (List.zipWith (Slot.relocate distance) (emit assembly.lines) assembly.words.toList).toArray

theorem Assembled.size_relocated {source : String} {assembly : Assembly} {bares : List Bare}
    (h : Assembled source assembly bares) (distance : Nat) :
    (assembly.relocated distance).size = assembly.words.size := by
  rw [relocated, List.size_toArray, List.length_zipWith, h.length_emit, Array.length_toList,
    Nat.min_self]

theorem getElem?_relocated {assembly : Assembly} {p : Nat} {slot : Slot} {w : Word}
    (hslot : (emit assembly.lines)[p]? = some slot) (hw : assembly.words[p]? = some w)
    (distance : Nat) : (assembly.relocated distance)[p]? = some (slot.relocate distance w) := by
  rw [relocated, List.getElem?_toArray, List.getElem?_zipWith, hslot, Array.getElem?_toList, hw]

section Joined

variable {front back : String} {left right : Assembly} {leftBares rightBares : List Bare}
  {tables : Tables}

/-- The slots in front get the words they have without anything behind them. -/
theorem resolve_front (hleft : Assembled front left leftBares)
    (hreads : Reads (front ++ back) (joined left.lines right.lines))
    (htables : tables.Describes (joined left.lines right.lines)) :
    resolve tables (emit left.lines) = .ok left.words.toList := by
  rw [resolve, mapM_eq_ok_iff, hleft.length_emit, Array.length_toList]
  refine ⟨rfl, ?_⟩
  intro p slot hslot
  obtain ⟨w, hw, hresolve⟩ := hleft.getElem?_words hslot
  refine ⟨w, by rw [Array.getElem?_toList, hw], ?_⟩
  rcases slot with word | ⟨number, index, target⟩
  · exact hresolve
  · have hindex := (position_of_pending hleft.reads.wellFormed hslot).1
    have hindex' : index < (codesOf (joined left.lines right.lines)).length := by
      rw [codesOf_joined, List.length_append]
      omega
    rw [resolve_pending_eq_ok_iff hleft.describes hleft.reads.numbers_nodup hindex] at hresolve
    rw [resolve_pending_eq_ok_iff htables hreads.numbers_nodup hindex']
    exact hresolve.extend _

/-- No reference means a place beyond the end. -/
theorem Denotes.le_extent {lines : List Line} {index address : Nat} {target : Reference}
    (h : Denotes lines index target address) : address ≤ extent lines := by
  rcases h.boundary with ⟨j, hj, rfl⟩ | ⟨-, rfl⟩
  · exact Nat.le_of_lt (totalSize_take_lt_extent hj)
  · exact Nat.le_refl _

/-- A word that holds an address grows without wrapping around. -/
theorem toNat_relocate {distance : Nat} {w : Word} (h : w.toNat + distance < programCapacity)
    (number index : Nat) (target : Reference) :
    (Slot.relocate distance (.pending number index target) w).toNat = distance + w.toNat := by
  rw [programCapacity] at h
  rw [Slot.relocate, UInt16.toNat_add, UInt16.toNat_ofNat', Nat.mod_eq_of_lt (by omega)]
  omega

/-- The slots behind get their words relocated. -/
theorem resolve_back (hright : Assembled back right rightBares)
    (hunnumbered : Unnumbered right.lines)
    (hreads : Reads (front ++ back) (joined left.lines right.lines))
    (htables : tables.Describes (joined left.lines right.lines))
    (hfit : extent left.lines + extent right.lines < programCapacity) :
    resolve tables ((emit right.lines).map
        (Slot.moved left.lines.length (codesOf left.lines).length))
      = .ok (right.relocated (extent left.lines)).toList := by
  rw [resolve, mapM_eq_ok_iff, List.length_map, hright.length_emit, Array.length_toList,
    hright.size_relocated]
  refine ⟨rfl, ?_⟩
  intro p slot hslot
  rw [List.getElem?_map, Option.map_eq_some_iff] at hslot
  obtain ⟨slot', hslot', rfl⟩ := hslot
  obtain ⟨w, hw, hresolve⟩ := hright.getElem?_words hslot'
  refine ⟨_, by rw [Array.getElem?_toList, getElem?_relocated hslot' hw], ?_⟩
  rcases slot' with word | ⟨number, index, target⟩
  · exact hresolve
  · obtain ⟨code, hcode, htarget, -⟩ := code_of_pending hright.reads.wellFormed hslot'
    have hindex := (List.getElem?_eq_some_iff.mp hcode).1
    have hindex' : (codesOf left.lines).length + index
        < (codesOf (joined left.lines right.lines)).length := by
      rw [codesOf_joined, List.length_append]
      omega
    rw [resolve_pending_eq_ok_iff hright.describes hright.reads.numbers_nodup hindex] at hresolve
    have hle := hresolve.le_extent
    rw [Slot.moved, resolve_pending_eq_ok_iff htables hreads.numbers_nodup hindex',
      toNat_relocate (by omega)]
    apply hresolve.behind
    intro line hline
    exact hunnumbered code (List.mem_of_getElem? hcode) line (by rw [htarget, hline])

/-- One assembly behind another, if both fit and share no label. -/
theorem exists_joined (hleft : Assembled front left leftBares)
    (hright : Assembled back right rightBares) (hfront : Text.Whole front)
    (hunnumbered : Unnumbered right.lines)
    (hlabels : ∀ name ∈ labelsOf left.lines, name ∉ labelsOf right.lines)
    (hfit : left.words.size + right.words.size < programCapacity) :
    ∃ tables, tables.Describes (joined left.lines right.lines)
      ∧ assemble (front ++ back) = .ok ⟨joined left.lines right.lines, tables,
          left.words ++ right.relocated left.words.size⟩ := by
  have hreads := hleft.reads.joined hright.reads hfront
  have hdistinct : (labelsOf (joined left.lines right.lines)).Nodup := by
    rw [labelsOf_joined, List.nodup_append]
    refine ⟨hleft.describes.distinct, hright.describes.distinct, ?_⟩
    rintro name hname _ hname' rfl
    exact hlabels name hname hname'
  have hsize : left.words.size = extent left.lines := by
    rw [hleft.size_words, hleft.describes.size_eq]
  rw [hsize, hright.size_words, hright.describes.size_eq] at hfit
  obtain ⟨tables, hcollect⟩ := exists_collect_of_distinct hdistinct
    (by rw [extent_joined]; exact Nat.le_of_lt hfit)
  have htables := describes_of_collect hcollect
  refine ⟨tables, htables, ?_⟩
  rw [assemble_of_reads hreads, ofLines_of_collect hcollect, map_eq_ok_iff]
  refine ⟨left.words.toList ++ (right.relocated (extent left.lines)).toList, ?_, ?_⟩
  · rw [emit_joined, resolve, List.mapM_append, ← resolve, ← resolve,
      resolve_front hleft hreads htables, resolve_back hright hunnumbered hreads htables hfit]
    rfl
  · rw [hsize, ← Array.toList_append, Array.toArray_toList]

end Joined

/-- **Concatenation relocates.** Take two sources that are assembled, the first of them
empty or with a newline at its end, the second without a line number for an operand, with
no label in common and room for both. The one behind the other is assembled too: to the
words of the first, and then those of the second with the size of the first added to each
word that was emitted for a reference, and no other word changed. Its labels are those of
the first and then those of the second, with the same size added to their addresses. -/
theorem compile_append {front back : String} {left right : Assembly}
    (hleft : assemble front = .ok left) (hright : assemble back = .ok right)
    (hfront : Text.Whole front) (hback : Unnumbered right.lines)
    (hlabels : ∀ name ∈ labelsOf left.lines, name ∉ labelsOf right.lines)
    (hfit : left.words.size + right.words.size < programCapacity) :
    let distance := left.words.size
    compile (front ++ back) = .ok (left.words ++ right.relocated distance)
      ∧ (emit right.lines).length = right.words.size
      ∧ (right.relocated distance).size = right.words.size
      ∧ (∀ (p : Nat) (slot : Slot), (emit right.lines)[p]? = some slot →
          ∃ w w', right.words[p]? = some w ∧ (right.relocated distance)[p]? = some w'
            ∧ match slot with
              | .word _ => w' = w
              | .pending _ _ _ => w'.toNat = distance + w.toNat)
      ∧ ∃ assembly, assemble (front ++ back) = .ok assembly
        ∧ assembly.tables.labels = left.tables.labels
          ++ right.tables.labels.map fun entry => (entry.1, distance + entry.2) := by
  intro distance
  obtain ⟨leftBares, hleft⟩ := exists_assembled hleft
  obtain ⟨rightBares, hright⟩ := exists_assembled hright
  have hsize : distance = extent left.lines := hleft.size_words.trans hleft.describes.size_eq
  obtain ⟨tables, htables, hassembly⟩ := exists_joined hleft hright hfront hback hlabels hfit
  refine ⟨by rw [compile, hassembly]; rfl, hright.length_emit, hright.size_relocated _, ?_,
    _, hassembly, ?_⟩
  · intro p slot hslot
    obtain ⟨w, hw, hresolve⟩ := hright.getElem?_words hslot
    refine ⟨w, _, hw, getElem?_relocated hslot hw distance, ?_⟩
    rcases slot with word | ⟨number, index, target⟩
    · rfl
    · have hindex := (position_of_pending hright.reads.wellFormed hslot).1
      rw [resolve_pending_eq_ok_iff hright.describes hright.reads.numbers_nodup hindex] at hresolve
      have hle := hresolve.le_extent
      rw [hright.size_words, hright.describes.size_eq] at hfit
      exact toNat_relocate (by omega) number index target
  · apply Array.toList_inj.mp
    rw [htables.labels_eq, labelEntries_joined, Array.toList_append, Array.toList_map,
      hleft.describes.labels_eq, hright.describes.labels_eq, hsize]

/-- The literal of the second source looks like an address and stays as it is. -/
theorem compile_append_sample :
    compile ("a:\njmp @a\n" ++ "push 3\nb:\njmp @b\njmp @-1")
      = .ok #[1, 0, 23, 1, 3, 1, 5, 23, 1, 7, 23] := by
  obtain ⟨left, hleft, hlefts⟩ : ∃ left, assemble "a:\njmp @a\n" = .ok left
      ∧ (left.words, labelsOf left.lines) = (#[1, 0, 23], ["a"]) :=
    eq_ok_of_toOption_map (by decide +kernel)
  obtain ⟨right, hright, hrights⟩ : ∃ right, assemble "push 3\nb:\njmp @b\njmp @-1" = .ok right
      ∧ (right.words, labelsOf right.lines, codesOf right.lines, right.relocated 3)
        = (#[1, 3, 1, 2, 23, 1, 4, 23], ["b"],
          [⟨.push, some (.literal 3)⟩, ⟨.push, some (.reference (.label "b"))⟩, ⟨.jmp, none⟩,
            ⟨.push, some (.reference (.relative (-1)))⟩, ⟨.jmp, none⟩],
          #[1, 3, 1, 5, 23, 1, 7, 23]) :=
    eq_ok_of_toOption_map (by decide +kernel)
  simp only [Prod.mk.injEq] at hlefts hrights
  obtain ⟨hwords, hnames⟩ := hlefts
  obtain ⟨hwords', hnames', hcodes, hrelocated⟩ := hrights
  have hback : Unnumbered right.lines := by
    rw [Unnumbered, hcodes]
    simp [Code.Unnumbered]
  obtain ⟨hcompile, -⟩ := compile_append hleft hright (by decide) hback
    (by rw [hnames, hnames']; decide) (by rw [hwords, hwords']; decide)
  rw [hcompile, hwords]
  exact congrArg (fun words => Except.ok (#[1, 0, 23] ++ words)) hrelocated

end StackMachine.Assembly
