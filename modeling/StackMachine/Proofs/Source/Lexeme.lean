/-
Lexemes of lines that hold no character literal.

Most lexemes are words: they hold no blank, no semicolon and no apostrophe, so the reader
is outside all character literals from their first character to their last. Words with
single blanks between them are cut into just these words, and a line that has nothing but
blanks before its comment has no lexemes.
-/
import StackMachine.Source.Lexeme
import Mathlib.Data.List.TakeWhile

set_option autoImplicit false

namespace StackMachine.Source

/-! ## Splitting outside of literals -/

variable {stop : Char → Bool} {cs rest : List Char}

theorem splitFrom_clear (h : ∀ c ∈ cs, c ≠ '\'' ∧ stop c = false) (taken rest : List Char) :
    splitFrom stop .outside taken (cs ++ rest)
      = splitFrom stop .outside (cs.reverse ++ taken) rest := by
  induction cs generalizing taken with
  | nil => rfl
  | cons c cs ih =>
    obtain ⟨hquote, hstop⟩ := h c List.mem_cons_self
    have hnext : Quote.next .outside c = .outside := by rw [Quote.next, if_neg hquote]
    rw [List.cons_append, splitFrom, if_neg (by simp [hstop]), hnext,
      ih fun c' hc' => h c' (List.mem_cons_of_mem c hc'), List.reverse_cons, List.append_assoc,
      List.singleton_append]

/-- A text without apostrophes is split before the first character to stop at. -/
theorem splitOutside_clear (h : ∀ c ∈ cs, c ≠ '\'' ∧ stop c = false)
    (hrest : ∀ c, rest.head? = some c → stop c = true) :
    splitOutside stop (cs ++ rest) = (cs, rest) := by
  rw [splitOutside, splitFrom_clear h, List.append_nil]
  rcases rest with _ | ⟨c, rest⟩
  · rw [splitFrom, List.reverse_reverse]
  · rw [splitFrom, if_pos ⟨rfl, hrest c rfl⟩, List.reverse_reverse]

/-! ## Words -/

/-- A character that neither ends a lexeme nor opens a character literal. -/
def isPlain (c : Char) : Bool :=
  !Text.isBlank c && c != ';' && c != '\''

/-- A lexeme that needs no apostrophes. -/
def IsWord (word : List Char) : Prop :=
  word ≠ [] ∧ word.all isPlain = true

instance (word : List Char) : Decidable (IsWord word) :=
  inferInstanceAs (Decidable (_ ∧ _))

theorem IsWord.isPlain {word : List Char} (h : IsWord word) {c : Char} (hc : c ∈ word) :
    isPlain c = true :=
  List.all_eq_true.mp h.2 c hc

theorem isPlain_iff {c : Char} :
    isPlain c = true ↔ Text.isBlank c = false ∧ c ≠ ';' ∧ c ≠ '\'' := by
  simp [isPlain, and_assoc]

theorem cutLexemes_eq (cs : List Char) :
    cutLexemes cs =
      match cs.dropWhile Text.isBlank with
      | [] => []
      | c :: rest =>
        (splitOutside Text.isBlank (c :: rest)).1
          :: cutLexemes (splitOutside Text.isBlank (c :: rest)).2 := by
  rw [cutLexemes]
  split
  · rename_i hdrop
    rw [hdrop]
  · rename_i hdrop
    simp only [hdrop]

theorem cutLexemes_nil : cutLexemes [] = [] := by
  rw [cutLexemes_eq]
  rfl

/-- A blank in front changes nothing. -/
theorem cutLexemes_blank {c : Char} (h : Text.isBlank c = true) (cs : List Char) :
    cutLexemes (c :: cs) = cutLexemes cs := by
  rw [cutLexemes_eq, List.dropWhile_cons_of_pos h, ← cutLexemes_eq]

/-- A word in front, up to a blank or to the end, is the first lexeme. -/
theorem cutLexemes_word {word : List Char} (h : IsWord word)
    (hrest : ∀ c, rest.head? = some c → Text.isBlank c = true) :
    cutLexemes (word ++ rest) = word :: cutLexemes rest := by
  have hclear : ∀ c ∈ word, c ≠ '\'' ∧ Text.isBlank c = false := by
    intro c hc
    obtain ⟨hblank, -, hquote⟩ := isPlain_iff.mp (h.isPlain hc)
    exact ⟨hquote, hblank⟩
  have hsplit : splitOutside Text.isBlank (word ++ rest) = (word, rest) :=
    splitOutside_clear hclear hrest
  -- no blank stands in front of the word, so nothing is dropped there
  rcases hword : word with _ | ⟨c, tail⟩
  · exact absurd hword h.1
  · have hblank : ¬ Text.isBlank c = true := by
      have hfirst := (hclear c (by rw [hword]; exact List.mem_cons_self)).2
      rw [hfirst]
      decide
    rw [hword, List.cons_append] at hsplit
    rw [List.cons_append, cutLexemes_eq, List.dropWhile_cons_of_neg hblank]
    simp only [hsplit]

/-- Words with a blank between any two of them are cut at these blanks. -/
theorem cutLexemes_intercalate {words : List (List Char)} (h : ∀ word ∈ words, IsWord word) :
    cutLexemes ([' '].intercalate words) = words := by
  induction words with
  | nil => exact cutLexemes_nil
  | cons word words ih =>
    have hword : IsWord word := h word List.mem_cons_self
    have hwords := ih fun other hother => h other (List.mem_cons_of_mem word hother)
    rcases words with _ | ⟨second, words⟩
    · have hone : cutLexemes (word ++ []) = word :: cutLexemes [] :=
        cutLexemes_word hword (by simp)
      rw [List.append_nil, cutLexemes_nil] at hone
      rw [List.intercalate_singleton, hone]
    · rw [List.intercalate_cons_cons, List.append_assoc, List.singleton_append,
        cutLexemes_word hword (by simp; decide), cutLexemes_blank (by decide), hwords]

/-! ## Lines -/

/-- What has no semicolon and no apostrophe has no comment. -/
theorem uncomment_eq_self (h : ∀ c ∈ cs, c ≠ '\'' ∧ c ≠ ';') : uncomment cs = cs := by
  have hsplit : splitOutside (· == ';') (cs ++ []) = (cs, []) := by
    refine splitOutside_clear ?_ (by simp)
    intro c hc
    exact ⟨(h c hc).1, by simpa using (h c hc).2⟩
  rw [List.append_nil] at hsplit
  rw [uncomment, hsplit]

/-- The characters of words and of the blanks between them. -/
theorem mem_intercalate {words : List (List Char)} {c : Char} (hc : c ∈ [' '].intercalate words) :
    c = ' ' ∨ ∃ word ∈ words, c ∈ word := by
  induction words with
  | nil => simp at hc
  | cons word words ih =>
    rcases words with _ | ⟨second, words⟩
    · rw [List.intercalate_singleton] at hc
      exact .inr ⟨word, List.mem_cons_self, hc⟩
    · rw [List.intercalate_cons_cons, List.mem_append, List.mem_append, List.mem_singleton] at hc
      rcases hc with (hc | hc) | hc
      · exact .inr ⟨word, List.mem_cons_self, hc⟩
      · exact .inl hc
      · exact (ih hc).imp_right fun ⟨other, hother, hc⟩ =>
          ⟨other, List.mem_cons_of_mem word hother, hc⟩

theorem isPlain_of_mem_intercalate {words : List (List Char)}
    (h : ∀ word ∈ words, IsWord word) {c : Char} (hc : c ∈ [' '].intercalate words) :
    c = ' ' ∨ isPlain c = true :=
  (mem_intercalate hc).imp_right fun ⟨word, hword, hc⟩ => (h word hword).isPlain hc

/-- **Words are the lexemes of their line.** -/
theorem lexemes_intercalate {words : List String} (h : ∀ word ∈ words, IsWord word.toList) :
    lexemes (String.intercalate " " words) = words := by
  have hwords : ∀ word ∈ words.map String.toList, IsWord word := by
    intro word hword
    obtain ⟨s, hs, rfl⟩ := List.mem_map.mp hword
    exact h s hs
  have hclear : ∀ c ∈ [' '].intercalate (words.map String.toList), c ≠ '\'' ∧ c ≠ ';' := by
    intro c hc
    rcases isPlain_of_mem_intercalate hwords hc with rfl | hplain
    · decide
    · obtain ⟨-, hsemicolon, hquote⟩ := isPlain_iff.mp hplain
      exact ⟨hquote, hsemicolon⟩
  have hblank : " ".toList = [' '] := rfl
  rw [lexemes, String.toList_intercalate, hblank, uncomment_eq_self hclear,
    cutLexemes_intercalate hwords, List.map_map]
  simp [Function.comp_def]

/-- Whether the first character of a line that is no blank, if there is one, starts a
comment. -/
def isVacant (line : String) : Bool :=
  (line.toList.dropWhile Text.isBlank).head?.all (· == ';')

/-- Before its comment, such a line has the blanks that it starts with. -/
theorem uncomment_of_isVacant {line : String} (h : isVacant line = true) :
    uncomment line.toList = line.toList.takeWhile Text.isBlank := by
  let blanks := line.toList.takeWhile Text.isBlank
  let comment := line.toList.dropWhile Text.isBlank
  have hblank : ∀ c ∈ blanks, Text.isBlank c = true := fun c hc => List.mem_takeWhile_imp hc
  have hsplit : splitOutside (· == ';') (blanks ++ comment) = (blanks, comment) := by
    refine splitOutside_clear ?_ (Option.all_eq_true _ _ |>.mp h)
    intro c hc
    -- neither an apostrophe nor a semicolon is a blank
    refine ⟨?_, ?_⟩
    · rintro rfl
      exact absurd (hblank _ hc) (by decide)
    · rw [beq_eq_false_iff_ne]
      rintro rfl
      exact absurd (hblank _ hc) (by decide)
  have hline : blanks ++ comment = line.toList := List.takeWhile_append_dropWhile
  rw [hline] at hsplit
  rw [uncomment, hsplit]

theorem cutLexemes_blanks {blanks : List Char} (h : ∀ c ∈ blanks, Text.isBlank c = true) :
    cutLexemes blanks = [] := by
  have hnone : blanks.dropWhile Text.isBlank = [] := List.dropWhile_eq_nil_iff.mpr h
  rw [cutLexemes_eq]
  simp only [hnone]

/-- Nothing but blanks and a comment is nothing at all. -/
theorem lexemes_of_isVacant {line : String} (h : isVacant line = true) : lexemes line = [] := by
  have hblank : ∀ c ∈ line.toList.takeWhile Text.isBlank, Text.isBlank c = true :=
    fun c hc => List.mem_takeWhile_imp hc
  rw [lexemes, uncomment_of_isVacant h, cutLexemes_blanks hblank, List.map_nil]

end StackMachine.Source
