/-
Reading a line twice is reading it once.

The reader of a line goes over it first for the comment, and then over what stands before the
comment for one lexeme after the other, each time as if no character literal were open. Here
is the plain definition beside it: one pass over the whole line, with a flag that an
apostrophe turns over, and with a backslash that protects the next character while the flag is
set. The comment starts at the first semicolon met with the flag clear; lexemes are what is
left between the blanks met with the flag clear.

That the two agree rests on one fact about splitting (`exists_splitFrom`): a split ends at the
end of the text or where the flag is clear. So whoever starts there again with a clear flag
has the flag of the one pass.
-/
import StackMachine.Source.Token
import StackMachine.Proofs.Source.Lexeme

set_option autoImplicit false

namespace StackMachine.Source

/-! ## One pass -/

/-- The characters of a text, each with the flag that it is met with. -/
def flagged : Bool → List Char → List (Char × Bool)
  | _, [] => []
  | true, '\\' :: c :: cs => ('\\', true) :: (c, true) :: flagged true cs
  | flag, c :: cs => (c, flag) :: flagged (flag != (c == '\'')) cs

/-- Whether a character is one to stop at and is met with the flag clear. -/
def stops (stop : Char → Bool) (met : Char × Bool) : Bool :=
  !met.2 && stop met.1

/-- The longest pieces of a row of characters that hold none to stop at, the empty ones left
out. -/
def runs (stop : Char → Bool) (row : List (Char × Bool)) : List (List Char) :=
  ((row.splitOnP (stops stop)).filter (!·.isEmpty)).map (·.map Prod.fst)

/-- The lexemes of a line by one pass over it. -/
def singlePass (line : List Char) : List (List Char) :=
  runs Text.isBlank ((flagged false line).takeWhile (!stops (· == ';') ·))

-- A semicolon and a blank in a literal are met with the flag set, as is an apostrophe that a
-- backslash protects; an apostrophe inside a word opens a literal too.
example :
    (singlePass "push ';' ; x".toList).map String.ofList = ["push", "';'"]
      ∧ (singlePass "a'\\' ;'b c;d".toList).map String.ofList = ["a'\\' ;'b", "c"]
      ∧ (singlePass "a' ;b".toList).map String.ofList = ["a' ;b"] := by decide +kernel

/-! ## The flag as the reader keeps it -/

/-- The characters of a text, each with the flag of a reader that stands at `quote` before the
first. -/
def traced : Quote → List Char → List (Char × Bool)
  | _, [] => []
  | quote, c :: cs => (c, quote != .outside) :: traced (quote.next c) cs

/-- Where a reader stands after a text. -/
def Quote.after (quote : Quote) (cs : List Char) : Quote :=
  cs.foldl Quote.next quote

/-- A protected character is one that the reader looks at and does not act on. -/
theorem flagged_eq_traced (flag : Bool) (cs : List Char) :
    flagged flag cs = traced (if flag then .inside else .outside) cs := by
  fun_induction flagged flag cs with
  | case1 => rfl
  | case2 c cs ih =>
    rw [ih]
    rfl
  | case3 flag c cs hfree ih =>
    rw [ih]
    by_cases hescape : flag = true ∧ c = '\\'
    · -- a backslash that nothing follows protects nothing
      obtain ⟨rfl, rfl⟩ := hescape
      rcases cs with _ | ⟨d, cs⟩
      · rfl
      · exact absurd rfl (hfree d cs rfl rfl)
    · rcases flag with _ | _
      · by_cases hquote : c = '\''
        · simp [traced, Quote.next, hquote]
        · simp [traced, Quote.next, hquote]
      · have hplain : ¬ c = '\\' := fun h => hescape ⟨rfl, h⟩
        by_cases hquote : c = '\''
        · simp [traced, Quote.next, hquote]
        · simp [traced, Quote.next, hquote, hplain]

theorem traced_append (quote : Quote) (xs ys : List Char) :
    traced quote (xs ++ ys) = traced quote xs ++ traced (quote.after xs) ys := by
  induction xs generalizing quote with
  | nil => rfl
  | cons c xs ih => rw [List.cons_append, traced, ih]; rfl

theorem map_fst_traced (quote : Quote) (cs : List Char) :
    (traced quote cs).map Prod.fst = cs := by
  induction cs generalizing quote with
  | nil => rfl
  | cons c cs ih => rw [traced, List.map_cons, ih]

/-! ## Splitting -/

/-- A split is before the first character to stop at that is met with the flag clear, or at
the end. -/
theorem exists_splitFrom (stop : Char → Bool) (quote : Quote) (cs : List Char) :
    ∃ front back, (∀ taken, splitFrom stop quote taken cs = (taken.reverse ++ front, back))
      ∧ cs = front ++ back
      ∧ (∀ met ∈ traced quote front, stops stop met = false)
      ∧ ∀ c rest, back = c :: rest → stop c = true ∧ quote.after front = .outside := by
  induction cs generalizing quote with
  | nil => exact ⟨[], [], by simp [splitFrom], rfl, by simp [traced], by simp⟩
  | cons c cs ih =>
    by_cases hstop : quote = .outside ∧ stop c = true
    · refine ⟨[], c :: cs, ?_, rfl, by simp [traced], ?_⟩
      · intro taken
        rw [splitFrom, if_pos hstop, List.append_nil]
      · intro c' rest h
        obtain ⟨rfl, -⟩ := List.cons.inj h
        exact ⟨hstop.2, hstop.1⟩
    · obtain ⟨front, back, hsplit, hcs, hfree, hback⟩ := ih (quote.next c)
      refine ⟨c :: front, back, ?_, by rw [hcs, List.cons_append], ?_, hback⟩
      · intro taken
        rw [splitFrom, if_neg hstop, hsplit, List.reverse_cons, List.append_assoc,
          List.singleton_append]
      · intro met hmet
        rcases List.mem_cons.mp hmet with rfl | hmet
        · by_cases hquote : quote = .outside
          · simpa [stops, hquote] using hstop
          · simp [stops, hquote]
        · exact hfree met hmet

/-- What stands before the comment is what one pass meets before it. -/
theorem traced_uncomment (line : List Char) :
    (traced .outside line).takeWhile (!stops (· == ';') ·) = traced .outside (uncomment line) := by
  obtain ⟨front, back, hsplit, hline, hfree, hback⟩ := exists_splitFrom (· == ';') .outside line
  have huncomment : uncomment line = front := by
    rw [uncomment, splitOutside, hsplit]
    rfl
  have hpass : ∀ met ∈ traced .outside front, (!stops (· == ';') met) = true := by
    intro met hmet
    rw [hfree met hmet]
    rfl
  -- the pass takes all of the front, and then stops at once or has nothing left
  rw [huncomment, hline, traced_append, List.takeWhile_append_of_pos hpass]
  rcases back with _ | ⟨c, rest⟩
  · rw [traced, List.takeWhile_nil, List.append_nil]
  · obtain ⟨hstop, houtside⟩ := hback c rest rfl
    have hends : (!stops (· == ';') (c, false)) = false := by simpa [stops] using hstop
    rw [houtside, traced, List.takeWhile_cons_of_neg (by simpa using hends), List.append_nil]

/-! ## Runs -/

section Runs

variable {stop : Char → Bool} {row : List (Char × Bool)}

theorem runs_nil : runs stop [] = [] := rfl

/-- A character to stop at separates runs. -/
theorem runs_append_cons {met : Char × Bool} (h : stops stop met = true)
    (row rest : List (Char × Bool)) :
    runs stop (row ++ met :: rest) = runs stop row ++ runs stop rest := by
  rw [runs, List.splitOnP_append_cons row rest h, List.filter_append, List.map_append]
  rfl

theorem runs_of_free (hne : row ≠ []) (h : ∀ met ∈ row, stops stop met = false) :
    runs stop row = [row.map Prod.fst] := by
  rw [runs, List.splitOnP_eq_singleton h]
  simp [hne]

end Runs

/-- A blank that is met with the flag clear leaves it clear. -/
theorem traced_blank {c : Char} (h : Text.isBlank c = true) (cs : List Char) :
    stops Text.isBlank (c, false) = true
      ∧ traced .outside (c :: cs) = (c, false) :: traced .outside cs := by
  have hquote : ¬ c = '\'' := by
    rintro rfl
    exact absurd h (by decide)
  refine ⟨by simpa [stops] using h, ?_⟩
  rw [traced, Quote.next, if_neg hquote]
  rfl

theorem runs_blank {c : Char} (h : Text.isBlank c = true) (cs : List Char) :
    runs Text.isBlank (traced .outside (c :: cs)) = runs Text.isBlank (traced .outside cs) := by
  obtain ⟨hstops, htraced⟩ := traced_blank h cs
  rw [htraced, ← List.nil_append (_ :: _), runs_append_cons hstops, runs_nil, List.nil_append]

/-- A text that is met without a blank to stop at is a run, if it is followed by such a blank or
by nothing. -/
theorem runs_front {front back : List Char} (hne : front ≠ [])
    (hfree : ∀ met ∈ traced .outside front, stops Text.isBlank met = false)
    (hback : ∀ c rest, back = c :: rest →
      Text.isBlank c = true ∧ Quote.after .outside front = .outside) :
    runs Text.isBlank (traced .outside (front ++ back))
      = front :: runs Text.isBlank (traced .outside back) := by
  have hrow : traced .outside front ≠ [] := by
    rw [← map_fst_traced .outside front] at hne
    exact fun h => hne (by rw [h]; rfl)
  have hone : runs Text.isBlank (traced .outside front) = [front] := by
    rw [runs_of_free hrow hfree, map_fst_traced]
  rcases back with _ | ⟨c, rest⟩
  · rw [List.append_nil, hone]
    rfl
  · -- the lexeme ends with the flag clear, so what follows it starts as the line does
    obtain ⟨hblank, houtside⟩ := hback c rest rfl
    obtain ⟨hstops, htraced⟩ := traced_blank hblank rest
    rw [runs_blank hblank, traced_append, houtside, htraced, runs_append_cons hstops, hone]
    rfl

/-! ## One call of the reader -/

/-- Reads one lexeme: the lexeme and what is left of the text. -/
def nextLexeme? (cs : List Char) : Option (List Char × List Char) :=
  match cs.dropWhile Text.isBlank with
  | [] => none
  | c :: rest => some (splitOutside Text.isBlank (c :: rest))

/-- Cutting a text into lexemes is reading one after the other. -/
theorem cutLexemes_eq_next (cs : List Char) :
    cutLexemes cs =
      match nextLexeme? cs with
      | none => []
      | some (lexeme, rest) => lexeme :: cutLexemes rest := by
  rw [cutLexemes_eq, nextLexeme?]
  rcases cs.dropWhile Text.isBlank with _ | ⟨c, rest⟩
  · rfl
  · rfl

theorem nextLexeme?_blank {c : Char} (h : Text.isBlank c = true) (cs : List Char) :
    nextLexeme? (c :: cs) = nextLexeme? cs := by
  rw [nextLexeme?, List.dropWhile_cons_of_pos h, ← nextLexeme?]

/-- Where no blank stands in front, a call takes at least the first character. -/
theorem exists_nextLexeme? {c : Char} (h : Text.isBlank c = false) (cs : List Char) :
    ∃ front back, nextLexeme? (c :: cs) = some (front, back) ∧ front ≠ [] ∧ c :: cs = front ++ back
      ∧ (∀ met ∈ traced .outside front, stops Text.isBlank met = false)
      ∧ ∀ d rest, back = d :: rest →
        Text.isBlank d = true ∧ Quote.after .outside front = .outside := by
  obtain ⟨front, back, hsplit, hcs, hfree, hback⟩ := exists_splitFrom Text.isBlank .outside (c :: cs)
  refine ⟨front, back, ?_, ?_, hcs, hfree, hback⟩
  · rw [nextLexeme?, List.dropWhile_cons_of_neg (by simp [h])]
    show some (splitFrom Text.isBlank .outside [] (c :: cs)) = _
    rw [hsplit]
    rfl
  · rintro rfl
    -- then the text would be left as a whole, and its first character is no blank
    rw [(hback c cs hcs.symm).1] at h
    simp at h

/-- A call that reads a lexeme takes some blanks and a lexeme that is not empty off the text. -/
theorem append_of_nextLexeme? {cs lexeme rest : List Char}
    (h : nextLexeme? cs = some (lexeme, rest)) :
    lexeme ≠ [] ∧ ∃ blanks, (∀ c ∈ blanks, Text.isBlank c = true)
      ∧ cs = blanks ++ (lexeme ++ rest) := by
  induction cs with
  | nil => simp [nextLexeme?] at h
  | cons c cs ih =>
    rcases hblank : Text.isBlank c with _ | _
    · obtain ⟨front, back, hnext, hne, hcs, -, -⟩ := exists_nextLexeme? hblank cs
      obtain ⟨rfl, rfl⟩ : front = lexeme ∧ back = rest := by
        rw [h] at hnext
        simpa [eq_comm] using hnext
      exact ⟨hne, [], by simp, by rw [hcs, List.nil_append]⟩
    · rw [nextLexeme?_blank hblank] at h
      obtain ⟨hne, blanks, hblanks, hcs⟩ := ih h
      refine ⟨hne, c :: blanks, ?_, by rw [hcs, List.cons_append]⟩
      simpa [hblank] using hblanks

theorem length_of_nextLexeme? {cs lexeme rest : List Char}
    (h : nextLexeme? cs = some (lexeme, rest)) : rest.length < cs.length := by
  obtain ⟨hne, blanks, -, rfl⟩ := append_of_nextLexeme? h
  have hpos : 0 < lexeme.length := List.length_pos_iff.mpr hne
  simp only [List.length_append]
  omega

/-- What holds of no text at all, and of a text with one more blank or one more lexeme in front,
holds of every text: the reader comes to the end. -/
@[elab_as_elim] theorem reading_induction {motive : List Char → Prop} (nil : motive [])
    (blank : ∀ c cs, Text.isBlank c = true → motive cs → motive (c :: cs))
    (lexeme : ∀ front back, nextLexeme? (front ++ back) = some (front, back) → front ≠ [] →
      (∀ met ∈ traced .outside front, stops Text.isBlank met = false) →
      (∀ d rest, back = d :: rest →
        Text.isBlank d = true ∧ Quote.after .outside front = .outside) →
      motive back → motive (front ++ back))
    (cs : List Char) : motive cs := by
  -- each call of the reader leaves a shorter text
  induction hlength : cs.length using Nat.strongRecOn generalizing cs with
  | ind n ih =>
    rcases cs with _ | ⟨c, cs⟩
    · exact nil
    rcases hblank : Text.isBlank c with _ | _
    · obtain ⟨front, back, hnext, hne, hcs, hfree, hback⟩ := exists_nextLexeme? hblank cs
      have hshorter : back.length < n := hlength ▸ length_of_nextLexeme? hnext
      rw [hcs] at hnext ⊢
      exact lexeme front back hnext hne hfree hback (ih back.length hshorter back rfl)
    · have hshorter : cs.length < n := by
        rw [← hlength, List.length_cons]
        omega
      exact blank c cs hblank (ih cs.length hshorter cs rfl)

/-! ## The two readers -/

/-- The lexemes of a text are its runs between blanks. -/
theorem cutLexemes_eq_runs (cs : List Char) :
    cutLexemes cs = runs Text.isBlank (traced .outside cs) := by
  induction cs using reading_induction with
  | nil => exact cutLexemes_nil
  | blank c cs hblank ih => rw [cutLexemes_blank hblank, runs_blank hblank, ih]
  | lexeme front back hnext hne hfree hback ih =>
    rw [cutLexemes_eq_next, hnext, runs_front hne hfree hback]
    show front :: cutLexemes back = _
    rw [ih]

/-- **One pass is enough.** Reading a line yields the class of every lexeme that one pass over
it finds, in order, though the reader goes over the line twice and begins each lexeme with a
clear flag. It reads lexeme after lexeme, and with each takes at least one character off what
is left, so it comes to an end. -/
theorem scan_eq_singlePass (line : String) :
    Token.scan line
      = (singlePass line.toList).map (fun lexeme => Token.ofLexeme (String.ofList lexeme))
    ∧ Token.scan line
      = (cutLexemes (uncomment line.toList)).map
          (fun lexeme => Token.ofLexeme (String.ofList lexeme))
    ∧ ∀ cs : List Char,
      (nextLexeme? cs = none ∧ cutLexemes cs = [])
      ∨ ∃ lexeme rest, nextLexeme? cs = some (lexeme, rest)
        ∧ cutLexemes cs = lexeme :: cutLexemes rest ∧ rest.length < cs.length := by
  have hreader : Token.scan line
      = (cutLexemes (uncomment line.toList)).map
          (fun lexeme => Token.ofLexeme (String.ofList lexeme)) := by
    rw [Token.scan, lexemes, List.map_map]
    rfl
  refine ⟨?_, hreader, ?_⟩
  · rw [hreader, cutLexemes_eq_runs, ← traced_uncomment]
    rw [singlePass, flagged_eq_traced]
    rfl
  · intro cs
    rcases hnext : nextLexeme? cs with _ | ⟨lexeme, rest⟩
    · exact .inl ⟨rfl, by rw [cutLexemes_eq_next, hnext]⟩
    · exact .inr ⟨lexeme, rest, rfl, by rw [cutLexemes_eq_next, hnext],
        length_of_nextLexeme? hnext⟩

end StackMachine.Source
