/-
What stands behind a text, and whether the reader is inside of a character literal there.

The reader of a line and the reader of a literal tell by different rules where a literal ends. For
the first every apostrophe turns the flag over, except behind a backslash; the second looks at a
whole lexeme, and takes any one character between two apostrophes. The rules agree on every literal
but one: in `'''` the second apostrophe is the character, and for the reader of the line the third
one opens a literal that nothing closes (`after_of_character`).

So a text can end open. What is put behind a text that ends outside of all literals is read by
itself; what is put behind one that ends open goes on with its last lexeme (`exists_last_of_open`).
-/
import StackMachine.Proofs.Numeral
import StackMachine.Proofs.Source.SinglePass

set_option autoImplicit false

namespace StackMachine.Source

/-! ## Splitting a longer text -/

section Splitting

variable {stop : Char → Bool} {quote : Quote} {cs : List Char}

theorem Quote.after_append (quote : Quote) (xs ys : List Char) :
    quote.after (xs ++ ys) = (quote.after xs).after ys :=
  List.foldl_append

/-- A text with nothing to stop at is read through, and then the rest is split. -/
theorem splitFrom_free (h : ∀ met ∈ traced quote cs, stops stop met = false)
    (taken rest : List Char) :
    splitFrom stop quote taken (cs ++ rest)
      = splitFrom stop (quote.after cs) (cs.reverse ++ taken) rest := by
  induction cs generalizing quote taken with
  | nil => rfl
  | cons c cs ih =>
    rw [traced, List.forall_mem_cons] at h
    obtain ⟨hc, hcs⟩ := h
    have hgo : ¬ (quote = .outside ∧ stop c = true) := by
      rintro ⟨rfl, hstop⟩
      simp [stops, hstop] at hc
    rw [List.cons_append, splitFrom, if_neg hgo, ih hcs, List.reverse_cons, List.append_assoc,
      List.singleton_append]
    rfl

/-- Inside of a literal there is nothing to stop at, so at least one character is taken. -/
theorem splitFrom_ne_nil (stop : Char → Bool) (hquote : quote ≠ .outside) (hcs : cs ≠ []) :
    (splitFrom stop quote [] cs).1 ≠ [] := by
  obtain ⟨front, back, hsplit, hline, -, hback⟩ := exists_splitFrom stop quote cs
  rw [hsplit, List.reverse_nil, List.nil_append]
  rintro rfl
  obtain ⟨c, rest, rfl⟩ := List.exists_cons_of_ne_nil hcs
  exact hquote (hback c rest hline.symm).2

/-- A line either has a comment, and then what is put behind it belongs to that, or it has none, and
then the comment is looked for in what is put behind it. -/
theorem uncomment_append (line : List Char) :
    (Quote.after .outside (uncomment line) = .outside
        ∧ ∀ extra, uncomment (line ++ extra) = uncomment line)
      ∨ uncomment line = line
        ∧ ∀ extra, uncomment (line ++ extra)
          = line ++ (splitFrom (· == ';') (Quote.after .outside line) [] extra).1 := by
  obtain ⟨front, back, hsplit, rfl, hfree, hback⟩ := exists_splitFrom (· == ';') .outside line
  have hfront : uncomment (front ++ back) = front := by
    rw [uncomment, splitOutside, hsplit]
    rfl
  rcases back with _ | ⟨c, rest⟩
  · rw [List.append_nil] at hfront ⊢
    refine .inr ⟨hfront, ?_⟩
    intro extra
    -- what is already taken only stands in front of what is taken later
    obtain ⟨taken, left, hextra, -⟩ :=
      exists_splitFrom (· == ';') (Quote.after .outside front) extra
    rw [uncomment, splitOutside, splitFrom_free hfree, hextra, hextra]
    simp
  · obtain ⟨hstop, houtside⟩ := hback c rest rfl
    refine .inl ⟨by rw [hfront, houtside], ?_⟩
    intro extra
    rw [hfront, uncomment, splitOutside, List.append_assoc, List.cons_append, splitFrom_free hfree,
      houtside, splitFrom, if_pos ⟨rfl, hstop⟩]
    simp

end Splitting

/-! ## Behind the last lexeme -/

/-- Blanks outside of literals add nothing to a text. -/
theorem cutLexemes_append_blanks {cs blanks : List Char}
    (houtside : Quote.after .outside cs = .outside)
    (hblanks : ∀ c ∈ blanks, Text.isBlank c = true) :
    cutLexemes (cs ++ blanks) = cutLexemes cs := by
  rcases blanks with _ | ⟨c, blanks⟩
  · rw [List.append_nil]
  · obtain ⟨hc, hrest⟩ := List.forall_mem_cons.mp hblanks
    obtain ⟨hstops, htraced⟩ := traced_blank hc blanks
    rw [cutLexemes_eq_runs, traced_append, houtside, htraced, runs_append_cons hstops,
      ← cutLexemes_eq_runs, ← cutLexemes_eq_runs, cutLexemes_blanks hrest, List.append_nil]

/-- A text without a blank to stop at is the beginning of a lexeme. -/
theorem nextLexeme?_of_free {front : List Char} (hne : front ≠ [])
    (hfree : ∀ met ∈ traced .outside front, stops Text.isBlank met = false) (rest : List Char) :
    nextLexeme? (front ++ rest)
      = some (front ++ (splitFrom Text.isBlank (Quote.after .outside front) [] rest).1,
        (splitFrom Text.isBlank (Quote.after .outside front) [] rest).2) := by
  obtain ⟨c, tail, rfl⟩ := List.exists_cons_of_ne_nil hne
  have hblank : ¬ Text.isBlank c = true := by
    rw [traced, List.forall_mem_cons] at hfree
    have hfirst := hfree.1
    simpa [stops] using hfirst
  obtain ⟨taken, left, hrest, -⟩ :=
    exists_splitFrom Text.isBlank (Quote.after .outside (c :: tail)) rest
  have hsplit : splitOutside Text.isBlank (c :: (tail ++ rest)) = (c :: tail ++ taken, left) := by
    rw [splitOutside, ← List.cons_append, splitFrom_free hfree, hrest]
    simp
  rw [nextLexeme?, List.cons_append, List.dropWhile_cons_of_neg hblank, hrest]
  simp [hsplit]

theorem after_blank {c : Char} (h : Text.isBlank c = true) (cs : List Char) :
    Quote.after .outside (c :: cs) = Quote.after .outside cs := by
  have hquote : ¬ c = '\'' := by
    rintro rfl
    exact absurd h (by decide)
  show Quote.after (Quote.next .outside c) cs = _
  rw [Quote.next, if_neg hquote]

/-- A text whose last lexeme ends inside of a literal ends there itself. -/
theorem open_of_last {cs last : List Char} (hlast : (cutLexemes cs).getLast? = some last)
    (hopen : Quote.after .outside last ≠ .outside) : Quote.after .outside cs ≠ .outside := by
  induction cs using reading_induction with
  | nil =>
    rw [cutLexemes_nil] at hlast
    simp at hlast
  | blank c cs hblank ih =>
    rw [cutLexemes_blank hblank] at hlast
    rw [after_blank hblank]
    exact ih hlast
  | lexeme front back hnext hne hfree hback ih =>
    rw [cutLexemes_eq_next, hnext] at hlast
    simp only [List.getLast?_cons, Option.some.injEq] at hlast
    rcases back with _ | ⟨d, rest⟩
    · rw [cutLexemes_nil, List.getLast?_nil, Option.getD_none] at hlast
      rw [List.append_nil, hlast]
      exact hopen
    · -- a lexeme with something behind it is not open, so it is not the last
      obtain ⟨-, houtside⟩ := hback d rest rfl
      rw [Quote.after_append, houtside]
      rcases hcut : (cutLexemes (d :: rest)).getLast? with _ | other
      · rw [hcut, Option.getD_none] at hlast
        rw [← hlast] at hopen
        exact absurd houtside hopen
      · rw [hcut, Option.getD_some] at hlast
        exact ih (hcut.trans (congrArg some hlast))

/-- A text that ends inside of a literal has a last lexeme that does, and what is put behind the
text goes on with this lexeme. -/
theorem exists_last_of_open {cs : List Char} (hopen : Quote.after .outside cs ≠ .outside) :
    ∃ before last, cutLexemes cs = before ++ [last] ∧ Quote.after .outside last ≠ .outside
      ∧ ∀ extra, extra ≠ [] → ∃ more others, more ≠ []
        ∧ cutLexemes (cs ++ extra) = before ++ (last ++ more) :: others := by
  induction cs using reading_induction with
  | nil => exact absurd rfl hopen
  | blank c cs hblank ih =>
    rw [after_blank hblank] at hopen
    obtain ⟨before, last, hcut, hlast, hmore⟩ := ih hopen
    refine ⟨before, last, by rw [cutLexemes_blank hblank, hcut], hlast, ?_⟩
    intro extra hextra
    rw [List.cons_append, cutLexemes_blank hblank]
    exact hmore extra hextra
  | lexeme front back hnext hne hfree hback ih =>
    have hcut : cutLexemes (front ++ back) = front :: cutLexemes back := by
      rw [cutLexemes_eq_next, hnext]
    rcases back with _ | ⟨d, rest⟩
    · -- the lexeme is the last, and the one that is open
      rw [List.append_nil] at hopen hcut ⊢
      refine ⟨[], front, by rw [hcut, cutLexemes_nil]; rfl, hopen, ?_⟩
      intro extra hextra
      have hmore := splitFrom_ne_nil Text.isBlank hopen hextra
      refine ⟨_, cutLexemes (splitFrom Text.isBlank (Quote.after .outside front) [] extra).2,
        hmore, ?_⟩
      rw [cutLexemes_eq_next, nextLexeme?_of_free hne hfree]
      rfl
    · obtain ⟨hblank, houtside⟩ := hback d rest rfl
      rw [Quote.after_append, houtside] at hopen
      obtain ⟨before, last, hcutBack, hlast, hmore⟩ := ih hopen
      refine ⟨front :: before, last, by rw [hcut, hcutBack]; rfl, hlast, ?_⟩
      intro extra hextra
      obtain ⟨more, others, hne', hcutExtra⟩ := hmore extra hextra
      refine ⟨more, others, hne', ?_⟩
      have hstop : splitFrom Text.isBlank .outside [] (d :: rest ++ extra)
          = ([], d :: rest ++ extra) := by
        rw [List.cons_append, splitFrom, if_pos ⟨rfl, hblank⟩, List.reverse_nil]
      rw [List.append_assoc, cutLexemes_eq_next, nextLexeme?_of_free hne hfree, houtside, hstop,
        List.append_nil]
      show front :: cutLexemes (d :: rest ++ extra) = _
      rw [hcutExtra, List.cons_append]

/-! ## Literals -/

section Literals

open Literal (DigitOf Sign Mark WritesInteger WritesCharacter Writes escapes)

variable {cs : List Char}

theorem isPlain_of_digitOf {base d : Nat} {c : Char} (hbase : base ≤ 16) (h : DigitOf base d c) :
    isPlain c = true := by
  have hchars : ∀ k < 16, isPlain (Nat.digitChar k) = true
      ∧ isPlain (Nat.digitChar k).toUpper = true := by decide
  obtain ⟨hd, hc⟩ := h
  rcases hc with rfl | rfl
  · exact (hchars d (by omega)).1
  · exact (hchars d (by omega)).2

/-- An integer literal needs no apostrophes. -/
theorem isWord_of_writesInteger {v : Int} (h : WritesInteger cs v) : IsWord cs := by
  obtain ⟨hsign, hmark, hdigits⟩ := h
  rename_i sign mark digits factor base n
  obtain ⟨c, rest, hbody, -⟩ := Literal.exists_head_isDigit hmark hdigits
  refine ⟨by rw [hbody]; simp, ?_⟩
  have hplainSign : sign.all isPlain = true := by
    cases hsign <;> decide
  have hplainMark : mark.all isPlain = true := by
    cases hmark with
    | decimal => rfl
    | hexadecimal h | binary h | octal h =>
      rcases h with rfl | rfl
      · decide
      · decide
  have hplainDigits : digits.all isPlain = true := by
    rw [List.all_eq_true]
    intro c hc
    obtain ⟨d, hd⟩ := hdigits.exists_digit hc
    exact isPlain_of_digitOf hmark.base_le hd
  rw [List.all_append, List.all_append, hplainSign, hplainMark, hplainDigits]
  rfl

/-- A text without apostrophes opens no literal. -/
theorem after_of_not_mem (h : '\'' ∉ cs) : Quote.after .outside cs = .outside := by
  induction cs with
  | nil => rfl
  | cons c cs ih =>
    rw [List.mem_cons, not_or] at h
    show Quote.after (Quote.next .outside c) cs = .outside
    rw [Quote.next, if_neg (Ne.symm h.1), ih h.2]

/-- A character literal ends outside of all literals, unless its character is an apostrophe
without a backslash. -/
theorem after_of_character {c : Char} (h : WritesCharacter cs c) :
    Quote.after .outside cs = .outside ↔ cs ≠ ['\'', '\'', '\''] := by
  cases h with
  | plain hplain =>
    by_cases hquote : c = '\''
    · subst hquote
      decide
    · simp [Quote.after, Quote.next, hplain, hquote]
  | escaped _ => simp [Quote.after, Quote.next]

/-- A text that is one lexeme, wherever it stands: it has no comment in it, and no blank to cut
at. -/
def Sealed (cs : List Char) : Prop :=
  cs ≠ [] ∧ ∀ met ∈ traced .outside cs,
    stops Text.isBlank met = false ∧ stops (· == ';') met = false

theorem sealed_of_isWord (h : IsWord cs) : Sealed cs := by
  refine ⟨h.1, ?_⟩
  rintro ⟨c, flag⟩ hmet
  have hc : c ∈ cs := by
    rw [← map_fst_traced .outside cs]
    exact List.mem_map_of_mem hmet
  obtain ⟨hblank, hsemicolon, -⟩ := isPlain_iff.mp (h.isPlain hc)
  simp [stops, hblank, hsemicolon]

/-- What stands between the apostrophes is met with the flag set. -/
theorem sealed_of_character {c : Char} (h : WritesCharacter cs c) : Sealed cs := by
  have hquote : Text.isBlank '\'' = false := by decide
  cases h with
  | plain _ => simp [Sealed, traced, stops, Quote.next, hquote]
  | escaped _ => simp [Sealed, traced, stops, Quote.next, hquote]

/-- A literal is one lexeme, also where it holds a blank or a semicolon. -/
theorem sealed_of_writes {v : Int} (h : Writes cs v) : Sealed cs := by
  rcases h with h | h
  · exact sealed_of_isWord (isWord_of_writesInteger h)
  · exact sealed_of_character h

theorem cutLexemes_of_sealed (h : Sealed cs) : cutLexemes cs = [cs] := by
  have hrow : traced .outside cs ≠ [] := by
    intro hnil
    have hcs := map_fst_traced .outside cs
    rw [hnil, List.map_nil] at hcs
    exact h.1 hcs.symm
  rw [cutLexemes_eq_runs, runs_of_free hrow fun met hmet => (h.2 met hmet).1, map_fst_traced]

end Literals

/-- **A word and a literal are the lexemes of their line.** -/
theorem lexemes_pair {name x : String} {v : Int} (hname : IsWord name.toList)
    (hx : Literal.Writes x.toList v) : lexemes (name ++ " " ++ x) = [name, x] := by
  have hsealed := sealed_of_writes hx
  have hlist : (name ++ " " ++ x).toList = name.toList ++ ' ' :: x.toList := by simp
  have hnoquote : '\'' ∉ name.toList := fun hmem => (isPlain_iff.mp (hname.isPlain hmem)).2.2 rfl
  have hfree : ∀ met ∈ traced .outside (name.toList ++ ' ' :: x.toList),
      stops (· == ';') met = false := by
    rw [traced_append, after_of_not_mem hnoquote, (traced_blank (by decide) _).2]
    intro met hmet
    rcases List.mem_append.mp hmet with hmet | hmet
    · exact ((sealed_of_isWord hname).2 met hmet).2
    · rcases List.mem_cons.mp hmet with rfl | hmet
      · rfl
      · exact (hsealed.2 met hmet).2
  have huncomment : uncomment (name.toList ++ ' ' :: x.toList)
      = name.toList ++ ' ' :: x.toList := by
    have hsplit := splitFrom_free hfree [] []
    rw [List.append_nil, List.append_nil, splitFrom, List.reverse_reverse] at hsplit
    rw [uncomment, splitOutside, hsplit]
  rw [lexemes, hlist, huncomment, cutLexemes_word hname (by simp; decide),
    cutLexemes_blank (by decide), cutLexemes_of_sealed hsealed]
  simp

end StackMachine.Source
