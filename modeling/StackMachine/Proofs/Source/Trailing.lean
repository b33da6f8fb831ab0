/-
What may be put behind a line without changing what it says.

Blanks and a comment at the end of a line should mean nothing, and they do mean nothing behind every
line that can be read, with one exception. A line whose last lexeme is the literal `'''` is read,
with an apostrophe as its operand, but the reader of the line takes the third apostrophe for the
start of another literal. Whatever is put behind such a line becomes part of that lexeme, and with
it the lexeme is a literal no longer. So the line is refused as soon as a blank follows it.

That this is the only exception rests on the grammar: the lexemes of a line that is read have no
apostrophes, or are character literals (`quotes_of_line`).
-/
import StackMachine.Proofs.Source.Grammar
import StackMachine.Proofs.Source.Quoting

set_option autoImplicit false

namespace StackMachine.Source

open Literal (WritesCharacter)

/-! ## Apostrophes in lines that are read -/

section Quotes

variable {x : String}

theorem quote_not_mem_name (op : Op) : '\'' ∉ op.name.toList := by
  cases op <;> decide +kernel

theorem quote_not_mem_of_spells {op : Op} (h : Spells x op) : '\'' ∉ x.toList := by
  rcases h with h | h
  · intro hmem
    exact quote_not_mem_name op (mem_of_fold (fold_of_ofKeyword? h) hmem (by decide))
  · have hsymbols : ∀ s ∈ symbols, '\'' ∉ s.toList := by decide
    exact hsymbols x (mem_symbols h)

theorem quote_not_mem_of_pseudo {pseudo : Pseudo} (h : Pseudo.ofKeyword? x = some pseudo) :
    '\'' ∉ x.toList := by
  intro hmem
  have hname := mem_of_fold (fold_of_pseudo h) hmem (by decide)
  obtain ⟨⟩ := pseudo
  exact absurd hname (by decide)

/-- The apostrophe lies below the digits and the letters. -/
theorem ne_quote {c : Char} (h : NameStart c ∨ Literal.Digit c) : c ≠ '\'' := by
  rintro rfl
  simp [NameStart, Literal.Digit] at h

theorem quote_not_mem_of_named {cs : List Char} (h : Named cs) : '\'' ∉ cs := by
  obtain ⟨c, rest, rfl, hstart, hrest⟩ := h
  intro hmem
  rcases List.mem_cons.mp hmem with rfl | hmem
  · exact ne_quote (.inl hstart) rfl
  · exact ne_quote (hrest _ hmem) rfl

theorem quote_not_mem_of_refersTo {cs : List Char} {target : Reference} (h : RefersTo cs target) :
    '\'' ∉ cs := by
  have hdigits : ∀ {ds : List Char}, Literal.Digits ds → '\'' ∉ ds :=
    fun hds hmem => ne_quote (.inr (hds.2 _ hmem)) rfl
  cases h with
  | label hname => exact quote_not_mem_of_named hname
  | line hline _ => exact hdigits hline
  | forward hoffset _ => simpa using hdigits hoffset
  | backward hoffset _ => simpa using hdigits hoffset

/-- A lexeme has no apostrophes or is a character literal. -/
def Quotes (x : String) : Prop :=
  '\'' ∉ x.toList ∨ ∃ c, WritesCharacter x.toList c

theorem quotes_of_value? {v : Int64} (h : Literal.value? x = some v) : Quotes x := by
  obtain ⟨n, hwrites, -⟩ := Literal.value?_eq_some_iff.mp h
  rcases hwrites with hinteger | hcharacter
  · left
    intro hmem
    exact (isPlain_iff.mp ((isWord_of_writesInteger hinteger).isPlain hmem)).2.2 rfl
  · exact .inr ⟨_, hcharacter⟩

theorem quotes_of_readAs {operand : Operand} (h : ReadAs x operand) : Quotes x := by
  cases h with
  | literal hvalue => exact quotes_of_value? hvalue
  | reference hx htarget =>
    left
    rw [hx]
    simpa using quote_not_mem_of_refersTo htarget

theorem quotes_of_line {words : List String} {statement : Option Statement}
    (h : Says words statement) : ∀ x ∈ words, Quotes x := by
  cases h with
  | blank => simp
  | @definition name hname =>
    have hquote : '\'' ∉ (name ++ ":").toList := by
      rw [String.toList_append, List.mem_append, not_or]
      exact ⟨quote_not_mem_of_named hname, by decide⟩
    exact List.forall_mem_singleton.mpr (.inl hquote)
  | alone hop _ => exact List.forall_mem_singleton.mpr (.inl (quote_not_mem_of_spells hop))
  | operand hop _ hx | target hop _ hx =>
    simpa using ⟨.inl (quote_not_mem_of_spells hop), quotes_of_readAs hx⟩
  | raised hpseudo hx _ _ | lowered hpseudo hx _ _ =>
    simpa using ⟨.inl (quote_not_mem_of_pseudo hpseudo), quotes_of_value? hx⟩

end Quotes

/-! ## The exception -/

/-- The literal for an apostrophe without a backslash. -/
def bareQuote : String := "'''"

section Exception

variable {x : String}

/-- Of the lexemes in lines that are read, `'''` alone ends inside of a literal. -/
theorem after_of_quotes (h : Quotes x) :
    Quote.after .outside x.toList = .outside ↔ x ≠ bareQuote := by
  have hlist : x ≠ bareQuote ↔ x.toList ≠ ['\'', '\'', '\''] := by
    rw [ne_eq, ← String.toList_inj]
    rfl
  rcases h with h | ⟨c, h⟩
  · have hne : x.toList ≠ ['\'', '\'', '\''] := by
      intro hx
      rw [hx] at h
      simp at h
    simp [after_of_not_mem h, hlist, hne]
  · rw [after_of_character h, hlist]

/-- With anything behind it, `'''` is no literal any more. -/
theorem not_quotes_of_longer {more : List Char} (hmore : more ≠ [])
    (hx : x.toList = bareQuote.toList ++ more) : ¬ Quotes x := by
  have hchars : x.toList = '\'' :: '\'' :: '\'' :: more := hx
  rintro (h | ⟨c, h⟩)
  · rw [hchars] at h
    simp at h
  · rw [hchars] at h
    rcases h with _ | _
    exact hmore rfl

end Exception

/-! ## Trailing blanks and comments -/

section Trailing

variable {number : Nat} {s tail : String} {line : Line}

/-- Behind a line that ends outside of all literals, blanks and a comment are nothing. -/
theorem lexemes_append_of_closed (hclosed : Quote.after .outside (uncomment s.toList) = .outside)
    (htail : isVacant tail = true) : lexemes (s ++ tail) = lexemes s := by
  rw [lexemes, lexemes, String.toList_append]
  rcases uncomment_append s.toList with ⟨-, hcommented⟩ | ⟨hself, hextra⟩
  · rw [hcommented]
  · rw [hself] at hclosed
    have hvacant : (splitFrom (· == ';') .outside [] tail.toList).1
        = tail.toList.takeWhile Text.isBlank := uncomment_of_isVacant htail
    rw [hextra, hclosed, hvacant, hself,
      cutLexemes_append_blanks hclosed fun c hc => List.mem_takeWhile_imp hc]

/-- Behind a line that ends inside of a literal, everything goes on with the last lexeme. -/
theorem lexemes_append_of_open (hopen : Quote.after .outside (uncomment s.toList) ≠ .outside)
    (htail : tail ≠ "") :
    ∃ before last more others, lexemes s = before ++ [last]
      ∧ Quote.after .outside last.toList ≠ .outside ∧ more ≠ []
      ∧ lexemes (s ++ tail) = before ++ String.ofList (last.toList ++ more) :: others := by
  rcases uncomment_append s.toList with ⟨hclosed, -⟩ | ⟨hself, hextra⟩
  · exact absurd hclosed hopen
  · rw [hself] at hopen
    have hne : tail.toList ≠ [] := by
      intro h
      exact htail (String.toList_inj.mp h)
    have hmore := splitFrom_ne_nil (· == ';') hopen hne
    obtain ⟨before, last, hcut, hlast, hlonger⟩ := exists_last_of_open hopen
    obtain ⟨more, others, hne', hcutLonger⟩ := hlonger _ hmore
    refine ⟨before.map String.ofList, String.ofList last, more, others.map String.ofList, ?_, ?_,
      hne', ?_⟩
    · rw [lexemes, hself, hcut]
      simp
    · rw [String.toList_ofList]
      exact hlast
    · rw [lexemes, String.toList_append, hextra, hcutLonger]
      simp

/-- A line that is read ends inside of a literal exactly if its last lexeme is `'''`. -/
theorem closed_iff_of_line {statement : Option Statement} (h : Says (lexemes s) statement) :
    Quote.after .outside (uncomment s.toList) = .outside
      ↔ (lexemes s).getLast? ≠ some bareQuote := by
  constructor
  · intro hclosed hlast
    obtain ⟨last, hcut, hbare⟩ : ∃ last, (cutLexemes (uncomment s.toList)).getLast? = some last
        ∧ String.ofList last = bareQuote := by
      rw [lexemes, List.getLast?_map] at hlast
      exact Option.map_eq_some_iff.mp hlast
    refine open_of_last hcut ?_ hclosed
    have hquotes := after_of_quotes (quotes_of_line h _ (List.mem_of_getLast? hlast))
    rw [← String.toList_ofList (l := last), hbare]
    exact fun hafter => hquotes.mp hafter rfl
  · intro hlast
    by_contra hopen
    have hspace : " " ≠ "" := by decide
    obtain ⟨before, last, more, others, hlexemes, hlastOpen, -⟩ :=
      lexemes_append_of_open hopen hspace
    have hmem : last ∈ lexemes s := by simp [hlexemes]
    have hbare : last = bareQuote := by
      by_contra hne
      exact hlastOpen ((after_of_quotes (quotes_of_line h last hmem)).mpr hne)
    exact hlast (by rw [hlexemes, hbare]; simp)

end Trailing

/-- The line with `tail` behind it is read, and says the same. -/
def Kept (number : Nat) (s tail : String) (statement : Option Statement) : Prop :=
  Line.parse number (s ++ tail) = .ok ⟨number, s ++ tail, statement⟩

section Reading

variable {number : Nat} {s tail : String} {line : Line}

theorem says_of_parse (h : Line.parse number s = .ok line) : Says (lexemes s) line.statement := by
  obtain ⟨statement, hread, rfl⟩ := Line.parse_eq_ok_iff.mp h
  exact ofLexemes_eq_ok_iff.mp hread

/-- A line whose last lexeme is not `'''` says the same with blanks and a comment behind it. -/
theorem kept_of_last_ne (h : Line.parse number s = .ok line)
    (hlast : (lexemes s).getLast? ≠ some bareQuote) (htail : isVacant tail = true) :
    Kept number s tail line.statement := by
  have hsays := says_of_parse h
  have hclosed := (closed_iff_of_line hsays).mpr hlast
  refine Line.parse_eq_ok_iff.mpr ⟨line.statement, ?_, rfl⟩
  rw [lexemes_append_of_closed hclosed htail]
  exact ofLexemes_eq_ok_iff.mpr hsays

/-- A line whose last lexeme is `'''` is refused with anything behind it. -/
theorem error_of_last_eq (h : Line.parse number s = .ok line)
    (hlast : (lexemes s).getLast? = some bareQuote) (htail : tail ≠ "") :
    ∃ problem, Line.parse number (s ++ tail) = .error ⟨number, problem⟩ := by
  have hsays := says_of_parse h
  have hopen := mt (closed_iff_of_line hsays).mp (not_not.mpr hlast)
  obtain ⟨before, last, more, others, hlexemes, -, hmore, hlonger⟩ :=
    lexemes_append_of_open hopen htail
  obtain rfl : last = bareQuote := by
    rw [hlexemes] at hlast
    simpa using hlast
  -- the longer lexeme stands in no line that can be read
  rcases hread : Statement.ofLexemes (lexemes (s ++ tail)) with problem | statement
  · exact ⟨problem, Line.parse_eq_error_iff.mpr ⟨rfl, hread⟩⟩
  · have hquotes := quotes_of_line (ofLexemes_eq_ok_iff.mp hread)
      (String.ofList (bareQuote.toList ++ more)) (by rw [hlonger]; simp)
    exact absurd hquotes (not_quotes_of_longer hmore (by rw [String.toList_ofList]))

end Reading

theorem isVacant_comment (t : String) : isVacant (" ;" ++ t) = true := by
  have hblank : Text.isBlank ' ' = true := by decide
  have hsemicolon : Text.isBlank ';' = false := by decide
  simp [isVacant, hblank, hsemicolon]

theorem isVacant_blanks {w : String} (h : ∀ c ∈ w.toList, Text.isBlank c = true) :
    isVacant w = true := by
  rw [isVacant, List.dropWhile_eq_nil_iff.mpr h]
  rfl

/-- **A comment behind a line, or blanks, change nothing, unless the line ends with `'''`.** Then
they make it a line that is refused. -/
theorem trailing_kept_iff {number : Nat} {s : String} {line : Line}
    (h : Line.parse number s = .ok line) :
    (∀ t, Kept number s (" ;" ++ t) line.statement ↔ (lexemes s).getLast? ≠ some bareQuote)
      ∧ (∀ w : String, (∀ c ∈ w.toList, Text.isBlank c = true) →
        (Kept number s w line.statement ↔ w = "" ∨ (lexemes s).getLast? ≠ some bareQuote))
      ∧ ∀ tail, tail ≠ "" → (lexemes s).getLast? = some bareQuote →
        ∃ problem, Line.parse number (s ++ tail) = .error ⟨number, problem⟩ := by
  have hrefused : ∀ tail, tail ≠ "" → Kept number s tail line.statement →
      (lexemes s).getLast? ≠ some bareQuote := by
    intro tail htail hkept hlast
    obtain ⟨problem, herror⟩ := error_of_last_eq h hlast htail
    rw [Kept, herror] at hkept
    simp at hkept
  refine ⟨?_, ?_, fun tail htail hlast => error_of_last_eq h hlast htail⟩
  · intro t
    have hne : " ;" ++ t ≠ "" := by
      intro hnil
      simpa using congrArg String.toList hnil
    exact ⟨hrefused _ hne, fun hlast => kept_of_last_ne h hlast (isVacant_comment t)⟩
  · intro w hw
    by_cases hnil : w = ""
    · subst hnil
      obtain ⟨statement, hread, rfl⟩ := Line.parse_eq_ok_iff.mp h
      simpa [Kept] using h
    · simp only [hnil, false_or]
      exact ⟨hrefused w hnil, fun hlast => kept_of_last_ne h hlast (isVacant_blanks hw)⟩

/-- Behind a literal with a semicolon a comment is one; behind `'''` it is part of the lexeme. -/
theorem trailing_kept_iff_semicolon :
    Kept 1 "push ';'" " ;note" (some (.code [⟨.push, some (.literal 59)⟩]))
      ∧ Line.parse 1 "push '''" = .ok ⟨1, "push '''", some (.code [⟨.push, some (.literal 39)⟩])⟩
      ∧ ¬ Kept 1 "push '''" " ;note" (some (.code [⟨.push, some (.literal 39)⟩])) := by
  have hsemicolon : Line.parse 1 "push ';'"
      = .ok ⟨1, "push ';'", some (.code [⟨.push, some (.literal 59)⟩])⟩ := by decide +kernel
  have hquote : Line.parse 1 "push '''"
      = .ok ⟨1, "push '''", some (.code [⟨.push, some (.literal 39)⟩])⟩ := by decide +kernel
  have hkept := ((trailing_kept_iff hsemicolon).1 "note").mpr (by decide +kernel)
  have hlost := mt ((trailing_kept_iff hquote).1 "note").mp (not_not.mpr (by decide +kernel))
  exact ⟨hkept, hquote, hlost⟩

/-- Not every line that is read is read with a comment behind it. -/
theorem exists_lost_comment :
    ∃ (number : Nat) (s t : String) (line : Line), Line.parse number s = .ok line
      ∧ ¬ ∃ other, Line.parse number (s ++ " ;" ++ t) = .ok other
        ∧ other.statement = line.statement := by
  refine ⟨1, "push '''", "note", ⟨1, "push '''", some (.code [⟨.push, some (.literal 39)⟩])⟩,
    by decide +kernel, ?_⟩
  have herror : Line.parse 1 ("push '''" ++ " ;" ++ "note")
      = .error ⟨1, .unknownToken "''' ;note"⟩ := by decide +kernel
  rintro ⟨other, hread, -⟩
  rw [herror] at hread
  simp at hread

end StackMachine.Source
