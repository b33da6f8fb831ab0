/-
The grammar of a line.

The reader decides about a line in stages: it classifies the lexemes, looks at the first of
them, counts the others and reads the one that is an operand. This file says the outcome of all
that in one place. `Says` lists the rows of lexemes that are a line, each with its statement,
and `Refused` lists the others, each with the problem that is reported for it. Every row is on
one of the two lists, and the reader follows them.

A row has often more than one thing wrong with it. Lexemes of no class are reported first, the
leftmost of them; then a first lexeme that starts no line; then a lexeme too few or too many;
and an operand is read only in a row that has the right length.
-/
import StackMachine.Proofs.Source.Operand

set_option autoImplicit false

namespace StackMachine.Source

/-! ## Lines -/

/-- What a row of lexemes says. -/
inductive Says : List String → Option Statement → Prop where
  | blank : Says [] none
  /-- Keywords are names, too. -/
  | definition {name : String} (hname : Named name.toList) :
      Says [name ++ ":"] (some (.label name))
  | alone {s : String} {op : Op} (hop : Spells s op) (harity : op.arity = 0) :
      Says [s] (some (.code [⟨op, none⟩]))
  | operand {s x : String} {op : Op} {operand : Operand} (hop : Spells s op)
      (harity : op.arity = 1) (hx : ReadAs x operand) :
      Says [s, x] (some (.code [⟨op, some operand⟩]))
  /-- A destination beside the operation is pushed first. -/
  | target {s x : String} {op : Op} {operand : Operand} (hop : Spells s op)
      (htarget : op.takesTarget = true) (hx : ReadAs x operand) :
      Says [s, x] (some (.code [⟨.push, some operand⟩, ⟨op, none⟩]))
  | raised {s x : String} {v : Int64} (hpseudo : Pseudo.ofKeyword? s = some .spr)
      (hx : Literal.value? x = some v) (hsign : 0 ≤ v.toInt) (hlimit : v.toInt ≤ 256) :
      Says [s, x] (some (.code (List.replicate v.toInt.natAbs ⟨.spi, none⟩)))
  | lowered {s x : String} {v : Int64} (hpseudo : Pseudo.ofKeyword? s = some .spr)
      (hx : Literal.value? x = some v) (hsign : v.toInt < 0) (hlimit : -256 ≤ v.toInt) :
      Says [s, x] (some (.code (List.replicate v.toInt.natAbs ⟨.spd, none⟩)))

/-- What is wrong with a row of lexemes, each of them of some class. -/
inductive Misshapen : List String → Problem → Prop where
  -- first lexemes that start no line
  | number {s : String} {args : List String} {v : Int64} (hvalue : Literal.value? s = some v) :
      Misshapen (s :: args) (.unknownOperation s)
  | reference {s : String} {args : List String} (hreference : isReference s = true)
      (hdefinition : isDefinition s = false) : Misshapen (s :: args) (.unknownOperation s)
  -- rows that are too short or too long
  | missing {s : String} {op : Op} (hop : Spells s op) (harity : op.arity = 1) :
      Misshapen [s] (.missingArgument s)
  | missingCount {s : String} {pseudo : Pseudo} (hpseudo : Pseudo.ofKeyword? s = some pseudo) :
      Misshapen [s] (.missingArgument s)
  | defined {s x : String} {args : List String} (hdefinition : isDefinition s = true) :
      Misshapen (s :: x :: args) (.unexpectedArgument x)
  | surplus {s x : String} {op : Op} (hop : Spells s op) (harity : op.arity = 0)
      (htarget : op.takesTarget = false) : Misshapen [s, x] (.unexpectedArgument x)
  | second {s x y : String} {args : List String} {op : Op} (hop : Spells s op) :
      Misshapen (s :: x :: y :: args) (.unexpectedArgument y)
  | secondCount {s x y : String} {args : List String} {pseudo : Pseudo}
      (hpseudo : Pseudo.ofKeyword? s = some pseudo) :
      Misshapen (s :: x :: y :: args) (.unexpectedArgument y)
  -- rows of the right length
  | name {name : String} (hname : ¬ Named name.toList) :
      Misshapen [name ++ ":"] (.invalidLabel name)
  | operand {s x : String} {op : Op} (hop : Spells s op)
      (htakes : op.arity = 1 ∨ op.takesTarget = true) (hx : ∀ operand, ¬ ReadAs x operand) :
      Misshapen [s, x] (.badOperand x (wanted x))
  | count {s x : String} {pseudo : Pseudo} (hpseudo : Pseudo.ofKeyword? s = some pseudo)
      (hx : ∀ v, Literal.value? x = some v → 256 < v.toInt.natAbs) :
      Misshapen [s, x] (.invalidCount x)

/-- What is wrong with a row of lexemes. -/
inductive Refused : List String → Problem → Prop where
  /-- The first lexeme of no class; where an operation should stand, it is an unknown one. -/
  | unknown {before after : List String} {s : String} (hbefore : ∀ t ∈ before, ¬ Unknown t)
      (hs : Unknown s) :
      Refused (before ++ s :: after)
        (if before = [] then .unknownOperation s else .unknownToken s)
  | misshapen {words : List String} {problem : Problem} (hknown : ∀ t ∈ words, ¬ Unknown t)
      (h : Misshapen words problem) : Refused words problem

/-! ## The lists are complete -/

/-- A text has the shape of a definition if it has a colon behind something. -/
theorem isDefinition_iff {s : String} : isDefinition s = true ↔ ∃ name : String, s = name ++ ":" := by
  rw [isDefinition, beq_iff_eq]
  constructor
  · intro hlast
    obtain ⟨front, hs⟩ := List.getLast?_eq_some_iff.mp hlast
    refine ⟨String.ofList front, ?_⟩
    rw [← String.toList_inj, hs, String.toList_append, String.toList_ofList]
    rfl
  · rintro ⟨name, rfl⟩
    rw [String.toList_append, List.getLast?_append]
    rfl

section Complete

variable {s : String} {op : Op}

theorem says_or_misshapen_operation (hop : Spells s op) (args : List String) :
    (∃ statement, Says (s :: args) statement) ∨ ∃ problem, Misshapen (s :: args) problem := by
  rcases args with _ | ⟨x, _ | ⟨y, rest⟩⟩
  · rcases op.arity_eq_zero_or_one with harity | harity
    · exact .inl ⟨_, .alone hop harity⟩
    · exact .inr ⟨_, .missing hop harity⟩
  · by_cases htakes : op.arity = 1 ∨ op.takesTarget = true
    · by_cases hread : ∃ operand, ReadAs x operand
      · obtain ⟨operand, hx⟩ := hread
        rcases htakes with harity | htarget
        · exact .inl ⟨_, .operand hop harity hx⟩
        · exact .inl ⟨_, .target hop htarget hx⟩
      · exact .inr ⟨_, .operand hop htakes fun operand hx => hread ⟨operand, hx⟩⟩
    · -- an operation with nothing to take has no use for the lexeme behind it
      have harity : op.arity = 0 := by
        rcases op.arity_eq_zero_or_one with harity | harity
        · exact harity
        · exact absurd (.inl harity) htakes
      have htarget : op.takesTarget = false := Bool.eq_false_iff.mpr fun h => htakes (.inr h)
      exact .inr ⟨_, .surplus hop harity htarget⟩
  · exact .inr ⟨_, .second hop⟩

theorem says_or_misshapen_pseudo {pseudo : Pseudo} (hpseudo : Pseudo.ofKeyword? s = some pseudo)
    (args : List String) :
    (∃ statement, Says (s :: args) statement) ∨ ∃ problem, Misshapen (s :: args) problem := by
  obtain ⟨⟩ := pseudo
  rcases args with _ | ⟨x, _ | ⟨y, rest⟩⟩
  · exact .inr ⟨_, .missingCount hpseudo⟩
  · by_cases hcount : ∃ v, Literal.value? x = some v ∧ v.toInt.natAbs ≤ 256
    · obtain ⟨v, hx, hlimit⟩ := hcount
      by_cases hsign : 0 ≤ v.toInt
      · exact .inl ⟨_, .raised hpseudo hx hsign (by omega)⟩
      · exact .inl ⟨_, .lowered hpseudo hx (by omega) (by omega)⟩
    · refine .inr ⟨_, .count hpseudo ?_⟩
      intro v hx
      apply Nat.lt_of_not_le
      exact fun hlimit => hcount ⟨v, hx, hlimit⟩
  · exact .inr ⟨_, .secondCount hpseudo⟩

theorem says_or_misshapen_definition (hdefinition : isDefinition s = true) (args : List String) :
    (∃ statement, Says (s :: args) statement) ∨ ∃ problem, Misshapen (s :: args) problem := by
  rcases args with _ | ⟨x, rest⟩
  · obtain ⟨name, rfl⟩ := isDefinition_iff.mp hdefinition
    by_cases hname : Named name.toList
    · exact .inl ⟨_, .definition hname⟩
    · exact .inr ⟨_, .name hname⟩
  · exact .inr ⟨_, .defined hdefinition⟩

/-- A row of lexemes that are of some class is a line, or something is wrong with its shape. -/
theorem says_or_misshapen {words : List String} (hknown : ∀ t ∈ words, ¬ Unknown t) :
    (∃ statement, Says words statement) ∨ ∃ problem, Misshapen words problem := by
  rcases words with _ | ⟨s, args⟩
  · exact .inl ⟨_, .blank⟩
  · rcases class_of_known (hknown s List.mem_cons_self) with ⟨v, hvalue⟩ | ⟨op, hop⟩ | hform
    · exact .inr ⟨_, .number hvalue⟩
    · exact says_or_misshapen_operation hop args
    · by_cases hdefinition : isDefinition s = true
      · exact says_or_misshapen_definition hdefinition args
      · rcases hpseudo : Pseudo.ofKeyword? s with _ | pseudo
        · -- of the forms only a reference is left
          have hreference : isReference s = true := by
            simpa [isForm, hdefinition, hpseudo] using hform
          exact .inr ⟨_, .reference hreference (Bool.eq_false_iff.mpr hdefinition)⟩
        · exact says_or_misshapen_pseudo hpseudo args

/-- All lexemes are of some class, or there is a first that is not. -/
theorem known_or_first (words : List String) :
    (∀ t ∈ words, ¬ Unknown t)
      ∨ ∃ before s after, words = before ++ s :: after ∧ (∀ t ∈ before, ¬ Unknown t) ∧ Unknown s := by
  induction words with
  | nil => simp
  | cons t words ih =>
    by_cases ht : Unknown t
    · exact .inr ⟨[], t, words, rfl, by simp, ht⟩
    · rcases ih with hknown | ⟨before, s, after, rfl, hbefore, hs⟩
      · exact .inl (List.forall_mem_cons.mpr ⟨ht, hknown⟩)
      · exact .inr ⟨t :: before, s, after, rfl, List.forall_mem_cons.mpr ⟨ht, hbefore⟩, hs⟩

/-- Every row of lexemes is on one of the lists. -/
theorem says_or_refused (words : List String) :
    (∃ statement, Says words statement) ∨ ∃ problem, Refused words problem := by
  rcases known_or_first words with hknown | ⟨before, s, after, rfl, hbefore, hs⟩
  · rcases says_or_misshapen hknown with hline | ⟨problem, h⟩
    · exact .inl hline
    · exact .inr ⟨problem, .misshapen hknown h⟩
  · exact .inr ⟨_, .unknown hbefore hs⟩

end Complete

/-! ## The reader follows them -/

section Reader

variable {s : String} {args : List String}

theorem kind?_of_definition (h : isDefinition s = true) : Token.kind? s = some .form := by
  have hform : isForm s = true := by rw [isForm, h, Bool.true_or, Bool.true_or]
  exact Token.kind?_eq_form_iff.mpr hform

theorem Statement.ofTokens_definition (h : isDefinition s = true) (tokens : List Token) :
    Statement.ofTokens (⟨.form, s⟩ :: tokens) = (Statement.ofDefinition s tokens).map some := by
  rw [Statement.ofTokens]
  simp only [h, if_true]
  exact bind_pure_eq_map _ _

theorem ofDefinition_alone (name : String) :
    Statement.ofDefinition (name ++ ":") []
      = if isName name then .ok (.label name) else .error (.invalidLabel name) := by
  have hname : String.ofList (name ++ ":").toList.dropLast = name := by
    rw [String.toList_append]
    simp
  rw [Statement.ofDefinition, hname]

theorem ofLexemes_definition (name : String) :
    Statement.ofLexemes [name ++ ":"]
      = if isName name then .ok (some (.label name)) else .error (.invalidLabel name) := by
  have hdefinition : isDefinition (name ++ ":") = true := isDefinition_iff.mpr ⟨name, rfl⟩
  rw [Statement.ofLexemes_cons (kind?_of_definition hdefinition), List.mapM_nil, pure_bind,
    Statement.ofTokens_definition hdefinition, ofDefinition_alone]
  split
  · rfl
  · rfl

/-- The count of a pseudo-operation decides by its sign which operation is repeated. -/
theorem ofLexemes_count {x : String} {v : Int64} (hpseudo : Pseudo.ofKeyword? s = some .spr)
    (hx : Literal.value? x = some v) (hlimit : v.toInt.natAbs ≤ 256) :
    Statement.ofLexemes [s, x]
      = .ok (some (.code (List.replicate v.toInt.natAbs
        ⟨if v.toInt < 0 then .spd else .spi, none⟩))) := by
  have hcodes : Code.ofPseudo .spr s [⟨.number v, x⟩]
      = .ok (List.replicate v.toInt.natAbs ⟨if v.toInt < 0 then .spd else .spi, none⟩) := by
    have hfits : v.toInt.natAbs ≤ stackCapacity := hlimit
    simp only [Code.ofPseudo, if_pos hfits, Pseudo.expand, List.map_replicate]
  rw [ofLexemes_pseudo hpseudo, Token.ofLexeme_of_kind (Token.kind?_eq_number_iff.mpr hx)]
  show (Code.ofPseudo .spr s [⟨.number v, x⟩]).map _ = _
  rw [hcodes]
  rfl

/-- What the list says about a line is what is read. -/
theorem ofLexemes_of_line {words : List String} {statement : Option Statement}
    (h : Says words statement) : Statement.ofLexemes words = .ok statement := by
  cases h with
  | blank => rfl
  | definition hname => rw [ofLexemes_definition, if_pos (isName_iff.mpr hname)]
  | alone hop harity => exact ofLexemes_alone (Token.kind?_eq_operation_iff.mpr hop) harity
  | operand hop harity hx =>
    rw [ofLexemes_operand (Token.kind?_eq_operation_iff.mpr hop) harity, ofLexeme_of_readAs hx]
    rfl
  | target hop htarget hx =>
    rw [ofLexemes_target (Token.kind?_eq_operation_iff.mpr hop) htarget, ofLexeme_of_readAs hx]
    rfl
  | raised hpseudo hx hsign hlimit =>
    rw [ofLexemes_count hpseudo hx (by omega), if_neg (by omega)]
  | lowered hpseudo hx hsign hlimit =>
    rw [ofLexemes_count hpseudo hx (by omega), if_pos hsign]

/-- Lexemes that are of some class keep their texts when they are classified. -/
theorem exists_tokens (hknown : ∀ t ∈ args, ¬ Unknown t) :
    ∃ tokens, args.mapM Token.ofLexeme = .ok tokens ∧ tokens.map Token.text = args := by
  induction args with
  | nil => exact ⟨[], rfl, rfl⟩
  | cons t args ih =>
    obtain ⟨ht, hargs⟩ := List.forall_mem_cons.mp hknown
    obtain ⟨tokens, hread, htexts⟩ := ih hargs
    obtain ⟨kind, hkind⟩ := exists_kind ht
    refine ⟨⟨kind, t⟩ :: tokens, ?_, by rw [List.map_cons, htexts]⟩
    rw [List.mapM_cons, Token.ofLexeme_of_kind hkind, hread]
    rfl

theorem exists_ofTokens {kind : Token.Kind} (hkind : Token.kind? s = some kind)
    (hknown : ∀ t ∈ s :: args, ¬ Unknown t) :
    ∃ tokens, tokens.map Token.text = args
      ∧ Statement.ofLexemes (s :: args) = Statement.ofTokens (⟨kind, s⟩ :: tokens) := by
  obtain ⟨tokens, hread, htexts⟩ := exists_tokens (List.forall_mem_cons.mp hknown).2
  refine ⟨tokens, htexts, ?_⟩
  rw [Statement.ofLexemes_cons hkind, hread]
  rfl

theorem exists_second {tokens : List Token} {x y : String} {rest : List String}
    (h : tokens.map Token.text = x :: y :: rest) :
    ∃ arg extra others, tokens = arg :: extra :: others ∧ extra.text = y := by
  obtain ⟨arg, tail, rfl, -, htail⟩ := List.map_eq_cons_iff.mp h
  obtain ⟨extra, others, rfl, htext, -⟩ := List.map_eq_cons_iff.mp htail
  exact ⟨arg, extra, others, rfl, htext⟩

theorem ofLexemes_of_unknown {before after : List String} (hbefore : ∀ t ∈ before, ¬ Unknown t)
    (hs : Unknown s) :
    Statement.ofLexemes (before ++ s :: after)
      = .error (if before = [] then .unknownOperation s else .unknownToken s) := by
  have hunread : Token.ofLexeme s = .error (.unknownToken s) := by
    rw [Token.ofLexeme, Token.kind?_eq_none_iff.mpr hs]
  rcases before with _ | ⟨t, before⟩
  · rw [List.nil_append, Statement.ofLexemes, Line.tokens, hunread]
    rfl
  · -- the lexemes between the first and the unknown one are read before it
    obtain ⟨ht, hbefore⟩ := List.forall_mem_cons.mp hbefore
    obtain ⟨tokens, hread, -⟩ := exists_tokens hbefore
    obtain ⟨kind, hkind⟩ := exists_kind ht
    rw [List.cons_append, Statement.ofLexemes_cons hkind, List.mapM_append, hread, List.mapM_cons,
      hunread]
    rfl

theorem ofTokens_of_reference (hreference : isReference s = true)
    (hdefinition : isDefinition s = false) (tokens : List Token) :
    Statement.ofTokens (⟨.form, s⟩ :: tokens) = .error (.unknownOperation s) := by
  have hnone : Pseudo.ofKeyword? s = none := by
    rw [Option.eq_none_iff_forall_ne_some]
    intro pseudo hpseudo
    rw [(pseudo_only hpseudo).2.2] at hreference
    simp at hreference
  rw [Statement.ofTokens]
  simp [hdefinition, hnone]

theorem ofPseudo_of_no_count {pseudo : Pseudo} {arg : Token}
    (h : ∀ v, arg.kind = .number v → 256 < v.toInt.natAbs) :
    Code.ofPseudo pseudo s [arg] = .error (.invalidCount arg.text) := by
  rw [Code.ofPseudo]
  split
  · rename_i v hkind
    exact if_neg (Nat.not_le.mpr (h v hkind))
  · rfl

/-- What the list says about a row of the wrong shape is what is reported. -/
theorem ofLexemes_of_misshapen {words : List String} {problem : Problem}
    (hknown : ∀ t ∈ words, ¬ Unknown t) (h : Misshapen words problem) :
    Statement.ofLexemes words = .error problem := by
  -- All lexemes are classified before the shape of the row is looked at, so in each case the
  -- tokens are there, with the texts of the lexemes, and only the first one's class matters.
  cases h with
  | number hvalue =>
    obtain ⟨tokens, -, hread⟩ := exists_ofTokens (Token.kind?_eq_number_iff.mpr hvalue) hknown
    rw [hread]
    rfl
  | @reference s _ hreference hdefinition =>
    have hform : isForm s = true := by rw [isForm, hdefinition, hreference]; rfl
    obtain ⟨tokens, -, hread⟩ := exists_ofTokens (Token.kind?_eq_form_iff.mpr hform) hknown
    rw [hread, ofTokens_of_reference hreference hdefinition]
  | missing hop harity =>
    rw [Statement.ofLexemes_cons (Token.kind?_eq_operation_iff.mpr hop), List.mapM_nil, pure_bind,
      Statement.ofTokens_operation, Code.ofOperation, if_neg (by omega)]
    rfl
  | missingCount hpseudo =>
    rw [Statement.ofLexemes_cons (kind?_of_pseudo hpseudo).1, List.mapM_nil, pure_bind,
      Statement.ofTokens_pseudo hpseudo]
    rfl
  | defined hdefinition =>
    obtain ⟨tokens, htexts, hread⟩ := exists_ofTokens (kind?_of_definition hdefinition) hknown
    obtain ⟨arg, rest, rfl, rfl, -⟩ := List.map_eq_cons_iff.mp htexts
    rw [hread, Statement.ofTokens_definition hdefinition]
    rfl
  | surplus hop harity htarget =>
    obtain ⟨tokens, htexts, hread⟩ := exists_ofTokens (Token.kind?_eq_operation_iff.mpr hop) hknown
    obtain ⟨arg, rfl, rfl⟩ := List.map_eq_singleton_iff.mp htexts
    rw [hread, Statement.ofTokens_operation, Code.ofOperation, if_neg (by omega), htarget]
    rfl
  | second hop =>
    obtain ⟨tokens, htexts, hread⟩ := exists_ofTokens (Token.kind?_eq_operation_iff.mpr hop) hknown
    obtain ⟨arg, extra, rest, rfl, rfl⟩ := exists_second htexts
    rw [hread, Statement.ofTokens_operation]
    rfl
  | secondCount hpseudo =>
    obtain ⟨tokens, htexts, hread⟩ := exists_ofTokens (kind?_of_pseudo hpseudo).1 hknown
    obtain ⟨arg, extra, rest, rfl, rfl⟩ := exists_second htexts
    rw [hread, Statement.ofTokens_pseudo hpseudo]
    rfl
  | name hname => rw [ofLexemes_definition, if_neg (mt isName_iff.mp hname)]
  | @operand s x op hop htakes hx =>
    -- with an arity of one or with a destination, it is the same operand that cannot be read
    have hkind := Token.kind?_eq_operation_iff.mpr hop
    have hunread := ofLexeme_of_not_readAs (hknown x (by simp)) hx
    rcases htakes with harity | htarget
    · rw [ofLexemes_operand hkind harity, hunread]
      rfl
    · rw [ofLexemes_target hkind htarget, hunread]
      rfl
  | @count s x pseudo hpseudo hx =>
    obtain ⟨kind, hkind⟩ := exists_kind (hknown x (by simp))
    -- a count is read by its class: no number is as bad as one that is out of range
    have hcount : ∀ v, kind = .number v → 256 < v.toInt.natAbs := by
      rintro v rfl
      exact hx v (Token.kind?_eq_number_iff.mp hkind)
    rw [ofLexemes_pseudo hpseudo, Token.ofLexeme_of_kind hkind]
    show (Code.ofPseudo pseudo s [⟨kind, x⟩]).map _ = _
    rw [ofPseudo_of_no_count hcount]
    rfl

theorem ofLexemes_of_refused {words : List String} {problem : Problem}
    (h : Refused words problem) : Statement.ofLexemes words = .error problem := by
  cases h with
  | unknown hbefore hs => exact ofLexemes_of_unknown hbefore hs
  | misshapen hknown h => exact ofLexemes_of_misshapen hknown h

end Reader

/-! ## The grammar -/

section Grammar

variable {words : List String}

theorem ofLexemes_eq_ok_iff {statement : Option Statement} :
    Statement.ofLexemes words = .ok statement ↔ Says words statement := by
  refine ⟨fun hread => ?_, ofLexemes_of_line⟩
  -- the row is on one of the lists, and only what is on the first is read
  rcases says_or_refused words with ⟨other, hline⟩ | ⟨problem, hrefused⟩
  · rw [ofLexemes_of_line hline] at hread
    rwa [← Except.ok.inj hread]
  · rw [ofLexemes_of_refused hrefused] at hread
    simp at hread

theorem ofLexemes_eq_error_iff {problem : Problem} :
    Statement.ofLexemes words = .error problem ↔ Refused words problem := by
  refine ⟨fun hread => ?_, ofLexemes_of_refused⟩
  rcases says_or_refused words with ⟨statement, hline⟩ | ⟨other, hrefused⟩
  · rw [ofLexemes_of_line hline] at hread
    simp at hread
  · rw [ofLexemes_of_refused hrefused] at hread
    rwa [← Except.error.inj hread]

end Grammar

/-- **A line is read exactly if it follows the grammar**, and then it says what the grammar says;
every instruction it gives has an operand exactly if its operation asks for one. A line with a
lexeme of no class is refused for the first of these, whatever else is wrong with it, and in
general a line is refused for what the list of problems has for its lexemes. -/
theorem parse_follows_grammar (number : Nat) (raw : String) :
    (∀ line, Line.parse number raw = .ok line
        ↔ line.number = number ∧ line.raw = raw ∧ Says (lexemes raw) line.statement)
      ∧ (∀ line, Line.parse number raw = .ok line →
        ∀ code ∈ line.codes, code.operand.isSome ↔ code.op.arity = 1)
      ∧ (∀ before s after, lexemes raw = before ++ s :: after → (∀ t ∈ before, ¬ Unknown t) →
        Unknown s →
        Line.parse number raw
          = .error ⟨number, if before = [] then .unknownOperation s else .unknownToken s⟩)
      ∧ ∀ e, Line.parse number raw = .error e
        ↔ e.line = number ∧ Refused (lexemes raw) e.problem := by
  refine ⟨?_, ?_, ?_, ?_⟩
  · intro line
    rw [Line.parse_eq_ok_iff]
    simp only [ofLexemes_eq_ok_iff]
    constructor
    · rintro ⟨statement, hline, rfl⟩
      exact ⟨rfl, rfl, hline⟩
    · rintro ⟨rfl, rfl, hline⟩
      exact ⟨line.statement, hline, rfl⟩
  · intro line hread
    exact (Line.parse_spec hread).2
  · intro before s after hwords hbefore hs
    apply Line.parse_eq_error_iff.mpr
    refine ⟨rfl, ?_⟩
    rw [hwords]
    exact ofLexemes_of_unknown hbefore hs
  · intro e
    rw [Line.parse_eq_error_iff, ofLexemes_eq_error_iff]

/-- A destination is pushed before the jump to it, and an unknown lexeme hides that there is one
too many. -/
theorem parse_follows_grammar_jump :
    Line.parse 3 "jmp @-2"
        = .ok ⟨3, "jmp @-2", some (.code
          [⟨.push, some (.reference (.relative (-2)))⟩, ⟨.jmp, none⟩])⟩
      ∧ Line.parse 3 "push 1 ? ?!" = .error ⟨3, .unknownToken "?"⟩ := by
  constructor
  · have hwords : lexemes "jmp @-2" = ["jmp", "@-2"] := by decide +kernel
    have hop : Spells "jmp" .jmp := .inl (by decide +kernel)
    have htarget : RefersTo ['-', '2'] (.relative (-2)) :=
      .backward ⟨by simp, by simp [Literal.Digit]⟩ (by decide)
    apply ((parse_follows_grammar 3 "jmp @-2").1 _).mpr
    refine ⟨rfl, rfl, ?_⟩
    rw [hwords]
    exact .target hop rfl (.reference (by decide) htarget)
  · have hwords : lexemes "push 1 ? ?!" = ["push", "1"] ++ "?" :: ["?!"] := by decide +kernel
    have hbefore : ∀ t ∈ ["push", "1"], ¬ Unknown t := by
      have hkinds : ∀ t ∈ ["push", "1"], Token.kind? t ≠ none := by decide +kernel
      exact fun t ht => mt Token.kind?_eq_none_iff.mpr (hkinds t ht)
    have hunknown : Unknown "?" := Token.kind?_eq_none_iff.mp (by decide +kernel)
    exact (parse_follows_grammar 3 "push 1 ? ?!").2.2.1 _ _ _ hwords hbefore hunknown

/-- A lexeme too many hides that the one before it is no operand. -/
example : Line.parse 3 "push @9: 1" = .error ⟨3, .unexpectedArgument "1"⟩ := by decide +kernel

end StackMachine.Source
