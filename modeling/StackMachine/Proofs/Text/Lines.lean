/-
Texts that are put together from lines.

Cutting a text into lines looks at newlines only, so a text that is cut after a newline
falls into the lines before and the lines behind. Lines that are written one after the
other, each with a newline at its end, are therefore found again, as long as none of them
holds a newline or ends in what would be taken for a part of the line end.
-/
import StackMachine.Text.Lines

set_option autoImplicit false

namespace StackMachine.Text

/-! ## Pieces -/

theorem attach_append {c : Char} {left : List (List Char)} (h : left ≠ [])
    (right : List (List Char)) : attach c (left ++ right) = attach c left ++ right := by
  rcases left with _ | ⟨piece, left⟩
  · exact absurd rfl h
  · rw [List.cons_append, attach, attach]
    split
    · rfl
    · rfl

/-- A newline is attached as a piece of its own. -/
theorem attach_newline (cut : List (List Char)) : attach '\n' cut = ['\n'] :: cut := by
  rcases cut with _ | ⟨piece, cut⟩
  · rfl
  · rfl

theorem pieces_cons (c : Char) (cs : List Char) : pieces (c :: cs) = attach c (pieces cs) := rfl

theorem pieces_ne_nil {cs : List Char} (h : cs ≠ []) : pieces cs ≠ [] := by
  intro hnil
  have hflat := flatten_pieces cs
  rw [hnil, List.flatten_nil] at hflat
  exact h hflat.symm

/-- Behind a newline the pieces start anew. -/
theorem pieces_append_newline (cs rest : List Char) :
    pieces (cs ++ '\n' :: rest) = pieces (cs ++ ['\n']) ++ pieces rest := by
  induction cs with
  | nil =>
    rw [List.nil_append, List.nil_append, pieces_cons, pieces_cons, attach_newline, attach_newline]
    rfl
  | cons c cs ih =>
    have hne : pieces (cs ++ ['\n']) ≠ [] := pieces_ne_nil (by simp)
    rw [List.cons_append, List.cons_append, pieces_cons, pieces_cons, ih, attach_append hne]

/-- A text whose only newline is its last character is one piece. -/
theorem pieces_line {cs : List Char} (h : '\n' ∉ cs) : pieces (cs ++ ['\n']) = [cs ++ ['\n']] := by
  induction cs with
  | nil => rfl
  | cons c cs ih =>
    have hc : c ≠ '\n' := fun heq => h (heq ▸ List.mem_cons_self)
    have hcs : '\n' ∉ cs := fun hmem => h (List.mem_cons_of_mem c hmem)
    rw [List.cons_append, pieces_cons, ih hcs, attach, if_neg hc]

theorem dropLineEnd_line {cs : List Char} (h : cs.getLast? ≠ some '\r') :
    dropLineEnd (cs ++ ['\n']) = cs := by
  -- the line end is looked for from behind
  rw [dropLineEnd, List.reverse_append, List.reverse_singleton, List.singleton_append]
  rw [List.getLast?_eq_head?_reverse] at h
  have hback : cs.reverse.reverse = cs := List.reverse_reverse cs
  rcases hcs : cs.reverse with _ | ⟨c, rest⟩
  · rw [hcs] at hback
    exact hback
  · rw [hcs] at h hback
    have hc : c ≠ '\r' := by simpa using h
    simp [hc, ← hback]

/-- A text that can be a line: it holds no newline, and no carriage return that would be
taken for a part of the line end. -/
def IsLine (s : String) : Prop :=
  '\n' ∉ s.toList ∧ s.toList.getLast? ≠ some '\r'

/-- A line with its end, in front of a text, is the first line. -/
theorem lines_cons {line : String} (h : IsLine line) (rest : String) :
    lines (line ++ "\n" ++ rest) = line :: lines rest := by
  have hlist : (line ++ "\n" ++ rest).toList = line.toList ++ '\n' :: rest.toList := by simp
  rw [lines, hlist, pieces_append_newline, pieces_line h.1, List.singleton_append, List.map_cons,
    dropLineEnd_line h.2, String.ofList_toList]
  rfl

/-- A text of whole lines: it is empty or ends with a newline. -/
def Whole (s : String) : Prop :=
  s = "" ∨ s.toList.getLast? = some '\n'

instance (s : String) : Decidable (Whole s) :=
  inferInstanceAs (Decidable (_ ∨ _))

/-- Behind whole lines the lines start anew. -/
theorem lines_append {left : String} (h : Whole left) (right : String) :
    lines (left ++ right) = lines left ++ lines right := by
  rcases h with rfl | hlast
  · rw [String.empty_append]
    rfl
  · obtain ⟨cs, hcs⟩ := List.getLast?_eq_some_iff.mp hlast
    rw [lines, lines, lines, String.toList_append, hcs, List.append_assoc, List.singleton_append,
      pieces_append_newline, List.map_append]

/-- **Lines are found again.** -/
theorem lines_join {ls : List String} (h : ∀ line ∈ ls, IsLine line) :
    lines (String.join (ls.map (· ++ "\n"))) = ls := by
  induction ls with
  | nil => rfl
  | cons line ls ih =>
    have hjoin : String.join ((line :: ls).map (· ++ "\n"))
        = line ++ "\n" ++ String.join (ls.map (· ++ "\n")) := by
      simp
    rw [hjoin, lines_cons (h line List.mem_cons_self)]
    rw [ih fun other hother => h other (List.mem_cons_of_mem line hother)]

end StackMachine.Text
