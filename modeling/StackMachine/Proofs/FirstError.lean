/-
Loops that stop at the first error.

Reading the lines of a source, collecting its tables and resolving its slots
are three walks along a list in `Except`. Which error such a walk ends with is
always the same question, "what is the first position that fails, and with
what", so it is answered here once, for `mapM` and for `foldlM`, and the stages
only have to say what it means for one position to fail.
-/
import Mathlib.Data.List.Basic

set_option autoImplicit false

namespace StackMachine

variable {ε α β γ σ : Type}

/-! ## The first failing position -/

/-- `e` is what the first failing position fails with. -/
def First (fails : Nat → ε → Prop) (e : ε) : Prop :=
  ∃ i, fails i e ∧ ∀ j, j < i → ∀ e', ¬ fails j e'

/-- If some position fails, one of them is the first. -/
theorem exists_first {fails : Nat → ε → Prop} (h : ∃ i e, fails i e) : ∃ e, First fails e := by
  obtain ⟨i, e, hi⟩ := h
  induction i using Nat.strongRecOn generalizing e with
  | ind i ih =>
    by_cases hearlier : ∃ j, j < i ∧ ∃ e', fails j e'
    · obtain ⟨j, hj, e', hfail⟩ := hearlier
      exact ih j hj e' hfail
    · refine ⟨e, i, hi, ?_⟩
      intro j hj e' hfail
      exact hearlier ⟨j, hj, e', hfail⟩

/-- The first failure depends only on what fails where. -/
theorem first_congr {fails fails' : Nat → ε → Prop} (h : ∀ i e, fails i e ↔ fails' i e) (e : ε) :
    First fails e ↔ First fails' e := by
  have heq : fails = fails' := by
    funext i e
    exact propext (h i e)
  rw [heq]

/-- If the first failure is what a result is decided by, a failure anywhere makes
the result an error, and that error is the first failure and no other. -/
theorem exists_error_of_first {x : Except ε α} {fails : Nat → ε → Prop}
    (hsome : ∃ i e, fails i e) (h : ∀ e, First fails e → x = .error e) :
    ∃ e, x = .error e ∧ ∀ e', First fails e' ↔ e' = e := by
  obtain ⟨e, hfirst⟩ := exists_first hsome
  refine ⟨e, h e hfirst, ?_⟩
  intro e'
  constructor
  · intro hfirst'
    have heq := h e' hfirst'
    rw [h e hfirst, Except.error.injEq] at heq
    exact heq.symm
  · intro heq
    rw [heq]
    exact hfirst

/-- If there are no errors but first failures, a result that nothing fails for is
a success. -/
theorem exists_ok_of_not_fails {x : Except ε α} {fails : Nat → ε → Prop}
    (h : ∀ e, x = .error e → First fails e) (hnone : ¬ ∃ i e, fails i e) : ∃ a, x = .ok a := by
  rcases x with e | a
  · obtain ⟨i, hi, -⟩ := h e rfl
    exact absurd ⟨i, e, hi⟩ hnone
  · exact ⟨a, rfl⟩

/-! ## `Except` one step at a time -/

/-- A sequence succeeds exactly if both of its parts do. -/
theorem bind_eq_ok_iff {x : Except ε α} {f : α → Except ε β} {b : β} :
    x >>= f = .ok b ↔ ∃ a, x = .ok a ∧ f a = .ok b := by
  rcases x with e | a
  · show Except.error e = .ok b ↔ _
    simp
  · show f a = .ok b ↔ _
    simp

/-- A sequence fails with the error of its first part, or else of its second. -/
theorem bind_eq_error_iff {x : Except ε α} {f : α → Except ε β} {e : ε} :
    x >>= f = .error e ↔ x = .error e ∨ ∃ a, x = .ok a ∧ f a = .error e := by
  rcases x with e' | a
  · show Except.error e' = .error e ↔ _
    simp
  · show f a = .error e ↔ _
    simp

theorem map_eq_ok_iff {x : Except ε α} {f : α → β} {b : β} :
    x.map f = .ok b ↔ ∃ a, x = .ok a ∧ f a = b := by
  rcases x with e | a
  · simp [Except.map]
  · simp [Except.map]

theorem map_eq_error_iff {x : Except ε α} {f : α → β} {e : ε} :
    x.map f = .error e ↔ x = .error e := by
  rcases x with e' | a
  · simp [Except.map]
  · simp [Except.map]

/-- A sequence that only goes on to a value is a map. -/
theorem bind_pure_eq_map (x : Except ε α) (f : α → β) : (x >>= fun a => pure (f a)) = x.map f := by
  rcases x with e | a
  · rfl
  · rfl

theorem map_bind_eq (x : Except ε α) (f : α → β) (g : β → Except ε γ) :
    x.map f >>= g = x >>= fun a => g (f a) := by
  rcases x with e | a
  · rfl
  · rfl

theorem bind_map_eq (x : Except ε α) (f : α → Except ε β) (g : β → γ) :
    (x >>= f).map g = x >>= fun a => (f a).map g := by
  rcases x with e | a
  · rfl
  · rfl

theorem map_map_eq (x : Except ε α) (f : α → β) (g : β → γ) :
    (x.map f).map g = x.map fun a => g (f a) := by
  rcases x with e | a
  · rfl
  · rfl

/-- Looking at a part of a success shows that there is one. -/
theorem eq_ok_of_toOption_map {x : Except ε α} {f : α → β} {b : β}
    (h : x.toOption.map f = some b) : ∃ a, x = .ok a ∧ f a = b := by
  rcases x with e | a
  · simp [Except.toOption] at h
  · exact ⟨a, rfl, Option.some.inj h⟩

/-! ## Results in other words -/

/-- A result with its value and its error said in other words. -/
def translated {δ : Type} (value : α → β) (error : ε → δ) : Except ε α → Except δ β
  | .ok a => .ok (value a)
  | .error e => .error (error e)

/-- A sequence is translated part by part, if the second part only needs the first one's
value in its translation. -/
theorem translated_bind {δ σ' : Type} {value : α → β} {value' : γ → σ'} {error : ε → δ}
    {x : Except ε α} {f : α → Except ε γ} {g : β → Except δ σ'}
    (h : ∀ a, x = .ok a → translated value' error (f a) = g (value a)) :
    translated value' error (x >>= f) = translated value error x >>= g := by
  rcases x with e | a
  · rfl
  · exact h a rfl

/-- A walk is translated step by step. -/
theorem translated_mapM {δ : Type} {value : α → β} {error : ε → δ} {f : α → Except ε γ}
    {g : β → Except δ γ} {l : List α} (h : ∀ a ∈ l, translated id error (f a) = g (value a)) :
    translated id error (l.mapM f) = (l.map value).mapM g := by
  induction l with
  | nil => rfl
  | cons a l ih =>
    have hrest := ih fun b hb => h b (List.mem_cons_of_mem a hb)
    rw [List.mapM_cons, List.map_cons, List.mapM_cons, ← h a List.mem_cons_self, ← hrest]
    rcases f a with e | c
    · rfl
    · rcases l.mapM f with e | cs
      · rfl
      · rfl

/-! ## `mapM` -/

/-- A walk succeeds exactly if it succeeds at every position. -/
theorem mapM_eq_ok_iff {f : α → Except ε β} {l : List α} {r : List β} :
    l.mapM f = .ok r ↔
      r.length = l.length ∧
        ∀ (i : Nat) (a : α), l[i]? = some a → ∃ b, r[i]? = some b ∧ f a = .ok b := by
  induction l generalizing r with
  | nil =>
    rw [List.mapM_nil]
    constructor
    · intro h
      obtain rfl : [] = r := Except.ok.inj h
      simp
    · rintro ⟨hlen, -⟩
      rw [List.eq_nil_of_length_eq_zero hlen]
      rfl
  | cons a l ih =>
    rw [List.mapM_cons, bind_eq_ok_iff]
    constructor
    · rintro ⟨b, hb, h⟩
      obtain ⟨bs, hbs, h⟩ := bind_eq_ok_iff.mp h
      obtain rfl : b :: bs = r := Except.ok.inj h
      obtain ⟨hlen, hall⟩ := ih.mp hbs
      refine ⟨by rw [List.length_cons, List.length_cons, hlen], ?_⟩
      intro i x hx
      rcases i with _ | i
      · obtain rfl : a = x := Option.some.inj hx
        exact ⟨b, rfl, hb⟩
      · exact hall i x hx
    · rintro ⟨hlen, hall⟩
      rcases r with _ | ⟨b, bs⟩
      · simp at hlen
      · obtain ⟨b', hb', hfa⟩ := hall 0 a rfl
        obtain rfl : b = b' := by simpa using hb'
        have hbs : l.mapM f = .ok bs := by
          refine ih.mpr ⟨by simpa using hlen, ?_⟩
          intro i x hx
          exact hall (i + 1) x hx
        exact ⟨b, hfa, bind_eq_ok_iff.mpr ⟨bs, hbs, rfl⟩⟩

/-- A walk fails with the error of the first position that fails. -/
theorem mapM_eq_error_iff {f : α → Except ε β} {l : List α} {e : ε} :
    l.mapM f = .error e ↔ First (fun i e => ∃ a, l[i]? = some a ∧ f a = .error e) e := by
  induction l with
  | nil =>
    rw [List.mapM_nil]
    constructor
    · intro h
      simp [pure, Except.pure] at h
    · rintro ⟨i, ⟨a, ha, -⟩, -⟩
      simp at ha
  | cons a l ih =>
    rw [List.mapM_cons, bind_eq_error_iff]
    constructor
    · rintro (h | ⟨b, hb, h⟩)
      · exact ⟨0, ⟨a, rfl, h⟩, fun j hj => absurd hj (Nat.not_lt_zero j)⟩
      · rcases bind_eq_error_iff.mp h with h | ⟨_, _, h⟩
        · obtain ⟨i, ⟨x, hx, hfx⟩, hfirst⟩ := ih.mp h
          refine ⟨i + 1, ⟨x, hx, hfx⟩, ?_⟩
          rintro (_ | j) hj e' ⟨y, hy, hfy⟩
          · obtain rfl : a = y := by simpa using hy
            rw [hb] at hfy
            simp at hfy
          · exact hfirst j (by omega) e' ⟨y, hy, hfy⟩
        · simp [pure, Except.pure] at h
    · rintro ⟨i, ⟨x, hx, hfx⟩, hfirst⟩
      rcases i with _ | i
      · obtain rfl : a = x := by simpa using hx
        exact .inl hfx
      · -- the first element gives a result, so the first failure is one of the rest
        rcases hb : f a with e' | b
        · exact absurd ⟨a, rfl, hb⟩ (hfirst 0 (by omega) e')
        · have hrest : l.mapM f = .error e := by
            refine ih.mpr ⟨i, ⟨x, hx, hfx⟩, ?_⟩
            intro j hj e' hfail
            exact hfirst (j + 1) (by omega) e' hfail
          exact .inr ⟨b, rfl, bind_eq_error_iff.mpr (.inl hrest)⟩

/-- Walking along a list of pieces is walking along the pieces' origins, when
each piece as a whole is a function of what its origin gives. -/
theorem mapM_flatMap {f : β → Except ε γ} {g : α → List β} {h : α → Except ε σ} {w : σ → List γ}
    (hpiece : ∀ a, (g a).mapM f = (h a).map w) (l : List α) :
    (l.flatMap g).mapM f = (l.mapM h).map fun rs => rs.flatMap w := by
  induction l with
  | nil => rfl
  | cons a l ih =>
    rw [List.flatMap_cons, List.mapM_append, List.mapM_cons, hpiece, ih]
    rcases h a with e | r
    · rfl
    · rcases l.mapM h with e | rs
      · rfl
      · rfl

/-! ## `foldlM` -/

theorem foldlM_take_succ {f : σ → α → Except ε σ} {s : σ} {l : List α} {i : Nat} {a : α}
    (ha : l[i]? = some a) :
    (l.take (i + 1)).foldlM f s = (l.take i).foldlM f s >>= fun t => f t a := by
  rw [List.take_add_one, ha, List.foldlM_append]
  congr 1
  funext t
  simp

theorem foldlM_eq_error_of_take {f : σ → α → Except ε σ} {s : σ} {l : List α} {n : Nat} {e : ε}
    (h : (l.take n).foldlM f s = .error e) : l.foldlM f s = .error e := by
  rw [← List.take_append_drop n l, List.foldlM_append, h]
  rfl

section Fold

variable {f : σ → α → Except ε σ} {s : σ} {l : List α} {fails : Nat → ε → Prop}

/-- As long as no position fails, the walk has a state to go on with. -/
theorem foldlM_take_of_not_fails
    (hstep : ∀ (i : Nat) (a : α) (t : σ) (e : ε), l[i]? = some a → (l.take i).foldlM f s = .ok t →
      (f t a = .error e ↔ fails i e))
    (n : Nat) (hn : n ≤ l.length) (hnone : ∀ j, j < n → ∀ e, ¬ fails j e) :
    ∃ t, (l.take n).foldlM f s = .ok t := by
  induction n with
  | zero => exact ⟨s, rfl⟩
  | succ n ih =>
    obtain ⟨t, ht⟩ := ih (by omega) (fun j hj => hnone j (by omega))
    have ha : l[n]? = some l[n] := List.getElem?_eq_getElem (by omega)
    rw [foldlM_take_succ ha, ht]
    rcases hft : f t l[n] with e | u
    · exact absurd ((hstep n _ t e ha ht).mp hft) (hnone n (by omega) e)
    · exact ⟨u, hft⟩

/-- If failing at a position is a property of the position alone, a walk fails
with the error of the first position that has it. -/
theorem foldlM_eq_error_iff
    (hbound : ∀ i e, fails i e → i < l.length)
    (hstep : ∀ (i : Nat) (a : α) (t : σ) (e : ε), l[i]? = some a → (l.take i).foldlM f s = .ok t →
      (f t a = .error e ↔ fails i e))
    (e : ε) : l.foldlM f s = .error e ↔ First fails e := by
  have hback : ∀ e', First fails e' → l.foldlM f s = .error e' := by
    rintro e' ⟨i, hi, hfirst⟩
    have hlt := hbound i e' hi
    obtain ⟨t, ht⟩ := foldlM_take_of_not_fails hstep i (by omega) hfirst
    have ha : l[i]? = some l[i] := List.getElem?_eq_getElem hlt
    apply foldlM_eq_error_of_take (n := i + 1)
    rw [foldlM_take_succ ha, ht]
    exact (hstep i _ t e' ha ht).mpr hi
  refine ⟨fun h => ?_, hback e⟩
  by_cases hsome : ∃ i e', fails i e'
  · obtain ⟨e', hfirst⟩ := exists_first hsome
    have heq := hback e' hfirst
    rw [h, Except.error.injEq] at heq
    rw [heq]
    exact hfirst
  · obtain ⟨t, ht⟩ := foldlM_take_of_not_fails hstep l.length (Nat.le_refl _)
      (fun j _ e' hfail => hsome ⟨j, e', hfail⟩)
    rw [List.take_length, h] at ht
    simp at ht

end Fold

end StackMachine
