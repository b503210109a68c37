import RazorVash.Proofs.Draft.Pairing
import RazorVash.Proofs.Loop.Opener

namespace RazorVash.Draft
open Loop

variable {d d₀ d₁ d₂ : Draft} {u v s : Text}

theorem written_eq (m : Mark) : m.written = ['@', '{'] ∨ m.written = ['}'] := by
  cases m with
  | logicOpener => exact .inl rfl
  | logicCloser => exact .inr rfl
  | loopCloser => exact .inr rfl

theorem exists_of_spell_written_at (h : spell Mark.written d = u ++ '@' :: v) :
    ∃ d₁ d₂, d = d₁ ++ d₂ ∧ spell Mark.written d₁ = u ∧ spell Mark.written d₂ = '@' :: v := by
  induction d generalizing u with
  | nil => simp at h
  | cons p d ih =>
    cases u with
    | nil => exact ⟨[], p :: d, rfl, rfl, h⟩
    | cons c u =>
      cases p with
      | char e =>
        obtain ⟨rfl, hu⟩ := List.cons.inj h
        obtain ⟨d₁, d₂, rfl, rfl, hd₂⟩ := ih hu
        exact ⟨.char e :: d₁, d₂, rfl, rfl, hd₂⟩
      | mark m =>
        rw [spell_mark] at h
        rcases List.append_eq_append_iff.1 h with ⟨a, hu, ha⟩ | ⟨a, hm, ha⟩
        · obtain ⟨d₁, d₂, rfl, rfl, hd₂⟩ := ih ha
          exact ⟨.mark m :: d₁, d₂, rfl, hu.symm, hd₂⟩
        · cases a with
          | nil => exact ⟨[.mark m], d, rfl, by simp [hm], ha.symm⟩
          | cons e a =>
            -- `@` would come after the first character of the mark
            obtain ⟨rfl, -⟩ := List.cons.inj ha
            rcases written_eq m with hw | hw
            · cases u <;> simp [hw] at hm
            · cases u <;> simp [hw] at hm

theorem exists_of_spell_written_brace (h : spell Mark.written d = s ++ '{' :: v) (ho : '{' ∉ s)
    (hc : '}' ∉ s) (hs : s.getLast? ≠ some '@') :
    ∃ d', d = s.map .char ++ .char '{' :: d' ∧ spell Mark.written d' = v := by
  induction s generalizing d with
  | nil =>
    cases d with
    | nil => simp at h
    | cons p d =>
      cases p with
      | char e =>
        obtain ⟨rfl, hv⟩ := List.cons.inj h
        exact ⟨d, rfl, hv⟩
      | mark m => cases m <;> cases (List.cons.inj h).1
  | cons c s ih =>
    have ho' : '{' ∉ s := fun hm => ho (List.mem_cons_of_mem _ hm)
    have hc' : '}' ∉ s := fun hm => hc (List.mem_cons_of_mem _ hm)
    cases d with
    | nil => simp at h
    | cons p d =>
      cases p with
      | char e =>
        obtain ⟨rfl, hu⟩ := List.cons.inj h
        have hs' : s.getLast? ≠ some '@' := by
          intro hl
          apply hs
          rw [List.getLast?_cons, hl]
          rfl
        obtain ⟨d', rfl, hd'⟩ := ih hu ho' hc' hs'
        exact ⟨d', rfl, hd'⟩
      | mark m =>
        rw [spell_mark] at h
        rcases written_eq m with hw | hw
        · rw [hw] at h
          obtain ⟨rfl, hu⟩ := List.cons.inj h
          -- only the delimiter with `@` has an opening brace, right behind the `@`
          cases s with
          | nil => exact absurd rfl hs
          | cons e s =>
            obtain ⟨rfl, -⟩ := List.cons.inj hu
            exact absurd List.mem_cons_self ho'
        · rw [hw] at h
          obtain ⟨rfl, -⟩ := List.cons.inj h
          exact absurd List.mem_cons_self hc

theorem brace_notMem_opener {o : Text} (ho : IsOpener o) : '{' ∉ o ∧ '}' ∉ o ∧ '+' ∉ o :=
  ⟨ho.notMem (by decide) (by decide) (by decide), ho.notMem (by decide) (by decide) (by decide),
    ho.notMem (by decide) (by decide) (by decide)⟩

theorem length_lt_of_append {f : Mark → Text} (hf : ∀ m, f m ≠ []) {a : Draft} (ha : a ≠ []) :
    (spell f d).length < (spell f (d ++ a)).length := by
  obtain ⟨p, a, rfl⟩ := List.exists_cons_of_ne_nil ha
  rw [spell_append, List.length_append]
  cases p with
  | char c =>
    rw [spell_char, List.length_cons]
    omega
  | mark m =>
    have := List.length_pos_iff.2 (hf m)
    rw [spell_mark, List.length_append]
    omega

/-- Which of two prefixes of a draft is the longer one does not depend on how marks are spelled. -/
theorem length_spell_le {f g : Mark → Text} (hf : ∀ m, f m ≠ []) {e₁ e₂ : Draft}
    (h : d₁ ++ d₂ = e₁ ++ e₂) (hLength : (spell f d₁).length ≤ (spell f e₁).length) :
    (spell g d₁).length ≤ (spell g e₁).length := by
  rcases List.append_eq_append_iff.1 h with ⟨a, rfl, -⟩ | ⟨a, rfl, -⟩
  · rw [spell_append, List.length_append]
    exact Nat.le_add_right _ _
  · by_cases ha : a = []
    · have hSame : e₁ ++ a = e₁ := by rw [ha, List.append_nil]
      exact Nat.le_of_eq (by rw [hSame])
    · have := length_lt_of_append (d := e₁) hf ha
      omega

/-- An opener is not made of parts of placeholders. -/
theorem exists_of_opener_spell {o : Text} (ho : IsOpener o)
    (h : spell Mark.placeholder d = u ++ o ++ v) :
    ∃ d₁ d₂, d = d₁ ++ (o.map .char ++ d₂) ∧ spell Mark.placeholder d₁ = u ∧
      spell Mark.placeholder d₂ = v := by
  obtain ⟨t, rfl⟩ := ho.exists_cons
  have hAt (m : Mark) : '@' ∉ m.placeholder := by cases m <;> decide
  have hPlus (m : Mark) : ∃ e r, m.placeholder = e :: r ∧ e ∉ t :=
    ⟨'+', _, rfl, fun hm => (brace_notMem_opener ho).2.2 (List.mem_cons_of_mem _ hm)⟩
  have hText : spell Mark.placeholder d = u ++ '@' :: (t ++ v) := by simpa using h
  obtain ⟨d₁, d₂, hd, hu, hv⟩ := exists_of_spell_eq_append hAt hPlus hText
  exact ⟨d₁, d₂, hd, hu, hv⟩

/-- An opener is not made of parts of delimiters either: its `@` goes on otherwise than that of a logic
block. -/
theorem exists_of_opener_written {o : Text} (ho : IsOpener o)
    (h : spell Mark.written d = u ++ o ++ v) :
    ∃ d₁ d₂, d = d₁ ++ (o.map .char ++ d₂) ∧ spell Mark.written d₁ = u ∧
      spell Mark.written d₂ = v := by
  obtain ⟨t, rfl, hNe, hAt⟩ := ho.exists_rest
  obtain ⟨hOpen, hClose, -⟩ := brace_notMem_opener ho
  have hText : spell Mark.written d = u ++ '@' :: (t ++ v) := by simpa using h
  obtain ⟨d₁, d', rfl, rfl, hd'⟩ := exists_of_spell_written_at hText
  have hStart (m : Mark) : ∃ c r, m.written = c :: r ∧ c ∉ t := by
    rcases written_eq m with hw | hw
    · exact ⟨_, _, hw, hAt⟩
    · exact ⟨_, _, hw, fun hm => hClose (List.mem_cons_of_mem _ hm)⟩
  cases d' with
  | nil => cases hd'
  | cons p d' =>
    cases p with
    | char e =>
      obtain ⟨rfl, hRest⟩ := List.cons.inj hd'
      obtain ⟨d₂, rfl⟩ := map_char_isPrefix hStart ⟨v, hRest.symm⟩
      refine ⟨d₁, d₂, rfl, rfl, ?_⟩
      have hSpell : t ++ spell Mark.written d₂ = t ++ v := by simpa using hd'
      exact List.append_cancel_left hSpell
    | mark m =>
      rw [spell_mark] at hd'
      rcases written_eq m with hw | hw
      · rw [hw] at hd'
        -- the `@` of this delimiter goes on with a brace, and no opener has one
        obtain ⟨e, t, rfl⟩ := List.exists_cons_of_ne_nil hNe
        obtain ⟨rfl, -⟩ := List.cons.inj (List.cons.inj hd').2
        exact absurd (List.mem_cons_of_mem _ List.mem_cons_self) hOpen
      · rw [hw] at hd'
        cases (List.cons.inj hd').1

/-- The first opener of the template is the first one with the marks as placeholders, since no
placeholder has a part of one. -/
theorem cutOpener?_spell {o rest : Text} {d' : Draft} (ho : IsOpener o)
    (hCut : cutOpener? (spell Mark.written (d₀ ++ (o.map .char ++ d'))) =
      some (spell Mark.written d₀, o, rest)) :
    cutOpener? (spell Mark.placeholder (d₀ ++ (o.map .char ++ d'))) =
      some (spell Mark.placeholder d₀, o, spell Mark.placeholder d') := by
  have hText : spell Mark.placeholder (d₀ ++ (o.map .char ++ d')) =
      spell Mark.placeholder d₀ ++ o ++ spell Mark.placeholder d' := by simp
  rw [hText]
  apply cutOpener?_append ho
  intro u o' v ho' hu
  obtain ⟨e₁, e₂, he, rfl, rfl⟩ := exists_of_opener_spell ho' (hText.trans hu)
  have hWritten : spell Mark.written (d₀ ++ (o.map .char ++ d')) =
      spell Mark.written e₁ ++ o' ++ spell Mark.written e₂ := by
    rw [he]
    simp
  have hFirst := length_le_of_cutOpener? hCut ho' hWritten
  -- first in the template is first in the draft, whatever the marks are spelled as
  exact length_spell_le Mark.written_ne_nil he hFirst

theorem cutOpener?_spell_eq_none (h : cutOpener? (spell Mark.written d) = none) :
    cutOpener? (spell Mark.placeholder d) = none := by
  rw [cutOpener?_eq_none] at h ⊢
  rintro o ho ⟨u, v, hu⟩
  obtain ⟨e₁, e₂, rfl, -, -⟩ := exists_of_opener_spell ho hu.symm
  exact h o ho ⟨spell Mark.written e₁, spell Mark.written e₂, by simp⟩

theorem exists_of_cutOpener?_spell {before o headerText body : Text}
    (hCut : cutOpener? (spell Mark.written d) = some (before, o, headerText ++ '{' :: body))
    (hBrace : '{' ∉ headerText) (hCloser : '}' ∉ headerText)
    (hLast : headerText.getLast? ≠ some '@') :
    ∃ d₀ d', d = d₀ ++ (o.map .char ++ (headerText.map .char ++ .char '{' :: d')) ∧
      spell Mark.written d₀ = before ∧ spell Mark.written d' = body := by
  have ho := isOpener_of_cutOpener? hCut
  obtain ⟨hOpen, hClose, -⟩ := brace_notMem_opener ho
  obtain ⟨t, ht⟩ := ho.exists_cons
  obtain ⟨r, hr⟩ := ho.exists_concat
  have hText : spell Mark.written d = before ++ '@' :: (t ++ headerText ++ '{' :: body) := by
    rw [cutOpener?_eq_some hCut, ht]
    simp
  obtain ⟨d₀, d₁, rfl, rfl, hd₁⟩ := exists_of_spell_written_at hText
  have hLoop : spell Mark.written d₁ = (o ++ headerText) ++ '{' :: body := by
    rw [hd₁, ht]
    simp
  have hEnd : (o ++ headerText).getLast? ≠ some '@' := by
    cases headerText with
    | nil => simp [hr]
    | cons c headerText =>
      rw [List.getLast?_append, Option.or_of_isSome (by simp)]
      exact hLast
  obtain ⟨d', rfl, hd'⟩ := exists_of_spell_written_brace hLoop (by simp [hOpen, hBrace])
    (by simp [hClose, hCloser]) hEnd
  exact ⟨d₀, d', by simp, rfl, hd'⟩

end RazorVash.Draft
