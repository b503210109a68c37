import RazorVash.Loop.Note
import RazorVash.Proofs.Text.Substitution

namespace RazorVash

namespace LoopHeader

variable {header source iterable name : Text} {before lexemes : List Text} {h : LoopHeader}

theorem eq_of_splitAtIn {after : List Text} (h : splitAtIn lexemes = (before, some after)) :
    lexemes = before ++ inKeyword :: after := by
  induction lexemes generalizing before with
  | nil => cases h
  | cons lexeme rest ih =>
    rw [splitAtIn] at h
    split at h
    · next hl =>
      obtain ⟨rfl, ha⟩ := Prod.mk.inj h
      rw [hl, Option.some.inj ha, List.nil_append]
    · obtain ⟨rfl, ha⟩ := Prod.mk.inj h
      rw [List.cons_append, ← ih (Prod.ext rfl ha)]

theorem subset_of_splitAtIn (lexemes : List Text) : (splitAtIn lexemes).1 ⊆ lexemes := by
  induction lexemes with
  | nil => exact List.Subset.refl _
  | cons lexeme rest ih =>
    rw [splitAtIn]
    split
    · exact List.nil_subset _
    · exact List.cons_subset_cons _ ih

theorem iterableOf_some (text : Text) :
    (')' ∉ text ∧ iterableOf (some text) = .error .missingParenthesis) ∨
      ∃ b c, text = b ++ ')' :: c ∧ ')' ∉ c ∧
        iterableOf (some text) = if b.allBlank then .error .missingIterable else .ok b.trim := by
  rw [iterableOf]
  cases hCut : Text.cutLast? [')'] text with
  | none =>
    refine .inl ⟨fun hm => ?_, rfl⟩
    obtain ⟨b, c, rfl⟩ := List.append_of_mem hm
    exact Text.cutLast?_eq_none.1 hCut ⟨b, c, by simp⟩
  | some s =>
    obtain ⟨b, c⟩ := s
    exact .inr ⟨b, c, by simpa using Text.cutLast?_eq_some hCut, Text.notMem_of_cutLast? hCut, rfl⟩

/-- The iterable is what stands between `in` and the last closing parenthesis, without the blanks
around it. -/
theorem exists_of_parse (h : (parse header).2 = .ok iterable) :
    ∃ a b c, header = a ++ inKeyword ++ b ++ [')'] ++ c ∧ ')' ∉ c ∧ b.allBlank = false ∧
      iterable = b.trim := by
  obtain ⟨before, after, hs⟩ : ∃ before after, splitAtIn (CSharp.lexemes header) = (before, after) :=
    ⟨_, _, rfl⟩
  have hi : iterableOf (after.map List.flatten) = .ok iterable := by
    rw [← h, parse, hs]
  cases after with
  | none => cases hi
  | some lexemes =>
    rw [Option.map_some] at hi
    rcases iterableOf_some lexemes.flatten with ⟨-, hError⟩ | ⟨b, c, hText, hc, hEq⟩
    · rw [hError] at hi
      cases hi
    · rw [hEq] at hi
      split at hi
      · cases hi
      · next hb =>
        refine ⟨before.flatten, b, c, ?_, hc, by simpa using hb, (Except.ok.inj hi).symm⟩
        rw [← CSharp.flatten_lexemes header, eq_of_splitAtIn hs]
        simp [hText]

/-- The iterable stands between `in` or a blank and a blank or the closing parenthesis. -/
theorem exists_around_iterable (h : (parse header).2 = .ok iterable) :
    ∃ u c e v, header = u ++ c :: (iterable ++ e :: v) ∧ (c = 'n' ∨ isBlank c) ∧
      (e = ')' ∨ isBlank e) := by
  obtain ⟨a, b, c, rfl, -, -, rfl⟩ := exists_of_parse h
  obtain ⟨l, r, hb, hl, hr⟩ := b.exists_eq_trim
  generalize b.trim = t at hb ⊢
  subst hb
  have hLeft : ∃ u c, a ++ 'i' :: 'n' :: l = u ++ [c] ∧ (c = 'n' ∨ isBlank c) := by
    rcases List.eq_nil_or_concat l with rfl | ⟨l, d, rfl⟩
    · exact ⟨a ++ ['i'], 'n', by simp, .inl rfl⟩
    · exact ⟨a ++ 'i' :: 'n' :: l, d, by simp, .inr (hl d (by simp))⟩
  have hRight : ∃ e v, r ++ ')' :: c = e :: v ∧ (e = ')' ∨ isBlank e) := by
    cases r with
    | nil => exact ⟨')', c, rfl, .inl rfl⟩
    | cons e r => exact ⟨e, r ++ ')' :: c, rfl, .inr (hr e List.mem_cons_self)⟩
  obtain ⟨u, d, hu, hd⟩ := hLeft
  obtain ⟨e, v, hv, he⟩ := hRight
  refine ⟨u, d, e, v, ?_, hd, he⟩
  have hSplit : a ++ inKeyword ++ (l ++ t ++ r) ++ [')'] ++ c =
      (a ++ 'i' :: 'n' :: l) ++ (t ++ (r ++ ')' :: c)) := by simp [inKeyword]
  rw [hSplit, hu, hv]
  simp

theorem iterable_infix (h : (parse header).2 = .ok iterable) : iterable <:+: header := by
  obtain ⟨a, b, c, rfl, -, -, rfl⟩ := exists_of_parse h
  exact b.trim_infix.trans ⟨a ++ inKeyword, [')'] ++ c, by simp⟩

theorem variableOf_concat (l : List Text) (name : Text) :
    variableOf (l ++ [name]) =
      if isVariableName name then (name, decide (l ≠ [])) else (defaultVariable, false) := by
  cases l with
  | nil =>
    rw [List.nil_append, variableOf]
    split <;> rfl
  | cons first l =>
    obtain ⟨next, more, h⟩ := List.exists_cons_of_ne_nil (List.append_ne_nil_of_right_ne_nil l
      (List.cons_ne_nil name []))
    have hLast : (next :: more).getLast (List.cons_ne_nil next more) = name := by
      simp only [← h, List.getLast_concat]
    rw [List.cons_append, h, variableOf, hLast]
    simp

theorem variableOf_eq (declaration : List Text) :
    variableOf declaration = (defaultVariable, false) ∨
      ∃ l, declaration = l ++ [(variableOf declaration).1] ∧
        isVariableName (variableOf declaration).1 := by
  rcases List.eq_nil_or_concat declaration with rfl | ⟨l, name, rfl⟩
  · exact .inl rfl
  · rw [List.concat_eq_append, variableOf_concat]
    split
    · next hn => exact .inr ⟨l, rfl, hn⟩
    · exact .inl rfl

theorem variableOf_declaration (lexemes : List Text) :
    variableOf (declaration lexemes) = (defaultVariable, false) ∨
      (variableOf (declaration lexemes)).1 ∈ lexemes ∧
        isVariableName (variableOf (declaration lexemes)).1 := by
  refine (variableOf_eq _).imp_right fun ⟨l, hl, hName⟩ => ⟨?_, hName⟩
  have hMem := hl ▸ List.mem_append_right l (List.mem_singleton_self _)
  exact (List.mem_filter.1 hMem).1

theorem variable_eq (header : Text) :
    (parse header).1.1 = defaultVariable ∨
      (parse header).1.1 <:+: header ∧ isVariableName (parse header).1.1 := by
  have hVariable : (parse header).1 =
      variableOf (declaration (splitAtIn (CSharp.lexemes header)).1) := rfl
  rw [hVariable]
  refine (variableOf_declaration _).imp (congrArg Prod.fst) fun ⟨hMem, hName⟩ => ⟨?_, hName⟩
  have := List.infix_of_mem_flatten (subset_of_splitAtIn _ hMem)
  rwa [CSharp.flatten_lexemes] at this

theorem exists_head_of_skipped {skipped : List Text}
    (h : ∀ lexeme ∈ skipped, ¬ (!Text.allBlank lexeme && decide (lexeme ≠ [')'])))
    (rest : Text) :
    ∃ c v, skipped.flatten ++ inKeyword ++ rest = c :: v ∧ (isBlank c ∨ c = ')' ∨ c = 'i') := by
  cases hs : skipped.flatten with
  | nil => exact ⟨'i', 'n' :: rest, rfl, .inr (.inr rfl)⟩
  | cons c v =>
    refine ⟨c, v ++ inKeyword ++ rest, rfl, ?_⟩
    have hc : c ∈ skipped.flatten := hs ▸ List.mem_cons_self
    obtain ⟨lexeme, hl, hcl⟩ := List.mem_flatten.1 hc
    have hSkipped : Text.allBlank lexeme = true ∨ lexeme = [')'] := by
      have := h lexeme hl
      by_cases hp : lexeme = [')']
      · exact .inr hp
      · simpa [hp] using this
    rcases hSkipped with hBlank | rfl
    · exact .inl (List.all_eq_true.1 hBlank c hcl)
    · exact .inr (.inl (List.mem_singleton.1 hcl))

/-- A variable that is not the default one is the last lexeme before `in` that counts. -/
theorem variable_followed (h : (parse header).2 = .ok iterable) :
    (parse header).1.1 = defaultVariable ∨
      ∃ a c v, header = a ++ (parse header).1.1 ++ c :: v ∧
        (isBlank c ∨ c = ')' ∨ c = 'i') ∧ isVariableName (parse header).1.1 := by
  obtain ⟨before, after, hs⟩ : ∃ before after, splitAtIn (CSharp.lexemes header) = (before, after) :=
    ⟨_, _, rfl⟩
  have hVariable : (parse header).1 = variableOf (declaration before) := by rw [parse, hs]
  cases after with
  | none =>
    rw [parse, hs] at h
    cases h
  | some lexemes =>
    rw [hVariable]
    refine (variableOf_eq (declaration before)).imp (congrArg Prod.fst) ?_
    rintro ⟨l, hl, hName⟩
    generalize (variableOf (declaration before)).1 = name at hl hName ⊢
    obtain ⟨l₁, l₂, hBefore, -, hLast⟩ := List.filter_eq_append_iff.1 hl
    obtain ⟨l₃, l₄, rfl, -, -, hRest⟩ := List.filter_eq_cons_iff.1 hLast
    obtain ⟨c, v, hv, hc⟩ :=
      exists_head_of_skipped (List.filter_eq_nil_iff.1 hRest) lexemes.flatten
    refine ⟨(l₁ ++ l₃).flatten, c, v, ?_, hc, hName⟩
    rw [← hv, ← CSharp.flatten_lexemes header, eq_of_splitAtIn hs, hBefore]
    simp

theorem notMem_of_isVariableName {c : Char} (hn : isVariableName name) (hw : isWord c = false)
    (ha : c ≠ '@') (hl : c.isAlpha = false) (hu : c ≠ '_') : c ∉ name := by
  have hStart (d : Char) (h : (d.isAlpha || d = '_') = true) : c ≠ d := by
    rintro rfl
    simp [hl, hu] at h
  have hRest (rest : Text) (h : rest.all isWord = true) : c ∉ rest := by
    intro hm
    rw [List.all_eq_true.1 h c hm] at hw
    cases hw
  unfold isVariableName at hn
  split at hn
  · next d rest =>
    obtain ⟨hd, hr⟩ := Bool.and_eq_true_iff.1 hn
    simp [ha, hStart d hd, hRest rest hr]
  · next d rest _ =>
    obtain ⟨hd, hr⟩ := Bool.and_eq_true_iff.1 hn
    simp [hStart d hd, hRest rest hr]
  · cases hn

theorem read_of_parse (hp : parse header = ((h.name, h.declared), .ok h.iterable)) :
    read header source =
      ⟨if h.declared then [] else [.undeclared h.name source], .ok h⟩ := by
  rw [read, hp]
  cases h with
  | mk name iterable declared => cases declared <;> rfl

theorem read_of_parse_error {declared : Bool} {fault : HeaderFault}
    (hp : parse header = ((name, declared), .error fault)) :
    read header source =
      ⟨if declared then [] else [.undeclared name source], .error (.header fault source)⟩ := by
  rw [read, hp]
  cases declared <;> rfl

theorem eq_of_read (hr : (read header source).result = .ok h) :
    (parse header).1 = (h.name, h.declared) ∧ (parse header).2 = .ok h.iterable := by
  rcases hp : parse header with ⟨⟨name, declared⟩, iterable⟩
  rw [read, hp] at hr
  cases iterable with
  | error fault => cases declared <;> cases hr
  | ok iterable => cases declared <;> cases hr <;> exact ⟨rfl, rfl⟩

end LoopHeader

end RazorVash
