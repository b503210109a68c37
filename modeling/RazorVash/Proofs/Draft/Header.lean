import RazorVash.Proofs.Draft.Basic
import RazorVash.Proofs.Loop.Header

namespace RazorVash.Draft

variable {f : Mark → Text} {d h : Draft} {s t u v : Text} {c e : Char}

theorem spell_reverse : (spell f d).reverse = spell (fun m => (f m).reverse) d.reverse := by
  induction d with
  | nil => rfl
  | cons p d ih =>
    rw [spell_cons, List.reverse_append, ih, List.reverse_cons, spell_append]
    cases p with
    | char c => rfl
    | mark m => simp [spellPiece]

theorem map_char_isSuffix (hf : ∀ m, ∃ t c, f m = t ++ [c] ∧ c ∉ s) (h : s <:+ spell f d) :
    s.map .char <:+ d := by
  have hReverse : s.reverse <+: spell (fun m => (f m).reverse) d.reverse := by
    rw [← spell_reverse, List.reverse_prefix]
    exact h
  have hHead (m : Mark) : ∃ c t, (f m).reverse = c :: t ∧ c ∉ s.reverse := by
    obtain ⟨t, c, hm, hc⟩ := hf m
    exact ⟨c, t.reverse, by simp [hm], by simpa using hc⟩
  have := map_char_isPrefix hHead hReverse
  rwa [List.map_reverse, List.reverse_prefix] at this

theorem map_char_isSuffix_placeholder (hs : '+' ∉ s) (h : s <:+ spell Mark.placeholder d) :
    s.map .char <:+ d :=
  map_char_isSuffix
    (fun m => ⟨'+' :: '+' :: (m.word ++ ['+']), '+', by simp [Mark.placeholder], hs⟩) h

theorem map_char_isPrefix_placeholder (hs : '+' ∉ s) (h : s <+: spell Mark.placeholder d) :
    s.map .char <+: d :=
  map_char_isPrefix (fun _ => ⟨'+', _, rfl, hs⟩) h

/-- What stands between two characters that no mark is spelled with is a part of the draft. -/
theorem exists_infix_of_spell_eq (hc : ∀ m, c ∉ f m) (he : ∀ m, e ∉ f m)
    (h : spell f d = u ++ c :: (t ++ e :: v)) : ∃ d', d' <:+: d ∧ spell f d' = t := by
  obtain ⟨d₁, d₂, rfl, -, hd₂⟩ := exists_of_spell_eq hc h
  obtain ⟨d', d₃, rfl, hd', -⟩ := exists_of_spell_eq he hd₂
  exact ⟨d', ⟨d₁ ++ [.char c], .char e :: d₃, by simp⟩, hd'⟩

theorem notMem_placeholder {m : Mark} (h : isBlank c ∨ c ∈ ['n', 'i', ')']) : c ∉ m.placeholder := by
  have hAll : m.placeholder.all (fun c => !(isBlank c || c ∈ ['n', 'i', ')'])) := by
    cases m <;> decide
  intro hm
  have hNot := List.all_eq_true.1 hAll c hm
  simp only [Bool.not_eq_true', Bool.or_eq_false_iff, decide_eq_false_iff_not] at hNot
  rcases h with h | h
  · rw [hNot.1] at h
    cases h
  · exact hNot.2 h

/-- What a loop's call takes from its header. -/
structure Parsed (h it : Draft) (name : Text) : Prop where
  iterable : it <:+: h
  name_eq : name = LoopHeader.defaultVariable ∨
    name.map .char <:+: h ∧ LoopHeader.isVariableName name

theorem exists_parsed {iterable : Text}
    (hp : (LoopHeader.parse (spell Mark.placeholder h)).2 = .ok iterable) :
    ∃ it, spell Mark.placeholder it = iterable ∧
      Parsed h it (LoopHeader.parse (spell Mark.placeholder h)).1.1 := by
  obtain ⟨u, c, e, v, hText, hc, he⟩ := LoopHeader.exists_around_iterable hp
  obtain ⟨it, hInfix, hIterable⟩ := exists_infix_of_spell_eq
    (fun m => notMem_placeholder (hc.elim (fun hc => .inr (by simp [hc])) .inl))
    (fun m => notMem_placeholder (he.elim (fun he => .inr (by simp [he])) .inl)) hText
  refine ⟨it, hIterable, hInfix, (LoopHeader.variable_followed hp).imp_right ?_⟩
  rintro ⟨a, c, v, hText, hc, hName⟩
  have hChar (m : Mark) : c ∉ m.placeholder := by
    rcases hc with hc | rfl | rfl
    · exact notMem_placeholder (.inl hc)
    · exact notMem_placeholder (.inr (by simp))
    · exact notMem_placeholder (.inr (by simp))
  obtain ⟨h₁, h₂, rfl, hName₁, -⟩ := exists_of_spell_eq hChar hText
  generalize (LoopHeader.parse _).1.1 = name at hName hName₁ ⊢
  have hPlus : '+' ∉ name := LoopHeader.notMem_of_isVariableName hName (by decide +kernel)
    (by decide) (by decide) (by decide)
  have hSuffix := map_char_isSuffix_placeholder hPlus ⟨a, hName₁.symm⟩
  exact ⟨List.infix_append_of_infix_left hSuffix.isInfix, hName⟩

end RazorVash.Draft
