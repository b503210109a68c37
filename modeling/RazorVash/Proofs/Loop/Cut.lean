import RazorVash.Proofs.Loop.Header

namespace RazorVash

namespace CSharp

/-- Lexemes with the places at which they begin, the first one at `place`. -/
def placedFrom (place : Nat) : List Text → List (Nat × Text)
  | [] => []
  | lexeme :: lexemes => (place, lexeme) :: placedFrom (place + lexeme.length) lexemes

def placedLexemes (text : Text) : List (Nat × Text) := placedFrom 0 (lexemes text)

variable {place n : Nat} {keyword lexeme text : Text} {before after lexemes : List Text}

theorem map_snd_placedFrom (place : Nat) (lexemes : List Text) :
    (placedFrom place lexemes).map Prod.snd = lexemes := by
  induction lexemes generalizing place with
  | nil => rfl
  | cons lexeme lexemes ih => rw [placedFrom, List.map_cons, ih]

theorem isPrefix_of_mem_placedFrom (h : (n, lexeme) ∈ placedFrom place lexemes) :
    place ≤ n ∧ lexeme <+: lexemes.flatten.drop (n - place) := by
  induction lexemes generalizing place with
  | nil => cases h
  | cons first lexemes ih =>
    rcases List.mem_cons.1 h with hFirst | hRest
    · obtain ⟨rfl, rfl⟩ := Prod.mk.inj hFirst
      exact ⟨Nat.le_refl _, lexemes.flatten, by simp⟩
    · obtain ⟨hPlace, hPrefix⟩ := ih hRest
      refine ⟨by omega, ?_⟩
      rwa [List.flatten_cons, List.drop_append, List.drop_of_length_le (by omega), List.nil_append,
        Nat.sub_sub]

theorem isPrefix_of_mem_placedLexemes (h : (n, lexeme) ∈ placedLexemes text) :
    lexeme <+: text.drop n := by
  have := (isPrefix_of_mem_placedFrom h).2
  rwa [flatten_lexemes, Nat.sub_zero] at this

theorem find?_placedFrom (h : keyword ∉ before) :
    (placedFrom place (before ++ keyword :: after)).find? (fun lexeme => lexeme.2 = keyword) =
      some (place + before.flatten.length, keyword) := by
  induction before generalizing place with
  | nil => simp [placedFrom]
  | cons lexeme before ih =>
    rw [List.mem_cons, not_or] at h
    rw [List.cons_append, placedFrom, List.find?_cons_of_neg (by simpa using Ne.symm h.1), ih h.2,
      List.flatten_cons, List.length_append, Nat.add_assoc]

end CSharp

namespace LoopHeader

/-- The first lexeme `in` of the header stands between the two texts. -/
structure FirstIn (header before after : Text) : Prop where
  header_eq : header = before ++ inKeyword ++ after
  first : (CSharp.placedLexemes header).find? (fun lexeme => lexeme.2 = inKeyword) =
    some (before.length, inKeyword)

def HasNameForm (name : Text) : Prop :=
  ∃ sigil start rest, name = sigil ++ start :: rest ∧ (sigil = [] ∨ sigil = ['@']) ∧
    (start.isAlpha ∨ start = '_') ∧ ∀ c ∈ rest, isWord c

/-- What a header says is cut out of it: the iterable is `b` without the blanks around it, and the
variable stands in `a` or is the default one. -/
structure CutOut (header a b c : Text) (h : LoopHeader) : Prop where
  firstIn : FirstIn header a (b ++ ')' :: c)
  last : ')' ∉ c
  iterable_eq : h.iterable = b.trim
  iterable_ne_nil : h.iterable ≠ []
  name_ne_nil : h.name ≠ []
  name_form : HasNameForm h.name
  name_infix : h.name <:+: a ∨ h.name = defaultVariable
  declared_infix : h.declared → h.name <:+: a

/-- What is missing in a header. -/
def Lacks (header : Text) : HeaderFault → Prop
  | .missingIn => inKeyword ∉ CSharp.lexemes header
  | .missingParenthesis => ∃ before after, FirstIn header before after ∧ ')' ∉ after
  | .missingIterable => ∃ a b c, FirstIn header a (b ++ ')' :: c) ∧ ')' ∉ c ∧ b.allBlank

variable {header loop name text iterable : Text} {before after lexemes : List Text} {h : LoopHeader}
  {fault : HeaderFault}

/-! ### The first `in` -/

theorem splitAtIn_of_notMem (h : inKeyword ∉ lexemes) : splitAtIn lexemes = (lexemes, none) := by
  induction lexemes with
  | nil => rfl
  | cons lexeme lexemes ih =>
    rw [List.mem_cons, not_or] at h
    rw [splitAtIn, if_neg (Ne.symm h.1), ih h.2]

theorem splitAtIn_append (h : inKeyword ∉ before) :
    splitAtIn (before ++ inKeyword :: after) = (before, some after) := by
  induction before with
  | nil => rw [List.nil_append, splitAtIn, if_pos rfl]
  | cons lexeme before ih =>
    rw [List.mem_cons, not_or] at h
    rw [List.cons_append, splitAtIn, if_neg (Ne.symm h.1), ih h.2]

theorem FirstIn.of_lexemes (hLexemes : CSharp.lexemes header = before ++ inKeyword :: after)
    (h : inKeyword ∉ before) : FirstIn header before.flatten after.flatten where
  header_eq := by
    rw [← CSharp.flatten_lexemes header, hLexemes]
    simp
  first := by
    rw [CSharp.placedLexemes, hLexemes, CSharp.find?_placedFrom h, Nat.zero_add]

theorem FirstIn.mem {a b : Text} (h : FirstIn header a b) : inKeyword ∈ CSharp.lexemes header := by
  have hMem := List.mem_map_of_mem (f := Prod.snd) (List.mem_of_find?_eq_some h.first)
  rwa [CSharp.placedLexemes, CSharp.map_snd_placedFrom] at hMem

theorem FirstIn.unique {a a' b b' : Text} (h : FirstIn header a b) (h' : FirstIn header a' b') :
    a = a' ∧ b = b' := by
  have hLength : a.length = a'.length := by
    simpa using h.first.symm.trans h'.first
  have hSame : a ++ (inKeyword ++ b) = a' ++ (inKeyword ++ b') := by
    rw [← List.append_assoc, ← List.append_assoc, ← h.header_eq, ← h'.header_eq]
  obtain ⟨hBefore, hAfter⟩ := List.append_inj hSame hLength
  exact ⟨hBefore, List.append_cancel_left hAfter⟩

theorem parse_of_lexemes (hLexemes : CSharp.lexemes header = before ++ inKeyword :: after)
    (h : inKeyword ∉ before) :
    parse header = (variableOf (declaration before), iterableOf (some after.flatten)) := by
  rw [parse, hLexemes, splitAtIn_append h]
  rfl

theorem parse_of_notMem (h : inKeyword ∉ CSharp.lexemes header) :
    parse header = (variableOf (declaration (CSharp.lexemes header)), .error .missingIn) := by
  rw [parse, splitAtIn_of_notMem h]
  rfl

/-! ### What is missing -/

theorem lacks_of_firstIn {a rest : Text} (h : FirstIn header a rest) :
    Lacks header fault ↔ iterableOf (some rest) = .error fault := by
  have hFirst {a' rest' : Text} (h' : FirstIn header a' rest') : rest' = rest :=
    (h'.unique h).2
  rcases iterableOf_some rest with ⟨hNone, hEq⟩ | ⟨b, c, rfl, hc, hEq⟩
  · rw [hEq]
    cases fault with
    | missingIn => exact iff_of_false (fun hNot => hNot h.mem) (by simp)
    | missingParenthesis => exact iff_of_true ⟨a, rest, h, hNone⟩ rfl
    | missingIterable =>
      refine iff_of_false ?_ (by simp)
      rintro ⟨a', b, c, h', -⟩
      exact hNone (by simp [← hFirst h'])
  · rw [hEq]
    cases fault with
    | missingIn => exact iff_of_false (fun hNot => hNot h.mem) (by split <;> simp)
    | missingParenthesis =>
      refine iff_of_false ?_ (by split <;> simp)
      rintro ⟨a', rest', h', hNone⟩
      exact hNone (by simp [hFirst h'])
    | missingIterable =>
      constructor
      · rintro ⟨a', b', c', h', hc', hb'⟩
        obtain ⟨rfl, rfl⟩ := Text.append_inj_of_notMem_right hc' hc (hFirst h')
        rw [if_pos hb']
      · intro hError
        split at hError
        · next hb => exact ⟨a, b, c, h, hc, hb⟩
        · cases hError

theorem parse_snd_eq_error_iff : (parse header).2 = .error fault ↔ Lacks header fault := by
  by_cases hIn : inKeyword ∈ CSharp.lexemes header
  · obtain ⟨before, after, hLexemes, hBefore⟩ := List.eq_append_cons_of_mem hIn
    rw [parse_of_lexemes hLexemes hBefore, lacks_of_firstIn (.of_lexemes hLexemes hBefore)]
  · rw [parse_of_notMem hIn]
    cases fault with
    | missingIn => exact iff_of_true rfl hIn
    | missingParenthesis =>
      refine iff_of_false (by simp) ?_
      rintro ⟨a, rest, h, -⟩
      exact hIn h.mem
    | missingIterable =>
      refine iff_of_false (by simp) ?_
      rintro ⟨a, b, c, h, -⟩
      exact hIn h.mem

/-! ### What is cut out -/

theorem hasNameForm_of_isVariableName (h : isVariableName name) : HasNameForm name := by
  unfold isVariableName at h
  split at h
  · next start rest =>
    obtain ⟨hStart, hRest⟩ := Bool.and_eq_true_iff.1 h
    exact ⟨['@'], start, rest, rfl, .inr rfl, by simpa using hStart, List.all_eq_true.1 hRest⟩
  · next start rest _ =>
    obtain ⟨hStart, hRest⟩ := Bool.and_eq_true_iff.1 h
    exact ⟨[], start, rest, rfl, .inl rfl, by simpa using hStart, List.all_eq_true.1 hRest⟩
  · cases h

theorem HasNameForm.ne_nil (h : HasNameForm name) : name ≠ [] := by
  obtain ⟨sigil, start, rest, rfl, -⟩ := h
  exact List.append_ne_nil_of_right_ne_nil sigil (List.cons_ne_nil start rest)

theorem variable_verbatim (before : List Text) :
    HasNameForm (variableOf (declaration before)).1 ∧
      ((variableOf (declaration before)).1 <:+: before.flatten ∨
        (variableOf (declaration before)).1 = defaultVariable) ∧
      ((variableOf (declaration before)).2 →
        (variableOf (declaration before)).1 <:+: before.flatten) := by
  rcases variableOf_declaration before with hDefault | ⟨hMem, hName⟩
  · rw [hDefault]
    exact ⟨hasNameForm_of_isVariableName rfl, .inr rfl, fun h => nomatch h⟩
  · have hInfix := List.infix_of_mem_flatten hMem
    exact ⟨hasNameForm_of_isVariableName hName, .inl hInfix, fun _ => hInfix⟩

theorem cutOut_of_parse (hp : parse header = ((h.name, h.declared), .ok h.iterable)) :
    ∃ a b c, CutOut header a b c h := by
  by_cases hIn : inKeyword ∈ CSharp.lexemes header
  · obtain ⟨before, after, hLexemes, hBefore⟩ := List.eq_append_cons_of_mem hIn
    have hFirst := FirstIn.of_lexemes hLexemes hBefore
    have hVerbatim := variable_verbatim before
    rw [parse_of_lexemes hLexemes hBefore] at hp
    obtain ⟨hVariable, hIterable⟩ := Prod.mk.inj hp
    rw [hVariable] at hVerbatim
    obtain ⟨hForm, hName, hDeclared⟩ := hVerbatim
    rcases iterableOf_some after.flatten with ⟨-, hEq⟩ | ⟨b, c, hAfter, hc, hEq⟩
    · rw [hEq] at hIterable
      cases hIterable
    · rw [hEq] at hIterable
      rw [hAfter] at hFirst
      split at hIterable
      · cases hIterable
      · next hb =>
        have hTrim := (Except.ok.inj hIterable).symm
        exact ⟨_, b, c, hFirst, hc, hTrim, hTrim ▸ Text.trim_ne_nil (by simpa using hb),
          hForm.ne_nil, hForm, hName, hDeclared⟩
  · rw [parse_of_notMem hIn] at hp
    cases (Prod.mk.inj hp).2

/-- Every lexeme stands in the header at its place. A header that is read is cut at its first `in`
and its last closing parenthesis, and nothing in it is changed. One that is refused lacks exactly
what the error says, and the error shows the loop. -/
theorem readIn_verbatim (header loop : Text) :
    (∀ lexeme ∈ CSharp.placedLexemes header, lexeme.2 <+: header.drop lexeme.1) ∧
    (∀ h, (readIn header loop).result = .ok h → ∃ a b c, CutOut header a b c h) ∧
      ∀ e, (readIn header loop).result = .error e ↔
        ∃ fault, Lacks header fault ∧ e = .header fault (if loop = [] then header else loop) := by
  rw [readIn]
  generalize (if loop = [] then header else loop) = source
  refine ⟨fun _ hMem => CSharp.isPrefix_of_mem_placedLexemes hMem, fun h hRead => ?_, fun e => ?_⟩
  · obtain ⟨hVariable, hIterable⟩ := eq_of_read hRead
    exact cutOut_of_parse (Prod.ext hVariable hIterable)
  · rcases hp : parse header with ⟨⟨name, declared⟩, fault | iterable⟩
    · have hLacks (other : HeaderFault) : Lacks header other ↔ fault = other := by
        rw [← parse_snd_eq_error_iff, hp, Except.error.injEq]
      rw [read_of_parse_error hp]
      simp [hLacks, eq_comm]
    · have hLacks (other : HeaderFault) : ¬ Lacks header other := by
        rw [← parse_snd_eq_error_iff, hp]
        simp
      have hRead : read header source =
          ⟨if declared then [] else [.undeclared name source], .ok ⟨name, iterable, declared⟩⟩ :=
        read_of_parse (h := ⟨name, iterable, declared⟩) hp
      rw [hRead]
      simp [hLacks]

end LoopHeader

end RazorVash
