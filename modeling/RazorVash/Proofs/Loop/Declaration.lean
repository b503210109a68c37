import RazorVash.Proofs.CSharp.Spaced
import RazorVash.Proofs.Loop.VariableName

namespace RazorVash.LoopHeader

/-- A type, a name, `in` and an expression with blanks between them, and the last closing
parenthesis with what is left behind it. -/
structure Declaration where
  indent : Text
  type : Text
  afterType : Text
  name : Text
  afterName : Text
  afterIn : Text
  expression : Text
  rest : Text
  indent_blank : indent.allBlank
  type_isName : CSharp.IsName type
  type_ne_in : type ≠ inKeyword
  afterType_ne_nil : afterType ≠ []
  afterType_blank : afterType.allBlank
  name_isName : CSharp.IsName name
  name_ne_in : name ≠ inKeyword
  afterName_ne_nil : afterName ≠ []
  afterName_blank : afterName.allBlank
  afterIn_ne_nil : afterIn ≠ []
  afterIn_blank : afterIn.allBlank
  expression_notBlank : expression.allBlank = false
  rest_last : ')' ∉ rest

def Declaration.header (d : Declaration) : Text :=
  d.indent ++ d.type ++ d.afterType ++ d.name ++ d.afterName ++ inKeyword ++ d.afterIn ++
    d.expression ++ [')'] ++ d.rest

variable {name : Text} {before words : List Text}

theorem isVariableName_of_isName (h : CSharp.IsName name) : isVariableName name := by
  cases name with
  | nil => exact h.elim
  | cons start rest =>
    refine (isVariableName_append (.inl rfl) (CSharp.isIdentifierStart_of_isNameStart h.1)).2 ?_
    exact ⟨h.1, fun c hc => CSharp.isWord_of_isNamePart (h.2 c hc)⟩

theorem iterableOf_append {b c : Text} (hc : ')' ∉ c) (hb : b.allBlank = false) :
    iterableOf (some (b ++ ')' :: c)) = .ok b.trim := by
  rcases iterableOf_some (b ++ ')' :: c) with ⟨hNone, -⟩ | ⟨b', c', hText, hc', hEq⟩
  · exact absurd (by simp) hNone
  · obtain ⟨rfl, rfl⟩ := Text.append_inj_of_notMem_right hc hc' hText
    rw [hEq, hb]
    rfl

theorem declaration_of_words (h : before.filter (fun lexeme => !lexeme.allBlank) = words)
    (hWords : ∀ w ∈ words, CSharp.IsName w) : declaration before = words := by
  have hFilter : declaration before =
      (before.filter (fun lexeme => !lexeme.allBlank)).filter (· ≠ [')']) := by
    rw [List.filter_filter, declaration]
    exact List.filter_congr fun lexeme _ => Bool.and_comm _ _
  rw [hFilter, h, List.filter_eq_self]
  intro w hw
  have hName := hWords w hw
  simp only [decide_eq_true_eq]
  rintro rfl
  exact absurd hName (by decide)

theorem exists_lexemes_of_declaration (d : Declaration) :
    ∃ before blanks tail, CSharp.lexemes d.header = before ++ inKeyword :: (blanks ++ tail) ∧
      before.filter (fun lexeme => !lexeme.allBlank) = [d.type, d.name] ∧
      Text.allBlank blanks.flatten ∧ tail.flatten = d.afterIn ++ d.expression ++ ')' :: d.rest := by
  have hSpaced : CSharp.Spaced [(d.afterType, d.name), (d.afterName, inKeyword)] := by
    simp only [CSharp.Spaced, List.forall_mem_cons]
    exact ⟨⟨d.afterType_ne_nil, d.afterType_blank, d.name_isName⟩,
      ⟨d.afterName_ne_nil, d.afterName_blank, by decide⟩, by simp⟩
  have hAfter : CSharp.BeginsBlank (d.afterIn ++ d.expression ++ ')' :: d.rest) :=
    (CSharp.beginsBlank_of_allBlank d.afterIn_ne_nil d.afterIn_blank).append.append
  have hBegins : CSharp.BeginsWith (CSharp.lexemes _) _ _ :=
    CSharp.lexemesFrom_spaced d.indent_blank d.type_isName hSpaced hAfter (.inl rfl)
  have hHeader : d.indent ++ (d.type ++ (CSharp.spell [(d.afterType, d.name),
      (d.afterName, inKeyword)] ++ (d.afterIn ++ d.expression ++ ')' :: d.rest))) = d.header := by
    simp [Declaration.header]
  rw [hHeader] at hBegins
  obtain ⟨pieces, tail, hLexemes, hPhrase, hWords⟩ := hBegins
  have hTail : tail.flatten = d.afterIn ++ d.expression ++ ')' :: d.rest := by
    have hFlatten := congrArg List.flatten hLexemes
    rw [CSharp.flatten_lexemes, List.flatten_append, hPhrase, ← hHeader] at hFlatten
    refine List.append_cancel_left (hFlatten.symm.trans ?_)
    simp only [List.append_assoc]
  -- what is not blank are the type, the name and `in`, so the lexemes part at `in`
  have hSplit : pieces.filter (fun piece => !piece.allBlank) = [d.type, d.name] ++ [inKeyword] :=
    hWords
  obtain ⟨front, back, rfl, hFront, hBack⟩ := List.filter_eq_append_iff.1 hSplit
  obtain ⟨gap, blanks, rfl, hGap, -, hBlanks⟩ := List.filter_eq_cons_iff.1 hBack
  refine ⟨front ++ gap, blanks, tail, ?_, ?_, ?_, hTail⟩
  · rw [hLexemes]
    simp
  · rw [List.filter_append, hFront, List.filter_eq_nil_iff.2 hGap, List.append_nil]
  · have hBlank := List.filter_eq_nil_iff.1 hBlanks
    rw [Text.allBlank, List.all_flatten, List.all_eq_true]
    exact fun lexeme hLexeme => by simpa [Text.allBlank] using hBlank lexeme hLexeme

/-- A header that declares its variable says the name and the expression without the blanks around
it, and nobody is warned. -/
theorem readIn_declaration (d : Declaration) (loop : Text) :
    readIn d.header loop = .ok ⟨d.name, d.expression.trim, true⟩ := by
  obtain ⟨before, blanks, tail, hLexemes, hBefore, hBlanks, hTail⟩ :=
    exists_lexemes_of_declaration d
  have hDeclaration := declaration_of_words hBefore (by simp [d.type_isName, d.name_isName])
  have hNotIn : inKeyword ∉ before := by
    intro hIn
    have hMem : inKeyword ∈ [d.type, d.name] :=
      hBefore ▸ List.mem_filter.2 ⟨hIn, by decide⟩
    simp [d.type_ne_in.symm, d.name_ne_in.symm] at hMem
  have hVariable : variableOf (declaration before) = (d.name, true) := by
    have := variableOf_concat [d.type] d.name
    rw [hDeclaration]
    simpa [isVariableName_of_isName d.name_isName] using this
  have hIterable : iterableOf (some (blanks ++ tail).flatten) = .ok d.expression.trim := by
    rw [List.flatten_append, hTail, ← List.append_assoc, ← List.append_assoc,
      iterableOf_append d.rest_last, List.append_assoc, Text.trim_append hBlanks,
      Text.trim_append d.afterIn_blank]
    have hExpression := d.expression_notBlank
    simp only [Text.allBlank, List.all_append, Bool.and_eq_false_iff] at hExpression ⊢
    exact .inr hExpression
  have hParse := parse_of_lexemes hLexemes hNotIn
  rw [hVariable, hIterable] at hParse
  exact read_of_parse (h := ⟨d.name, d.expression.trim, true⟩) hParse

/-- Words that are read as a pair, in front of what looks like a call of a method `in`. The
expression has strings, a comment, brackets and further words `in` in it. -/
theorem readIn_declaration_file_record :
    ∃ d : Declaration,
      d.header = "\n\tfile\u3000record\n in (a in b) + \" in)\" /* ) */ \n) \x7b".toList ∧
        readIn d.header [] =
          .ok ⟨"record".toList, "(a in b) + \" in)\" /* ) */".toList, true⟩ := by
  let d : Declaration := {
    indent := "\n\t".toList
    type := "file".toList
    afterType := "\u3000".toList
    name := "record".toList
    afterName := "\n ".toList
    afterIn := " ".toList
    expression := "(a in b) + \" in)\" /* ) */ \n".toList
    rest := " \x7b".toList
    indent_blank := by decide
    type_isName := by decide
    type_ne_in := by decide
    afterType_ne_nil := by decide
    afterType_blank := by decide
    name_isName := by decide
    name_ne_in := by decide
    afterName_ne_nil := by decide
    afterName_blank := by decide
    afterIn_ne_nil := by decide
    afterIn_blank := by decide
    expression_notBlank := by decide
    rest_last := by decide }
  have hTrim : d.expression.trim = "(a in b) + \" in)\" /* ) */".toList := by decide +kernel
  exact ⟨d, by decide +kernel, hTrim ▸ readIn_declaration d []⟩

end RazorVash.LoopHeader
