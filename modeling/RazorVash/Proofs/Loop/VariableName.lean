import RazorVash.Proofs.CSharp.Identifier
import RazorVash.Proofs.Loop.Cut
import RazorVash.Proofs.Outcome

namespace RazorVash.LoopHeader

/-- The lexemes before the first `in` that count are at least two, and the last is an identifier. -/
structure Declares (header name : Text) : Prop where
  last : (declaration (splitAtIn (CSharp.lexemes header)).1).getLast? = some name
  two : 2 ≤ (declaration (splitAtIn (CSharp.lexemes header)).1).length
  identifier : CSharp.IsIdentifier name

/-- What a header declares is the variable of the loop, and nobody is warned. -/
def KeepsDeclared (header loop : Text) : Prop :=
  ∀ name h, Declares header name → (readIn header loop).result = .ok h →
    h.name = name ∧ h.declared ∧ (readIn header loop).warnings = []

/-- The first character but for an `@` is beyond ASCII, or one of those that an identifier may have
further on is no word character. -/
def IsForeign (name : Text) : Prop :=
  (∃ c ∈ name.find? (· ≠ '@'), 128 ≤ c.val) ∨
    ∃ c ∈ name, CSharp.identifierExtendPoints.covers c ∧ isWord c = false

variable {header loop name : Text} {c : Char} {h : LoopHeader}

theorem isNameStart_iff (h : CSharp.isIdentifierStart c) :
    CSharp.isNameStart c ↔ c.val < 128 := by
  constructor
  · exact fun hName => CSharp.val_lt_of_isNamePart (CSharp.isNamePart_of_isNameStart hName)
  · intro hAscii
    rwa [CSharp.isIdentifierStart, if_pos hAscii] at h

theorem isWord_of_isIdentifierPart (h : CSharp.isIdentifierPart c)
    (hWord : CSharp.identifierExtendPoints.covers c → isWord c) : isWord c := by
  by_cases hStart : CSharp.isIdentifierStart c
  · exact CSharp.isWord_of_isIdentifierStart hStart
  · unfold CSharp.isIdentifierPart at h
    split at h
    · next hAscii => rwa [isWord, if_pos hAscii]
    · next hAscii =>
      rw [CSharp.isIdentifierStart, if_neg hAscii] at hStart
      exact hWord ((Bool.or_eq_true_iff.1 h).resolve_left hStart)

theorem isVariableName_append {sigil rest : Text} {start : Char}
    (hSigil : sigil = [] ∨ sigil = ['@']) (hStart : CSharp.isIdentifierStart start) :
    isVariableName (sigil ++ start :: rest) ↔ CSharp.isNameStart start ∧ ∀ c ∈ rest, isWord c := by
  rw [← List.all_eq_true, ← Bool.and_eq_true]
  rcases hSigil with rfl | rfl
  · rw [List.nil_append, isVariableName.eq_2]
    · rfl
    · exact fun d _ hSigil => absurd hSigil (CSharp.ne_at_of_isIdentifierStart hStart)
  · rfl

theorem isVariableName_iff (h : CSharp.IsIdentifier name) :
    isVariableName name ↔ ¬ IsForeign name := by
  obtain ⟨sigil, start, rest, rfl, hSigil, hStart, hRest⟩ := h
  have hFind : (sigil ++ start :: rest).find? (· ≠ '@') = some start := by
    rcases hSigil with rfl | rfl <;> simp [CSharp.ne_at_of_isIdentifierStart hStart]
  have hSigilPart {c : Char} (hc : c ∈ sigil) : CSharp.identifierExtendPoints.covers c = false := by
    rcases hSigil with rfl | rfl
    · cases hc
    · rw [List.mem_singleton.1 hc]
      decide +kernel
  rw [isVariableName_append hSigil hStart, isNameStart_iff hStart, IsForeign, hFind, not_or]
  refine and_congr (by simp) ⟨?_, fun hNone c hc => ?_⟩
  · rintro hWord ⟨c, hc, hExtend, hNot⟩
    rcases List.mem_append.1 hc with hc | hc
    · rw [hSigilPart hc] at hExtend
      cases hExtend
    · rcases List.mem_cons.1 hc with rfl | hc
      · rw [CSharp.isWord_of_isIdentifierStart hStart] at hNot
        cases hNot
      · rw [hWord c hc] at hNot
        cases hNot
  · refine isWord_of_isIdentifierPart (hRest c hc) fun hExtend => ?_
    by_contra hNot
    exact hNone ⟨c, by simp [hc], hExtend, by simpa using hNot⟩

/-- A declared variable that a header takes for a name is kept, and any other is replaced by the
default one with a warning. -/
theorem readIn_of_declares (hDeclares : Declares header name)
    (hRead : (readIn header loop).result = .ok h) :
    readIn header loop =
      if isVariableName name then .ok ⟨name, h.iterable, true⟩
      else (Noted.ok ⟨defaultVariable, h.iterable, false⟩).noting
        (.undeclared defaultVariable (if loop = [] then header else loop)) := by
  obtain ⟨hLast, hTwo, -⟩ := hDeclares
  obtain ⟨l, hl⟩ := List.getLast?_eq_some_iff.1 hLast
  have hl₀ : l ≠ [] := by
    rintro rfl
    simp [hl] at hTwo
  obtain ⟨hVariable, hIterable⟩ := eq_of_read hRead
  have hParse : (parse header).1 =
      if isVariableName name then (name, true) else (defaultVariable, false) := by
    have := variableOf_concat l name
    rwa [← hl, decide_eq_true hl₀] at this
  rw [readIn]
  split at hParse
  · next hName =>
    rw [read_of_parse (h := ⟨name, h.iterable, true⟩) (Prod.ext hParse hIterable), if_pos hName]
    rfl
  · next hName =>
    rw [read_of_parse (h := ⟨defaultVariable, h.iterable, false⟩) (Prod.ext hParse hIterable),
      if_neg hName]
    rfl

/-- A header keeps what it declares exactly if it is refused or the name is not foreign. -/
theorem keepsDeclared_iff (header loop : Text) : KeepsDeclared header loop ↔
    ∀ name, Declares header name → (readIn header loop).result.isOk → ¬ IsForeign name := by
  constructor
  · intro hKeeps name hDeclares hOk
    obtain ⟨h, hRead⟩ := Outcome.isOk_iff.1 hOk
    obtain ⟨-, hDeclared, hQuiet⟩ := hKeeps name h hDeclares hRead
    rw [← isVariableName_iff hDeclares.identifier]
    by_contra hName
    rw [readIn_of_declares hDeclares hRead, if_neg hName] at hQuiet
    cases hQuiet
  · intro hNone name h hDeclares hRead
    have hName := (isVariableName_iff hDeclares.identifier).2
      (hNone name hDeclares (Outcome.isOk_iff.2 ⟨h, hRead⟩))
    have hEq := readIn_of_declares hDeclares hRead
    rw [if_pos hName] at hEq
    rw [hEq] at hRead ⊢
    have hKept := (Except.ok.inj hRead).symm
    exact ⟨congrArg LoopHeader.name hKept, congrArg LoopHeader.declared hKept, rfl⟩

/-- A variable with an accented first letter. The header declares it, and the loop has the default
variable instead, with the warning that there is no declaration. -/
theorem not_keepsDeclared_accent :
    let header := "var été in xs)".toList
    Declares header "été".toList ∧
      (readIn header []).result = .ok ⟨defaultVariable, "xs".toList, false⟩ ∧
      (readIn header []).warnings = [Note.undeclaredMessage defaultVariable header] ∧
      ¬ KeepsDeclared header [] := by
  intro header
  have hLexemes : CSharp.lexemes header =
      ["var", " ", "été", " ", "in", " ", "xs", ")"].map String.toList := by decide +kernel
  have hBefore : declaration (splitAtIn (CSharp.lexemes header)).1 =
      ["var".toList, "été".toList] := by
    rw [hLexemes]
    decide +kernel
  have hParse : parse header = ((defaultVariable, false), .ok "xs".toList) := by
    rw [parse, hLexemes]
    decide +kernel
  have hRead : readIn header [] =
      ⟨[.undeclared defaultVariable header], .ok ⟨defaultVariable, "xs".toList, false⟩⟩ :=
    read_of_parse (h := ⟨defaultVariable, "xs".toList, false⟩) hParse
  have hDeclares : Declares header "été".toList :=
    ⟨by rw [hBefore]; rfl, by rw [hBefore]; decide, CSharp.isIdentifier_iff.2 (by decide +kernel)⟩
  have hResult : (readIn header []).result = .ok ⟨defaultVariable, "xs".toList, false⟩ :=
    congrArg Noted.result hRead
  refine ⟨hDeclares, hResult, congrArg Noted.warnings hRead, fun hKeeps => ?_⟩
  obtain ⟨hName, -⟩ := hKeeps _ _ hDeclares hResult
  revert hName
  decide

end RazorVash.LoopHeader
